import IdVeil.Proofs.Engine.SivFormat

/-!
The obfuscation key of a SIV engine changes how its envelopes look and nothing else
(`obfuscation_cosmetic`). Two engines that differ in it alone see the same under their keystreams
once one keystream is put in place of the other (`veil_xor_replacement`), and all that an engine
answers it reads from there.
-/
namespace IdVeil

namespace SivScheme

variable {w : SivWidth} {a b : FixedBytes 8}

/-- What puts the keystream of the second obfuscation key in place of that of the first. -/
def replacement (a b : FixedBytes 8) (length : Nat) : Bytes :=
  Bytes.xor (keystream a length) (keystream b length)

@[simp] theorem length_replacement (length : Nat) : (replacement a b length).length = length := by
  simp [replacement]

end SivScheme

namespace Engine

variable {w : SivWidth} {a b : FixedBytes 8} {randomized : Bool}

/-- Under the second keystream the changed envelope is what the first is under its own. -/
theorem veil_xor_replacement {env : Bytes} {length : Nat}
    (own : envelopeLength ⟨.siv w a, randomized⟩ = length) (whole : env.length = length) :
    veil ⟨.siv w b, randomized⟩ (Bytes.xor env (SivScheme.replacement a b length)) =
      veil ⟨.siv w a, randomized⟩ env := by
  have kept : (Bytes.xor env (SivScheme.replacement a b length)).length = length := by simp [whole]
  have own' : envelopeLength ⟨.siv w b, randomized⟩ = length := own
  rw [SivScheme.veil_eq_xor own whole, SivScheme.veil_eq_xor own' kept, Bytes.xor_assoc,
    SivScheme.replacement, Bytes.xor_xor_cancel (by simp)]

theorem veil_eq_xor_replacement {plain : Bytes} {length : Nat}
    (own : envelopeLength ⟨.siv w a, randomized⟩ = length) (whole : plain.length = length) :
    veil ⟨.siv w b, randomized⟩ plain =
      Bytes.xor (veil ⟨.siv w a, randomized⟩ plain) (SivScheme.replacement a b length) := by
  have own' : envelopeLength ⟨.siv w b, randomized⟩ = length := own
  rw [SivScheme.veil_eq_xor own whole, SivScheme.veil_eq_xor own' whole, Bytes.xor_assoc,
    SivScheme.replacement, Bytes.xor_xor_self_left (by simp)]

theorem envelope_replaced {key : SecretKey} {entropy value : Bytes}
    (he : entropy.length = entropyLength ⟨.siv w a, randomized⟩)
    (hv : value.length = w.valueLength) : envelope ⟨.siv w b, randomized⟩ key entropy value =
      Bytes.xor (envelope ⟨.siv w a, randomized⟩ key entropy value)
        (SivScheme.replacement a b (envelopeLength ⟨.siv w a, randomized⟩)) := by
  have length : (envelope ⟨.siv w a, randomized⟩ key entropy value).length =
      envelopeLength ⟨.siv w a, randomized⟩ := length_envelope he hv
  rw [envelope, assemble, length_veil] at length
  exact veil_eq_xor_replacement rfl length

section

variable {env env' : Bytes}
  (plain : veil ⟨.siv w b, randomized⟩ env' = veil ⟨.siv w a, randomized⟩ env)
include plain

theorem namedKey_of_veil_eq :
    namedKey ⟨.siv w b, randomized⟩ env' = namedKey ⟨.siv w a, randomized⟩ env := by
  simp only [namedKey, versionIn, bodyIn, plain]
  rfl

/-- An engine reads its answer from under its keystream. -/
theorem answer_of_veil_eq (length : env'.length = env.length) (key? : Option SecretKey) :
    answer ⟨.siv w b, randomized⟩ env' key? = answer ⟨.siv w a, randomized⟩ env key? := by
  simp only [answer, recoverIn, namedKey, namedEngine, versionIn, entropyIn, bodyIn, plain, length]
  rfl

end

end Engine

namespace KeyedEngine

section

variable {w : SivWidth} {randomized : Bool} {a b : FixedBytes 8} {k k' : KeyedEngine} {s s' : Store}
  (reached : Reached ⟨.siv w a, randomized⟩ k s) (reached' : Reached ⟨.siv w b, randomized⟩ k' s')
  (keys : s.ring k.ring = s'.ring k'.ring)
include reached reached' keys

theorem mask_replaced {noise noise' : Noise} (drawn : noise.take k.engine.entropyLength =
    noise'.take k.engine.entropyLength) (value : Bytes) : (k'.mask s' noise' value).result =
      (k.mask s noise value).result.map
        (Bytes.xor · (SivScheme.replacement a b k.engine.envelopeLength)) := by
  have widths : Engine.valueLength ⟨.siv w b, randomized⟩ =
      Engine.valueLength ⟨.siv w a, randomized⟩ := rfl
  have entropies : Engine.entropyLength ⟨.siv w b, randomized⟩ =
      Engine.entropyLength ⟨.siv w a, randomized⟩ := rfl
  rw [reached.engine_eq] at drawn ⊢
  rw [reached.mask_eq, reached'.mask_eq, keys, widths, entropies, ← drawn]
  split
  · rfl
  · next hv =>
    cases (s'.ring k'.ring).active? with
    | none => rfl
    | some key =>
      have he := Noise.length_take noise (Engine.entropyLength ⟨.siv w a, randomized⟩)
      exact congrArg Except.ok (Engine.envelope_replaced he (not_not.mp hv))

theorem unmask_replaced {env : Bytes} (length : env.length = k.engine.envelopeLength) :
    (k'.unmask s' (Bytes.xor env (SivScheme.replacement a b k.engine.envelopeLength))).result =
      (k.unmask s env).result := by
  rw [reached.engine_eq] at length ⊢
  have plain : Engine.veil ⟨.siv w b, randomized⟩ _ = _ := Engine.veil_xor_replacement rfl length
  have kept : (Bytes.xor env (SivScheme.replacement a b (Engine.envelopeLength
      ⟨.siv w a, randomized⟩))).length = env.length := by simp [length]
  rw [reached.unmask_eq, reached'.unmask_eq, Engine.namedKey_of_veil_eq plain, keys,
    Engine.answer_of_veil_eq plain kept]

end

/-- Two engines that have the same keys, and differ in the obfuscation key only, make envelopes that
differ by both keystreams, one over the other. What one answers to an envelope the other answers to
the envelope with this difference, whether it is authentic or not. -/
theorem obfuscation_cosmetic (w : SivWidth) (randomized : Bool) (a b : FixedBytes 8)
    {k k' : KeyedEngine} {s s' : Store} (reached : Reached ⟨.siv w a, randomized⟩ k s)
    (reached' : Reached ⟨.siv w b, randomized⟩ k' s') (keys : s.ring k.ring = s'.ring k'.ring) :
    (SivScheme.replacement a b k.engine.envelopeLength).length = k.engine.envelopeLength ∧
    (∀ noise noise' value,
      noise.take k.engine.entropyLength = noise'.take k.engine.entropyLength →
      (k'.mask s' noise' value).result = (k.mask s noise value).result.map
          (Bytes.xor · (SivScheme.replacement a b k.engine.envelopeLength)) ∧
        ∀ env env', (k.mask s noise value).result = .ok env →
          (k'.mask s' noise' value).result = .ok env' →
            env.length = k.engine.envelopeLength ∧
              Bytes.xor env env' = SivScheme.replacement a b k.engine.envelopeLength) ∧
    (∀ env, env.length = k.engine.envelopeLength →
      (k'.unmask s' (Bytes.xor env (SivScheme.replacement a b k.engine.envelopeLength))).result =
        (k.unmask s env).result) ∧
    ∀ env, env.length ≠ k.engine.envelopeLength →
      (k.unmask s env).result = .error (.inputLength k.engine.envelopeLength env.length) ∧
        (k'.unmask s' env).result = .error (.inputLength k.engine.envelopeLength env.length) := by
  refine ⟨SivScheme.length_replacement _, ?_, fun env => unmask_replaced reached reached' keys, ?_⟩
  · intro noise noise' value drawn
    have masks := mask_replaced reached reached' keys drawn value
    refine ⟨masks, ?_⟩
    intro env env' made made'
    rw [masks, made] at made'
    cases made'
    have length : env.length = k.engine.envelopeLength := Engine.length_of_mask made
    exact ⟨length, Bytes.xor_xor_self_left (by rw [SivScheme.length_replacement, length])⟩
  · intro env other
    rw [reached.unmask_eq, reached'.unmask_eq, reached.engine_eq]
    rw [reached.engine_eq] at other
    exact ⟨Engine.answer_of_length_ne (e := ⟨.siv w a, randomized⟩) other _,
      Engine.answer_of_length_ne (e := ⟨.siv w b, randomized⟩) other _⟩

def otherObfuscation : FixedBytes 8 := ⟨[1, 2, 3, 4, 5, 6, 7, 8], rfl⟩

def otherSivEngine : KeyedEngine := { engine := ⟨.siv .int8 otherObfuscation, true⟩, ring := 1 }

/-- An envelope of the engine with the first obfuscation key is opened by the other with the
keystream replaced, and so is one that neither opens or is too short for both. -/
theorem obfuscation_cosmetic_sample :
    Reached ⟨.siv .int8 sampleObfuscation, true⟩ sampleSivEngine sampleRings ∧
    Reached ⟨.siv .int8 otherObfuscation, true⟩ otherSivEngine sampleRings ∧
    (otherSivEngine.unmask sampleRings (Bytes.xor
      (Engine.envelope ⟨.siv .int8 sampleObfuscation, true⟩ olderKey (List.replicate 8 7)
        (Bytes.zeros 8))
      (SivScheme.replacement sampleObfuscation otherObfuscation 33))).result =
        .ok (Bytes.zeros 8) ∧
    (otherSivEngine.unmask sampleRings (Bytes.xor (Bytes.zeros 33)
      (SivScheme.replacement sampleObfuscation otherObfuscation 33))).result =
        (sampleSivEngine.unmask sampleRings (Bytes.zeros 33)).result ∧
    (otherSivEngine.unmask sampleRings (Bytes.zeros 3)).result = .error (.inputLength 33 3) := by
  have reached : Reached ⟨.siv .int8 sampleObfuscation, true⟩ sampleSivEngine sampleRings :=
    .new 1 sampleRings
  have reached' : Reached ⟨.siv .int8 otherObfuscation, true⟩ otherSivEngine sampleRings :=
    .new 1 sampleRings
  obtain ⟨_, _, opened, short⟩ :=
    obfuscation_cosmetic .int8 true sampleObfuscation otherObfuscation reached reached' rfl
  refine ⟨reached, reached', (opened _ ?_).trans ?_, opened (Bytes.zeros 33) rfl,
    (short (Bytes.zeros 3) (by decide)).2⟩
  · exact Engine.length_envelope rfl rfl
  · exact reached.unmask_eq_ok_iff.mpr ⟨olderKey, List.replicate 8 7, rfl, rfl, rfl, rfl⟩

end KeyedEngine

end IdVeil
