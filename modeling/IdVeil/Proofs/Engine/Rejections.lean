import IdVeil.Proofs.Engine.Rotation

/-!
How envelopes are rejected. An engine looks at the length of an envelope, at the id of an engine and
the id of a key that it names, and then at its content, and what it answers is the first thing that
is wrong (`unmask_rejections`). That holds whatever was derived before and whatever was cleared. A
rejection is logged once, with the reason that is answered, and nothing else is logged
(`unmask_events`).
-/
namespace IdVeil

namespace Version

/-- The high half of the byte in which the two ids are. -/
theorem nibble?_shiftRight (version first : UInt8) :
    nibble? ((version ^^^ first) >>> 4) = some (keyId version first) := by
  have high : ((version ^^^ first) >>> 4).toNat = (version ^^^ first).toNat / 16 := by
    rw [UInt8.toNat_shiftRight, Nat.shiftRight_eq_div_pow]
    rfl
  have small : ((version ^^^ first) >>> 4).toNat < 16 := by
    have := (version ^^^ first).toNat_lt
    omega
  rw [nibble?, dif_pos small]
  exact congrArg some (Fin.ext high)

/-- The low half. -/
theorem and_eq_engineId (version first : UInt8) :
    (version ^^^ first) &&& 0x0f = UInt8.ofNat (engineId version first).val := by
  have low : (version ^^^ first).toNat &&& 15 = (version ^^^ first).toNat % 16 :=
    Nat.and_two_pow_sub_one_eq_mod _ 4
  apply UInt8.toNat_inj.mp
  rw [UInt8.toNat_and, UInt8.toNat_ofNat']
  change (version ^^^ first).toNat &&& 15 = (version ^^^ first).toNat % 16 % 256
  omega

end Version

/-- The events that go with a result: one for a rejection, and none for anything else. -/
def Outcome.logOf {α : Type} : Except Error α → List Event
  | .error (.authentication reason) => [.envelopeRejected reason]
  | _ => []

namespace Engine

variable {e : Engine} {ring : KeyRing} {memo : Memo Bytes}

theorem unmask_events (env : Bytes) :
    (e.unmask ring memo env).events = Outcome.logOf (e.unmask ring memo env).result := by
  rw [unmask_eq]
  split
  · rfl
  · split
    · rfl
    · split
      · rfl
      · split
        all_goals rfl

/-- The byte that holds the two ids: the version byte and the first byte of the body, one over the
other, once the veil is taken off. -/
def idsIn (e : Engine) (env : Bytes) : UInt8 :=
  (e.veil env).getD 0 0 ^^^ (e.veil env).getD (1 + e.entropyLength) 0

theorem namedEngine_eq_iff (env : Bytes) :
    e.namedEngine env = e.engineId ↔ e.idsIn env &&& 0x0f = UInt8.ofNat e.engineId.val := by
  have injective : ∀ a b : Nibble, UInt8.ofNat a.val = UInt8.ofNat b.val ↔ a = b := by decide
  rw [idsIn, ← versionIn_eq_getD, ← headD_bodyIn, Version.and_eq_engineId, injective]
  rfl

theorem find?_namedKey (ring : KeyRing) (env : Bytes) :
    ring.find? (e.namedKey env) = ring.findByte? (e.idsIn env >>> 4) := by
  rw [KeyRing.findByte?, idsIn, ← versionIn_eq_getD, ← headD_bodyIn, Version.nibble?_shiftRight]
  rfl

end Engine

namespace KeyedEngine

/-- The length comes first, then the engine id, then the key id, and the content last. Each
rejection is logged once, with its reason. -/
theorem unmask_rejections (e : Engine) {k : KeyedEngine} {s : Store} (reached : Reached e k s)
    (env : Bytes) :
    (env.length ≠ e.envelopeLength →
      (k.unmask s env).result = .error (.inputLength e.envelopeLength env.length)) ∧
    (env.length = e.envelopeLength →
      ((k.unmask s env).result = .error (.authentication .unknownEngine) ↔
        e.idsIn env &&& 0x0f ≠ UInt8.ofNat e.engineId.val) ∧
      ((k.unmask s env).result = .error (.authentication .unknownKey) ↔
        e.idsIn env &&& 0x0f = UInt8.ofNat e.engineId.val ∧
          (s.ring k.ring).findByte? (e.idsIn env >>> 4) = none) ∧
      (e.idsIn env &&& 0x0f = UInt8.ofNat e.engineId.val →
        (s.ring k.ring).findByte? (e.idsIn env >>> 4) ≠ none →
        (k.unmask s env).result = .error (.authentication .mismatch) ∨
          ∃ value, (k.unmask s env).result = .ok value)) ∧
    (k.unmask s env).events = Outcome.logOf (k.unmask s env).result := by
  have engine := Engine.namedEngine_eq_iff (e := e) env
  have record := Engine.find?_namedKey (e := e) (s.ring k.ring) env
  refine ⟨?_, ?_, Engine.unmask_events env⟩
  · intro other
    rw [reached.unmask_eq]
    exact Engine.answer_of_length_ne other _
  · intro length
    rw [reached.unmask_eq, ← record, ne_eq, ← engine]
    refine ⟨Engine.answer_eq_unknownEngine_iff length _, Engine.answer_eq_unknownKey_iff length _, ?_⟩
    intro own held
    obtain ⟨foreign, _⟩ | ⟨_, missing, _⟩ | ⟨_, _, answer⟩ := Engine.answer_cases length
      ((s.ring k.ring).find? (e.namedKey env))
    · exact absurd own foreign
    · exact absurd missing held
    · exact answer

/-- An envelope of the right length that names these ids and holds nothing. -/
def sampleNaming (ids : UInt8) : Bytes := ids :: Bytes.zeros 16

/-- An engine that has derived something from a key before the key is cleared. -/
def sampleStale : KeyedEngine := ((sampleEngine 0).mask sampleRings (fun _ => 0) (Bytes.zeros 8)).state

/-- Where both ids are unknown the engine counts, and a key that is cleared is unknown too. -/
theorem unmask_rejections_sample :
    Reached ⟨.eightByte, false⟩ sampleStale (sampleRings.clearRing 0).state ∧
      ((sampleEngine 0).unmask sampleRings [1, 2, 3]).result = .error (.inputLength 17 3) ∧
      ((sampleEngine 0).unmask sampleRings (sampleNaming 0x51)).result =
        .error (.authentication .unknownEngine) ∧
      ((sampleEngine 0).unmask sampleRings (sampleNaming 0x50)).result =
        .error (.authentication .unknownKey) ∧
      ((sampleEngine 0).unmask sampleRings (sampleNaming 0x50)).events =
        [.envelopeRejected .unknownKey] ∧
      (sampleStale.unmask (sampleRings.clearRing 0).state (sampleNaming 0x00)).result =
        .error (.authentication .unknownKey) := by
  have reached : Reached ⟨.eightByte, false⟩ (sampleEngine 0) sampleRings := .new 0 sampleRings
  have stale : Reached ⟨.eightByte, false⟩ sampleStale (sampleRings.clearRing 0).state :=
    (reached.mask (fun _ => 0) (Bytes.zeros 8)).clearRing 0
  obtain ⟨short, _, _⟩ := unmask_rejections _ reached [1, 2, 3]
  obtain ⟨_, foreign, _⟩ := unmask_rejections _ reached (sampleNaming 0x51)
  obtain ⟨_, unknown, logged⟩ := unmask_rejections _ reached (sampleNaming 0x50)
  obtain ⟨_, cleared, _⟩ := unmask_rejections _ stale (sampleNaming 0x00)
  have missing := (unknown rfl).2.1.mpr ⟨by decide, by decide⟩
  rw [missing] at logged
  refine ⟨stale, short (by decide), (foreign rfl).1.mpr (by decide), missing, logged, ?_⟩
  exact (cleared rfl).2.1.mpr ⟨by decide, rfl⟩

end KeyedEngine

end IdVeil
