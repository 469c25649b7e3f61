import IdVeil.Proofs.Engine.Rotation

/-!
Envelopes of other engines. The place of the first byte of a body depends on the entropy before it,
and SIV engines veil it. So an engine that is given an envelope of another sees the ids that were
put there with some bits turned over (`drift`), and tells it from its own unless just the bits in
which the engine ids differ are turned over (`unmask_foreign`).
-/
namespace IdVeil

namespace Engine

/-- The place of the first byte of the body in an envelope. -/
def place (e : Engine) : Nat := 1 + e.entropyLength

/-- The two ids of an envelope as the engine sees them, in the two halves of a byte. -/
def sight (e : Engine) (env : Bytes) : UInt8 := e.versionIn env ^^^ (e.bodyIn env).headD 0

/-- What the keystream does to the two ids. -/
def tint (e : Engine) : UInt8 := e.keystream.getD 0 0 ^^^ e.keystream.getD e.place 0

/-- The bits of the two ids that one engine sees turned over where another has put them. -/
def drift (a b : Engine) (env : Bytes) : UInt8 :=
  (env.getD a.place 0 ^^^ env.getD b.place 0) ^^^ (a.tint ^^^ b.tint)

variable {a b e : Engine} {env : Bytes}

theorem place_lt (e : Engine) : e.place < e.envelopeLength := by
  have positive := e.scheme.bodyLength_pos
  rw [place, envelopeLength]
  omega

theorem sight_eq (length : env.length = e.envelopeLength) :
    e.sight env = env.getD 0 0 ^^^ env.getD e.place 0 ^^^ e.tint := by
  have inside : e.place < env.length := length ▸ e.place_lt
  have front : 0 < env.length := Nat.zero_lt_of_lt inside
  rw [sight, versionIn_eq_getD, headD_bodyIn, veil, Bytes.getD_xorFront _ front, ← place,
    Bytes.getD_xorFront _ inside, tint]
  ac_rfl

theorem sight_drift (ha : env.length = a.envelopeLength) (hb : env.length = b.envelopeLength) :
    b.sight env = a.sight env ^^^ drift a b env := by
  have cancel (x y z u v : UInt8) : x ^^^ y ^^^ z ^^^ (y ^^^ u ^^^ (z ^^^ v)) = x ^^^ u ^^^ v := by
    calc x ^^^ y ^^^ z ^^^ (y ^^^ u ^^^ (z ^^^ v))
        = (y ^^^ y) ^^^ (z ^^^ z) ^^^ (x ^^^ u ^^^ v) := by ac_rfl
      _ = x ^^^ u ^^^ v := by simp only [UInt8.xor_self, UInt8.zero_xor]
  rw [sight_eq ha, sight_eq hb, drift, cancel]

/-- Without entropy only the keystreams count, so all envelopes fare alike. -/
theorem drift_of_not_randomized (ha : a.randomized = false) (hb : b.randomized = false)
    (env : Bytes) : drift a b env = a.tint ^^^ b.tint := by
  have place : a.place = b.place := by
    rw [Engine.place, Engine.place, entropyLength_of_not_randomized ha,
      entropyLength_of_not_randomized hb]
  rw [drift, place, UInt8.xor_self, UInt8.zero_xor]

theorem toNat_sight_envelope {key : SecretKey} {entropy : Bytes} (value : Bytes)
    (he : entropy.length = e.entropyLength) :
    (e.sight (e.envelope key entropy value)).toNat = 16 * key.id.val + e.engineId.val := by
  rw [sight, versionIn_envelope he, Version.toNat_encode_xor]

section

variable {key : SecretKey} {entropy value : Bytes} (he : entropy.length = a.entropyLength)
  (hv : value.length = a.valueLength)
  (length : (a.envelope key entropy value).length = b.envelopeLength)
include he hv length

theorem namedEngine_foreign : (b.namedEngine (a.envelope key entropy value)).val =
    a.engineId.val ^^^ (drift a b (a.envelope key entropy value)).toNat % 16 := by
  have low : (16 * key.id.val + a.engineId.val) % 16 = a.engineId.val := by omega
  calc (b.namedEngine (a.envelope key entropy value)).val
      = (b.sight (a.envelope key entropy value)).toNat % 2 ^ 4 := rfl
    _ = a.engineId.val ^^^ (drift a b (a.envelope key entropy value)).toNat % 16 := by
      rw [sight_drift (length_envelope he hv) length, UInt8.toNat_xor, Nat.xor_mod_two_pow,
        toNat_sight_envelope value he]
      exact congrArg (· ^^^ _) low

theorem namedKey_foreign : (b.namedKey (a.envelope key entropy value)).val =
    key.id.val ^^^ (drift a b (a.envelope key entropy value)).toNat / 16 := by
  have high : (16 * key.id.val + a.engineId.val) / 16 = key.id.val := by omega
  calc (b.namedKey (a.envelope key entropy value)).val
      = (b.sight (a.envelope key entropy value)).toNat / 2 ^ 4 := rfl
    _ = key.id.val ^^^ (drift a b (a.envelope key entropy value)).toNat / 16 := by
      rw [sight_drift (length_envelope he hv) length, UInt8.toNat_xor, Nat.xor_div_two_pow,
        toNat_sight_envelope value he]
      exact congrArg (· ^^^ _) high

end

theorem xor_eq_iff {x y z : Nat} : x ^^^ y = z ↔ y = x ^^^ z := by
  constructor
  · rintro rfl
    rw [← Nat.xor_assoc, Nat.xor_self, Nat.zero_xor]
  · rintro rfl
    rw [← Nat.xor_assoc, Nat.xor_self, Nat.zero_xor]

end Engine

namespace KeyedEngine

/-- What is opened under the record of the key id that the envelope names was written under that
key. -/
theorem Reached.unmask_eq_ok_iff_of_find? {e : Engine} {k : KeyedEngine} {s : Store}
    (reached : Reached e k s) {env value : Bytes} {key : SecretKey}
    (held : (s.ring k.ring).find? (e.namedKey env) = some key) :
    (k.unmask s env).result = .ok value ↔ value.length = e.valueLength ∧
      ∃ entropy : Bytes, entropy.length = e.entropyLength ∧ env = e.envelope key entropy value := by
  rw [reached.unmask_eq_ok_iff]
  constructor
  · rintro ⟨key', entropy, held', he, hv, rfl⟩
    rw [Engine.namedKey_envelope he, held'] at held
    cases held
    exact ⟨hv, entropy, he, rfl⟩
  · rintro ⟨hv, entropy, he, rfl⟩
    rw [Engine.namedKey_envelope he] at held
    exact ⟨key, entropy, held, he, hv, rfl⟩

/-- An envelope of one engine given to another is refused for its length, if that is not the
other's. Otherwise it is told for what it is, unless what the other sees turned over is just what
the engine ids differ in. Then the other takes it for one of its own under a key id that is turned
over too, and opens it only if it would have written the same. Where there is no entropy what is
turned over is up to the keystreams alone. -/
theorem unmask_foreign (a b : Engine) {k k' : KeyedEngine} {s s' : Store} (made : Reached a k s)
    (read : Reached b k' s') {noise : Noise} {value env : Bytes}
    (masked : (k.mask s noise value).result = .ok env) :
    (env.length ≠ b.envelopeLength →
      (k'.unmask s' env).result = .error (.inputLength b.envelopeLength env.length)) ∧
    (env.length = b.envelopeLength →
      ((k'.unmask s' env).result = .error (.authentication .unknownEngine) ↔
        (Engine.drift a b env).toNat % 16 ≠ a.engineId.val ^^^ b.engineId.val)) ∧
    (env.length = b.envelopeLength →
      (Engine.drift a b env).toNat % 16 = a.engineId.val ^^^ b.engineId.val →
      ∃ (key : SecretKey) (id : Nibble), (s.ring k.ring).active? = some key ∧
        id.val = key.id.val ^^^ (Engine.drift a b env).toNat / 16 ∧
        ((s'.ring k'.ring).find? id = none →
          (k'.unmask s' env).result = .error (.authentication .unknownKey)) ∧
        ∀ key', (s'.ring k'.ring).find? id = some key' →
          ((k'.unmask s' env).result = .error (.authentication .mismatch) ∨
            ∃ value', (k'.unmask s' env).result = .ok value') ∧
          ∀ value', (k'.unmask s' env).result = .ok value' ↔ value'.length = b.valueLength ∧
            ∃ entropy : Bytes, entropy.length = b.entropyLength ∧
              env = b.envelope key' entropy value') ∧
    (a.randomized = false → b.randomized = false →
      Engine.drift a b env = a.tint ^^^ b.tint) := by
  obtain ⟨key, active, hv, rfl⟩ := made.exists_of_mask masked
  have he : (noise.take a.entropyLength).length = a.entropyLength := Noise.length_take _ _
  refine ⟨?_, ?_, ?_, fun ha hb => Engine.drift_of_not_randomized ha hb _⟩
  · intro other
    rw [read.unmask_eq]
    exact Engine.answer_of_length_ne other _
  · intro same
    have seen := Engine.namedEngine_foreign he hv same
    rw [read.unmask_eq, Engine.answer_eq_unknownEngine_iff same, ne_eq, ne_eq,
      ← Engine.xor_eq_iff, ← seen, Fin.val_inj]
  · intro same unlucky
    have seen := Engine.namedEngine_foreign he hv same
    have own : b.namedEngine (a.envelope key _ value) = b.engineId :=
      Fin.ext (seen.trans (Engine.xor_eq_iff.mpr unlucky))
    refine ⟨key, _, active, Engine.namedKey_foreign he hv same, ?_, ?_⟩
    · intro missing
      rw [read.unmask_eq, Engine.answer_eq_unknownKey_iff same]
      exact ⟨own, missing⟩
    · intro key' held
      refine ⟨?_, fun value' => read.unmask_eq_ok_iff_of_find? held⟩
      rw [read.unmask_eq]
      obtain ⟨foreign, _⟩ | ⟨_, missing, _⟩ | ⟨_, _, answer⟩ := Engine.answer_cases same
        ((s'.ring k'.ring).find? (b.namedKey (a.envelope key _ value)))
      · exact absurd own foreign
      · exact absurd (held.symm.trans missing) (Option.some_ne_none key')
      · exact answer

def sampleBlock : KeyedEngine := { engine := ⟨.sixteenByte false, false⟩, ring := 0 }

def sampleSiv (obfuscation : FixedBytes 8) : KeyedEngine :=
  { engine := ⟨.siv .int8 obfuscation, false⟩, ring := 0 }

def plainObfuscation : FixedBytes 8 := .zeros 8

def unluckyObfuscation : FixedBytes 8 := ⟨[0, 0, 0, 0, 0, 0, 0x02, 0x2d], rfl⟩

/-- The envelopes of both engines are 25 bytes long. -/
theorem unmask_foreign_sample :
    ∃ env, (sampleBlock.mask sampleRings (fun _ => 0) (Bytes.zeros 16)).result = .ok env ∧
      ((sampleSiv plainObfuscation).unmask sampleRings env).result =
        .error (.authentication .unknownEngine) := by
  have block : Reached ⟨.sixteenByte false, false⟩ sampleBlock sampleRings := .new 0 sampleRings
  have siv : Reached ⟨.siv .int8 plainObfuscation, false⟩ (sampleSiv plainObfuscation) sampleRings :=
    .new 0 sampleRings
  have made : (sampleBlock.mask sampleRings (fun _ => 0) (Bytes.zeros 16)).result =
      .ok (Engine.envelope ⟨.sixteenByte false, false⟩ olderKey [] (Bytes.zeros 16)) :=
    (Engine.mask_eq_ok_iff block.sound).mpr ⟨olderKey, rfl, rfl, rfl⟩
  have length : (Engine.envelope ⟨.sixteenByte false, false⟩ olderKey [] (Bytes.zeros 16)).length =
      25 := Engine.length_envelope rfl rfl
  obtain ⟨_, told, _, drift⟩ := unmask_foreign _ _ block siv made
  refine ⟨_, made, (told length).mpr ?_⟩
  rw [drift rfl rfl]
  decide +kernel

def blockEnvelope : Bytes :=
  [0x85, 0x84, 0x06, 0xa7, 0xc4, 0x64, 0x53, 0x36, 0xd2, 0xc8, 0xbf, 0x9f, 0x5c, 0x58, 0x13, 0x90,
    0xc1, 0x53, 0x76, 0x9e, 0x31, 0x32, 0x89, 0x66, 0x9e]

/-- Under an unlucky obfuscation key an engine takes the envelope of another for one of its own. -/
theorem unmask_foreign_mismatch :
    (sampleBlock.mask sampleRings (fun _ => 0) (Bytes.zeros 16)).result = .ok blockEnvelope ∧
      sampleBlock.engine.engineId ≠ (sampleSiv unluckyObfuscation).engine.engineId ∧
      blockEnvelope.length = (sampleSiv unluckyObfuscation).engine.envelopeLength ∧
      ((sampleSiv unluckyObfuscation).unmask sampleRings blockEnvelope).result =
        .error (.authentication .mismatch) := by
  refine ⟨?_, by decide, by decide, ?_⟩
  · decide +kernel
  · decide +kernel

end KeyedEngine

end IdVeil
