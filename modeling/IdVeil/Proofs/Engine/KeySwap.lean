import IdVeil.Proofs.Engine.EightByteFormat

/-!
Version bytes that are replaced. The key id is not bound to the block of an eight-byte envelope, so
a version byte in the place of another may name another key that is held. That is found, unless the
block holds the same reference under the other key (`swapped_version_iff`). So it does under a key
with the same bytes, which a ring may have under two ids (`swapped_version_opened`).
-/
namespace IdVeil

namespace EightByte

theorem tail_format (randomized : Bool) (key : SecretKey) (r value : Bytes) :
    (format randomized key r value).tail = r.sent randomized ++ ciphertext key r value := rfl

theorem length_format {randomized : Bool} {key : SecretKey} {r value : Bytes}
    (hr : r.IsEntropy randomized 8) :
    (format randomized key r value).length = Engine.envelopeLength ⟨.eightByte, randomized⟩ := by
  rw [format, List.length_append, List.length_cons, hr.length_sent]
  cases randomized with
  | true => rfl
  | false => rfl

theorem headD_format (randomized : Bool) (key : SecretKey) (r value : Bytes) :
    (format randomized key r value).headD 0 =
      Version.byte key.id 0 ((ciphertext key r value).headD 0) := rfl

/-- The part of the reference that is sent tells the whole of it. -/
theorem eq_of_sent_eq {randomized : Bool} {r r' : Bytes} (hr : r.IsEntropy randomized 8)
    (hr' : r'.IsEntropy randomized 8) (same : r.sent randomized = r'.sent randomized) : r = r' := by
  rw [← hr.padTo_sent, same, hr'.padTo_sent]

section

variable {key key' : SecretKey} (same : key.bytes = key'.bytes)
include same

/-- A block does not depend on the id of its key. -/
theorem ciphertext_congr (r value : Bytes) : ciphertext key r value = ciphertext key' r value := by
  rw [ciphertext, ciphertext, same]

theorem tail_format_congr (randomized : Bool) (r value : Bytes) :
    (format randomized key r value).tail = (format randomized key' r value).tail := by
  rw [tail_format, tail_format, ciphertext_congr same]

theorem headD_format_ne (different : key.id ≠ key'.id) (randomized : Bool) (r value : Bytes) :
    (format randomized key r value).headD 0 ≠ (format randomized key' r value).headD 0 := by
  rw [headD_format, headD_format, ciphertext_congr same]
  intro heads
  have ids := congrArg (Version.keyId · ((ciphertext key' r value).headD 0)) heads
  exact different (by simpa using ids)

end

end EightByte

namespace KeyedEngine

variable {randomized : Bool} {k : KeyedEngine} {s : Store}

theorem Reached.eq_format_of_mask (reached : Reached ⟨.eightByte, randomized⟩ k s) {noise : Noise}
    {value env : Bytes} (made : (k.mask s noise value).result = .ok env) :
    ∃ key, (s.ring k.ring).active? = some key ∧ value.length = 8 ∧
      env = EightByte.format randomized key (noise.draw randomized 8) value := by
  obtain ⟨key, active, hv, rfl⟩ := reached.exists_of_mask made
  exact ⟨key, active, hv, EightByte.envelope_take noise⟩

/-- What an envelope with another version byte is opened to stands in its block, beside the same
reference, under a key that is held and is not the active one. -/
theorem Reached.unmask_swapped_iff (reached : Reached ⟨.eightByte, randomized⟩ k s)
    {active : SecretKey} (isActive : (s.ring k.ring).active? = some active) {r : Bytes}
    (drawn : r.IsEntropy randomized 8) {value : Bytes} {b : UInt8}
    (other : b ≠ (EightByte.format randomized active r value).headD 0) (value' : Bytes) :
    (k.unmask s (b :: (EightByte.format randomized active r value).tail)).result = .ok value' ↔
      ∃ key, (s.ring k.ring).find? key.id = some key ∧ key.id ≠ (s.ring k.ring).activeId ∧
        value'.length = 8 ∧ b :: (EightByte.format randomized active r value).tail =
          EightByte.format randomized key r value' := by
  rw [reached.unmask_eightByte_iff]
  constructor
  · rintro ⟨key, r', held, hr, hv', same⟩
    rw [EightByte.tail_format, ← List.cons_append] at same
    obtain ⟨version, sent, block⟩ := EightByte.format_eq_parts rfl same
    obtain rfl := EightByte.eq_of_sent_eq drawn hr sent
    refine ⟨key, held, ?_, hv', same⟩
    intro named
    rw [← (KeyRing.active?_eq_some_iff.mp isActive).1] at named
    apply other
    rw [version, named, EightByte.headD_format]
  · rintro ⟨key, held, _, hv', same⟩
    exact ⟨key, r, held, drawn, hv', same⟩

/-- A replaced version byte is found, unless the block holds the same reference under another key
that is held. Under a key with the bytes of the active key it does, and the value is recovered. -/
theorem swapped_version_iff (randomized : Bool) {k k' : KeyedEngine} {s : Store}
    (reached : Reached ⟨.eightByte, randomized⟩ k s)
    (reached' : Reached ⟨.eightByte, randomized⟩ k' s) (oneRing : k'.ring = k.ring)
    {noise : Noise} {value env : Bytes} (made : (k.mask s noise value).result = .ok env) :
    (∀ b, b ≠ env.headD 0 →
      ((∃ reason, (k'.unmask s (b :: env.tail)).result = .error (.authentication reason)) ↔
        ¬ ∃ key value', (s.ring k.ring).find? key.id = some key ∧
          key.id ≠ (s.ring k.ring).activeId ∧ value'.length = 8 ∧
          b :: env.tail = EightByte.format randomized key (noise.draw randomized 8) value')) ∧
    ∀ active key, (s.ring k.ring).active? = some active → (s.ring k.ring).find? key.id = some key →
      key.id ≠ active.id → key.bytes = active.bytes →
      ∃ b, b ≠ env.headD 0 ∧ (k'.unmask s (b :: env.tail)).result = .ok value := by
  have drawn := noise.isEntropy_draw randomized 8
  obtain ⟨first, isActive, hv, rfl⟩ := reached.eq_format_of_mask made
  rw [← oneRing] at isActive ⊢
  constructor
  · intro b other
    have opened := reached'.unmask_swapped_iff isActive drawn other
    have length : (b :: (EightByte.format randomized first (noise.draw randomized 8)
        value).tail).length = Engine.envelopeLength ⟨.eightByte, randomized⟩ :=
      EightByte.length_format drawn
    have answer := reached'.unmask_eq
      (b :: (EightByte.format randomized first (noise.draw randomized 8) value).tail)
    rw [answer] at opened ⊢
    constructor
    · rintro ⟨reason, rejected⟩ ⟨key, value', fits⟩
      have answered := (opened value').mpr ⟨key, fits⟩
      rw [rejected] at answered
      contradiction
    · intro none
      obtain ⟨value', answered⟩ | rejected := Engine.answer_eq_ok_or_rejected length
        ((s.ring k'.ring).find? (Engine.namedKey ⟨.eightByte, randomized⟩ _))
      · obtain ⟨key, fits⟩ := (opened value').mp answered
        exact absurd ⟨key, value', fits⟩ none
      · exact rejected
  · intro active key active? held different same
    rw [isActive] at active?
    obtain rfl := Option.some.inj active?
    have other := EightByte.headD_format_ne same different randomized (noise.draw randomized 8) value
    have tail := EightByte.tail_format_congr same randomized (noise.draw randomized 8) value
    refine ⟨_, other, (reached'.unmask_swapped_iff isActive drawn other _).mpr
      ⟨key, held, ?_, hv, ?_⟩⟩
    · rw [(KeyRing.active?_eq_some_iff.mp isActive).1] at different
      exact different
    · rw [← tail]
      rfl

/-- The older key under another id. -/
def twinKey : SecretKey := { olderKey with id := 1 }

def twins : KeyRing where
  activeId := 0
  keys := [olderKey, twinKey]
  distinct := by decide
  active_mem := by decide

def sampleTwins : Store := { rings := [twins] }

/-- What is made of zeros under the older key. -/
def twinBlock : Bytes :=
  [0x2a, 0x6d, 0xba, 0x41, 0x0f, 0x67, 0xbe, 0x98, 0x53, 0x5c, 0x3d, 0x9b, 0x57, 0xc3, 0x6d, 0x38]

def maskedZeros (s : Store) : Outcome KeyedEngine Bytes :=
  (sampleEngine 0).mask s (fun _ => 0) (Bytes.zeros 8)

theorem maskedZeros_result : (maskedZeros sampleRings).result = .ok (0x2a :: twinBlock) ∧
    (maskedZeros sampleTwins).result = .ok (0x2a :: twinBlock) := by
  decide +kernel

/-- A key that stands alone finds every other version byte, and twins do not. -/
theorem swapped_version_sample :
    Reached ⟨.eightByte, false⟩ (maskedZeros sampleRings).state sampleRings ∧
      Reached ⟨.eightByte, false⟩ (maskedZeros sampleTwins).state sampleTwins ∧
      (∃ reason, ((maskedZeros sampleRings).state.unmask sampleRings (0x3a :: twinBlock)).result =
        .error (.authentication reason)) ∧
      ∃ b, b ≠ 0x2a ∧ ((maskedZeros sampleTwins).state.unmask sampleTwins (b :: twinBlock)).result =
        .ok (Bytes.zeros 8) := by
  have new (s : Store) : Reached ⟨.eightByte, false⟩ (sampleEngine 0) s := .new 0 s
  have used (s : Store) : Reached ⟨.eightByte, false⟩ (maskedZeros s).state s := (new s).mask _ _
  obtain ⟨found, _⟩ := swapped_version_iff false (new _) (used _) rfl maskedZeros_result.1
  obtain ⟨_, missed⟩ := swapped_version_iff false (new _) (used _) rfl maskedZeros_result.2
  refine ⟨used _, used _, (found 0x3a (by decide)).mpr ?_, ?_⟩
  · rintro ⟨key, _, held, different, _⟩
    exact different (List.mem_singleton.mp (List.mem_of_find?_eq_some held) ▸ rfl)
  · exact missed olderKey twinKey rfl rfl (by decide) rfl

/-- A ring may hold the same bytes under two ids, and then an envelope with the id of the twin is
opened. -/
theorem swapped_version_opened :
    SecretKey.ofBytes 0 olderKey.bytes = .ok olderKey ∧
      SecretKey.ofBytes 1 olderKey.bytes = .ok twinKey ∧
      KeyRing.ofKeys olderKey [twinKey] = .ok twins ∧
      (maskedZeros sampleTwins).result = .ok (0x2a :: twinBlock) ∧
      ((maskedZeros sampleTwins).state.unmask sampleTwins (0x3a :: twinBlock)).result =
        .ok (Bytes.zeros 8) := by
  refine ⟨rfl, rfl, rfl, maskedZeros_result.2, ?_⟩
  decide +kernel

end KeyedEngine

end IdVeil
