import IdVeil.Proofs.Engine.Schemes
import IdVeil.Proofs.Key.Memo

/-!
What an engine makes and what it opens. It opens exactly the envelopes of values of its length
under keys of the ring (`unmask_eq_ok_iff`), and what it makes is one of them. None of this
depends on what the engine derived earlier, as long as that belongs to the keys of the ring.
-/
namespace IdVeil.Engine

variable {e : Engine} {ring : KeyRing} {memo : Memo Bytes}

@[simp] theorem length_veil (envelope : Bytes) : (e.veil envelope).length = envelope.length :=
  Bytes.length_xorFront _ _

@[simp] theorem veil_veil (envelope : Bytes) : e.veil (e.veil envelope) = envelope :=
  Bytes.xorFront_xorFront _ _

theorem length_assemble {key : Nibble} {material entropy value : Bytes}
    (he : entropy.length = e.entropyLength) (hv : value.length = e.valueLength) :
    (e.assemble key material entropy value).length = e.envelopeLength := by
  have body : (e.scheme.body material key entropy value).length = e.scheme.bodyLength :=
    Scheme.length_body hv
  rw [assemble, length_veil, List.cons_append, List.length_cons, List.length_append, he,
    body, envelopeLength]
  omega

@[simp] theorem length_envelope {key : SecretKey} {entropy value : Bytes}
    (he : entropy.length = e.entropyLength) (hv : value.length = e.valueLength) :
    (e.envelope key entropy value).length = e.envelopeLength := length_assemble he hv

/-- All envelopes are equally long, whatever was derived before. -/
theorem length_of_mask {noise : Noise} {value env : Bytes}
    (made : (e.mask ring memo noise value).result = .ok env) : env.length = e.envelopeLength := by
  unfold mask at made
  split at made
  · contradiction
  · next hv =>
    split at made
    · contradiction
    · cases made
      exact length_assemble (Noise.length_take noise _) (Decidable.not_not.mp hv)

theorem entropyLength_le (e : Engine) : e.entropyLength ≤ e.scheme.entropyLength := by
  rw [entropyLength]
  split
  · exact Nat.le_refl _
  · exact Nat.zero_le _

/-- Envelopes are short enough for one keystream, and shorter than tokens may be. -/
theorem envelopeLength_lt (e : Engine) : e.envelopeLength < 256 := by
  have most := e.scheme.lengths_lt
  have drawn := e.entropyLength_le
  rw [envelopeLength]
  omega

theorem entropyLength_of_not_randomized (h : e.randomized = false) : e.entropyLength = 0 := by
  rw [entropyLength, h]
  rfl

theorem mask_result (sound : memo.Sound e.scheme.derive ring) (noise : Noise) (value : Bytes) :
    (e.mask ring memo noise value).result =
      if value.length ≠ e.valueLength then .error (.inputLength e.valueLength value.length)
      else match ring.active? with
        | some key => .ok (e.envelope key (noise.take e.entropyLength) value)
        | none => .error .noActiveKey := by
  have looked := sound.active_fst
  unfold mask
  split
  · rfl
  · generalize memo.active e.scheme.derive ring = given at looked
    obtain ⟨answer, memo'⟩ := given
    simp only at looked
    rw [looked]
    cases ring.active? with
    | some key => rfl
    | none => rfl

theorem mask_state (sound : memo.Sound e.scheme.derive ring) (noise : Noise) (value : Bytes) :
    (e.mask ring memo noise value).state.Sound e.scheme.derive ring := by
  have kept := sound.active_snd
  unfold mask
  split
  · exact sound
  · split
    all_goals
      rename_i given
      rw [given] at kept
      exact kept

theorem mask_eq_ok_iff (sound : memo.Sound e.scheme.derive ring) {noise : Noise}
    {value env : Bytes} : (e.mask ring memo noise value).result = .ok env ↔
      ∃ key, ring.active? = some key ∧ value.length = e.valueLength ∧
        env = e.envelope key (noise.take e.entropyLength) value := by
  rw [mask_result sound]
  by_cases length : value.length = e.valueLength
  · rw [if_neg (not_not_intro length)]
    cases ring.active? with
    | some key =>
      constructor
      · intro h
        cases h
        exact ⟨key, rfl, length, rfl⟩
      · rintro ⟨key', active, _, rfl⟩
        cases active
        rfl
    | none =>
      constructor
      · intro h
        contradiction
      · rintro ⟨key, active, _⟩
        contradiction
  · rw [if_pos length]
    constructor
    · intro h
      contradiction
    · rintro ⟨key, _, same, _⟩
      contradiction

theorem mask_noise (sound : memo.Sound e.scheme.derive ring) (deterministic : e.randomized = false)
    (noise noise' : Noise) (value : Bytes) :
    (e.mask ring memo noise value).result = (e.mask ring memo noise' value).result := by
  rw [mask_result sound, mask_result sound, entropyLength_of_not_randomized deterministic]
  rfl

theorem exists_parts {env : Bytes} (h : env.length = e.envelopeLength) :
    ∃ version entropy body, env = e.veil (version :: entropy ++ body) ∧
      entropy.length = e.entropyLength ∧ body.length = e.scheme.bodyLength := by
  have length : (e.veil env).length = 1 + e.entropyLength + e.scheme.bodyLength :=
    (length_veil env).trans h
  have veiled : e.veil (e.veil env) = env := veil_veil env
  cases plain : e.veil env with
  | nil =>
    rw [plain, List.length_nil] at length
    omega
  | cons version rest =>
    rw [plain, List.length_cons] at length
    refine ⟨version, rest.take e.entropyLength, rest.drop e.entropyLength, ?_, ?_, ?_⟩
    · rw [List.cons_append, List.take_append_drop, ← plain, veiled]
    · rw [List.length_take]
      omega
    · rw [List.length_drop]
      omega

theorem unmask_parts {entropy body : Bytes} (version : UInt8)
    (he : entropy.length = e.entropyLength) (hb : body.length = e.scheme.bodyLength) :
    e.unmask ring memo (e.veil (version :: entropy ++ body)) =
      if Version.engineId version (body.headD 0) ≠ e.engineId then .reject .unknownEngine memo
      else
        match memo.get e.scheme.derive ring (Version.keyId version (body.headD 0)) with
        | (none, memo) => .reject .unknownKey memo
        | (some material, memo) =>
          match e.scheme.recover material (Version.keyId version (body.headD 0)) version entropy
            body with
          | none => .reject .mismatch memo
          | some value => { result := .ok value, state := memo } := by
  have length : (e.veil (version :: entropy ++ body)).length = e.envelopeLength := by
    rw [length_veil, List.cons_append, List.length_cons, List.length_append, he, hb,
      envelopeLength]
    omega
  unfold unmask
  rw [if_neg (not_not_intro length)]
  simp only [veil_veil, List.cons_append, List.headD_cons, List.tail_cons]
  rewrite [← he, List.take_left, List.drop_left]
  rfl

theorem envelope_of_unmask (sound : memo.Sound e.scheme.derive ring) {env value : Bytes}
    (h : (e.unmask ring memo env).result = .ok value) :
    ∃ key entropy, ring.find? key.id = some key ∧ entropy.length = e.entropyLength ∧
      value.length = e.valueLength ∧ env = e.envelope key entropy value := by
  by_cases length : env.length = e.envelopeLength
  · obtain ⟨version, entropy, body, rfl, he, hb⟩ := exists_parts length
    have looked := sound.get_fst (Version.keyId version (body.headD 0))
    rw [unmask_parts version he hb] at h
    split at h
    · contradiction
    · rename_i engine
      have engine := Decidable.not_not.mp engine
      split at h
      · contradiction
      · rename_i material memo' given
        rw [given] at looked
        obtain ⟨key, found, derived⟩ := Option.map_eq_some_iff.mp looked.symm
        have id := KeyRing.id_of_find? found
        split at h
        · contradiction
        · rename_i value' recovered
          cases h
          have ids : Version.encode key.id e.engineId (body.headD 0) = version := by
            rw [id, ← engine, Version.encode_ids]
          have small := he ▸ entropyLength_le e
          rw [← id, ← derived, ← ids] at recovered
          obtain ⟨hv, made⟩ := (Scheme.recover_eq_some_iff small hb).mp recovered
          refine ⟨key, entropy, id ▸ found, he, hv, ?_⟩
          rw [envelope, assemble, ← made, ids]
  · unfold unmask at h
    rw [if_pos length] at h
    contradiction

theorem unmask_envelope (sound : memo.Sound e.scheme.derive ring) {key : SecretKey}
    {entropy value : Bytes} (found : ring.find? key.id = some key)
    (he : entropy.length = e.entropyLength) (hv : value.length = e.valueLength) :
    (e.unmask ring memo (e.envelope key entropy value)).result = .ok value := by
  have hb : (e.scheme.body (e.scheme.derive key) key.id entropy value).length =
      e.scheme.bodyLength := Scheme.length_body hv
  have looked := sound.get_fst key.id
  have small := he ▸ entropyLength_le e
  have recovered := (Scheme.recover_eq_some_iff small hb).mpr ⟨hv, rfl⟩
  rw [found] at looked
  rw [envelope, assemble, unmask_parts _ he hb, Version.engineId_encode,
    if_neg (not_not_intro rfl), Version.keyId_encode]
  split
  · rename_i missing
    rw [missing] at looked
    contradiction
  · rename_i material memo' given
    rw [given] at looked
    cases looked
    rw [engineId, recovered]

/-- An engine opens the envelopes of values of its length under keys of the ring, and no others. -/
theorem unmask_eq_ok_iff (sound : memo.Sound e.scheme.derive ring) {env value : Bytes} :
    (e.unmask ring memo env).result = .ok value ↔
      ∃ key entropy, ring.find? key.id = some key ∧ entropy.length = e.entropyLength ∧
        value.length = e.valueLength ∧ env = e.envelope key entropy value := by
  constructor
  · exact envelope_of_unmask sound
  · rintro ⟨key, entropy, found, he, hv, rfl⟩
    exact unmask_envelope sound found he hv

theorem unmask_result (sound : memo.Sound e.scheme.derive ring) (env : Bytes) :
    (e.unmask ring memo env).result = (e.unmask ring [] env).result := by
  by_cases length : env.length = e.envelopeLength
  · obtain ⟨version, entropy, body, rfl, he, hb⟩ := exists_parts length
    rw [unmask_parts version he hb, unmask_parts version he hb]
    split
    · rfl
    · have looked := sound.get_fst (Version.keyId version (body.headD 0))
      have anew : (Memo.get e.scheme.derive [] ring (Version.keyId version (body.headD 0))).1 = _ :=
        Memo.sound_nil.get_fst _
      rw [← anew] at looked
      generalize Memo.get e.scheme.derive memo ring _ = first at looked
      generalize Memo.get e.scheme.derive [] ring _ = second at looked
      obtain ⟨material, _⟩ := first
      obtain ⟨_, _⟩ := second
      cases looked
      cases material with
      | none => rfl
      | some material =>
        simp only
        split
        all_goals rfl
  · unfold unmask
    rw [if_pos length, if_pos length]
    rfl

theorem unmask_state (sound : memo.Sound e.scheme.derive ring) (env : Bytes) :
    (e.unmask ring memo env).state.Sound e.scheme.derive ring := by
  by_cases length : env.length = e.envelopeLength
  · obtain ⟨version, entropy, body, rfl, he, hb⟩ := exists_parts length
    have kept := sound.get_snd (Version.keyId version (body.headD 0))
    rw [unmask_parts version he hb]
    split
    · exact sound
    · split
      · rename_i given
        rw [given] at kept
        exact kept
      · rename_i given
        rw [given] at kept
        split
        all_goals exact kept
  · unfold unmask
    rw [if_pos length]
    exact sound

end IdVeil.Engine
