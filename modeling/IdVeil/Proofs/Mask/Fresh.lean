import IdVeil.Mask.Basic
import IdVeil.Proofs.Codec.Spelling
import IdVeil.Proofs.Engine.Envelopes
import IdVeil.Proofs.Layout

/-!
Tokens made and read from scratch, with nothing kept from earlier uses. A text is read from
scratch exactly when it spells a token of the bytes that are read, under some key of the ring
and some entropy (`freshRead_eq_ok_iff`); a token made from scratch is read as what it was made
of (`freshRead_of_freshToken`).
-/
namespace IdVeil.IdMask

variable {layout : Layout} {m : IdMask layout} {ring : KeyRing} {memo : Memo Bytes}

def freshToken (m : IdMask layout) (ring : KeyRing) (noise : Noise) (bytes : Bytes) :
    Except Error String := (m.produce ring [] noise bytes).result

def freshRead (m : IdMask layout) (ring : KeyRing) (token : String) :
    Except Error (Bytes × layout.Id) := (m.accept ring [] token).result

/-- What the mask derived belongs to the keys of the ring. -/
def SoundMemo (m : IdMask layout) (ring : KeyRing) (memo : Memo Bytes) : Prop :=
  memo.Sound m.engine.scheme.derive ring

theorem produce_result (sound : m.SoundMemo ring memo) (noise : Noise) (bytes : Bytes) :
    (m.produce ring memo noise bytes).result = m.freshToken ring noise bytes := by
  have same : (m.engine.mask ring memo noise bytes).result =
      (m.engine.mask ring [] noise bytes).result :=
    (Engine.mask_result sound noise bytes).trans (Engine.mask_result Memo.sound_nil noise bytes).symm
  exact congrArg (Except.map m.codec.encode) same

theorem produce_state (sound : m.SoundMemo ring memo) (noise : Noise) (bytes : Bytes) :
    m.SoundMemo ring (m.produce ring memo noise bytes).state :=
  Engine.mask_state sound noise bytes

theorem freshToken_eq_ok_iff {noise : Noise} {bytes : Bytes} {token : String} :
    m.freshToken ring noise bytes = .ok token ↔
      ∃ key, ring.active? = some key ∧ bytes.length = m.engine.valueLength ∧
        token = m.codec.encode (m.engine.envelope key (noise.take m.engine.entropyLength) bytes) := by
  constructor
  · intro h
    rw [freshToken, produce] at h
    cases made : (m.engine.mask ring [] noise bytes).result with
    | error e =>
      rw [made] at h
      contradiction
    | ok env =>
      rw [made] at h
      cases h
      obtain ⟨key, active, length, rfl⟩ := (Engine.mask_eq_ok_iff Memo.sound_nil).mp made
      exact ⟨key, active, length, rfl⟩
  · rintro ⟨key, active, length, rfl⟩
    have made : (m.engine.mask ring [] noise bytes).result = .ok _ :=
      (Engine.mask_eq_ok_iff Memo.sound_nil).mpr ⟨key, active, length, rfl⟩
    exact congrArg (Except.map m.codec.encode) made

theorem freshToken_noise (deterministic : m.engine.randomized = false) (noise noise' : Noise)
    (bytes : Bytes) : m.freshToken ring noise bytes = m.freshToken ring noise' bytes :=
  congrArg (Except.map m.codec.encode)
    (Engine.mask_noise Memo.sound_nil deterministic noise noise' bytes)

theorem accept_result (sound : m.SoundMemo ring memo) (token : String) :
    (m.accept ring memo token).result = m.freshRead ring token := by
  unfold freshRead accept
  cases m.codec.decode token with
  | error e => rfl
  | ok envelope =>
    simp only
    rw [Engine.unmask_result sound]

theorem accept_state (sound : m.SoundMemo ring memo) (token : String) :
    m.SoundMemo ring (m.accept ring memo token).state := by
  unfold accept
  cases m.codec.decode token with
  | error e => exact sound
  | ok envelope => exact Engine.unmask_state sound envelope

/-- A text is accepted when it is decoded, opened and read as an id. -/
theorem accept_eq_ok_iff {token : String} {bytes : Bytes} {id : layout.Id} :
    (m.accept ring memo token).result = .ok (bytes, id) ↔
      ∃ envelope, m.codec.decode token = .ok envelope ∧
        (m.engine.unmask ring memo envelope).result = .ok bytes ∧ layout.ofBytes bytes = .ok id := by
  unfold accept
  constructor
  · intro accepted
    cases decoded : m.codec.decode token with
    | error e =>
      rw [decoded] at accepted
      contradiction
    | ok envelope =>
      simp only [decoded] at accepted
      cases opened : (m.engine.unmask ring memo envelope).result with
      | error e =>
        rw [opened] at accepted
        contradiction
      | ok bytes' =>
        rw [opened] at accepted
        change (layout.ofBytes bytes').map (fun id => (bytes', id)) = .ok (bytes, id) at accepted
        cases read : layout.ofBytes bytes' with
        | error e =>
          rw [read] at accepted
          contradiction
        | ok id' =>
          rw [read] at accepted
          cases accepted
          exact ⟨envelope, rfl, opened, read⟩
  · rintro ⟨envelope, decoded, opened, read⟩
    simp only [decoded, opened]
    change (layout.ofBytes bytes).map (fun id => (bytes, id)) = .ok (bytes, id)
    rw [read]
    rfl

/-- A text is read exactly when it spells a token of the bytes that are read. -/
theorem freshRead_eq_ok_iff {token : String} {bytes : Bytes} {id : layout.Id} :
    m.freshRead ring token = .ok (bytes, id) ↔
      layout.ofBytes bytes = .ok id ∧
        ∃ key entropy, ring.find? key.id = some key ∧ entropy.length = m.engine.entropyLength ∧
          bytes.length = m.engine.valueLength ∧
          m.codec.SameText token (m.codec.encode (m.engine.envelope key entropy bytes)) := by
  rw [freshRead, accept_eq_ok_iff]
  constructor
  · rintro ⟨envelope, decoded, opened, read⟩
    obtain ⟨key, entropy, found, he, hv, rfl⟩ := (Engine.unmask_eq_ok_iff Memo.sound_nil).mp opened
    exact ⟨read, key, entropy, found, he, hv, Codec.decode_eq_ok_iff.mp decoded⟩
  · rintro ⟨read, key, entropy, found, he, hv, same⟩
    exact ⟨_, Codec.decode_eq_ok_iff.mpr same,
      (Engine.unmask_eq_ok_iff Memo.sound_nil).mpr ⟨key, entropy, found, he, hv, rfl⟩, read⟩

theorem freshRead_of_freshToken {noise : Noise} {id : layout.Id} {bytes : Bytes} {token : String}
    (written : layout.toBytes id = .ok bytes) (made : m.freshToken ring noise bytes = .ok token) :
    m.freshRead ring token = .ok (bytes, id) := by
  obtain ⟨key, active, length, rfl⟩ := freshToken_eq_ok_iff.mp made
  have held := (KeyRing.active?_eq_some_iff.mp active).2
  have same := Codec.decode_eq_ok_iff.mp (Codec.decode_encode (c := m.codec)
    (m.engine.envelope key (noise.take m.engine.entropyLength) bytes))
  exact freshRead_eq_ok_iff.mpr ⟨Layout.ofBytes_toBytes written, key, _, held,
    Noise.length_take _ _, length, same⟩

/-- The answer of `mask` when nothing is kept from earlier uses. -/
def freshMask (m : IdMask layout) (ring : KeyRing) (noise : Noise) (id : layout.Id) :
    Except Error String := (layout.toBytes id).bind (m.freshToken ring noise)

def freshUnmask (m : IdMask layout) (ring : KeyRing) (token : String) : Except Error layout.Id :=
  if maxTokenLength < token.length then .error (.inputLength maxTokenLength token.length)
  else (m.freshRead ring token).map Prod.snd

theorem freshMask_eq_ok_iff {noise : Noise} {id : layout.Id} {token : String} :
    m.freshMask ring noise id = .ok token ↔
      ∃ bytes, layout.toBytes id = .ok bytes ∧ m.freshToken ring noise bytes = .ok token := by
  rw [freshMask]
  cases layout.toBytes id with
  | error e =>
    constructor
    · intro h
      contradiction
    · rintro ⟨bytes, written, _⟩
      contradiction
  | ok bytes =>
    constructor
    · intro h
      exact ⟨bytes, rfl, h⟩
    · rintro ⟨bytes', written, made⟩
      cases written
      exact made

theorem freshMask_noise (deterministic : m.engine.randomized = false) (noise noise' : Noise)
    (id : layout.Id) : m.freshMask ring noise id = m.freshMask ring noise' id := by
  rw [freshMask, freshMask]
  exact congrArg (Except.bind _) (funext (freshToken_noise deterministic noise noise'))

theorem freshMask_of_active (deterministic : m.engine.randomized = false) {key : SecretKey}
    (active : ring.active? = some key) (noise : Noise) (id : layout.Id) :
    m.freshMask ring noise id =
      (layout.toBytes id).map fun bytes => m.codec.encode (m.engine.envelope key [] bytes) := by
  rw [freshMask]
  cases written : layout.toBytes id with
  | error e => rfl
  | ok bytes =>
    have length := (Layout.length_of_toBytes written).trans m.length_eq.symm
    have none := Engine.entropyLength_of_not_randomized deterministic
    refine freshToken_eq_ok_iff.mpr ⟨key, active, length, ?_⟩
    rw [none]
    rfl

theorem freshUnmask_eq_ok_iff {token : String} {id : layout.Id} :
    m.freshUnmask ring token = .ok id ↔
      token.length ≤ maxTokenLength ∧ ∃ bytes, m.freshRead ring token = .ok (bytes, id) := by
  rw [freshUnmask]
  by_cases long : maxTokenLength < token.length
  · rw [if_pos long]
    constructor
    · intro h
      contradiction
    · rintro ⟨short, _⟩
      exact absurd long (Nat.not_lt_of_le short)
  · rw [if_neg long]
    constructor
    · intro h
      cases read : m.freshRead ring token with
      | error e =>
        rw [read] at h
        contradiction
      | ok pair =>
        rw [read] at h
        cases h
        exact ⟨Nat.le_of_not_lt long, pair.1, rfl⟩
    · rintro ⟨_, bytes, read⟩
      rw [read]
      rfl

end IdVeil.IdMask
