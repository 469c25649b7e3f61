import IdVeil.Engine.Basic

/-!
The bodies that a scheme recovers a value from. For each scheme they are exactly the body it makes
of that value (`Scheme.recover_eq_some_iff`): there is no second body for a value under the same
key and entropy, and no body for a value of another length.
-/
namespace IdVeil

namespace EightByte

theorem length_reference {entropy : Bytes} (he : entropy.length ≤ referenceLength) :
    (reference entropy).length = referenceLength := by
  rw [reference, Bytes.length_padTo]
  exact Nat.max_eq_right he

@[simp] theorem length_body (material entropy value : Bytes) :
    (body material entropy value).length = bodyLength := rfl

theorem recover_body {material entropy value : Bytes} (he : entropy.length ≤ referenceLength)
    (hv : value.length = valueLength) :
    recover material entropy (body material entropy value) = some value := by
  have front := length_reference he
  have whole : (reference entropy ++ value).length = Block.length := by
    rw [List.length_append, front, hv]
    rfl
  rw [recover, body, Block.ofBytes_toBytes, Aes.decrypt_encrypt, Block.toBytes_ofBytes whole]
  rw [← front, List.take_left, List.drop_left, if_pos rfl]

theorem body_of_recover {material entropy bs value : Bytes} (hb : bs.length = bodyLength)
    (h : recover material entropy bs = some value) :
    value.length = valueLength ∧ bs = body material entropy value := by
  unfold recover at h
  simp only at h
  split at h
  · rename_i same
    cases h
    constructor
    · rfl
    · rw [body, ← same, List.take_append_drop, Block.ofBytes_toBytes, Aes.encrypt_decrypt,
        Block.toBytes_ofBytes hb]
  · contradiction

end EightByte

namespace SixteenByte

theorem length_fullEntropy {entropy : Bytes} (he : entropy.length ≤ entropyLength) :
    (fullEntropy entropy).length = Block.length := by
  rw [fullEntropy, Bytes.length_padTo]
  exact Nat.max_eq_right he

@[simp] theorem length_mac (keys : MessageKeys) (high : Bool) (ciphertext : Bytes)
    (version : UInt8) : (mac keys high ciphertext version).length = macLength high := by
  rw [mac, List.length_take, length_hmac]
  cases high <;> rfl

@[simp] theorem length_body (high : Bool) (root : Bytes) (key : Nibble) (entropy value : Bytes) :
    (body high root key entropy value).length = bodyLength high := by
  simp [body, bodyLength]

theorem headD_ciphertext {bs : Bytes} (hb : Block.length ≤ bs.length) :
    (bs.take Block.length).headD 0 = bs.headD 0 := by
  cases bs with
  | nil => rfl
  | cons b bs => rfl

theorem recover_body {high : Bool} {root entropy value : Bytes} {key : Nibble}
    (he : entropy.length ≤ entropyLength) (hv : value.length = valueLength) :
    recover high root (Version.encode key engineId ((body high root key entropy value).headD 0))
      entropy (body high root key entropy value) = some value := by
  have full := length_fullEntropy he
  have cover : value.length ≤ (fullEntropy entropy).length := by
    rw [full, hv]
    exact Nat.le_refl _
  have hidden : (Bytes.xor value (fullEntropy entropy)).length = Block.length := by
    rw [Bytes.length_xor, full, hv]
    rfl
  have front (x : Block) (rest : Bytes) : (x.toBytes ++ rest).take Block.length = x.toBytes :=
    List.take_left' rfl
  have back (x : Block) (rest : Bytes) : (x.toBytes ++ rest).drop Block.length = rest :=
    List.drop_left' rfl
  have head (x : Block) (rest : Bytes) : (x.toBytes ++ rest).headD 0 = x.toBytes.headD 0 := rfl
  simp only [recover, body, front, back, head, if_true, Block.ofBytes_toBytes,
    Aes.decrypt_encrypt, Block.xor_xor_cancel, Block.toBytes_ofBytes hidden,
    Bytes.xor_xor_cancel cover]

theorem body_of_recover {high : Bool} {root entropy bs value : Bytes} {key : Nibble}
    (he : entropy.length ≤ entropyLength) (hb : bs.length = bodyLength high)
    (h : recover high root (Version.encode key engineId (bs.headD 0)) entropy bs = some value) :
    value.length = valueLength ∧ bs = body high root key entropy value := by
  have full := length_fullEntropy he
  have long : Block.length ≤ bs.length := hb ▸ Nat.le_add_right _ _
  have front : (bs.take Block.length).length = Block.length := List.length_take_of_le long
  unfold recover at h
  simp only at h
  split at h
  · rename_i same
    cases h
    constructor
    · rw [Bytes.length_xor, Block.length_toBytes, full]
      rfl
    · have cover (x : Block) : x.toBytes.length ≤ (fullEntropy entropy).length :=
        Nat.le_of_eq ((Block.length_toBytes x).trans full.symm)
      simp only [body, Bytes.xor_xor_cancel (cover _), Block.ofBytes_toBytes,
        Block.xor_xor_cancel, Aes.encrypt_decrypt, Block.toBytes_ofBytes front,
        headD_ciphertext long, same, List.take_append_drop]
  · contradiction

end SixteenByte

namespace Scheme

variable {scheme : Scheme}

@[simp] theorem length_body {material entropy value : Bytes} {key : Nibble}
    (hv : value.length = scheme.valueLength) :
    (scheme.body material key entropy value).length = scheme.bodyLength := by
  cases scheme with
  | eightByte => exact EightByte.length_body material entropy value
  | sixteenByte high => exact SixteenByte.length_body high material key entropy value
  | siv w obfuscation =>
    rw [body, SivScheme.body, Siv.length_encrypt, hv]
    rfl

theorem bodyLength_pos (scheme : Scheme) : 0 < scheme.bodyLength := by
  cases scheme with
  | eightByte => decide
  | sixteenByte high => exact Nat.add_pos_left (Nat.zero_lt_succ 15) _
  | siv w obfuscation => exact Nat.add_pos_left (Nat.zero_lt_succ 15) _

theorem lengths_lt (scheme : Scheme) : 1 + scheme.entropyLength + scheme.bodyLength < 256 := by
  cases scheme with
  | eightByte => decide
  | sixteenByte high => cases high <;> decide
  | siv w obfuscation =>
    change 1 + w.entropyLength + SivScheme.bodyLength w < 256
    cases w <;> decide

/-- The bodies a value is recovered from are those made of it. The version byte is the one that
belongs to the key and the body. -/
theorem recover_eq_some_iff {material entropy bs value : Bytes} {key : Nibble}
    (he : entropy.length ≤ scheme.entropyLength) (hb : bs.length = scheme.bodyLength) :
    scheme.recover material key (Version.encode key scheme.engineId (bs.headD 0)) entropy bs =
        some value ↔
      value.length = scheme.valueLength ∧ bs = scheme.body material key entropy value := by
  cases scheme with
  | eightByte =>
    change EightByte.recover material entropy bs = some value ↔ value.length = _ ∧
      bs = EightByte.body material entropy value
    constructor
    · exact EightByte.body_of_recover hb
    · rintro ⟨hv, rfl⟩
      exact EightByte.recover_body he hv
  | sixteenByte high =>
    change SixteenByte.recover high material (Version.encode key SixteenByte.engineId _) entropy bs =
      some value ↔ value.length = _ ∧ bs = SixteenByte.body high material key entropy value
    constructor
    · exact SixteenByte.body_of_recover he hb
    · rintro ⟨hv, rfl⟩
      exact SixteenByte.recover_body he hv
  | siv w obfuscation =>
    change Siv.decrypt material [SivScheme.associatedData w key entropy] bs = some value ↔
      value.length = _ ∧ bs = Siv.encrypt material [SivScheme.associatedData w key entropy] value
    rw [Siv.decrypt_eq_some_iff]
    constructor
    · intro h
      have length := congrArg List.length h
      rw [hb, Siv.length_encrypt] at length
      exact ⟨(Nat.add_left_cancel length).symm, h⟩
    · exact And.right

end Scheme

end IdVeil
