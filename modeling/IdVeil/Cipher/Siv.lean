import IdVeil.Cipher.Aes

/-!
Deterministic authenticated encryption with AES in SIV mode (RFC 5297). Main statement: a text is
accepted exactly when it is the encryption of its plaintext (`decrypt_eq_some_iff`), so each
plaintext has one encrypted form.
-/
namespace IdVeil

def Block.toNat (b : Block) : Nat := Bytes.toNat b.toBytes

def Block.ofNat (n : Nat) : Block := .ofBytes (Bytes.ofNat Block.length n)

/-- Twice the block in the field of 2¹²⁸ elements. -/
def Block.double (b : Block) : Block :=
  let n := 2 * b.toNat
  let carry := Nat.pow 2 128
  .ofNat (if carry ≤ n then (n - carry) ^^^ 0x87 else n)

/-- CMAC over the block cipher `E`: blocks are chained, and the last one is masked by one
subkey when whole and, closed by a one bit and zeros, by another when not. -/
def cmacFrom (E : Block → Block) (whole partly : Block) : Block → List Bytes → Block
  | x, [] => E (x ^^^ .ofBytes [0x80] ^^^ partly)
  | x, [m] =>
    if m.length = Block.length then E (x ^^^ .ofBytes m ^^^ whole)
    else E (x ^^^ .ofBytes (m ++ [0x80]) ^^^ partly)
  | x, m :: next :: rest => cmacFrom E whole partly (E (x ^^^ .ofBytes m)) (next :: rest)

def cmac (E : Block → Block) (message : Bytes) : Block :=
  let whole := (E .zero).double
  cmacFrom E whole whole.double .zero (pieces Block.length message)

namespace Siv

def xorEnd (bs : Bytes) (b : Block) : Bytes :=
  let front := bs.length - Block.length
  bs.take front ++ Bytes.xor (bs.drop front) b.toBytes

/-- The items of associated data go in one after the other, and the plaintext last. -/
def vector (E : Block → Block) (items : List Bytes) (plaintext : Bytes) : Block :=
  let d := items.foldl (fun d item => d.double ^^^ cmac E item) (cmac E (Block.toBytes .zero))
  cmac E (if Block.length ≤ plaintext.length then xorEnd plaintext d
    else Block.toBytes (d.double ^^^ .ofBytes (plaintext ++ [0x80])))

/-- The vector with the two bits cleared that would let a 32-bit counter carry. -/
def counter (v : Block) : Nat :=
  v.toNat &&& (Nat.pow 2 128 - 1 - Nat.pow 2 31 - Nat.pow 2 63)

def keystream (E : Block → Block) (v : Block) (length : Nat) : Bytes :=
  let blocks := (length + Block.length - 1) / Block.length
  ((List.range blocks).flatMap fun i => (E (.ofNat (counter v + i))).toBytes).take length

/-- The first half of the key makes the vector, the second the keystream. -/
def macCipher (key : Bytes) : Block → Block :=
  Aes.encrypt (Aes.roundKeys (key.take (key.length / 2)))

def streamCipher (key : Bytes) : Block → Block :=
  Aes.encrypt (Aes.roundKeys (key.drop (key.length / 2)))

/-- The vector followed by the encrypted plaintext. -/
def encrypt (key : Bytes) (items : List Bytes) (plaintext : Bytes) : Bytes :=
  let v := vector (macCipher key) items plaintext
  v.toBytes ++ Bytes.xor plaintext (keystream (streamCipher key) v plaintext.length)

/-- The plaintext, if the vector in front of the text is the one it has. -/
def decrypt (key : Bytes) (items : List Bytes) (text : Bytes) : Option Bytes :=
  let v := Block.ofBytes (text.take Block.length)
  let body := text.drop Block.length
  let plaintext := Bytes.xor body (keystream (streamCipher key) v body.length)
  if Block.length ≤ text.length ∧ vector (macCipher key) items plaintext = v then some plaintext
  else none

theorem length_flatMap_toBytes (f : Nat → Block) (is : List Nat) :
    (is.flatMap fun i => (f i).toBytes).length = is.length * Block.length := by
  induction is with
  | nil => simp
  | cons i is ih => simp [ih, Nat.succ_mul, Nat.add_comm]

@[simp] theorem length_keystream (E : Block → Block) (v : Block) (length : Nat) :
    (keystream E v length).length = length := by
  simp only [keystream, List.length_take, length_flatMap_toBytes, List.length_range, Block.length]
  omega

@[simp] theorem length_encrypt (key : Bytes) (items : List Bytes) (plaintext : Bytes) :
    (encrypt key items plaintext).length = Block.length + plaintext.length := by
  simp [encrypt]

theorem decrypt_encrypt (key : Bytes) (items : List Bytes) (plaintext : Bytes) :
    decrypt key items (encrypt key items plaintext) = some plaintext := by
  have front (v : Block) (rest : Bytes) : (v.toBytes ++ rest).take Block.length = v.toBytes :=
    List.take_left' rfl
  have back (v : Block) (rest : Bytes) : (v.toBytes ++ rest).drop Block.length = rest :=
    List.drop_left' rfl
  simp only [decrypt, length_encrypt, Nat.le_add_right, true_and]
  simp [encrypt, front, back, Bytes.xor_xor_cancel]

variable {key text plaintext : Bytes} {items : List Bytes}

theorem encrypt_of_decrypt (h : decrypt key items text = some plaintext) :
    text = encrypt key items plaintext := by
  simp only [decrypt] at h
  split at h
  case isFalse => contradiction
  case isTrue accepted =>
    obtain ⟨hl, hv⟩ := accepted
    have hp := Option.some.inj h
    rw [hp] at hv
    have hn : plaintext.length = (text.drop Block.length).length := by simp [← hp]
    have front : (Block.ofBytes (text.take Block.length)).toBytes = text.take Block.length :=
      Block.toBytes_ofBytes (by simp; omega)
    have body : Bytes.xor plaintext (keystream (streamCipher key)
        (.ofBytes (text.take Block.length)) plaintext.length) = text.drop Block.length := by
      rw [hn, ← hp, Bytes.xor_xor_cancel (by simp)]
    simp only [encrypt, hv, front, body, List.take_append_drop]

/-- The accepted texts are exactly the encrypted ones. -/
theorem decrypt_eq_some_iff :
    decrypt key items text = some plaintext ↔ text = encrypt key items plaintext :=
  ⟨encrypt_of_decrypt, fun h => h ▸ decrypt_encrypt key items plaintext⟩

end Siv

end IdVeil
