import IdVeil.Hash.Sha2

/-!
Keyed digests and key derivation over either member of the SHA-2 family: HMAC and HKDF.
Derived keys have exactly the length asked for.
-/
namespace IdVeil

section
variable (ω : Type) [Sha2 ω]

/-- The key as one block: a longer key is digested first. -/
def hmacKey (key : Bytes) : Bytes :=
  let block := Sha2.blockLength ω
  Bytes.padTo block (if block < key.length then Sha2.digest ω key else key)

def hmac (key message : Bytes) : Bytes :=
  let k := hmacKey ω key
  let inner := Sha2.digest ω (k.map (· ^^^ 0x36) ++ message)
  Sha2.digest ω (k.map (· ^^^ 0x5c) ++ inner)

@[simp] theorem length_hmac (key message : Bytes) :
    (hmac ω key message).length = Sha2.digestLength ω := by
  simp [hmac]

namespace Hkdf

/-- Extraction without salt: the empty key of the digest stands for a salt of zeros. -/
def extract (secret : Bytes) : Bytes := hmac ω [] secret

/-- `count` digests from number `i` on, each made from the one before it. -/
def stream (root info : Bytes) : Nat → Nat → Bytes → Bytes
  | 0, _, _ => []
  | count + 1, i, previous =>
    let block := hmac ω root (previous ++ info ++ [UInt8.ofNat i])
    block ++ stream root info count (i + 1) block

/-- `length` bytes of key material for one use, which `info` names. -/
def expand (root info : Bytes) (length : Nat) : Bytes :=
  (stream ω root info ((length + Sha2.digestLength ω - 1) / Sha2.digestLength ω) 1 []).take length

theorem length_stream (root info : Bytes) (count i : Nat) (previous : Bytes) :
    (stream ω root info count i previous).length = count * Sha2.digestLength ω := by
  induction count generalizing i previous with
  | zero => simp [stream]
  | succ count ih => simp [stream, ih, Nat.succ_mul, Nat.add_comm]

theorem length_expand (root info : Bytes) (length : Nat) (h : 0 < Sha2.digestLength ω) :
    (expand ω root info length).length = length := by
  have hc := Nat.div_add_mod (length + Sha2.digestLength ω - 1) (Sha2.digestLength ω)
  have hr := Nat.mod_lt (length + Sha2.digestLength ω - 1) h
  rw [expand, List.length_take, length_stream, Nat.mul_comm]
  omega

@[simp] theorem length_expand32 (root info : Bytes) (length : Nat) :
    (expand UInt32 root info length).length = length :=
  length_expand UInt32 root info length (by decide)

@[simp] theorem length_expand64 (root info : Bytes) (length : Nat) :
    (expand UInt64 root info length).length = length :=
  length_expand UInt64 root info length (by decide)

end Hkdf

end

end IdVeil
