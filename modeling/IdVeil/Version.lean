import IdVeil.Bytes
import IdVeil.Error

/-!
The version byte of an envelope: a key id in the high half and an engine id in the low half, under
the first byte of the ciphertext. `keyId_encode`, `engineId_encode` and `encode_ids` say that a
version byte and its two ids determine each other.
-/
namespace IdVeil

/-- Key ids and engine ids have four bits. -/
abbrev Nibble := Fin 16

/-- Numerals of nibbles. -/
instance (n : Nat) : OfNat Nibble n := ⟨Fin.ofNat 16 n⟩

/-- The four bits of a small enough byte. -/
def nibble? (b : UInt8) : Option Nibble :=
  if h : b.toNat < 16 then some ⟨b.toNat, h⟩ else none

namespace Version

def encode (key engine : Nibble) (first : UInt8) : UInt8 :=
  UInt8.ofNat (16 * key.val + engine.val) ^^^ first

/-- The version byte for ids given as bytes. The key id is checked first. -/
def ofBytes (key engine first : UInt8) : Except ConfigError UInt8 :=
  match nibble? key, nibble? engine with
  | none, _ => .error (.keyIdOutOfRange key.toNat)
  | some _, none => .error (.engineIdOutOfRange engine.toNat)
  | some k, some e => .ok (encode k e first)

def keyId (version first : UInt8) : Nibble :=
  ⟨(version ^^^ first).toNat / 16, by have := (version ^^^ first).toNat_lt; omega⟩

def engineId (version first : UInt8) : Nibble :=
  ⟨(version ^^^ first).toNat % 16, Nat.mod_lt _ (by decide)⟩

theorem toNat_encode_xor (key engine : Nibble) (first : UInt8) :
    (encode key engine first ^^^ first).toNat = 16 * key.val + engine.val := by
  rw [encode, Bytes.xor_cancel_right, UInt8.toNat_ofNat']
  omega

@[simp] theorem keyId_encode (key engine : Nibble) (first : UInt8) :
    keyId (encode key engine first) first = key := by
  apply Fin.ext
  simp only [keyId, toNat_encode_xor]
  omega

@[simp] theorem engineId_encode (key engine : Nibble) (first : UInt8) :
    engineId (encode key engine first) first = engine := by
  apply Fin.ext
  simp only [engineId, toNat_encode_xor]
  omega

theorem encode_ids (version first : UInt8) :
    encode (keyId version first) (engineId version first) first = version := by
  have h : 16 * (keyId version first).val + (engineId version first).val =
      (version ^^^ first).toNat := Nat.div_add_mod _ 16
  rw [encode, h, UInt8.ofNat_toNat, Bytes.xor_cancel_right]

end Version

end IdVeil
