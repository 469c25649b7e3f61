import IdVeil.Cipher.Aes
import IdVeil.Hash.Hmac
import IdVeil.Key.Secret

/-!
The eight-byte scheme: one AES block that holds a reference and the value. That the reference
comes back unchanged is the only check, so it finds corruption and wrong keys but is no MAC, and
the key id is not bound to the ciphertext.
-/
namespace IdVeil

/-- What all schemes derive their keys from. -/
def SecretKey.root (key : SecretKey) : Bytes := Hkdf.extract UInt64 key.bytes

namespace EightByte

def engineId : Nibble := ⟨0, by decide⟩

def valueLength : Nat := 8

def referenceLength : Nat := 8

def bodyLength : Nat := Block.length

def derive (key : SecretKey) : Bytes := key.root.take 16

/-- The reference that is sent, or zeros when none is. -/
def reference (entropy : Bytes) : Bytes := Bytes.padTo referenceLength entropy

def body (material entropy value : Bytes) : Bytes :=
  (Aes.encrypt (Aes.roundKeys material) (.ofBytes (reference entropy ++ value))).toBytes

def recover (material entropy body : Bytes) : Option Bytes :=
  let block := (Aes.decrypt (Aes.roundKeys material) (.ofBytes body)).toBytes
  if block.take referenceLength = reference entropy then some (block.drop referenceLength) else none

end EightByte

end IdVeil
