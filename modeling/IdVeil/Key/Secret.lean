import IdVeil.Key.Entropy
import IdVeil.Version

/-!
Secret keys and the four-bit ids they are published under.
-/
namespace IdVeil

structure SecretKey where
  id : Nibble
  bytes : Bytes
deriving DecidableEq

namespace SecretKey

def minLength : Nat := 8

def maxLength : Nat := 64

def maxId : Nat := 15

def randomLength : Nat := 16

/-- A key of acceptable bytes. The id is checked first, then the length, then that the bytes are
not all zeros, then their entropy. -/
def ofBytes (id : UInt8) (bytes : Bytes) : Except ConfigError SecretKey :=
  match nibble? id with
  | none => .error (.keyIdOutOfRange id.toNat)
  | some id =>
    if bytes.length < minLength ∨ maxLength < bytes.length then
      .error (.invalidKeyLength bytes.length)
    else if bytes.all (· == 0) then .error .zeroKey
    else if Entropy.isEnough bytes then .ok ⟨id, bytes⟩
    else .error .lowEntropyKey

def firstAcceptable (id : UInt8) : List Bytes → Except ConfigError SecretKey
  | [] => .error .lowEntropyKey
  | bytes :: rest =>
    match ofBytes id bytes with
    | .error .zeroKey => firstAcceptable id rest
    | .error .lowEntropyKey => firstAcceptable id rest
    | answer => answer

/-- A random key of 16 bytes. Draws that are not acceptable are passed over, up to a bound that no
honest supply of noise comes near. -/
def random (id : UInt8) (noise : Noise) : Except ConfigError SecretKey :=
  firstAcceptable id (pieces randomLength (noise.take (64 * randomLength)))

def overwrite (key : SecretKey) (noise : Noise) : SecretKey :=
  { key with bytes := noise.take key.bytes.length }

def describe (key : SecretKey) : String :=
  s!"SecretKey \x7b key_id: {key.id.val}, len: {key.bytes.length}, .. \x7d"

end SecretKey

end IdVeil
