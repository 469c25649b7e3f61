import IdVeil.Cipher.Siv
import IdVeil.Engine.EightByte
import IdVeil.Version

/-!
The SIV schemes, one for values of each of four widths. The key id, the engine id and the entropy
are associated data, so a body is bound to them. The whole envelope is veiled by a keystream that
hides its structure and nothing else.
-/
namespace IdVeil

/-- The widths of values, each of which is an engine of its own. -/
inductive SivWidth where
  | int4
  | int8
  | int16
  | int32
deriving DecidableEq, Repr

namespace SivWidth

def all : List SivWidth := [.int4, .int8, .int16, .int32]

def name : SivWidth → String
  | .int4 => "Int4"
  | .int8 => "Int8"
  | .int16 => "Int16"
  | .int32 => "Int32"

def engineId : SivWidth → Nibble
  | .int4 => ⟨2, by decide⟩
  | .int8 => ⟨3, by decide⟩
  | .int16 => ⟨4, by decide⟩
  | .int32 => ⟨5, by decide⟩

def valueLength : SivWidth → Nat
  | .int4 => 4
  | .int8 => 8
  | .int16 => 16
  | .int32 => 32

def entropyLength : SivWidth → Nat
  | .int4 => 8
  | .int8 => 8
  | .int16 => 12
  | .int32 => 16

def tagLength (_ : SivWidth) : Nat := Block.length

def keyLength : SivWidth → Nat
  | .int4 => 32
  | .int8 => 32
  | .int16 => 64
  | .int32 => 64

def ofValueLength? (length : Nat) : Option SivWidth := all.find? fun w => w.valueLength = length

end SivWidth

namespace SivScheme

/-- The bytes of the text `siv-key`. -/
def keyInfo : Bytes := [0x73, 0x69, 0x76, 0x2d, 0x6b, 0x65, 0x79]

/-- The bytes of the text `envelope-obfuscation`. -/
def veilInfo : Bytes :=
  [0x65, 0x6e, 0x76, 0x65, 0x6c, 0x6f, 0x70, 0x65, 0x2d, 0x6f, 0x62, 0x66, 0x75, 0x73, 0x63, 0x61,
   0x74, 0x69, 0x6f, 0x6e]

def bodyLength (w : SivWidth) : Nat := w.tagLength + w.valueLength

def derive (w : SivWidth) (key : SecretKey) : Bytes :=
  Hkdf.expand UInt64 key.root keyInfo w.keyLength

def associatedData (w : SivWidth) (key : Nibble) (entropy : Bytes) : Bytes :=
  UInt8.ofNat key.val :: UInt8.ofNat w.engineId.val :: entropy

def body (w : SivWidth) (material : Bytes) (key : Nibble) (entropy value : Bytes) : Bytes :=
  Siv.encrypt material [associatedData w key entropy] value

def recover (w : SivWidth) (material : Bytes) (key : Nibble) (entropy body : Bytes) : Option Bytes :=
  Siv.decrypt material [associatedData w key entropy] body

/-- The keystream over envelopes of a length. -/
def veil (obfuscation : Bytes) (length : Nat) : Bytes :=
  Hkdf.expand UInt32 (Hkdf.extract UInt32 obfuscation) veilInfo length

end SivScheme

end IdVeil
