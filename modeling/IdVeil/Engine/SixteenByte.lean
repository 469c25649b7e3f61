import IdVeil.Engine.EightByte
import IdVeil.Version

/-!
The sixteen-byte scheme: one AES block in CBC mode and an HMAC over the initial vector, the
ciphertext and the version byte. All keys come from the entropy of the envelope, which also masks
the value; without entropy they come from zeros.
-/
namespace IdVeil.SixteenByte

def engineId : Nibble := ⟨1, by decide⟩

def valueLength : Nat := 16

def entropyLength : Nat := 16

def macLength (highSecurity : Bool) : Nat := if highSecurity then 16 else 8

def bodyLength (highSecurity : Bool) : Nat := Block.length + macLength highSecurity

def derive (key : SecretKey) : Bytes := key.root

structure MessageKeys where
  cipher : Bytes
  vector : Bytes
  mac : Bytes

/-- The bytes of the text `macKey`. -/
def macInfo : Bytes := [0x6d, 0x61, 0x63, 0x4b, 0x65, 0x79]

def messageKeys (root entropy : Bytes) : MessageKeys :=
  let material := Hkdf.expand UInt64 root entropy 64
  { cipher := material.take 16
    vector := (material.drop 16).take 16
    mac := Hkdf.expand UInt32 (material.drop 32) macInfo 32 }

/-- The entropy that is sent, or zeros when none is. -/
def fullEntropy (entropy : Bytes) : Bytes := Bytes.padTo entropyLength entropy

def mac (keys : MessageKeys) (highSecurity : Bool) (ciphertext : Bytes) (version : UInt8) : Bytes :=
  (hmac UInt32 keys.mac (keys.vector ++ ciphertext ++ [version])).take (macLength highSecurity)

def body (highSecurity : Bool) (root : Bytes) (key : Nibble) (entropy value : Bytes) : Bytes :=
  let entropy := fullEntropy entropy
  let keys := messageKeys root entropy
  let block := Block.ofBytes (Bytes.xor value entropy) ^^^ .ofBytes keys.vector
  let ciphertext := (Aes.encrypt (Aes.roundKeys keys.cipher) block).toBytes
  ciphertext ++ mac keys highSecurity ciphertext (Version.encode key engineId (ciphertext.headD 0))

def recover (highSecurity : Bool) (root : Bytes) (version : UInt8) (entropy body : Bytes) :
    Option Bytes :=
  let entropy := fullEntropy entropy
  let keys := messageKeys root entropy
  let ciphertext := body.take Block.length
  if mac keys highSecurity ciphertext version = body.drop Block.length then
    let block := Aes.decrypt (Aes.roundKeys keys.cipher) (.ofBytes ciphertext) ^^^ .ofBytes keys.vector
    some (Bytes.xor block.toBytes entropy)
  else none

end IdVeil.SixteenByte
