import IdVeil.Engine.SixteenByte
import IdVeil.Engine.Siv
import IdVeil.Key.Derived

/-!
Engines: what turns values of one length into envelopes of one length and back. An envelope is a
version byte, the entropy if there is any, and a body that the scheme makes of the value, all
under the keystream of the engine. Rejections come in one order: length, engine id, key id, content.
-/
namespace IdVeil

inductive Scheme where
  | eightByte
  | sixteenByte (highSecurity : Bool)
  | siv (width : SivWidth) (obfuscation : FixedBytes 8)
deriving DecidableEq

namespace Scheme

def engineId : Scheme → Nibble
  | eightByte => EightByte.engineId
  | sixteenByte _ => SixteenByte.engineId
  | siv w _ => w.engineId

def valueLength : Scheme → Nat
  | eightByte => EightByte.valueLength
  | sixteenByte _ => SixteenByte.valueLength
  | siv w _ => w.valueLength

def entropyLength : Scheme → Nat
  | eightByte => EightByte.referenceLength
  | sixteenByte _ => SixteenByte.entropyLength
  | siv w _ => w.entropyLength

def bodyLength : Scheme → Nat
  | eightByte => EightByte.bodyLength
  | sixteenByte high => SixteenByte.bodyLength high
  | siv w _ => SivScheme.bodyLength w

def derive : Scheme → SecretKey → Bytes
  | eightByte => EightByte.derive
  | sixteenByte _ => SixteenByte.derive
  | siv w _ => SivScheme.derive w

def body (scheme : Scheme) (material : Bytes) (key : Nibble) (entropy value : Bytes) : Bytes :=
  match scheme with
  | eightByte => EightByte.body material entropy value
  | sixteenByte high => SixteenByte.body high material key entropy value
  | siv w _ => SivScheme.body w material key entropy value

/-- The value of a body, if the body is authentic. -/
def recover (scheme : Scheme) (material : Bytes) (key : Nibble) (version : UInt8)
    (entropy body : Bytes) : Option Bytes :=
  match scheme with
  | eightByte => EightByte.recover material entropy body
  | sixteenByte high => SixteenByte.recover high material version entropy body
  | siv w _ => SivScheme.recover w material key entropy body

end Scheme

structure Engine where
  scheme : Scheme
  randomized : Bool
deriving DecidableEq

namespace Engine

def engineId (e : Engine) : Nibble := e.scheme.engineId

def valueLength (e : Engine) : Nat := e.scheme.valueLength

def entropyLength (e : Engine) : Nat := if e.randomized then e.scheme.entropyLength else 0

def envelopeLength (e : Engine) : Nat := 1 + e.entropyLength + e.scheme.bodyLength

/-- SIV engines have a keystream as long as their envelopes, and the others have none. -/
def keystream (e : Engine) : Bytes :=
  match e.scheme with
  | .siv _ obfuscation => SivScheme.veil obfuscation.val e.envelopeLength
  | _ => []

def veil (e : Engine) (envelope : Bytes) : Bytes := Bytes.xorFront e.keystream envelope

def assemble (e : Engine) (key : Nibble) (material entropy value : Bytes) : Bytes :=
  let body := e.scheme.body material key entropy value
  e.veil (Version.encode key e.engineId (body.headD 0) :: entropy ++ body)

def envelope (e : Engine) (key : SecretKey) (entropy value : Bytes) : Bytes :=
  e.assemble key.id (e.scheme.derive key) entropy value

def mask (e : Engine) (ring : KeyRing) (memo : Memo Bytes) (noise : Noise) (value : Bytes) :
    Outcome (Memo Bytes) Bytes :=
  if value.length ≠ e.valueLength then .fail (.inputLength e.valueLength value.length) memo
  else match memo.active e.scheme.derive ring with
    | (.error err, memo) => .fail err memo
    | (.ok (key, material), memo) =>
      { result := .ok (e.assemble key material (noise.take e.entropyLength) value), state := memo }

def unmask (e : Engine) (ring : KeyRing) (memo : Memo Bytes) (envelope : Bytes) :
    Outcome (Memo Bytes) Bytes :=
  if envelope.length ≠ e.envelopeLength then
    .fail (.inputLength e.envelopeLength envelope.length) memo
  else
    let plain := e.veil envelope
    let version := plain.headD 0
    let entropy := plain.tail.take e.entropyLength
    let body := plain.tail.drop e.entropyLength
    let first := body.headD 0
    if Version.engineId version first ≠ e.engineId then .reject .unknownEngine memo
    else
      let key := Version.keyId version first
      match memo.get e.scheme.derive ring key with
      | (none, memo) => .reject .unknownKey memo
      | (some material, memo) =>
        match e.scheme.recover material key version entropy body with
        | none => .reject .mismatch memo
        | some value => { result := .ok value, state := memo }

end Engine

end IdVeil
