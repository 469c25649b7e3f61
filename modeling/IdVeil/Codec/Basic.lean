import IdVeil.Codec.Alphabet

/-!
Text codecs: an alphabet, or another codec whose text is split into groups. A separator shares no
character with what it separates, so every whole copy of it can be taken out again.
-/
namespace IdVeil

/-- Takes out every copy of the separator, from the left and without overlap. The number counts
characters of a copy that are still to be skipped. -/
def removeFrom (separator : List Char) : Nat → List Char → List Char
  | _, [] => []
  | skip + 1, _ :: rest => removeFrom separator skip rest
  | 0, c :: rest =>
    if separator <+: c :: rest then removeFrom separator (separator.length - 1) rest
    else c :: removeFrom separator 0 rest

def removeAll (separator text : List Char) : List Char := removeFrom separator 0 text

namespace Codec

/-- How a codec writes: in the symbols of an alphabet, or in groups of what another writes. -/
inductive Form where
  | plain (alphabet : Alphabet)
  | grouped (inner : Form) (size : Nat) (separator : List Char)

namespace Form

def isSymbol : Form → Char → Bool
  | plain a, c => a.isSymbol c
  | grouped inner _ separator, c => inner.isSymbol c || separator.contains c

def encode : Form → Bytes → List Char
  | plain a, bs => a.encode bs
  | grouped inner size separator, bs => separator.intercalate (pieces size (inner.encode bs))

def decode : Form → List Char → Option Bytes
  | plain a, text => a.decode text
  | grouped inner _ separator, text => inner.decode (removeAll separator text)

/-- Groups have two characters or more, and their separator one to six, all foreign to the
groups. -/
def WellFormed : Form → Prop
  | plain _ => True
  | grouped inner size separator =>
    inner.WellFormed ∧ 2 ≤ size ∧ 1 ≤ separator.length ∧ separator.length ≤ 6 ∧
      separator.all fun c => !inner.isSymbol c

end Form

end Codec

structure Codec where
  form : Codec.Form
  wellFormed : form.WellFormed

namespace Codec

def encode (c : Codec) (bs : Bytes) : String := .ofList (c.form.encode bs)

def decode (c : Codec) (text : String) : Except Error Bytes :=
  match c.form.decode text.toList with
  | some bs => .ok bs
  | none => .error .decodingFailed

def isSymbol (c : Codec) (x : Char) : Bool := c.form.isSymbol x

def ofAlphabet (a : Alphabet) : Codec := ⟨.plain a, trivial⟩

def base64Url : Codec := ofAlphabet .base64Url

def base32 : Codec := ofAlphabet .base32

def base16 : Codec := ofAlphabet .base16

def cleanBase32 : Codec := ofAlphabet .cleanBase32

/-- The codec of an alphabet of one's own. -/
def ofSymbols (symbols : String) : Except ConfigError Codec :=
  match Alphabet.ofSymbols symbols.toList with
  | .ok a => .ok (ofAlphabet a)
  | .error fault => .error (.invalidAlphabet fault)

def defaultGroupLength : Nat := 4

def defaultSeparator : String := "-"

/-- Splits the text of a codec into groups. The group length is checked before the separator. -/
def grouped (inner : Codec) (size : Nat) (separator : String) : Except ConfigError Codec :=
  if hs : size < 2 then .error (.invalidGroupLength size)
  else if h : 1 ≤ separator.toList.length ∧ separator.toList.length ≤ 6 ∧
      separator.toList.all fun c => !inner.form.isSymbol c then
    .ok ⟨.grouped inner.form size separator.toList, inner.wellFormed, by omega, h⟩
  else .error (.invalidSeparator separator)

end Codec

end IdVeil
