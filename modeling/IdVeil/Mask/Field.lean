import IdVeil.Layout

/-!
Fields: unsigned ids of one kind of object, told apart by the name of the kind. This module has
their forms that need no mask: the label of the public form, the number column of a database,
the text for display.
-/
namespace IdVeil

structure Field (marker : String) where
  id : UInt64
deriving DecidableEq

/-- Why a column holds no field. -/
inductive ColumnError where
  | null
  | short
  | long
deriving DecidableEq, Repr

def ColumnError.message : ColumnError → String
  | .null => "Unexpected null for non-null column"
  | .short =>
    "Received less than 8 bytes while decoding an i64. " ++
      "Was an Integer expression accidentally marked as BigInt?"
  | .long =>
    "Received more than 8 bytes while decoding an i64. " ++
      "Was an expression of a different type expression accidentally marked as BigInt?"

namespace Field

variable {marker : String}

def describe (f : Field marker) : String := s!"Field \x7b id: {f.id}, marker: {marker} \x7d"

/-- The column is a signed number of the same bits. -/
def toColumn (f : Field marker) : Int64 := f.id.toInt64

def ofColumn (x : Int64) : Field marker := ⟨x.toUInt64⟩

def toColumnBytes (f : Field marker) : Bytes := Layout.int64ToBytes f.toColumn

def ofColumnBytes : Option Bytes → Except ColumnError (Field marker)
  | none => .error .null
  | some bs =>
    if bs.length < 8 then .error .short
    else if 8 < bs.length then .error .long
    else .ok (ofColumn (Layout.int64OfBytes bs))

/-- What stands before the token in the public form. -/
def label (marker : String) : String := marker ++ "_"

/-- What the text has in the place of a label: all up to its first underscore. -/
def receivedLabel (text : String) : String :=
  if '_' ∈ text.toList then .ofList (text.toList.takeWhile (· ≠ '_') ++ ['_']) else ""

def tokenOf (marker text : String) : Except Error String :=
  let expected := label marker
  if expected.toList <+: text.toList then .ok (.ofList (text.toList.drop expected.toList.length))
  else .error (.invalidLabel (receivedLabel text) expected)

end Field

/-- What stands in a document in the place of a field. -/
inductive DocumentValue where
  | null
  | boolean (b : Bool)
  | integer (n : Int)
  | text (s : String)
  | sequence
  | map
deriving DecidableEq, Repr

def DocumentValue.describe : DocumentValue → String
  | .null => "null"
  | .boolean b => s!"boolean `{b}`"
  | .integer n => s!"integer `{n}`"
  | .text _ => "string"
  | .sequence => "sequence"
  | .map => "map"

inductive DocumentError where
  | notText (value : DocumentValue)
  | field (cause : Error)
deriving DecidableEq, Repr

def DocumentError.message : DocumentError → String
  | .notText value => s!"invalid type: {value.describe}, expected a string"
  | .field cause => cause.message

end IdVeil
