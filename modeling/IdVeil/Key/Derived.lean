import IdVeil.Key.Ring

/-!
Values derived from keys, each computed when it is first asked for. What was derived is no longer
given once the ring has lost the key, and is then forgotten.
-/
namespace IdVeil

/-- The values derived so far, under the ids of their keys. -/
abbrev Memo (δ : Type) := List (Nibble × δ)

namespace Memo

variable {δ : Type}

/-- What is derived from the key with this id, and the memo after looking. -/
def get (derive : SecretKey → δ) (memo : Memo δ) (ring : KeyRing) (id : Nibble) :
    Option δ × Memo δ :=
  match ring.find? id with
  | none => (none, memo.filter fun entry => entry.1 ≠ id)
  | some key =>
    match memo.lookup id with
    | some value => (some value, memo)
    | none => (some (derive key), (id, derive key) :: memo)

/-- The same for an id given as a byte. A byte that is no id finds nothing, nor is anything kept
for it. -/
def getByte (derive : SecretKey → δ) (memo : Memo δ) (ring : KeyRing) (id : UInt8) :
    Option δ × Memo δ :=
  match nibble? id with
  | none => (none, memo)
  | some id => get derive memo ring id

def active (derive : SecretKey → δ) (memo : Memo δ) (ring : KeyRing) :
    Except Error (Nibble × δ) × Memo δ :=
  match get derive memo ring ring.activeId with
  | (some value, memo) => (.ok (ring.activeId, value), memo)
  | (none, memo) => (.error .noActiveKey, memo)

def clear (_ : Memo δ) (ring : KeyRing) : Memo δ × KeyRing := ([], ring.clear)

end Memo

end IdVeil
