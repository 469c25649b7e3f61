/-!
A map that keeps its most recently used entries. Storing an entry and finding one are uses; a
look-up that finds nothing changes nothing.
-/
namespace IdVeil

abbrev Capacity := { n : Nat // 0 < n }

/-- The entries stand with the most recently used first. -/
structure Lru (κ ν : Type) where
  capacity : Capacity
  entries : List (κ × ν)
deriving DecidableEq

namespace Lru

variable {κ ν : Type} [DecidableEq κ]

def empty (capacity : Capacity) : Lru κ ν := ⟨capacity, []⟩

/-- The entries with this one in front, and no other under its key. -/
def front (key : κ) (value : ν) (entries : List (κ × ν)) : List (κ × ν) :=
  (key, value) :: entries.filter fun entry => entry.1 ≠ key

/-- Stores a value, in place of the least recently used one when the map is full. -/
def insert (m : Lru κ ν) (key : κ) (value : ν) : Lru κ ν :=
  { m with entries := (front key value m.entries).take m.capacity.val }

def find (m : Lru κ ν) (key : κ) : Option ν × Lru κ ν :=
  match m.entries.lookup key with
  | none => (none, m)
  | some value => (some value, { m with entries := front key value m.entries })

def clear (m : Lru κ ν) : Lru κ ν := { m with entries := [] }

end Lru

end IdVeil
