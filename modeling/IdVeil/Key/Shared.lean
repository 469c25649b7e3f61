import IdVeil.Key.Ring

/-!
A key ring in memory. Its keys are records that it refers to under their ids, and who looks a key up
may hold on to the record. Clearing the ring drops what it refers to, and overwrites a record with
noise when nobody holds it.
-/
namespace IdVeil

/-- The place of a record in memory. -/
abbrev KeyRef := Nat

structure SharedRing where
  activeId : Nibble
  records : List SecretKey
  slots : List (Nibble × KeyRef)
  /-- The records that are held, each as often as it is. -/
  held : List KeyRef := []

namespace SharedRing

def slotsOf (keys : List SecretKey) : List (Nibble × KeyRef) :=
  keys.zipIdx.map fun (key, ref) => (key.id, ref)

def share (ring : KeyRing) : SharedRing where
  activeId := ring.activeId
  records := ring.keys
  slots := slotsOf ring.keys

variable (r : SharedRing)

def ref? (id : Nibble) : Option KeyRef := r.slots.lookup id

/-- What the ring refers to under an id given as a byte. -/
def refByte? (id : UInt8) : Option KeyRef := (nibble? id).bind r.ref?

def read (ref : KeyRef) : Option SecretKey := r.records[ref]?

def find? (id : Nibble) : Option SecretKey := (r.ref? id).bind r.read

def findByte? (id : UInt8) : Option SecretKey := (r.refByte? id).bind r.read

def active? : Option SecretKey := r.find? r.activeId

def size : Nat := r.slots.length

def hold (ref : KeyRef) : SharedRing := { r with held := ref :: r.held }

def release (ref : KeyRef) : SharedRing := { r with held := r.held.erase ref }

/-- Drops all references, and the contents of what nobody holds. -/
def clear (noise : KeyRef → Noise) : SharedRing :=
  let overwritten := fun ref key =>
    if ref ∈ r.slots.map Prod.snd ∧ ref ∉ r.held then SecretKey.overwrite key (noise ref) else key
  { r with records := r.records.mapIdx overwritten, slots := [] }

end SharedRing

end IdVeil
