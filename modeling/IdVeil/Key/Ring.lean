import IdVeil.Event
import IdVeil.Key.Secret

/-!
Key rings: the active key, under which ids are masked, and the legacy keys, under which they can
still be recovered. A ring keeps its keys until it is cleared, and then has none for good.
-/
namespace IdVeil

/-- No two keys share an id, and as long as there are keys the active one is among them. -/
structure KeyRing where
  activeId : Nibble
  keys : List SecretKey
  distinct : (keys.map SecretKey.id).Nodup
  active_mem : keys ≠ [] → activeId ∈ keys.map SecretKey.id

namespace KeyRing

def single (active : SecretKey) : KeyRing where
  activeId := active.id
  keys := [active]
  distinct := List.nodup_cons.mpr ⟨List.not_mem_nil, List.nodup_nil⟩
  active_mem := fun _ => List.mem_singleton_self active.id

def empty : KeyRing where
  activeId := ⟨0, Nat.zero_lt_succ 15⟩
  keys := []
  distinct := List.nodup_nil
  active_mem := fun h => absurd rfl h

def clear (ring : KeyRing) : KeyRing where
  activeId := ring.activeId
  keys := []
  distinct := List.nodup_nil
  active_mem := fun h => absurd rfl h

/-- The first id in the list that was seen or stands there a second time. -/
def firstRepeated : List Nibble → List Nibble → Option Nibble
  | _, [] => none
  | seen, id :: rest => if id ∈ seen then some id else firstRepeated (id :: seen) rest

theorem firstRepeated_eq_none {seen ids : List Nibble} (h : firstRepeated seen ids = none) :
    ids.Nodup ∧ ∀ id ∈ ids, id ∉ seen := by
  induction ids generalizing seen with
  | nil => simp
  | cons id rest ih =>
    rw [firstRepeated] at h
    split at h
    · contradiction
    · rename_i fresh
      obtain ⟨distinct, unseen⟩ := ih h
      refine ⟨List.nodup_cons.mpr ⟨fun hm => unseen id hm List.mem_cons_self, distinct⟩, ?_⟩
      intro x hx
      rcases List.mem_cons.mp hx with rfl | hx
      · exact fresh
      · exact fun hs => unseen x hx (List.mem_cons_of_mem _ hs)

/-- The ring of an active key and legacy keys, refused for the first id that is used again. -/
def ofKeys (active : SecretKey) (legacy : List SecretKey) : Except ConfigError KeyRing :=
  match h : firstRepeated [] ((active :: legacy).map SecretKey.id) with
  | some id => .error (.duplicateKeyId id.val)
  | none => .ok {
      activeId := active.id
      keys := active :: legacy
      distinct := (firstRepeated_eq_none h).1
      active_mem := fun _ => List.mem_cons_self }

def find? (ring : KeyRing) (id : Nibble) : Option SecretKey :=
  ring.keys.find? fun key => key.id = id

/-- The key with an id given as a byte. A byte that is no id finds nothing. -/
def findByte? (ring : KeyRing) (id : UInt8) : Option SecretKey := (nibble? id).bind ring.find?

def contains (ring : KeyRing) (id : Nibble) : Bool := (ring.find? id).isSome

def active? (ring : KeyRing) : Option SecretKey := ring.find? ring.activeId

def size (ring : KeyRing) : Nat := ring.keys.length

def ids (ring : KeyRing) : List Nibble := (List.finRange 16).filter ring.contains

def created (ring : KeyRing) : Event := .keysCreated ring.activeId ring.size

def cleared (ring : KeyRing) : Event := .keysCleared ring.activeId

def describe (ring : KeyRing) : String :=
  let ids := ", ".intercalate (ring.ids.map fun id => toString id.val)
  s!"KeyManager \x7b active_key_id: {ring.activeId.val}, key_ids: [{ids}] \x7d"

@[simp] theorem find?_clear (ring : KeyRing) (id : Nibble) : ring.clear.find? id = none := rfl

theorem id_of_find? {ring : KeyRing} {id : Nibble} {key : SecretKey}
    (h : ring.find? id = some key) : key.id = id := by
  simpa using List.find?_some h

end KeyRing

end IdVeil
