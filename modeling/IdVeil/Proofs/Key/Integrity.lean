import Mathlib.Data.Fintype.Card
import Mathlib.Data.List.Nodup
import IdVeil.Key.Shared
import IdVeil.Store

/-!
What becomes of keys. Keys make a ring when no id is used twice, and the first id that is used again
is reported (`firstRepeated_eq_some`). From then on the ring in memory shows what the ring itself
shows, all of its keys until it is cleared and none from then on (`findByte?_after`), and who holds
a key reads what was put there (`read_after`).
-/
namespace IdVeil

theorem nibble?_eq_some_iff {b : UInt8} {id : Nibble} : nibble? b = some id ↔ b.toNat = id.val := by
  unfold nibble?
  split
  · rw [Option.some.injEq, Fin.ext_iff]
  · next large =>
    have small := id.isLt
    constructor
    · nofun
    · omega

namespace KeyRing

theorem firstRepeated_eq_some {seen ids : List Nibble} {id : Nibble}
    (h : firstRepeated seen ids = some id) : ∃ earlier later, ids = earlier ++ id :: later ∧
      earlier.Nodup ∧ (∀ x ∈ earlier, x ∉ seen) ∧ (id ∈ earlier ∨ id ∈ seen) := by
  induction ids generalizing seen with
  | nil => contradiction
  | cons first rest ih =>
    rw [firstRepeated] at h
    split at h
    · next repeated =>
      cases h
      exact ⟨[], rest, rfl, List.nodup_nil, by simp, .inr repeated⟩
    · next fresh =>
      obtain ⟨earlier, later, rfl, distinct, unseen, again⟩ := ih h
      have other : first ∉ earlier := fun member => unseen first member List.mem_cons_self
      refine ⟨first :: earlier, later, rfl, List.nodup_cons.mpr ⟨other, distinct⟩, ?_, ?_⟩
      · intro x member
        rcases List.mem_cons.mp member with rfl | member
        · exact fresh
        · exact fun before => unseen x member (List.mem_cons_of_mem _ before)
      · rcases again with again | before
        · exact .inl (List.mem_cons_of_mem _ again)
        · rcases List.mem_cons.mp before with rfl | before
          · exact .inl List.mem_cons_self
          · exact .inr before

theorem ofKeys_of_nodup {active : SecretKey} {legacy : List SecretKey}
    (distinct : ((active :: legacy).map SecretKey.id).Nodup) :
    ∃ ring, ofKeys active legacy = .ok ring ∧ ring.activeId = active.id ∧
      ring.keys = active :: legacy := by
  unfold ofKeys
  split
  · next id repeated =>
    obtain ⟨earlier, later, ids, _, _, again | before⟩ := firstRepeated_eq_some repeated
    · rw [ids] at distinct
      exact absurd rfl ((List.nodup_append.mp distinct).2.2 id again id List.mem_cons_self)
    · contradiction
  · exact ⟨_, rfl, rfl, rfl⟩

/-- The ring is refused for the first id that an earlier key has. -/
theorem ofKeys_of_not_nodup {active : SecretKey} {legacy : List SecretKey}
    (repeated : ¬ ((active :: legacy).map SecretKey.id).Nodup) :
    ∃ earlier key later, active :: legacy = earlier ++ key :: later ∧
      (earlier.map SecretKey.id).Nodup ∧ key.id ∈ earlier.map SecretKey.id ∧
      ofKeys active legacy = .error (.duplicateKeyId key.id.val) := by
  unfold ofKeys
  split
  · next id found =>
    obtain ⟨earlierIds, laterIds, ids, distinct, _, again | before⟩ := firstRepeated_eq_some found
    · obtain ⟨earlier, rest, keys, rfl, tail⟩ := List.map_eq_append_iff.mp ids
      obtain ⟨key, later, rfl, rfl, _⟩ := List.map_eq_cons_iff.mp tail
      exact ⟨earlier, key, later, keys, distinct, again, rfl⟩
    · contradiction
  · next fresh => exact absurd (firstRepeated_eq_none fresh).1 repeated

theorem find?_of_mem {ring : KeyRing} {key : SecretKey} (member : key ∈ ring.keys) :
    ring.find? key.id = some key := by
  cases found : ring.find? key.id with
  | none =>
    have other : key.id ≠ key.id := by simpa using List.find?_eq_none.mp found key member
    contradiction
  | some other =>
    have listed := List.mem_of_find?_eq_some found
    rw [List.inj_on_of_nodup_map ring.distinct listed member (id_of_find? found)]

theorem findByte?_eq_some_iff {ring : KeyRing} {id : UInt8} {key : SecretKey} :
    ring.findByte? id = some key ↔ key ∈ ring.keys ∧ key.id.val = id.toNat := by
  rw [findByte?, Option.bind_eq_some_iff]
  constructor
  · rintro ⟨nibble, byte, found⟩
    rw [nibble?_eq_some_iff] at byte
    exact ⟨List.mem_of_find?_eq_some found, by rw [byte, id_of_find? found]⟩
  · rintro ⟨member, byte⟩
    exact ⟨key.id, nibble?_eq_some_iff.mpr byte.symm, find?_of_mem member⟩

theorem findByte?_eq_none_iff {ring : KeyRing} {id : UInt8} :
    ring.findByte? id = none ↔ ∀ key ∈ ring.keys, key.id.val ≠ id.toNat := by
  constructor
  · intro missing key member named
    have found := findByte?_eq_some_iff.mpr ⟨member, named⟩
    simp [missing] at found
  · intro other
    cases found : ring.findByte? id with
    | none => rfl
    | some key =>
      obtain ⟨member, named⟩ := findByte?_eq_some_iff.mp found
      exact absurd named (other key member)

end KeyRing

namespace SharedRing

/-- What callers do with a ring in memory. A look-up leaves something only where what it finds is
held. -/
inductive Request where
  | hold (id : UInt8)
  | release (ref : KeyRef)
  | clear (noise : KeyRef → Noise)

def Request.clears : Request → Bool
  | clear _ => true
  | _ => false

def perform (r : SharedRing) : Request → SharedRing
  | .hold id => match r.refByte? id with
    | none => r
    | some ref => r.hold ref
  | .release ref => r.release ref
  | .clear noise => r.clear noise

def after (r : SharedRing) (requests : List Request) : SharedRing := requests.foldl perform r

theorem lookup_zipIdx (keys : List SecretKey) (start : Nat) (id : Nibble) :
    ((keys.zipIdx start).map fun (key, ref) => (key.id, ref)).lookup id =
      (keys.findIdx? (·.id = id)).map (· + start) := by
  induction keys generalizing start with
  | nil => rfl
  | cons key rest ih =>
    rw [List.zipIdx_cons, List.map_cons, List.lookup_cons, List.findIdx?_cons, ih]
    by_cases same : key.id = id
    · simp [same]
    · have other : (id == key.id) = false := by simpa using Ne.symm same
      rw [other, if_neg (by simpa using same), Option.map_map]
      simp [Function.comp_def, Nat.add_comm, Nat.add_left_comm]

theorem lookup_slotsOf (keys : List SecretKey) (id : Nibble) :
    (slotsOf keys).lookup id = keys.findIdx? (·.id = id) := by
  rw [slotsOf, lookup_zipIdx]
  simp

/-- Under an id a ring refers to the record of the key that it has under the id. -/
theorem lookup_slotsOf_bind (ring : KeyRing) (id : Nibble) :
    ((slotsOf ring.keys).lookup id).bind (ring.keys[·]?) = ring.find? id := by
  rw [lookup_slotsOf, KeyRing.find?, List.find?_eq_bind_findIdx?_getElem?]

@[simp] theorem length_slotsOf (keys : List SecretKey) : (slotsOf keys).length = keys.length := by
  simp [slotsOf]

variable {ring : KeyRing} {cleared : Bool} {r : SharedRing}

/-- What is left of a ring. Its references are there until it is cleared, and so are all its
records. A record that is held is there in any case. -/
structure Keeps (ring : KeyRing) (cleared : Bool) (r : SharedRing) : Prop where
  activeId : r.activeId = ring.activeId
  slots : r.slots = if cleared then [] else slotsOf ring.keys
  records : cleared = false → r.records = ring.keys
  held : ∀ ref ∈ r.held, r.read ref = ring.keys[ref]?

theorem keeps_share (ring : KeyRing) : (share ring).Keeps ring false where
  activeId := rfl
  slots := rfl
  records _ := rfl
  held _ member := by cases member

theorem Keeps.hold (h : r.Keeps ring cleared) {id : Nibble} {ref : KeyRef}
    (found : r.ref? id = some ref) : (r.hold ref).Keeps ring cleared where
  activeId := h.activeId
  slots := h.slots
  records := h.records
  held := by
    intro ref' member
    rcases List.mem_cons.mp member with rfl | member
    · cases cleared with
      | true =>
        rw [ref?, h.slots] at found
        contradiction
      | false => exact congrArg (·[ref']?) (h.records rfl)
    · exact h.held ref' member

theorem Keeps.release (h : r.Keeps ring cleared) (ref : KeyRef) :
    (r.release ref).Keeps ring cleared where
  activeId := h.activeId
  slots := h.slots
  records := h.records
  held ref' member := h.held ref' (List.mem_of_mem_erase member)

theorem read_clear_of_mem_held {ref : KeyRef} (held : ref ∈ r.held) (noise : KeyRef → Noise) :
    (r.clear noise).read ref = r.read ref := by
  have kept : ¬ (ref ∈ r.slots.map Prod.snd ∧ ref ∉ r.held) := fun dropped => dropped.2 held
  simp only [read, clear, List.getElem?_mapIdx, if_neg kept, Option.map_id_fun', id_eq]

theorem Keeps.clear (h : r.Keeps ring cleared) (noise : KeyRef → Noise) :
    (r.clear noise).Keeps ring true where
  activeId := h.activeId
  slots := rfl
  records := nofun
  held ref member := (read_clear_of_mem_held (r := r) member noise).trans (h.held ref member)

theorem Keeps.perform (h : r.Keeps ring cleared) (request : Request) :
    (r.perform request).Keeps ring (cleared || request.clears) := by
  cases request with
  | hold id =>
    simp only [Request.clears, Bool.or_false, SharedRing.perform]
    cases looked : r.refByte? id with
    | none => exact h
    | some ref =>
      obtain ⟨nibble, _, found⟩ := Option.bind_eq_some_iff.mp looked
      exact h.hold found
  | release ref =>
    simp only [Request.clears, Bool.or_false]
    exact h.release ref
  | clear noise =>
    simp only [Request.clears, Bool.or_true]
    exact h.clear noise

theorem Keeps.after (h : r.Keeps ring cleared) (requests : List Request) :
    (r.after requests).Keeps ring (cleared || requests.any Request.clears) := by
  induction requests generalizing r cleared with
  | nil => simpa [SharedRing.after] using h
  | cons request rest ih =>
    rw [List.any_cons, ← Bool.or_assoc]
    exact ih (h.perform request)

theorem Keeps.find?_eq (h : r.Keeps ring cleared) (id : Nibble) :
    r.find? id = if cleared then none else ring.find? id := by
  rw [find?, ref?, h.slots]
  cases cleared with
  | true => rfl
  | false =>
    have records : r.read = (ring.keys[·]?) := funext fun ref => congrArg (·[ref]?) (h.records rfl)
    rw [records]
    exact lookup_slotsOf_bind ring id

theorem Keeps.findByte?_eq (h : r.Keeps ring cleared) (id : UInt8) :
    r.findByte? id = if cleared then none else ring.findByte? id := by
  rw [findByte?, refByte?, Option.bind_assoc]
  change (nibble? id).bind r.find? = _
  rw [funext h.find?_eq]
  cases cleared with
  | true => simp
  | false => rfl

theorem Keeps.active?_eq (h : r.Keeps ring cleared) :
    r.active? = if cleared then none else ring.active? := by
  rw [active?, h.find?_eq, h.activeId, KeyRing.active?]

theorem Keeps.size_eq (h : r.Keeps ring cleared) :
    r.size = if cleared then 0 else ring.size := by
  rw [size, h.slots]
  cases cleared with
  | true => rfl
  | false => exact length_slotsOf ring.keys

/-- What a look-up finds is the place of a key with this id. -/
theorem Keeps.of_refByte? (h : r.Keeps ring cleared) {id : UInt8} {ref : KeyRef}
    (found : r.refByte? id = some ref) :
    ∃ key, ring.keys[ref]? = some key ∧ key.id.val = id.toNat := by
  obtain ⟨nibble, byte, found⟩ := Option.bind_eq_some_iff.mp found
  rw [ref?, h.slots] at found
  cases cleared with
  | true => contradiction
  | false =>
    rw [if_neg Bool.false_ne_true, lookup_slotsOf, List.findIdx?_eq_some_iff_getElem] at found
    obtain ⟨inside, named, _⟩ := found
    refine ⟨ring.keys[ref], List.getElem?_eq_getElem inside, ?_⟩
    rw [of_decide_eq_true named, nibble?_eq_some_iff.mp byte]

theorem keeps_after (ring : KeyRing) (requests : List Request) :
    ((share ring).after requests).Keeps ring (requests.any Request.clears) := by
  have h := (keeps_share ring).after requests
  rwa [Bool.false_or] at h

/-- What a look-up found is read as it was as long as it is held. -/
theorem read_after {id : UInt8} {ref : KeyRef} {earlier later : List Request}
    (found : ((share ring).after earlier).refByte? id = some ref)
    (held : ref ∈ ((share ring).after (earlier ++ later)).held) :
    ∃ key ∈ ring.keys, key.id.val = id.toNat ∧
      ((share ring).after (earlier ++ later)).read ref = some key := by
  obtain ⟨key, place, named⟩ := (keeps_after ring earlier).of_refByte? found
  refine ⟨key, List.mem_of_getElem? place, named, ?_⟩
  rw [(keeps_after ring (earlier ++ later)).held ref held, place]

/-- The ring in memory shows what the ring does, and once it is cleared what a cleared one does. -/
theorem findByte?_after (ring : KeyRing) (requests : List Request) (id : UInt8) :
    ((share ring).after requests).findByte? id =
      (if requests.any Request.clears then ring.clear else ring).findByte? id := by
  rw [(keeps_after ring requests).findByte?_eq]
  split
  · rw [KeyRing.findByte?]
    cases nibble? id with
    | none => rfl
    | some nibble => rfl
  · rfl

end SharedRing

namespace Store

open SharedRing

/-- Keys make a ring exactly when no two ids are the same, and else the first id that an earlier key
has is reported and nothing happens. Whatever is done with a ring, it shows all of its keys and no
others, until it is cleared and shows none, as the ring that masks draw their keys from does. A key
that is held is not lost. -/
theorem keys_integrity (s : Store) (active : SecretKey) (legacy : List SecretKey) :
    (¬ ((active :: legacy).map SecretKey.id).Nodup →
      ∃ earlier key later, active :: legacy = earlier ++ key :: later ∧
        (earlier.map SecretKey.id).Nodup ∧ key.id ∈ earlier.map SecretKey.id ∧
        s.addKeys active legacy = (.error (.duplicateKeyId key.id.val), s, [])) ∧
    (((active :: legacy).map SecretKey.id).Nodup →
      ∃ ring, s.addKeys active legacy = (.ok s.rings.length, { s with rings := s.rings ++ [ring] },
          [.keysCreated active.id (legacy.length + 1)]) ∧
        legacy.length + 1 ≤ 16 ∧
        ∀ requests,
          ((share ring).after requests).activeId = active.id ∧
          ((∀ request ∈ requests, request.clears = false) →
            (∀ id key, ((share ring).after requests).findByte? id = some key ↔
              key ∈ active :: legacy ∧ key.id.val = id.toNat) ∧
            ((share ring).after requests).size = legacy.length + 1 ∧
            ((share ring).after requests).active? = some active) ∧
          ((∃ request ∈ requests, request.clears = true) →
            (∀ id, ((share ring).after requests).findByte? id = none) ∧
            ((share ring).after requests).size = 0 ∧
            ((share ring).after requests).active? = none) ∧
          (∀ later id ref, ((share ring).after requests).refByte? id = some ref →
            ref ∈ ((share ring).after (requests ++ later)).held →
            ∃ key ∈ active :: legacy, key.id.val = id.toNat ∧
              ((share ring).after (requests ++ later)).read ref = some key) ∧
          ∀ id, ((share ring).after requests).findByte? id =
            (if requests.any Request.clears then ring.clear else ring).findByte? id) := by
  refine ⟨?_, ?_⟩
  · intro repeated
    obtain ⟨earlier, key, later, keys, distinct, again, refused⟩ :=
      KeyRing.ofKeys_of_not_nodup repeated
    exact ⟨earlier, key, later, keys, distinct, again, by rw [addKeys, refused]⟩
  · intro distinct
    obtain ⟨ring, made, activeId, keys⟩ := KeyRing.ofKeys_of_nodup distinct
    have count : ring.size = legacy.length + 1 := congrArg List.length keys
    have found : ring.active? = some active := by
      rw [KeyRing.active?, activeId]
      exact KeyRing.find?_of_mem (keys ▸ List.mem_cons_self)
    refine ⟨ring, ?_, ?_, ?_⟩
    · rw [addKeys, made]
      simp only [addRing, KeyRing.created, activeId, count]
    · simpa using distinct.length_le_card
    · intro requests
      have kept := keeps_after ring requests
      refine ⟨kept.activeId.trans activeId, ?_, ?_, ?_, findByte?_after ring requests⟩
      · intro uncleared
        have never : requests.any Request.clears = false := by simpa using uncleared
        rw [never] at kept
        refine ⟨?_, kept.size_eq.trans count, kept.active?_eq.trans found⟩
        intro id key
        rw [kept.findByte?_eq, ← keys]
        exact KeyRing.findByte?_eq_some_iff
      · intro cleared
        have once : requests.any Request.clears = true := List.any_eq_true.mpr cleared
        rw [once] at kept
        exact ⟨kept.findByte?_eq, kept.size_eq, kept.active?_eq⟩
      · intro later id ref looked held
        rw [← keys]
        exact read_after looked held

def sampleActive : SecretKey :=
  ⟨2, [0x00, 0x11, 0x22, 0x33, 0x44, 0x55, 0x66, 0x77,
    0x88, 0x99, 0xaa, 0xbb, 0xcc, 0xdd, 0xee, 0xff]⟩

def sampleLegacy : SecretKey := ⟨1, [0x12, 0x34, 0x56, 0x78, 0x9a, 0xbc, 0xde, 0xf0]⟩

/-- The legacy key is held when the ring is cleared, and is the only one that can still be read. -/
def sampleClearing : List Request := [.hold 1, .clear fun _ _ => 0]

theorem keys_integrity_sample :
    ((sampleActive :: [sampleLegacy]).map SecretKey.id).Nodup ∧
    (∃ ring, ({} : Store).addKeys sampleActive [sampleLegacy] =
        (.ok 0, { rings := [ring] }, [.keysCreated 2 2]) ∧
      ((share ring).after [.hold 1]).findByte? 1 = some sampleLegacy ∧
      ((share ring).after sampleClearing).findByte? 1 = none ∧
      ((share ring).after sampleClearing).read 0 ≠ some sampleActive ∧
      ((share ring).after sampleClearing).read 1 = some sampleLegacy) ∧
    ¬ ((sampleActive :: [sampleLegacy, sampleLegacy]).map SecretKey.id).Nodup ∧
    ({} : Store).addKeys sampleActive [sampleLegacy, sampleLegacy] =
      (.error (.duplicateKeyId 1), {}, []) := by
  have distinct : ((sampleActive :: [sampleLegacy]).map SecretKey.id).Nodup := by decide
  have repeated : ¬ ((sampleActive :: [sampleLegacy, sampleLegacy]).map SecretKey.id).Nodup := by
    decide
  refine ⟨distinct, ?_, repeated, ?_⟩
  · obtain ⟨ring, made, _, law⟩ := (keys_integrity {} sampleActive [sampleLegacy]).2 distinct
    obtain ⟨_, before, _, held, _⟩ := law [.hold 1]
    obtain ⟨_, _, cleared, _⟩ := law sampleClearing
    refine ⟨ring, made, ?_, ?_, ?_, ?_⟩
    · exact ((before (by decide)).1 1 sampleLegacy).mpr ⟨by decide, rfl⟩
    · exact (cleared ⟨_, List.mem_cons_of_mem _ List.mem_cons_self, rfl⟩).1 1
    · cases made
      decide
    · cases made
      obtain ⟨key, member, named, read⟩ := held [.clear fun _ _ => 0] 1 1 rfl (by decide)
      rcases List.mem_cons.mp member with rfl | member
      · exact absurd named (by decide)
      · obtain rfl := List.mem_singleton.mp member
        exact read
  · obtain ⟨earlier, key, later, keys, _, again, refused⟩ :=
      (keys_integrity {} sampleActive [sampleLegacy, sampleLegacy]).1 repeated
    cases earlier with
    | nil => contradiction
    | cons first rest =>
      have member : key ∈ [sampleLegacy, sampleLegacy] := by
        rw [(List.cons.inj keys).2]
        simp
      have same : key = sampleLegacy := by simpa using member
      rw [refused, same]
      rfl

end Store

end IdVeil
