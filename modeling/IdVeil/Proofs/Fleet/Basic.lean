import IdVeil.Proofs.Mask.Stored
import Mathlib.Logic.Function.Basic

/-!
Several masks over one store, used in any order. Besides the uses of the masks a run may clear
masks, their engines, and rings. Nothing in a run changes what the masks are and which of them
share a cache (`call_bare`, `call_sharing`); a use leaves all rings as they are.
-/
namespace IdVeil

structure Fleet {ι : Type} (layouts : ι → Layout) where
  store : Store
  maskers : (i : ι) → Masker (layouts i)

inductive Use {ι : Type} (layouts : ι → Layout) where
  | mask (i : ι) (noise : Noise) (id : (layouts i).Id)
  | unmask (i : ι) (token : String)

inductive Call {ι : Type} (layouts : ι → Layout) where
  | use (u : Use layouts)
  | clear (i : ι)
  | clearEngine (i : ι)
  | clearRing (id : RingId)

inductive Answer {ι : Type} (layouts : ι → Layout) where
  | token (result : Except Error String)
  | id (i : ι) (result : Except Error (layouts i).Id)
  | cleared (result : Except Error Unit)

namespace Fleet

variable {ι : Type} {layouts : ι → Layout}

def clearRing (f : Fleet layouts) (id : RingId) : Fleet layouts :=
  { f with store := (f.store.clearRing id).state }

def mask (f : Fleet layouts) (i : ι) (noise : Noise) (id : (layouts i).Id) : Except Error String :=
  ((f.maskers i).mask f.store noise id).result

def unmask (f : Fleet layouts) (i : ι) (token : String) : Except Error (layouts i).Id :=
  ((f.maskers i).unmask f.store token).result

/-- The ring that the engine of a mask draws keys from. -/
def engineRing (f : Fleet layouts) (i : ι) : KeyRing := f.store.ring (f.maskers i).engineRing

/-- The ring that decides whether the cache of a mask answers. -/
def ring (f : Fleet layouts) (i : ι) : KeyRing := f.store.ring (f.maskers i).ring

def Live (f : Fleet layouts) (i : ι) : Prop := (f.maskers i).idMask.Live (f.ring i)

/-- Whether two masks use one cache. -/
def Sharing (f : Fleet layouts) (i j : ι) : Prop :=
  i = j ∨ (f.maskers i).cache.Meets (f.maskers j).cache

theorem Sharing.eq_of_unshared {f : Fleet layouts} {i j : ι} (sharing : f.Sharing i j)
    (unshared : ∀ id, (f.maskers i).cache ≠ .shared id) : i = j := by
  rcases sharing with same | ⟨id, slot, _⟩
  · exact same
  · exact absurd slot (unshared id)

/-- The masks as they were made, but for caches, and the rings as they are now. -/
def bare (f : Fleet layouts) : Fleet layouts :=
  ⟨{ rings := f.store.rings }, fun i => (f.maskers i).bare⟩

/-- What a use answers when nothing is kept from earlier uses. -/
def freshAnswer (f : Fleet layouts) : Use layouts → Answer layouts
  | .mask i noise id => .token ((f.maskers i).idMask.freshMask (f.engineRing i) noise id)
  | .unmask i token => .id i ((f.maskers i).idMask.freshUnmask (f.engineRing i) token)

def clearedBy (f : Fleet layouts) : Call layouts → Option RingId
  | .use _ => none
  | .clear i => some (f.maskers i).engineRing
  | .clearEngine i => some (f.maskers i).engineRing
  | .clearRing id => some id

theorem freshAnswer_congr {f g : Fleet layouts} (alike : f.bare = g.bare) (u : Use layouts) :
    f.freshAnswer u = g.freshAnswer u := by
  have same := congrArg (fun h : Fleet layouts => h.freshAnswer u) alike
  cases u with
  | mask i noise id => exact same
  | unmask i token => exact same

section

variable (f : Fleet layouts)

theorem mask_frame (i : ι) (noise : Noise) (id : (layouts i).Id) :
    Masker.Frame (f.maskers i) f.store ((f.maskers i).mask f.store noise id).state :=
  Masker.run_frame _ _ _

theorem unmask_frame (i : ι) (token : String) :
    Masker.Frame (f.maskers i) f.store ((f.maskers i).unmask f.store token).state :=
  Masker.run_frame _ _ _

theorem clear_frame (i : ι) :
    Masker.Frame ((f.clearRing (f.maskers i).engineRing).maskers i)
      (f.clearRing (f.maskers i).engineRing).store ((f.maskers i).clear f.store).state :=
  Masker.run_frame _ _ _

theorem clearEngine_frame (i : ι) :
    Masker.Frame ((f.clearRing (f.maskers i).engineRing).maskers i)
      (f.clearRing (f.maskers i).engineRing).store
      ({ f.maskers i with memo := [] }, (f.store.clearRing (f.maskers i).engineRing).state) :=
  ⟨rfl, rfl, Iff.rfl, fun _ => Iff.rfl, fun _ _ => rfl⟩

end

variable [DecidableEq ι]

def put (f : Fleet layouts) (i : ι) (after : Masker (layouts i) × Store) : Fleet layouts :=
  ⟨after.2, Function.update f.maskers i after.1⟩

def use (f : Fleet layouts) : Use layouts → Answer layouts × Fleet layouts
  | .mask i noise id =>
    let done := (f.maskers i).mask f.store noise id
    (.token done.result, f.put i done.state)
  | .unmask i token =>
    let done := (f.maskers i).unmask f.store token
    (.id i done.result, f.put i done.state)

def call (f : Fleet layouts) : Call layouts → Answer layouts × Fleet layouts
  | .use u => f.use u
  | .clear i =>
    let done := (f.maskers i).clear f.store
    (.cleared done.result, f.put i done.state)
  | .clearEngine i =>
    let done := (f.maskers i).keyed.clear f.store
    (.cleared done.result, f.put i ({ f.maskers i with memo := done.state.1.memo }, done.state.2))
  | .clearRing id => (.cleared (f.store.clearRing id).result, f.clearRing id)

def after (f : Fleet layouts) : List (Call layouts) → Fleet layouts
  | [] => f
  | c :: calls => (f.call c).2.after calls

def answers (f : Fleet layouts) : List (Call layouts) → List (Answer layouts)
  | [] => []
  | c :: calls => (f.call c).1 :: (f.call c).2.answers calls

section

variable {f : Fleet layouts} {i : ι} {next : Masker (layouts i) × Store}

theorem put_maskers_self : (f.put i next).maskers i = next.1 := Function.update_self _ _ _

theorem put_maskers_of_ne {k : ι} (h : k ≠ i) : (f.put i next).maskers k = f.maskers k :=
  Function.update_of_ne h _ _

variable (frame : Masker.Frame (f.maskers i) f.store next)
include frame

theorem put_bare : (f.put i next).bare = f.bare := by
  have maskers : (fun k => ((f.put i next).maskers k).bare) = fun k => (f.maskers k).bare := by
    funext k
    by_cases same : k = i
    · subst same
      rw [put_maskers_self, frame.bare]
    · rw [put_maskers_of_ne same]
  have rings : (f.put i next).store.rings = f.store.rings := frame.rings
  rw [bare, bare, maskers, rings]

theorem put_remembers (k : ι) : ((f.put i next).maskers k).Remembers ↔ (f.maskers k).Remembers := by
  by_cases same : k = i
  · subst same
    rw [put_maskers_self]
    exact frame.remembers
  · rw [put_maskers_of_ne same]

theorem put_meets (slot : CacheSlot) (k : ι) :
    ((f.put i next).maskers k).cache.Meets slot ↔ (f.maskers k).cache.Meets slot := by
  by_cases same : k = i
  · subst same
    rw [put_maskers_self]
    exact frame.meets slot
  · rw [put_maskers_of_ne same]

theorem put_sharing (j k : ι) : (f.put i next).Sharing j k ↔ f.Sharing j k := by
  have first := put_meets frame ((f.put i next).maskers k).cache j
  have second := put_meets frame (f.maskers j).cache k
  have swap (a b : CacheSlot) : a.Meets b ↔ b.Meets a := ⟨.symm, .symm⟩
  rw [Sharing, Sharing, first, swap, second, swap]

end

variable (f : Fleet layouts)

theorem use_bare (u : Use layouts) : (f.use u).2.bare = f.bare := by
  cases u with
  | mask i noise id => exact put_bare (f.mask_frame i noise id)
  | unmask i token => exact put_bare (f.unmask_frame i token)

theorem call_bare (c : Call layouts) : (f.call c).2.bare =
    match f.clearedBy c with
    | none => f.bare
    | some id => (f.clearRing id).bare := by
  cases c with
  | use u => exact f.use_bare u
  | clear i => exact put_bare (f.clear_frame i)
  | clearEngine i => exact put_bare (f.clearEngine_frame i)
  | clearRing id => rfl

theorem use_remembers (u : Use layouts) (i : ι) :
    ((f.use u).2.maskers i).Remembers ↔ (f.maskers i).Remembers := by
  cases u with
  | mask k noise id => exact put_remembers (f.mask_frame k noise id) i
  | unmask k token => exact put_remembers (f.unmask_frame k token) i

theorem call_sharing (c : Call layouts) (i j : ι) : (f.call c).2.Sharing i j ↔ f.Sharing i j := by
  cases c with
  | use u =>
    cases u with
    | mask k noise id => exact put_sharing (f.mask_frame k noise id) i j
    | unmask k token => exact put_sharing (f.unmask_frame k token) i j
  | clear k => exact put_sharing (f.clear_frame k) i j
  | clearEngine k => exact put_sharing (f.clearEngine_frame k) i j
  | clearRing id => exact Iff.rfl

variable {f}

theorem call_bare_congr {g : Fleet layouts} (alike : f.bare = g.bare) (c : Call layouts) :
    (f.call c).2.bare = (g.call c).2.bare := by
  have cleared : f.clearedBy c = g.clearedBy c := by
    have same := congrArg (fun h : Fleet layouts => h.clearedBy c) alike
    cases c <;> exact same
  have ring (id : RingId) : (f.clearRing id).bare = (g.clearRing id).bare := by
    have same := congrArg (fun h : Fleet layouts => (h.clearRing id).bare) alike
    exact same
  rw [call_bare, call_bare, cleared]
  cases g.clearedBy c with
  | none => exact alike
  | some id => exact ring id

theorem call_maskers (f : Fleet layouts) (c : Call layouts) (i : ι) :
    ((f.call c).2.maskers i).bare = (f.maskers i).bare := by
  have same := congrArg (fun h : Fleet layouts => h.maskers i) (f.call_bare c)
  cases cleared : f.clearedBy c with
  | none =>
    rw [cleared] at same
    exact same
  | some id =>
    rw [cleared] at same
    exact same

/-- A ring is as it was, or the call cleared it. -/
theorem call_ring (f : Fleet layouts) (c : Call layouts) (id : RingId) :
    (f.call c).2.store.ring id = f.store.ring id ∨
      f.clearedBy c = some id ∧ (f.call c).2.store.ring id = (f.store.ring id).clear := by
  have same := congrArg (fun h : Fleet layouts => h.store.ring id) (f.call_bare c)
  cases cleared : f.clearedBy c with
  | none =>
    rw [cleared] at same
    exact .inl same
  | some id' =>
    rw [cleared] at same
    have ring := f.store.ring_clearRing id' id
    by_cases this : id = id'
    · subst this
      rw [if_pos rfl] at ring
      exact .inr ⟨rfl, same.trans ring⟩
    · rw [if_neg this] at ring
      exact .inl (same.trans ring)

theorem call_clearedBy (f : Fleet layouts) (c c' : Call layouts) :
    (f.call c).2.clearedBy c' = f.clearedBy c' := by
  have engineRing (i : ι) : ((f.call c).2.maskers i).engineRing = (f.maskers i).engineRing := by
    have same := congrArg Masker.engineRing (f.call_maskers c i)
    exact same
  cases c' with
  | use u => rfl
  | clear i => exact congrArg some (engineRing i)
  | clearEngine i => exact congrArg some (engineRing i)
  | clearRing id => rfl

variable (f) (calls : List (Call layouts))

theorem after_maskers (i : ι) : ((f.after calls).maskers i).bare = (f.maskers i).bare := by
  induction calls generalizing f with
  | nil => rfl
  | cons c calls ih => exact (ih (f.call c).2).trans (f.call_maskers c i)

theorem after_sharing (i j : ι) : (f.after calls).Sharing i j ↔ f.Sharing i j := by
  induction calls generalizing f with
  | nil => exact Iff.rfl
  | cons c calls ih => exact (ih (f.call c).2).trans (f.call_sharing c i j)

theorem after_uses_bare (us : List (Use layouts)) : (f.after (us.map .use)).bare = f.bare := by
  induction us generalizing f with
  | nil => rfl
  | cons u us ih => exact (ih (f.use u).2).trans (f.use_bare u)

theorem after_uses_remembers (us : List (Use layouts)) (i : ι) :
    ((f.after (us.map .use)).maskers i).Remembers ↔ (f.maskers i).Remembers := by
  induction us generalizing f with
  | nil => exact Iff.rfl
  | cons u us ih => exact (ih (f.use u).2).trans (f.use_remembers u i)

theorem after_ring (id : RingId) (kept : ∀ c ∈ calls, f.clearedBy c ≠ some id) :
    (f.after calls).store.ring id = f.store.ring id := by
  induction calls generalizing f with
  | nil => rfl
  | cons c calls ih =>
    have rest : (f.call c).2.store.ring id = f.store.ring id := by
      rcases f.call_ring c id with same | ⟨cleared, _⟩
      · exact same
      · exact absurd cleared (kept c List.mem_cons_self)
    rw [after, ih, rest]
    intro c' member
    rw [call_clearedBy]
    exact kept c' (List.mem_cons_of_mem c member)

/-- Keys are never added to a ring. -/
theorem find?_of_after {id : RingId} {n : Nibble} {key : SecretKey}
    (found : ((f.after calls).store.ring id).find? n = some key) :
    (f.store.ring id).find? n = some key := by
  induction calls generalizing f with
  | nil => exact found
  | cons c calls ih =>
    have rest := ih (f.call c).2 found
    rcases f.call_ring c id with same | ⟨_, cleared⟩
    · rw [same] at rest
      exact rest
    · rw [cleared, KeyRing.find?_clear] at rest
      contradiction

theorem ok_of_toOption {ε α : Type} {x : Except ε α} {a : α} (h : x.toOption = some a) :
    x = .ok a := by
  cases x with
  | error e => contradiction
  | ok b => exact congrArg Except.ok (Option.some.inj h)

theorem error_of_decide {ε α : Type} [DecidableEq ε] {x : Except ε α} {e : ε}
    (h : (match x with | .error e' => decide (e' = e) | .ok _ => false) = true) :
    x = .error e := by
  cases x with
  | error e' => exact congrArg Except.error (of_decide_eq_true h)
  | ok a => contradiction

def sampleKey : SecretKey :=
  ⟨0, [0x00, 0x11, 0x22, 0x33, 0x44, 0x55, 0x66, 0x77,
    0x88, 0x99, 0xaa, 0xbb, 0xcc, 0xdd, 0xee, 0xff]⟩

def otherKey : SecretKey :=
  ⟨0, [0xff, 0xee, 0xdd, 0xcc, 0xbb, 0xaa, 0x99, 0x88,
    0x77, 0x66, 0x55, 0x44, 0x33, 0x22, 0x11, 0x00]⟩

def sampleStore : Store := { rings := [.single sampleKey, .single otherKey] }

end Fleet

end IdVeil
