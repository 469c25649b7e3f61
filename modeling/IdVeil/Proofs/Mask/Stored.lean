import IdVeil.Proofs.Mask.Cached
import IdVeil.Store

/-!
Masks over a store. An operation on a mask is the same operation on its memo and its cache,
wherever the cache is (`run_result`, `run_stateIn`), and leaves rings and all other caches as they
were.
-/
namespace IdVeil

def CacheSlot.Meets (a b : CacheSlot) : Prop := ∃ id, a = .shared id ∧ b = .shared id

namespace Masker

variable {layout layout' : Layout} {α : Type}

/-- The cache of a mask as it is now, unwatched. -/
def cacheIn (m : Masker layout) (s : Store) : Option MemoryCache :=
  match m.cache with
  | .none => none
  | .own cache => some cache
  | .shared id => s.caches[id]?.map Watched.cache

def stateIn (m : Masker layout) (s : Store) : MaskState MemoryCache := ⟨m.memo, m.cacheIn s⟩

/-- The mask as it was made, but for a cache. -/
def bare (m : Masker layout) : Masker layout := { m with memo := [], cache := .none }

/-- Whether tokens that were made can be answers again. -/
def Remembers (m : Masker layout) : Prop := m.idMask.engine.randomized = false ∧ m.cache ≠ .none

section

variable (m : Masker layout) (s : Store)
  (f : {γ : Type} → [ResultCache γ] → MaskState γ → Outcome (MaskState γ) α)

/-- Operations that treat all caches alike. -/
structure Uniform : Prop where
  isSome : ∀ {γ : Type} [ResultCache γ] (state : MaskState γ),
    (f state).state.cache.isSome = state.cache.isSome
  unwatched : ∀ state : MaskState (Watched MemoryCache),
    (f state.unwatched).result = (f state).result ∧
      (f state.unwatched).state = (f state).state.unwatched

theorem run_result (uniform : Uniform f) : (m.run s f).result = (f (m.stateIn s)).result := by
  unfold run stateIn cacheIn
  cases m.cache with
  | none => rfl
  | own cache => rfl
  | shared id => exact (uniform.unwatched ⟨m.memo, s.caches[id]?⟩).1.symm

theorem run_stateIn (uniform : Uniform f) :
    (m.run s f).state.1.stateIn (m.run s f).state.2 = (f (m.stateIn s)).state := by
  unfold run stateIn cacheIn
  cases m.cache with
  | none =>
    have empty := uniform.isSome (MaskState.mk (γ := MemoryCache) m.memo none)
    exact congrArg (MaskState.mk _) (Option.isNone_iff_eq_none.mp
      (Option.isSome_eq_false_iff.mp empty)).symm
  | own cache =>
    have stored := uniform.isSome (MaskState.mk m.memo (some cache))
    exact congrArg (MaskState.mk _) (Option.getD_of_ne_none (Option.isSome_iff_ne_none.mp stored) _)
  | shared id =>
    have unwatched := (uniform.unwatched ⟨m.memo, s.caches[id]?⟩).2
    have stored := uniform.isSome (MaskState.mk m.memo s.caches[id]?)
    refine Eq.trans ?_ unwatched.symm
    refine congrArg (MaskState.mk _) ?_
    simp only [List.getElem?_modify_eq]
    generalize f ⟨m.memo, s.caches[id]?⟩ = done at stored
    cases before : s.caches[id]? with
    | none =>
      rw [before] at stored
      rw [Option.isNone_iff_eq_none.mp (Option.isSome_eq_false_iff.mp stored)]
      rfl
    | some watched =>
      rw [before] at stored
      have kept := Option.getD_of_ne_none (Option.isSome_iff_ne_none.mp stored) watched
      rw [← kept]
      rfl

structure Frame (m : Masker layout) (s : Store) (after : Masker layout × Store) : Prop where
  bare : after.1.bare = m.bare
  rings : after.2.rings = s.rings
  uncached : after.1.cache = .none ↔ m.cache = .none
  meets : ∀ slot, after.1.cache.Meets slot ↔ m.cache.Meets slot
  elsewhere : ∀ {layout' : Layout} (m' : Masker layout'), ¬ m.cache.Meets m'.cache →
    m'.cacheIn after.2 = m'.cacheIn s

theorem run_frame : Frame m s (m.run s f).state := by
  unfold run
  cases slot : m.cache with
  | none =>
    refine ⟨rfl, rfl, by simp only [slot], ?_, fun _ _ => rfl⟩
    intro other
    simp only [slot]
  | own cache =>
    refine ⟨rfl, rfl, by simp only [slot, reduceCtorEq], ?_, fun _ _ => rfl⟩
    intro other
    simp only [CacheSlot.Meets, slot, reduceCtorEq, false_and, exists_false]
  | shared id =>
    refine ⟨rfl, rfl, by simp only [slot], ?_, ?_⟩
    · intro other
      simp only [slot]
    · intro layout' m' apart
      unfold cacheIn
      cases slot' : m'.cache with
      | none => rfl
      | own cache => rfl
      | shared id' =>
        have differ : id ≠ id' := by
          rintro rfl
          exact apart ⟨id, slot, slot'⟩
        exact congrArg (Option.map Watched.cache) (List.getElem?_modify_ne _ _ differ)

end

/-- A mask with no cache but its own leaves the store as it was. -/
theorem run_store {m : Masker layout} (own : ∀ id, m.cache ≠ .shared id) (s : Store)
    (f : {γ : Type} → [ResultCache γ] → MaskState γ → Outcome (MaskState γ) α) :
    (m.run s f).state.2 = s := by
  unfold run
  cases slot : m.cache with
  | none => rfl
  | own cache => rfl
  | shared id => exact absurd slot (own id)

theorem Frame.remembers {m : Masker layout} {s : Store} {after : Masker layout × Store}
    (frame : Frame m s after) : after.1.Remembers ↔ m.Remembers := by
  have idMask : after.1.idMask = m.idMask := congrArg (fun m => m.bare.idMask) frame.bare
  rw [Remembers, Remembers, idMask, Ne, Ne, frame.uncached]

theorem uniform_mask (m : IdMask layout) (engineRing ring : KeyRing) (noise : Noise)
    (id : layout.Id) : Uniform fun state => m.mask engineRing ring state noise id :=
  ⟨fun state => (m.mask_step engineRing ring state noise id).isSome_cache,
    fun state => IdMask.mask_unwatched state noise id⟩

theorem uniform_unmask (m : IdMask layout) (engineRing ring : KeyRing) (token : String) :
    Uniform fun state => m.unmask engineRing ring state token :=
  ⟨fun state => (m.unmask_step engineRing ring state token).isSome_cache,
    fun state => IdMask.unmask_unwatched state token⟩

theorem uniform_clear : Uniform fun state =>
    ({ result := .ok (), state := IdMask.clearState state } : Outcome _ Unit) :=
  ⟨fun _ => Option.isSome_map, fun state => ⟨rfl, IdMask.clearState_unwatched state⟩⟩

section

variable (m : Masker layout) (s : Store)

theorem mask_result (noise : Noise) (id : layout.Id) : (m.mask s noise id).result =
    (m.idMask.mask (s.ring m.engineRing) (s.ring m.ring) (m.stateIn s) noise id).result :=
  run_result m s _ (uniform_mask _ _ _ noise id)

theorem mask_memo (noise : Noise) (id : layout.Id) : (m.mask s noise id).state.1.memo =
    (m.idMask.mask (s.ring m.engineRing) (s.ring m.ring) (m.stateIn s) noise id).state.memo :=
  congrArg MaskState.memo (run_stateIn m s _ (uniform_mask _ _ _ noise id))

theorem mask_cacheIn (noise : Noise) (id : layout.Id) :
    (m.mask s noise id).state.1.cacheIn (m.mask s noise id).state.2 =
      (m.idMask.mask (s.ring m.engineRing) (s.ring m.ring) (m.stateIn s) noise id).state.cache :=
  congrArg MaskState.cache (run_stateIn m s _ (uniform_mask _ _ _ noise id))

theorem unmask_result (token : String) : (m.unmask s token).result =
    (m.idMask.unmask (s.ring m.engineRing) (s.ring m.ring) (m.stateIn s) token).result :=
  run_result m s _ (uniform_unmask _ _ _ token)

theorem unmask_memo (token : String) : (m.unmask s token).state.1.memo =
    (m.idMask.unmask (s.ring m.engineRing) (s.ring m.ring) (m.stateIn s) token).state.memo :=
  congrArg MaskState.memo (run_stateIn m s _ (uniform_unmask _ _ _ token))

theorem unmask_cacheIn (token : String) :
    (m.unmask s token).state.1.cacheIn (m.unmask s token).state.2 =
      (m.idMask.unmask (s.ring m.engineRing) (s.ring m.ring) (m.stateIn s) token).state.cache :=
  congrArg MaskState.cache (run_stateIn m s _ (uniform_unmask _ _ _ token))

theorem clear_memo : (m.clear s).state.1.memo = [] :=
  congrArg MaskState.memo (run_stateIn m (s.clearRing m.engineRing).state _ uniform_clear)

theorem clear_cacheIn : (m.clear s).state.1.cacheIn (m.clear s).state.2 =
    (m.cacheIn (s.clearRing m.engineRing).state).map ResultCache.clear :=
  congrArg MaskState.cache (run_stateIn m (s.clearRing m.engineRing).state _ uniform_clear)

end

variable {m : Masker layout} {s : Store}

theorem cacheIn_of_meets {m' : Masker layout'} (meets : m.cache.Meets m'.cache) :
    m'.cacheIn s = m.cacheIn s := by
  obtain ⟨id, slot, slot'⟩ := meets
  rw [cacheIn, cacheIn, slot, slot']

/-- The masks that can be made: those of a kind, and those put together by hand. -/
inductive Built : {layout : Layout} → Masker layout → Prop where
  | ofKind (kind : MaskKind) (config : Config) : Built (ofKind kind config)
  | custom {config : Config} {engine : Engine} {engineRing : RingId} {layout : Layout}
      {m : Masker layout} (made : custom config engine engineRing layout = .ok m) : Built m

/-- Nothing was derived, and there is no cache but one of its own that is empty. -/
structure Unused (m : Masker layout) : Prop where
  memo : m.memo = []
  cache : m.cache = .none ∨ ∃ capacity, m.cache = .own (.empty capacity)

theorem Unused.not_shared {m : Masker layout} (unused : m.Unused) (id : CacheId) :
    m.cache ≠ .shared id := by
  rcases unused.cache with none | ⟨capacity, own⟩
  · simp [none]
  · simp [own]

theorem Built.unused {m : Masker layout} (built : m.Built) : m.Unused := by
  cases built with
  | ofKind kind config =>
    refine ⟨rfl, ?_⟩
    rw [Masker.ofKind]
    cases config.cacheSize with
    | none => exact .inl rfl
    | some capacity => exact .inr ⟨capacity, rfl⟩
  | custom made =>
    rename_i config engine engineRing
    rw [Masker.custom] at made
    cases whole : IdMask.custom config engine layout with
    | error e =>
      rw [whole] at made
      contradiction
    | ok idMask =>
      rw [whole] at made
      cases made
      refine ⟨rfl, ?_⟩
      simp only
      cases config.cacheSize with
      | none => exact .inl rfl
      | some capacity => exact .inr ⟨capacity, rfl⟩

end Masker

theorem CacheSlot.Meets.symm {a b : CacheSlot} (h : a.Meets b) : b.Meets a := by
  obtain ⟨id, first, second⟩ := h
  exact ⟨id, second, first⟩

namespace Store

theorem ring_clearRing (s : Store) (cleared id : RingId) :
    (s.clearRing cleared).state.ring id = if id = cleared then (s.ring id).clear else s.ring id := by
  have rings : (s.clearRing cleared).state.ring id =
    (s.rings.modify cleared KeyRing.clear)[id]?.getD .empty := List.getD_eq_getElem?_getD
  have before : s.ring id = s.rings[id]?.getD .empty := List.getD_eq_getElem?_getD
  rw [rings, before]
  by_cases same : id = cleared
  · rw [if_pos same, same, List.getElem?_modify_eq]
    cases s.rings[cleared]? with
    | none => rfl
    | some kept => rfl
  · rw [if_neg same, List.getElem?_modify_ne _ _ (Ne.symm same)]

theorem sound_clearRing {s : Store} {derive : SecretKey → Bytes} {memo : Memo Bytes} {ring : RingId}
    (sound : memo.Sound derive (s.ring ring)) (id : RingId) :
    memo.Sound derive ((s.clearRing id).state.ring ring) := by
  rw [ring_clearRing]
  split
  · exact Memo.sound_of_find?_eq_none (KeyRing.find?_clear _)
  · exact sound

end Store

end IdVeil
