import IdVeil.Proofs.Fleet.PrivateCaches
import IdVeil.Proofs.Mask.Discipline

/-!
Uses that fail leave no trace. What a mask stores in its cache goes with what it answers, whatever
cache it has (`cache_discipline`). In a cache of its own every text stands with the bytes of an id,
whatever was masked, unmasked and cleared before, so that a text that is found there is read. So a
use of the mask that fails leaves its cache, all other caches and all rings as they were.
-/
namespace IdVeil

namespace Masker

variable {layout : Layout} {m : Masker layout} {s s' : Store}

theorem cacheIn_eq_some_iff (unshared : ∀ id, m.cache ≠ .shared id) {cache : MemoryCache} :
    m.cacheIn s = some cache ↔ m.cache = .own cache := by
  unfold cacheIn
  cases slot : m.cache with
  | none => simp
  | own cache' => simp
  | shared id => exact absurd slot (unshared id)

/-- A mask with no cache but its own, in which every text stands with the bytes of an id. -/
structure Tidy (m : Masker layout) : Prop where
  unshared : ∀ id, m.cache ≠ .shared id
  readable : ∀ cache, m.cache = .own cache →
    cache.Holds (fun _ _ => True) fun _ bytes => ∃ id, layout.ofBytes bytes = .ok id

theorem Unused.tidy (unused : m.Unused) : m.Tidy where
  unshared := unused.not_shared
  readable cache own := by
    rcases unused.cache with none | ⟨capacity, empty⟩
    · cases none.symm.trans own
    · cases empty.symm.trans own
      exact MemoryCache.holds_empty capacity

theorem Frame.unshared {after : Masker layout × Store} (frame : Frame m s after)
    (unshared : ∀ id, m.cache ≠ .shared id) (id : CacheId) : after.1.cache ≠ .shared id := by
  intro shared
  obtain ⟨id', before, _⟩ := (frame.meets (.shared id)).mp ⟨id, shared, rfl⟩
  exact unshared id' before

/-- A mask stays tidy where the requests to its cache store no bytes but those of ids. -/
theorem Tidy.of_requests (tidy : m.Tidy) {after : Masker layout × Store}
    (frame : Frame m s after) (requests : List CacheRequest)
    (cache_eq : after.1.cacheIn after.2 =
      (m.cacheIn s).map fun start => (⟨requests⟩ : Journal start).cache)
    (keeps : ∀ request ∈ requests, request.Writes →
      MemoryCache.Keeps (fun _ _ => True) (fun _ bytes => ∃ id, layout.ofBytes bytes = .ok id)
        request) : after.1.Tidy := by
  have unshared := frame.unshared tidy.unshared
  refine ⟨unshared, ?_⟩
  intro cache own
  rw [(cacheIn_eq_some_iff unshared).mpr own] at cache_eq
  obtain ⟨start, before, rfl⟩ := Option.map_eq_some_iff.mp cache_eq.symm
  have stored := tidy.readable start ((cacheIn_eq_some_iff tidy.unshared).mp before)
  exact stored.journal keeps

theorem Tidy.mask (tidy : m.Tidy) (s : Store) (noise : Noise) (id : layout.Id) :
    (m.mask s noise id).state.1.Tidy := by
  have step := m.idMask.mask_step (s.ring m.engineRing) (s.ring m.ring) (m.stateIn s) noise id
  refine tidy.of_requests (run_frame m s _) _ ((m.mask_cacheIn s noise id).trans step.cache_eq) ?_
  intro request member writes
  obtain ⟨bytes, token, _, written, _, _, rfl⟩ := step.of_writes member writes
  exact ⟨trivial, id, Layout.ofBytes_toBytes written⟩

theorem Tidy.unmask (tidy : m.Tidy) (s : Store) (token : String) :
    (m.unmask s token).state.1.Tidy := by
  have step := m.idMask.unmask_step (s.ring m.engineRing) (s.ring m.ring) (m.stateIn s) token
  refine tidy.of_requests (run_frame m s _) _ ((m.unmask_cacheIn s token).trans step.cache_eq) ?_
  intro request member writes
  obtain ⟨bytes, id, _, read, _, rfl⟩ := step.of_writes member writes
  obtain ⟨_, _, _, converted⟩ := IdMask.accept_eq_ok_iff.mp read
  exact ⟨id, converted⟩

theorem Tidy.clear (tidy : m.Tidy) (s : Store) : (m.clear s).state.1.Tidy := by
  have frame : Frame m (s.clearRing m.engineRing).state (m.clear s).state := run_frame m _ _
  refine tidy.of_requests frame [.clear] (m.clear_cacheIn s) ?_
  intro request member _
  cases List.mem_singleton.mp member
  trivial

theorem cache_eq_of_cacheIn_eq {m' : Masker layout} (unshared : ∀ id, m.cache ≠ .shared id)
    (unshared' : ∀ id, m'.cache ≠ .shared id) (same : m'.cacheIn s' = m.cacheIn s) :
    m'.cache = m.cache := by
  unfold cacheIn at same
  cases slot : m.cache with
  | none =>
    cases slot' : m'.cache with
    | none => rfl
    | own cache' => simp [slot, slot'] at same
    | shared id => exact absurd slot' (unshared' id)
  | own cache =>
    cases slot' : m'.cache with
    | none => simp [slot, slot'] at same
    | own cache' => simpa [slot, slot'] using same
    | shared id => exact absurd slot' (unshared' id)
  | shared id => exact absurd slot (unshared id)

theorem Tidy.mask_failed (tidy : m.Tidy) {noise : Noise} {id : layout.Id} {e : Error}
    (failed : (m.mask s noise id).result = .error e) :
    (m.mask s noise id).state.2 = s ∧ (m.mask s noise id).state.1.cache = m.cache := by
  have step := m.idMask.mask_step (s.ring m.engineRing) (s.ring m.ring) (m.stateIn s) noise id
  rw [m.mask_result] at failed
  have kept := (m.mask_cacheIn s noise id).trans (step.cache_of_error failed)
  have unshared := (tidy.mask s noise id).unshared
  exact ⟨run_store tidy.unshared s _, cache_eq_of_cacheIn_eq tidy.unshared unshared kept⟩

theorem Tidy.unmask_failed (tidy : m.Tidy) {token : String} {e : Error}
    (failed : (m.unmask s token).result = .error e) :
    (m.unmask s token).state.2 = s ∧ (m.unmask s token).state.1.cache = m.cache := by
  have step := m.idMask.unmask_step (s.ring m.engineRing) (s.ring m.ring) (m.stateIn s) token
  rw [m.unmask_result] at failed
  -- What is found is read, so that a use that fails has found nothing.
  have reads (cache : MemoryCache) (bytes : Bytes) (own : m.cacheIn s = some cache)
      (found : (ResultCache.findId cache token).value = some bytes) :
      ∃ id, layout.ofBytes bytes = .ok id :=
    (tidy.readable cache ((cacheIn_eq_some_iff tidy.unshared).mp own)).of_findId found
  have kept := (m.unmask_cacheIn s token).trans (step.cache_of_error (fun _ => reads) failed)
  have unshared := (tidy.unmask s token).unshared
  exact ⟨run_store tidy.unshared s _, cache_eq_of_cacheIn_eq tidy.unshared unshared kept⟩

end Masker

namespace Fleet

variable {ι : Type} [DecidableEq ι] {layouts : ι → Layout}

theorem tidy_put {f : Fleet layouts} {i k : ι} {next : Masker (layouts k) × Store}
    (tidy : (f.maskers i).Tidy) (after : i = k → next.1.Tidy) :
    ((f.put k next).maskers i).Tidy := by
  by_cases same : i = k
  · subst same
    rw [put_maskers_self]
    exact after rfl
  · rw [put_maskers_of_ne same]
    exact tidy

theorem tidy_call (f : Fleet layouts) (c : Call layouts) {i : ι} (tidy : (f.maskers i).Tidy) :
    ((f.call c).2.maskers i).Tidy := by
  cases c with
  | use u =>
    cases u with
    | mask k noise id =>
      refine tidy_put tidy ?_
      rintro rfl
      exact tidy.mask f.store noise id
    | unmask k token =>
      refine tidy_put tidy ?_
      rintro rfl
      exact tidy.unmask f.store token
  | clear k =>
    refine tidy_put tidy ?_
    rintro rfl
    exact tidy.clear f.store
  | clearEngine k =>
    refine tidy_put tidy ?_
    rintro rfl
    exact ⟨tidy.unshared, tidy.readable⟩
  | clearRing id => exact tidy

theorem tidy_after (f : Fleet layouts) (calls : List (Call layouts)) {i : ι}
    (tidy : (f.maskers i).Tidy) : ((f.after calls).maskers i).Tidy := by
  induction calls generalizing f with
  | nil => exact tidy
  | cons c calls ih => exact ih (f.call c).2 (f.tidy_call c tidy)

/-- A mask stores what it answers and nothing when it fails, with any cache and at any time. With a
cache of its own, a use that fails leaves the cache as it was, with all rings. -/
theorem cache_discipline :
    (∀ {layout : Layout} {γ : Type} [ResultCache γ] (m : IdMask layout) (engineRing ring : KeyRing)
      (state : MaskState γ), m.Reached engineRing ring state → m.Disciplined engineRing ring state) ∧
    ∀ {ι : Type} [DecidableEq ι] {layouts : ι → Layout} (f : Fleet layouts) (i : ι)
      (calls : List (Call layouts)), (f.maskers i).Built →
      (∀ noise id e, (f.after calls).mask i noise id = .error e →
        ((f.after calls).use (.mask i noise id)).2.store = (f.after calls).store ∧
          (((f.after calls).use (.mask i noise id)).2.maskers i).cache =
            ((f.after calls).maskers i).cache) ∧
      ∀ text e, (f.after calls).unmask i text = .error e →
        ((f.after calls).use (.unmask i text)).2.store = (f.after calls).store ∧
          (((f.after calls).use (.unmask i text)).2.maskers i).cache =
            ((f.after calls).maskers i).cache := by
  refine ⟨fun m engineRing ring state reached => reached.disciplined, ?_⟩
  intro ι _ layouts f i calls built
  have tidy := f.tidy_after calls built.unused.tidy
  constructor
  · intro noise id e failed
    obtain ⟨store, cache⟩ := tidy.mask_failed failed
    exact ⟨store, (congrArg Masker.cache put_maskers_self).trans cache⟩
  · intro text e failed
    obtain ⟨store, cache⟩ := tidy.unmask_failed failed
    exact ⟨store, (congrArg Masker.cache put_maskers_self).trans cache⟩

def storingMask : IdMask .int64 := MaskKind.int64.mask { ring := 0 }

def emptyState : MaskState MemoryCache := ⟨[], some (.empty MemoryCache.defaultCapacity)⟩

def usedFleet : Fleet fun i => (sampleKinds i).layout :=
  (ofKinds sampleStore sampleKinds sampleConfigs).after sampleCalls

theorem cache_discipline_sample :
    storingMask.maskRequests (.single sampleKey) (.single sampleKey) emptyState (fun _ => 0)
        (5 : Int64) =
      [.findToken [0, 0, 0, 0, 0, 0, 0, 5],
        .remember [0, 0, 0, 0, 0, 0, 0, 5] "KSncZGHzOQY_ausco4juLbE"] ∧
      (storingMask.mask (.single sampleKey) (.single sampleKey) emptyState (fun _ => 0)
        (5 : Int64)).result = .ok "KSncZGHzOQY_ausco4juLbE" ∧
      storingMask.maskRequests (.single sampleKey) (KeyRing.single sampleKey).clear emptyState
        (fun _ => 0) (5 : Int64) = [] ∧
      usedFleet.unmask false "?" = .error .decodingFailed ∧
      ((usedFleet.use (.unmask false "?")).2.maskers false).cache =
        (usedFleet.maskers false).cache := by
  have requests : storingMask.maskRequests (.single sampleKey) (.single sampleKey) emptyState
      (fun _ => 0) (5 : Int64) = [.findToken [0, 0, 0, 0, 0, 0, 0, 5],
        .remember [0, 0, 0, 0, 0, 0, 0, 5] "KSncZGHzOQY_ausco4juLbE"] := by decide +kernel
  have failed : usedFleet.unmask false "?" = .error .decodingFailed :=
    error_of_decide (by decide +kernel)
  have member : .remember [0, 0, 0, 0, 0, 0, 0, 5] "KSncZGHzOQY_ausco4juLbE" ∈
      storingMask.maskRequests (.single sampleKey) (.single sampleKey) emptyState (fun _ => 0)
        (5 : Int64) := by
    rw [requests]
    exact List.mem_cons_of_mem _ List.mem_cons_self
  have new (engineRing ring : KeyRing) : storingMask.Reached engineRing ring emptyState :=
    .new engineRing ring emptyState.cache
  obtain ⟨disciplined, clean⟩ := cache_discipline
  have live := disciplined storingMask _ _ _ (new (.single sampleKey) (.single sampleKey))
  have cleared := disciplined storingMask _ _ _ (new (.single sampleKey) (.clear (.single sampleKey)))
  obtain ⟨_, unmasks⟩ := clean (ofKinds sampleStore sampleKinds sampleConfigs) false sampleCalls
    (.ofKind _ _)
  obtain ⟨_, _, _, _, answered, same⟩ := live.mask_writes _ _ _ member trivial
  refine ⟨requests, ?_, (cleared.idle (.inr rfl)).1 _ _, failed, ?_⟩
  · obtain ⟨_, token⟩ := CacheRequest.remember.inj same
    exact answered.trans (congrArg Except.ok token.symm)
  · unfold usedFleet at failed ⊢
    exact (unmasks _ _ failed).2

end Fleet

end IdVeil
