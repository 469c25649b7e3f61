import IdVeil.Proofs.Fleet.SharedCache

/-!
Clearing keys for good. A mask whose keys were cleared makes and reads no token any more, if its
cache goes by the ring that it draws keys from, or is never asked (`refuses_of_guarded`). A mask
put together by hand with an engine of another configuration goes by a ring that may still have
its key, and then its cache outlives the keys (`clearing_final_iff`).
-/
namespace IdVeil

theorem Layout.exists_toBytes (layout : Layout) : ∃ id bytes, layout.toBytes id = .ok bytes := by
  cases layout with
  | int64 => exact ⟨(0 : Int64), _, rfl⟩
  | uint64 => exact ⟨(0 : UInt64), _, rfl⟩
  | int32 => exact ⟨(0 : Int32), _, rfl⟩
  | compactInt32 => exact ⟨(0 : Int32), _, rfl⟩
  | int64Pair => exact ⟨((0 : Int64), (0 : Int64)), _, rfl⟩
  | uuid => exact ⟨Uuid.mk ⟨Bytes.zeros 16, rfl⟩, _, rfl⟩
  | uint128 => exact ⟨(0 : BitVec 128), _, rfl⟩
  | bigInteger => exact ⟨Int128.ofInt 0, _, rfl⟩
  | bytes n => exact ⟨(⟨Bytes.zeros n, Bytes.length_zeros n⟩ : FixedBytes n), _, rfl⟩

namespace IdMask

variable {layout : Layout} {m : IdMask layout} {ring : KeyRing}

theorem freshMask_of_lost (lost : ∀ id, ring.find? id = none) (noise : Noise) (id : layout.Id) :
    ∃ e, m.freshMask ring noise id = .error e := by
  cases answer : m.freshMask ring noise id with
  | error e => exact ⟨e, rfl⟩
  | ok token =>
    obtain ⟨bytes, _, made⟩ := freshMask_eq_ok_iff.mp answer
    obtain ⟨key, active, _⟩ := freshToken_eq_ok_iff.mp made
    rw [KeyRing.active?, lost] at active
    contradiction

theorem freshUnmask_of_lost (lost : ∀ id, ring.find? id = none) (token : String) :
    ∃ e, m.freshUnmask ring token = .error e := by
  cases answer : m.freshUnmask ring token with
  | error e => exact ⟨e, rfl⟩
  | ok id =>
    obtain ⟨_, bytes, read⟩ := freshUnmask_eq_ok_iff.mp answer
    obtain ⟨_, key, _, held, _⟩ := freshRead_eq_ok_iff.mp read
    rw [lost] at held
    contradiction

end IdMask

namespace Fleet

variable {ι : Type} {layouts : ι → Layout} {f : Fleet layouts} {i : ι}

/-- A mask that answers nothing but errors. -/
structure Refuses (f : Fleet layouts) (i : ι) : Prop where
  mask : ∀ noise id, ∃ e, f.mask i noise id = .error e
  unmask : ∀ token, ∃ e, f.unmask i token = .error e

/-- A mask whose cache cannot outlive the keys: it goes by the ring of the engine, or it is never
asked. -/
def Guarded (f : Fleet layouts) (i : ι) : Prop :=
  (f.maskers i).engineRing = (f.maskers i).ring ∨ ¬ (f.maskers i).Remembers ∨
    ¬ (f.ring i).contains (f.ring i).activeId

theorem refuses_of_lost (lost : ∀ id, (f.engineRing i).find? id = none)
    (unasked : ¬ (f.Live i ∧ (f.maskers i).Remembers)) : f.Refuses i := by
  -- Whatever was derived, it does not belong to a key of the ring, since there is none.
  have sound : (f.maskers i).idMask.SoundMemo (f.engineRing i)
    ((f.maskers i).stateIn f.store).memo := Memo.sound_of_find?_eq_none lost
  have uncached : f.Live i → ∀ cache, ((f.maskers i).stateIn f.store).cache ≠ some cache := by
    intro live cache held
    refine unasked ⟨live, live.1, fun none => ?_⟩
    rw [Masker.stateIn, Masker.cacheIn, none] at held
    contradiction
  constructor
  · intro noise id
    have fresh : f.mask i noise id = (f.maskers i).idMask.freshMask (f.engineRing i) noise id := by
      rw [mask, Masker.mask_result]
      exact IdMask.mask_result sound fun live cache _ _ held => absurd held (uncached live cache)
    rw [fresh]
    exact IdMask.freshMask_of_lost lost noise id
  · intro token
    have fresh : f.unmask i token = (f.maskers i).idMask.freshUnmask (f.engineRing i) token := by
      rw [unmask, Masker.unmask_result]
      exact IdMask.unmask_result sound fun live cache _ held => absurd held (uncached live cache)
    rw [fresh]
    exact IdMask.freshUnmask_of_lost lost token

variable [DecidableEq ι]

theorem call_remembers (f : Fleet layouts) (c : Call layouts) (i : ι) :
    ((f.call c).2.maskers i).Remembers ↔ (f.maskers i).Remembers := by
  cases c with
  | use u => exact f.use_remembers u i
  | clear k => exact put_remembers (f.clear_frame k) i
  | clearEngine k => exact put_remembers (f.clearEngine_frame k) i
  | clearRing id => exact Iff.rfl

theorem call_activeId (f : Fleet layouts) (c : Call layouts) (id : RingId) :
    ((f.call c).2.store.ring id).activeId = (f.store.ring id).activeId := by
  rcases f.call_ring c id with same | ⟨_, cleared⟩
  · rw [same]
  · rw [cleared]
    rfl

section

variable (f) (calls : List (Call layouts))

theorem after_remembers (i : ι) :
    ((f.after calls).maskers i).Remembers ↔ (f.maskers i).Remembers := by
  induction calls generalizing f with
  | nil => exact Iff.rfl
  | cons c calls ih => exact (ih (f.call c).2).trans (f.call_remembers c i)

theorem after_activeId (id : RingId) :
    ((f.after calls).store.ring id).activeId = (f.store.ring id).activeId := by
  induction calls generalizing f with
  | nil => rfl
  | cons c calls ih => exact (ih (f.call c).2).trans (f.call_activeId c id)

theorem after_clearedBy (c : Call layouts) : (f.after calls).clearedBy c = f.clearedBy c := by
  induction calls generalizing f with
  | nil => rfl
  | cons c' calls ih => exact (ih (f.call c').2).trans (f.call_clearedBy c' c)

theorem idMask_of_after (i : ι) :
    ((f.after calls).maskers i).idMask = (f.maskers i).idMask := by
  have same := congrArg Masker.idMask (f.after_maskers calls i)
  exact same

theorem engineRing_of_after (i : ι) :
    (f.after calls).engineRing i = (f.after calls).store.ring (f.maskers i).engineRing := by
  have same := congrArg Masker.engineRing (f.after_maskers calls i)
  exact congrArg (Store.ring _) same

theorem ring_of_after (i : ι) :
    (f.after calls).ring i = (f.after calls).store.ring (f.maskers i).ring := by
  have same := congrArg Masker.ring (f.after_maskers calls i)
  exact congrArg (Store.ring _) same

theorem live_after_iff (kept : ∀ c ∈ calls, f.clearedBy c ≠ some (f.maskers i).ring) :
    (f.after calls).Live i ↔ f.Live i := by
  rw [Live, Live, idMask_of_after, ring_of_after, f.after_ring calls _ kept, Fleet.ring]

theorem after_append (later : List (Call layouts)) :
    f.after (calls ++ later) = (f.after calls).after later := by
  induction calls generalizing f with
  | nil => rfl
  | cons c calls ih => exact ih (f.call c).2

end

theorem ring_of_clearedBy {c : Call layouts} {id : RingId} (clears : f.clearedBy c = some id) :
    (f.call c).2.store.ring id = (f.store.ring id).clear := by
  have same := congrArg (fun g : Fleet layouts => g.store.ring id) (f.call_bare c)
  rw [clears] at same
  refine same.trans ((f.store.ring_clearRing id id).trans ?_)
  exact if_pos rfl

/-- A ring that was cleared has no key at any later time. -/
theorem lost_after {earlier later : List (Call layouts)} {c : Call layouts} {id : RingId}
    (clears : f.clearedBy c = some id) (n : Nibble) :
    ((f.after (earlier ++ c :: later)).store.ring id).find? n = none := by
  rw [after_append]
  refine Option.eq_none_iff_forall_ne_some.mpr ?_
  intro key found
  have before := find?_of_after _ later found
  rw [ring_of_clearedBy ((f.after_clearedBy earlier c).trans clears),
    KeyRing.find?_clear] at before
  contradiction

theorem refuses_of_guarded (guarded : f.Guarded i) {earlier later : List (Call layouts)}
    {c : Call layouts} (clears : f.clearedBy c = some (f.maskers i).engineRing) :
    (f.after (earlier ++ c :: later)).Refuses i := by
  have lost (n : Nibble) : ((f.after (earlier ++ c :: later)).engineRing i).find? n = none := by
    rw [engineRing_of_after]
    exact lost_after clears n
  apply refuses_of_lost lost
  rintro ⟨live, remembers⟩
  have active := live.2
  rw [ring_of_after, after_activeId, KeyRing.contains] at active
  rcases guarded with one | forgets | inactive
  · rw [← one, lost_after clears] at active
    contradiction
  · exact forgets ((f.after_remembers _ i).mp remembers)
  · obtain ⟨key, held⟩ := Option.isSome_iff_exists.mp active
    apply inactive
    rw [Fleet.ring, KeyRing.contains, find?_of_after _ _ held]
    rfl

omit [DecidableEq ι] in
theorem cacheIn_of_built (built : (f.maskers i).Built) (remembers : (f.maskers i).Remembers) :
    ∃ capacity, (f.maskers i).cacheIn f.store = some (.empty capacity) := by
  rcases built.unused.cache with none | ⟨capacity, own⟩
  · exact absurd none remembers.2
  · refine ⟨capacity, ?_⟩
    rw [Masker.cacheIn, own]

/-- A token that is in the cache is answered with after the keys it was made with are gone. -/
theorem mask_after_clearRing (built : (f.maskers i).Built) (unguarded : ¬ f.Guarded i)
    {key : SecretKey} (active : (f.engineRing i).active? = some key) {id : (layouts i).Id}
    {bytes : Bytes} (written : (layouts i).toBytes id = .ok bytes) (noise : Noise) :
    ∃ token, (f.after [.use (.mask i noise id), .clearRing (f.maskers i).engineRing]).mask i noise
      id = .ok token := by
  simp only [Guarded, not_or, not_not] at unguarded
  obtain ⟨apart, remembers, alive⟩ := unguarded
  obtain ⟨capacity, empty⟩ := cacheIn_of_built built remembers
  have live : f.Live i := ⟨remembers.1, alive⟩
  have sound : (f.maskers i).idMask.SoundMemo (f.engineRing i)
      ((f.maskers i).stateIn f.store).memo := by
    rw [Masker.stateIn, built.unused.memo]
    exact Memo.sound_nil
  have length := (Layout.length_of_toBytes written).trans (f.maskers i).idMask.length_eq.symm
  obtain ⟨token, made⟩ : ∃ token,
      (f.maskers i).idMask.freshToken (f.engineRing i) noise bytes = .ok token :=
    ⟨_, IdMask.freshToken_eq_ok_iff.mpr ⟨key, active, length, rfl⟩⟩
  -- The first use leaves the token in the cache, and clearing the ring of the engine does not
  -- reach the ring that the cache goes by.
  have remembered := ((f.maskers i).mask_cacheIn f.store noise id).trans
    (IdMask.mask_of_missing live empty sound written rfl made)
  have kept := (cacheIn_put (f.mask_frame i noise id) (.inl rfl)).trans remembered
  have live' : (f.after [.use (.mask i noise id), .clearRing (f.maskers i).engineRing]).Live i := by
    refine (f.live_after_iff _ ?_).mpr live
    intro c member same
    simp only [List.mem_cons, List.not_mem_nil, or_false] at member
    rcases member with rfl | rfl
    · cases same
    · exact apart (Option.some.inj same)
  refine ⟨token, ?_⟩
  rw [mask, Masker.mask_result]
  exact IdMask.mask_of_found live' kept written (MemoryCache.findToken_remember _ bytes token)

/-- Clearing the keys of a mask is final, whatever is done before and after and however they are
cleared, exactly if its cache goes by the ring of its engine or is never asked. -/
theorem clearing_final_iff (built : (f.maskers i).Built) {key : SecretKey}
    (active : (f.engineRing i).active? = some key) :
    (∀ earlier c later, f.clearedBy c = some (f.maskers i).engineRing →
      (f.after (earlier ++ c :: later)).Refuses i) ↔ f.Guarded i := by
  constructor
  · intro final
    by_contra unguarded
    obtain ⟨id, bytes, written⟩ := (layouts i).exists_toBytes
    obtain ⟨token, answered⟩ := mask_after_clearRing built unguarded active written fun _ => 0
    have refuses := final [.use (.mask i (fun _ => 0) id)] (.clearRing (f.maskers i).engineRing) [] rfl
    obtain ⟨e, refused⟩ := refuses.mask (fun _ => 0) id
    cases answered.symm.trans refused
  · intro guarded earlier c later clears
    exact refuses_of_guarded guarded clears

theorem clearing_final_sample :
    ((ofKinds sampleStore sampleKinds sampleConfigs).after
      [.use (.mask false (fun _ => 0) (5 : Int64)), .clearRing 0]).Refuses false := by
  have active : ((ofKinds sampleStore sampleKinds sampleConfigs).engineRing false).active? =
      some sampleKey := rfl
  exact (clearing_final_iff (.ofKind (sampleKinds false) (sampleConfigs false)) active).mpr (.inl rfl)
    [.use (.mask false (fun _ => 0) (5 : Int64))] (.clearRing 0) [] rfl

def mixedMasker : Masker .int64 where
  idMask := ⟨Config.eightByte { ring := 1 }, .base64Url, rfl⟩
  engineRing := 1
  ring := 0
  cache := .own (.empty MemoryCache.defaultCapacity)

def mixedFleet : Fleet fun _ : Unit => .int64 := ⟨sampleStore, fun _ => mixedMasker⟩

/-- A mask with the engine of another configuration still answers from its cache after the keys of
the engine are cleared. -/
theorem clearing_final_mixed :
    Masker.custom { ring := 0 } (Config.eightByte { ring := 1 }) 1 .int64 = .ok mixedMasker ∧
      mixedFleet.clearedBy (.clearRing 1) = some (mixedFleet.maskers ()).engineRing ∧
      (mixedFleet.after [.use (.mask () (fun _ => 0) (5 : Int64)), .clearRing 1]).mask ()
        (fun _ => 0) (5 : Int64) = .ok "8PChpitPzX3r4gR5N5SETMI" ∧
      (mixedFleet.uncached.after [.use (.mask () (fun _ => 0) (5 : Int64)), .clearRing 1]).mask ()
        (fun _ => 0) (5 : Int64) = .error .noActiveKey := by
  refine ⟨rfl, rfl, ?_, ?_⟩
  · decide +kernel
  · decide +kernel

end Fleet

end IdVeil
