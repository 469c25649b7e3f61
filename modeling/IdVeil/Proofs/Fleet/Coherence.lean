import IdVeil.Proofs.Fleet.Basic
import Mathlib.Data.Set.Defs

/-!
What the caches of a fleet may hold. In a coherent fleet the cache of a mask that asks it holds
only tokens that a mask with this cache makes of an id it masked, and only readings that such a
mask makes of a text. Every use keeps a fleet coherent, and so does every clearing, if no two masks
share a cache and each mask draws keys from the ring that its cache goes by.
-/
namespace IdVeil.Fleet

variable {ι : Type} {layouts : ι → Layout}

/-- The token is what the mask makes of the bytes, whatever noise there is. -/
def Makes (f : Fleet layouts) (i : ι) (bytes : Bytes) (token : String) : Prop :=
  ∀ noise, (f.maskers i).idMask.freshToken (f.engineRing i) noise bytes = .ok token

/-- The bytes are what the mask reads in the text. -/
def Reads (f : Fleet layouts) (i : ι) (text : String) (bytes : Bytes) : Prop :=
  ∃ id, (f.maskers i).idMask.freshRead (f.engineRing i) text = .ok (bytes, id)

/-- What the cache of a mask may hold for the bytes that the masks have masked. -/
def HeldToken (f : Fleet layouts) (masked : ι → Set Bytes) (i : ι) (digest : Bytes)
    (token : String) : Prop :=
  ∃ j, f.Sharing i j ∧ ∃ bytes ∈ masked j, digest = sha256 bytes ∧ f.Makes j bytes token

def HeldId (f : Fleet layouts) (i : ι) (text : String) (bytes : Bytes) : Prop :=
  ∃ j, f.Sharing i j ∧ f.Reads j text bytes

structure Coherent (f : Fleet layouts) (masked : ι → Set Bytes) : Prop where
  memo : ∀ i, (f.maskers i).idMask.SoundMemo (f.engineRing i) (f.maskers i).memo
  cache : ∀ i, f.Live i → ∀ cache ∈ (f.maskers i).cacheIn f.store,
    cache.Holds (f.HeldToken masked i) (f.HeldId i)

def Private (f : Fleet layouts) : Prop := ∀ i j, f.Sharing i j → i = j

/-- Each mask draws keys from the ring that its cache goes by. -/
def OneRing (f : Fleet layouts) : Prop := ∀ i, (f.maskers i).engineRing = (f.maskers i).ring

variable {f : Fleet layouts} {masked : ι → Set Bytes} {i j k : ι}

theorem Sharing.symm (h : f.Sharing i j) : f.Sharing j i := by
  rcases h with rfl | meets
  · exact .inl rfl
  · exact .inr meets.symm

theorem Sharing.cacheIn_eq (h : f.Sharing i j) (s : Store) :
    (f.maskers j).cacheIn s = (f.maskers i).cacheIn s := by
  rcases h with rfl | meets
  · rfl
  · exact Masker.cacheIn_of_meets meets

/-- A mask that is still live has lost none of its keys, and so has every mask that could have put
something into its cache. -/
theorem clearRing_coherent (coherent : f.Coherent masked) (isolated : f.Private) (oneRing : f.OneRing)
    (id : RingId) : (f.clearRing id).Coherent masked := by
  have engineRing (i : ι) : (f.clearRing id).engineRing i =
      if (f.maskers i).engineRing = id then (f.engineRing i).clear else f.engineRing i :=
    Store.ring_clearRing _ _ _
  have ring (i : ι) : (f.clearRing id).ring i =
      if (f.maskers i).ring = id then (f.ring i).clear else f.ring i :=
    Store.ring_clearRing _ _ _
  constructor
  · intro i
    exact Store.sound_clearRing (coherent.memo i) id
  · intro i live cache stored
    -- A mask that is live goes by another ring, so what is in its cache was made with keys it has.
    have kept : (f.maskers i).ring ≠ id := by
      intro same
      have active := live.2
      rw [ring, if_pos same] at active
      contradiction
    have live : f.Live i := by
      rw [Live, ring, if_neg kept] at live
      exact live
    have same : (f.clearRing id).engineRing i = f.engineRing i := by
      rw [engineRing, if_neg (oneRing i ▸ kept)]
    apply (coherent.cache i live cache stored).mono
    · rintro digest token ⟨j, sharing, bytes, known, rfl, made⟩
      obtain rfl := isolated i j sharing
      refine ⟨i, sharing, bytes, known, rfl, ?_⟩
      rw [Makes, same]
      exact made
    · rintro text bytes ⟨j, sharing, read⟩
      obtain rfl := isolated i j sharing
      refine ⟨i, sharing, ?_⟩
      rw [Reads, same]
      exact read

/-- Whatever a mask answers with, it or one it shares a cache with would make from scratch. -/
theorem exists_of_mask {noise : Noise} {id : (layouts i).Id} {token : String}
    (coherent : f.Coherent masked) (made : f.mask i noise id = .ok token) :
    ∃ j, f.Sharing i j ∧ ∃ bytes,
      (f.maskers j).idMask.freshToken (f.engineRing j) noise bytes = .ok token := by
  have sound : (f.maskers i).idMask.SoundMemo (f.engineRing i)
    ((f.maskers i).stateIn f.store).memo := coherent.memo i
  rw [mask, Masker.mask_result] at made
  obtain ⟨bytes, fresh⟩ | ⟨cache, _, live, kept, found⟩ :=
    (IdMask.mask_step ..).fresh_or_found sound made
  · exact ⟨i, .inl rfl, bytes, fresh⟩
  · obtain ⟨j, sharing, bytes, _, _, makes⟩ := (coherent.cache i live cache kept).of_findToken found
    exact ⟨j, sharing, bytes, makes noise⟩

variable [DecidableEq ι]

theorem cacheIn_put {next : Masker (layouts i) × Store}
    (frame : Masker.Frame (f.maskers i) f.store next) (sharing : f.Sharing i k) :
    ((f.put i next).maskers k).cacheIn next.2 = next.1.cacheIn next.2 := by
  by_cases self : k = i
  · subst self
    rw [put_maskers_self]
  · rw [put_maskers_of_ne self]
    rcases sharing with rfl | meets
    · exact absurd rfl self
    · exact Masker.cacheIn_of_meets ((frame.meets _).mpr meets)

/-- Those that share the cache of a mask see what it put there, all others what they saw before. -/
theorem cacheIn_put_cases {next : Masker (layouts i) × Store}
    (frame : Masker.Frame (f.maskers i) f.store next) (k : ι) :
    f.Sharing i k ∧ ((f.put i next).maskers k).cacheIn next.2 = next.1.cacheIn next.2 ∨
      ((f.put i next).maskers k).cacheIn next.2 = (f.maskers k).cacheIn f.store := by
  by_cases shared : f.Sharing i k
  · exact .inl ⟨shared, cacheIn_put frame shared⟩
  · have self : k ≠ i := fun same => shared (.inl same.symm)
    have meets : ¬ (f.maskers i).cache.Meets (f.maskers k).cache := fun meets => shared (.inr meets)
    rw [put_maskers_of_ne self]
    exact .inr (frame.elsewhere (f.maskers k) meets)

theorem put_coherent {next : Masker (layouts i) × Store} (coherent : f.Coherent masked)
    (frame : Masker.Frame (f.maskers i) f.store next)
    (memo : (f.maskers i).idMask.SoundMemo (f.engineRing i) next.1.memo)
    (holds : ∀ k, f.Sharing i k → f.Live k → ∀ cache ∈ next.1.cacheIn next.2,
      cache.Holds (f.HeldToken masked k) (f.HeldId k)) : (f.put i next).Coherent masked := by
  have alike := put_bare frame
  have sharing := put_sharing frame
  constructor
  · intro k
    have same : ((f.put i next).maskers k).idMask.SoundMemo ((f.put i next).engineRing k) =
        (f.maskers k).idMask.SoundMemo (f.engineRing k) := by
      have same := congrArg
        (fun g : Fleet layouts => (g.maskers k).idMask.SoundMemo (g.engineRing k)) alike
      exact same
    rw [same]
    by_cases self : k = i
    · subst self
      rw [put_maskers_self]
      exact memo
    · rw [put_maskers_of_ne self]
      exact coherent.memo k
  · intro k live cache stored
    have liveBefore : f.Live k := by
      have same := congrArg (fun g : Fleet layouts => g.Live k) alike
      exact same ▸ live
    have before : cache.Holds (f.HeldToken masked k) (f.HeldId k) := by
      rcases cacheIn_put_cases frame k with ⟨shared, put⟩ | kept
      · exact holds k shared liveBefore cache (put ▸ stored)
      · exact coherent.cache k liveBefore cache (kept ▸ stored)
    apply before.mono
    · rintro digest token ⟨j, shared, bytes, known, rfl, made⟩
      have same := congrArg (fun g : Fleet layouts => g.Makes j bytes token) alike
      exact ⟨j, (sharing k j).mpr shared, bytes, known, rfl, same ▸ made⟩
    · rintro text bytes ⟨j, shared, read⟩
      have same := congrArg (fun g : Fleet layouts => g.Reads j text bytes) alike
      exact ⟨j, (sharing k j).mpr shared, same ▸ read⟩

/-- The bytes of the ids that some calls mask, by the mask that is used. -/
def maskedBy (calls : List (Call layouts)) (i : ι) : Set Bytes :=
  { bytes | ∃ noise id, Call.use (.mask i noise id) ∈ calls ∧ (layouts i).toBytes id = .ok bytes }

theorem mask_coherent (coherent : f.Coherent masked) {noise : Noise} {id : (layouts i).Id}
    (known : ∀ bytes, (layouts i).toBytes id = .ok bytes → bytes ∈ masked i) :
    (f.put i ((f.maskers i).mask f.store noise id).state).Coherent masked := by
  have sound : (f.maskers i).idMask.SoundMemo (f.engineRing i)
    ((f.maskers i).stateIn f.store).memo := coherent.memo i
  refine put_coherent coherent (f.mask_frame i noise id) ?_ ?_
  · rw [Masker.mask_memo]
    exact (IdMask.mask_step ..).soundMemo sound
  · intro k sharing live cache stored
    rw [Masker.mask_cacheIn] at stored
    refine IdMask.mask_cache sound ?_ ?_ cache stored
    · intro before held
      exact coherent.cache k live before (sharing.cacheIn_eq f.store ▸ held)
    · intro liveHere bytes token written made
      constructor
      · refine ⟨i, sharing.symm, bytes, known bytes written, rfl, ?_⟩
        -- Tokens are cached only where they take no entropy, so any noise makes the same one.
        intro noise'
        exact (IdMask.freshToken_noise liveHere.1 noise' noise bytes).trans made
      · exact ⟨i, sharing.symm, id, IdMask.freshRead_of_freshToken written made⟩

theorem unmask_coherent (coherent : f.Coherent masked) (i : ι) (token : String) :
    (f.put i ((f.maskers i).unmask f.store token).state).Coherent masked := by
  have sound : (f.maskers i).idMask.SoundMemo (f.engineRing i)
    ((f.maskers i).stateIn f.store).memo := coherent.memo i
  refine put_coherent coherent (f.unmask_frame i token) ?_ ?_
  · rw [Masker.unmask_memo]
    exact (IdMask.unmask_step ..).soundMemo sound
  · intro k sharing live cache stored
    rw [Masker.unmask_cacheIn] at stored
    refine IdMask.unmask_cache sound ?_ ?_ cache stored
    · intro before held
      exact coherent.cache k live before (sharing.cacheIn_eq f.store ▸ held)
    · intro _ bytes id read
      exact ⟨i, sharing.symm, id, read⟩

theorem call_coherent (coherent : f.Coherent masked) (c : Call layouts)
    (known : ∀ i bytes, bytes ∈ maskedBy [c] i → bytes ∈ masked i)
    (guarded : (∃ u, c = .use u) ∨ f.Private ∧ f.OneRing) : (f.call c).2.Coherent masked := by
  cases c with
  | use u =>
    cases u with
    | mask i noise id =>
      apply mask_coherent coherent
      intro bytes written
      exact known i bytes ⟨noise, id, List.mem_singleton_self _, written⟩
    | unmask i token => exact unmask_coherent coherent i token
  | clear i =>
    obtain ⟨u, impossible⟩ | ⟨isolated, oneRing⟩ := guarded
    · cases impossible
    · have cleared := clearRing_coherent coherent isolated oneRing (f.maskers i).engineRing
      change ((f.clearRing (f.maskers i).engineRing).put i
        ((f.maskers i).clear f.store).state).Coherent masked
      refine put_coherent cleared (f.clear_frame i) ?_ ?_
      · rw [Masker.clear_memo]
        exact Memo.sound_nil
      · intro k sharing live cache stored
        rw [Masker.clear_cacheIn] at stored
        obtain ⟨before, _, rfl⟩ := Option.mem_map.mp stored
        exact MemoryCache.holds_clear before
  | clearEngine i =>
    obtain ⟨u, impossible⟩ | ⟨isolated, oneRing⟩ := guarded
    · cases impossible
    · have cleared := clearRing_coherent coherent isolated oneRing (f.maskers i).engineRing
      change ((f.clearRing (f.maskers i).engineRing).put i
        ({ f.maskers i with memo := [] }, _)).Coherent masked
      refine put_coherent cleared (f.clearEngine_frame i) Memo.sound_nil ?_
      intro k sharing live cache stored
      exact cleared.cache k live cache (sharing.cacheIn_eq _ ▸ stored)
  | clearRing id =>
    obtain ⟨u, impossible⟩ | ⟨isolated, oneRing⟩ := guarded
    · cases impossible
    · exact clearRing_coherent coherent isolated oneRing id

end IdVeil.Fleet
