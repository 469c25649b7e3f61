import IdVeil.Proofs.Fleet.RoundTrip

/-!
Masks with one cache. Entries do not say which mask left them, so a mask answers with what any
other has left: that cannot be told from having no cache exactly when every mask would give every
answer of every other itself (`shared_transparent_iff`).
-/
namespace IdVeil.Fleet

variable {ι : Type} {layouts : ι → Layout} {f : Fleet layouts} {masked : ι → Set Bytes}

def withCache (f : Fleet layouts) (id : CacheId) : Fleet layouts :=
  ⟨f.store, fun i => (f.maskers i).withCache id⟩

def uncached (f : Fleet layouts) : Fleet layouts :=
  ⟨f.store, fun i => { f.maskers i with cache := .none }⟩

/-- The masks are new, deterministic and have their active keys, and the cache is empty. -/
structure Shares (f : Fleet layouts) (id : CacheId) : Prop where
  built : ∀ i, (f.maskers i).Built
  live : ∀ i, f.Live i
  empty : ∃ capacity calls, f.store.caches[id]? = some ⟨.empty capacity, calls⟩

section

variable {id : CacheId}

theorem sharing_withCache (f : Fleet layouts) (id : CacheId) (i j : ι) :
    (f.withCache id).Sharing i j := .inr ⟨id, rfl, rfl⟩

theorem bare_withCache : (f.withCache id).bare = f.bare := rfl

theorem Shares.unused_uncached (h : f.Shares id) (i : ι) : (f.uncached.maskers i).Unused :=
  ⟨(h.built i).unused.memo, .inl rfl⟩

theorem Shares.soundMemo (h : f.Shares id) (i : ι) :
    (f.maskers i).idMask.SoundMemo (f.engineRing i) (f.maskers i).memo := by
  rw [(h.built i).unused.memo]
  exact Memo.sound_nil

theorem Shares.cacheIn (h : f.Shares id) (i : ι) :
    ∃ capacity, ((f.withCache id).maskers i).cacheIn f.store = some (.empty capacity) := by
  obtain ⟨capacity, calls, empty⟩ := h.empty
  exact ⟨capacity, congrArg (Option.map Watched.cache) empty⟩

theorem Shares.coherent (h : f.Shares id) : (f.withCache id).Coherent masked := by
  constructor
  · exact h.soundMemo
  · intro i _ cache held
    obtain ⟨capacity, empty⟩ := h.cacheIn i
    cases empty.symm.trans held
    exact MemoryCache.holds_empty capacity

end

/-- The ids that some uses mask, whatever mask they are masked with. -/
def maskedIn (us : List (Use layouts)) : Set Bytes :=
  { bytes | ∃ i, bytes ∈ maskedBy (us.map .use) i }

theorem collisionless_of_maskedIn {us : List (Use layouts)}
    (distinct : Set.InjOn sha256 (maskedIn us)) : f.Collisionless (maskedBy (us.map .use)) := by
  intro i j _ bytes known other known' same
  exact (distinct ⟨i, known⟩ ⟨j, known'⟩ same).symm

theorem Shares.ready_uncached {id : CacheId} (h : f.Shares id) (us : List (Use layouts)) :
    f.uncached.Ready (maskedBy (us.map .use)) (us.map .use) :=
  ready_of_unused h.unused_uncached (.inl (exists_use_of_mem us))

variable [DecidableEq ι]

theorem answers_of_vouching {id : CacheId} (h : f.Shares id) (vouches : ∀ i j, f.Vouches i j)
    (us : List (Use layouts)) (distinct : Set.InjOn sha256 (maskedIn us)) :
    (f.withCache id).answers (us.map .use) = f.uncached.answers (us.map .use) := by
  have shared : (f.withCache id).Ready (maskedBy (us.map .use)) (us.map .use) := by
    refine ⟨h.coherent, ?_, .inl (exists_use_of_mem us), fun _ _ member => member⟩
    intro i j _
    exact (vouches i j).congr bare_withCache.symm
  exact answers_congr rfl shared (h.ready_uncached us) (fun _ _ => written_of_maskedBy)
    (collisionless_of_maskedIn distinct) (collisionless_of_maskedIn distinct)

section

variable {id : CacheId} (h : f.Shares id)
include h

theorem mask_after_mask {i j : ι} {noise noise' : Noise} {x : (layouts i).Id} {y : (layouts j).Id}
    {bytes : Bytes} {token : String} (here : (layouts i).toBytes x = .ok bytes)
    (there : (layouts j).toBytes y = .ok bytes) (made : f.Makes j bytes token) :
    ((f.withCache id).use (.mask j noise' y)).2.mask i noise x = .ok token := by
  obtain ⟨capacity, empty⟩ := h.cacheIn j
  have frame := (f.withCache id).mask_frame j noise' y
  have remembered := (((f.withCache id).maskers j).mask_cacheIn f.store noise' y).trans
    (IdMask.mask_of_missing (h.live j) empty (h.soundMemo j) there rfl (made noise'))
  have kept := (cacheIn_put frame (sharing_withCache f id j i)).trans remembered
  have live : ((f.withCache id).use (.mask j noise' y)).2.Live i := by
    have same := congrArg (fun g : Fleet layouts => g.Live i) (put_bare frame)
    exact same.mpr (h.live i)
  rw [mask, Masker.mask_result]
  exact IdMask.mask_of_found live kept here (MemoryCache.findToken_remember _ bytes token)

theorem unmask_after_unmask {i j : ι} {text : String} {bytes : Bytes}
    (short : text.length ≤ IdMask.maxTokenLength) (read : f.Reads j text bytes) :
    ((f.withCache id).use (.unmask j text)).2.unmask i text = (layouts i).ofBytes bytes := by
  obtain ⟨x, read⟩ := read
  obtain ⟨capacity, empty⟩ := h.cacheIn j
  have frame := (f.withCache id).unmask_frame j text
  have remembered := (((f.withCache id).maskers j).unmask_cacheIn f.store text).trans
    (IdMask.unmask_of_missing (h.live j) empty (h.soundMemo j) short rfl read)
  have kept := (cacheIn_put frame (sharing_withCache f id j i)).trans remembered
  have live : ((f.withCache id).use (.unmask j text)).2.Live i := by
    have same := congrArg (fun g : Fleet layouts => g.Live i) (put_bare frame)
    exact same.mpr (h.live i)
  rw [unmask, Masker.unmask_result]
  exact IdMask.unmask_of_found live kept short (MemoryCache.findId_rememberRead _ text bytes)

end

section

variable {id : CacheId} (h : f.Shares id)
  (transparent : ∀ us : List (Use layouts), Set.InjOn sha256 (maskedIn us) →
    (f.withCache id).answers (us.map .use) = f.uncached.answers (us.map .use))
include h transparent

/-- The second of two uses answers as from scratch, whatever the first has left in the cache. -/
theorem second_of_transparent {u v : Use layouts} (distinct : Set.InjOn sha256 (maskedIn [u, v])) :
    (((f.withCache id).use u).2.use v).1 = f.freshAnswer v := by
  have second := (List.cons.inj (List.cons.inj (transparent _ distinct)).2).1
  have alone : f.uncached.Ready _ ([u, v].map .use) := h.ready_uncached _
  have collisionless : f.uncached.Collisionless _ := collisionless_of_maskedIn distinct
  have fresh := alone.call.use_answer (fun _ _ => written_of_maskedBy) (collisionless.call _)
  exact second.trans (fresh.trans (freshAnswer_congr (f.uncached.use_bare u) v))

theorem makes_of_transparent {i j : ι} {x : (layouts i).Id} {y : (layouts j).Id} {bytes : Bytes}
    {token : String} (here : (layouts i).toBytes x = .ok bytes)
    (there : (layouts j).toBytes y = .ok bytes) (made : f.Makes j bytes token) :
    f.Makes i bytes token := by
  intro noise
  -- One mask leaves its token, the other is asked for the same bytes: no other bytes have a digest.
  have only : ∀ other ∈ maskedIn [.mask j noise y, .mask i noise x], other = bytes := by
    rintro other ⟨k, noise', z, member, written⟩
    simp only [List.map_cons, List.map_nil, List.mem_cons, List.not_mem_nil, or_false] at member
    rcases member with member | member
    · cases member
      cases written.symm.trans there
      rfl
    · cases member
      cases written.symm.trans here
      rfl
  have distinct : Set.InjOn sha256 (maskedIn [.mask j noise y, .mask i noise x]) :=
    fun a ha b hb _ => (only a ha).trans (only b hb).symm
  have fresh : ((f.withCache id).use (.mask j noise y)).2.mask i noise x =
      (f.maskers i).idMask.freshMask (f.engineRing i) noise x :=
    Answer.token.inj (second_of_transparent h transparent distinct)
  rw [mask_after_mask h here there made, IdMask.freshMask, here] at fresh
  exact fresh.symm

theorem reads_of_transparent {i j : ι} {text : String} {bytes : Bytes}
    (short : text.length ≤ IdMask.maxTokenLength) (read : f.Reads j text bytes) :
    ((f.maskers i).idMask.freshRead (f.engineRing i) text).map Prod.snd =
      (layouts i).ofBytes bytes := by
  have distinct : Set.InjOn sha256 (maskedIn ([.unmask j text, .unmask i text] : List (Use layouts))) := by
    rintro bytes ⟨k, noise', z, member, written⟩
    simp only [List.map_cons, List.map_nil, List.mem_cons, List.not_mem_nil, or_false] at member
    rcases member with member | member
    all_goals cases member
  have fresh : ((f.withCache id).use (.unmask j text)).2.unmask i text =
      (f.maskers i).idMask.freshUnmask (f.engineRing i) text :=
    eq_of_heq (Answer.id.inj (second_of_transparent h transparent distinct)).2
  rw [unmask_after_unmask h short read, IdMask.freshUnmask,
    if_neg (Nat.not_lt_of_le short)] at fresh
  exact fresh.symm

end

/-- A cache that masks share cannot be told from none exactly when every mask would give every
answer of every other itself. -/
theorem shared_transparent_iff (f : Fleet layouts) {id : CacheId} (h : f.Shares id) :
    (∀ us : List (Use layouts), Set.InjOn sha256 (maskedIn us) →
      (f.withCache id).answers (us.map .use) = f.uncached.answers (us.map .use)) ↔
        ∀ i j, f.Vouches i j := by
  constructor
  · intro transparent i j
    constructor
    · intro x y bytes token here there made
      exact makes_of_transparent h transparent here there made
    · intro text bytes short read
      exact reads_of_transparent h transparent short read
  · intro vouches us distinct
    exact answers_of_vouching h vouches us distinct

/-- Two masks of one kind with one cache, whose rings may differ. -/
def sampleShared (rings : Bool → RingId) : Fleet fun _ : Bool => (MaskKind.int64).layout :=
  ofKinds { sampleStore with caches := [⟨.empty MemoryCache.defaultCapacity, []⟩] }
    (fun _ => .int64) fun i => { ring := rings i }

theorem shares_sample : (sampleShared fun _ => 0).Shares 0 :=
  ⟨fun _ => .ofKind _ _, fun _ => ⟨rfl, rfl⟩, _, _, rfl⟩

theorem vouches_sample (i j : Bool) : (sampleShared fun _ => 0).Vouches i j := by
  constructor
  · intro _ _ bytes token _ _ made
    exact made
  · intro text bytes _ read
    exact read.ofBytes_eq

theorem shared_transparent_sample :
    (sampleShared fun _ => 0).Shares 0 ∧
      ∀ us : List (Use fun _ : Bool => (MaskKind.int64).layout), Set.InjOn sha256 (maskedIn us) →
        ((sampleShared fun _ => 0).withCache 0).answers (us.map .use) =
          (sampleShared fun _ => 0).uncached.answers (us.map .use) :=
  ⟨shares_sample, (shared_transparent_iff _ shares_sample).mpr vouches_sample⟩

/-- A mask accepts the token of a mask with another key, which it would reject without the cache. -/
theorem shared_mixes_sample :
    (((sampleShared fun i => if i then 1 else 0).withCache 0).use
        (.mask false (fun _ => 0) (5 : Int64))).2.unmask true "KSncZGHzOQY_ausco4juLbE" =
      .ok (5 : Int64) ∧
    ((sampleShared fun i => if i then 1 else 0).uncached.use
        (.mask false (fun _ => 0) (5 : Int64))).2.unmask true "KSncZGHzOQY_ausco4juLbE" =
      .error (.authentication .mismatch) := by
  constructor
  · have found : @Except.toOption Error Int64
        ((((sampleShared fun i => if i then 1 else 0).withCache 0).use
          (.mask false (fun _ => 0) (5 : Int64))).2.unmask true "KSncZGHzOQY_ausco4juLbE") =
            some 5 := by decide +kernel
    exact ok_of_toOption found
  · apply error_of_decide
    decide +kernel

end IdVeil.Fleet
