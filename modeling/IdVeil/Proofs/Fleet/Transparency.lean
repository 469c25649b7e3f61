import IdVeil.Proofs.Fleet.Coherence

/-!
When caches cannot be told from none. A mask vouches for another if it would itself give every
answer that the other leaves in a cache. In a coherent fleet whose masks vouch for those they
share a cache with, every use answers as from scratch (`mask_answer`, `unmask_answer`), as long as
no two of the ids that were masked have the same digest. So runs of two such fleets that are alike
but for their caches give the same answers (`answers_congr`).
-/
namespace IdVeil.Fleet

variable {ι : Type} {layouts : ι → Layout}

/-- Mask `i` would give every answer that mask `j` leaves in a cache. -/
structure Vouches (f : Fleet layouts) (i j : ι) : Prop where
  token : ∀ id id' bytes token, (layouts i).toBytes id = .ok bytes →
    (layouts j).toBytes id' = .ok bytes → f.Makes j bytes token → f.Makes i bytes token
  id : ∀ text bytes, text.length ≤ IdMask.maxTokenLength → f.Reads j text bytes →
    ((f.maskers i).idMask.freshRead (f.engineRing i) text).map Prod.snd = (layouts i).ofBytes bytes

def Vouching (f : Fleet layouts) : Prop := ∀ i j, f.Sharing i j → f.Vouches i j

/-- The digests of masked ids tell them apart, as far as caches are shared. -/
def Collisionless (f : Fleet layouts) (masked : ι → Set Bytes) : Prop :=
  ∀ i j, f.Sharing i j → ∀ bytes ∈ masked i, ∀ other ∈ masked j,
    sha256 bytes = sha256 other → other = bytes

variable {f : Fleet layouts} {masked : ι → Set Bytes} {i j : ι}

theorem Reads.ofBytes_eq {text : String} {bytes : Bytes} (read : f.Reads i text bytes) :
    ((f.maskers i).idMask.freshRead (f.engineRing i) text).map Prod.snd =
      (layouts i).ofBytes bytes := by
  obtain ⟨id, read⟩ := read
  rw [read, (IdMask.freshRead_eq_ok_iff.mp read).1]
  rfl

theorem vouches_self (f : Fleet layouts) (i : ι) : f.Vouches i i := by
  constructor
  · intro _ _ bytes token _ _ made
    exact made
  · intro text bytes _ read
    exact read.ofBytes_eq

theorem Private.vouching (isolated : f.Private) : f.Vouching := by
  intro i j sharing
  obtain rfl := isolated i j sharing
  exact f.vouches_self i

theorem Vouches.congr {g : Fleet layouts} (alike : f.bare = g.bare) (h : f.Vouches i j) :
    g.Vouches i j := by
  have makes (k : ι) : f.Makes k = g.Makes k := by
    have same := congrArg (fun h : Fleet layouts => h.Makes k) alike
    exact same
  have reads (k : ι) : f.Reads k = g.Reads k := by
    have same := congrArg (fun h : Fleet layouts => h.Reads k) alike
    exact same
  have fresh (k : ι) : (f.maskers k).idMask.freshRead (f.engineRing k) =
      (g.maskers k).idMask.freshRead (g.engineRing k) := by
    have same := congrArg
      (fun h : Fleet layouts => (h.maskers k).idMask.freshRead (h.engineRing k)) alike
    exact same
  constructor
  · intro id id' bytes token here there made
    rw [← makes] at made ⊢
    exact h.token id id' bytes token here there made
  · intro text bytes short read
    rw [← reads] at read
    rw [← fresh]
    exact h.id text bytes short read

theorem mask_answer (coherent : f.Coherent masked) (vouching : f.Vouching)
    (written : ∀ j, ∀ bytes ∈ masked j, ∃ id, (layouts j).toBytes id = .ok bytes) (noise : Noise)
    {id : (layouts i).Id}
    (distinct : (f.maskers i).Remembers → ∀ bytes, (layouts i).toBytes id = .ok bytes →
      ∀ j, f.Sharing i j → ∀ other ∈ masked j, sha256 bytes = sha256 other → other = bytes) :
    f.mask i noise id = (f.maskers i).idMask.freshMask (f.engineRing i) noise id := by
  have sound : (f.maskers i).idMask.SoundMemo (f.engineRing i)
    ((f.maskers i).stateIn f.store).memo := coherent.memo i
  rw [mask, Masker.mask_result]
  refine IdMask.mask_result sound ?_
  intro live cache bytes token held here found
  obtain ⟨j, sharing, other, known, digest, made⟩ :=
    (coherent.cache i live cache held).of_findToken found
  have remembers : (f.maskers i).Remembers := by
    refine ⟨live.1, ?_⟩
    intro uncached
    rw [Masker.stateIn, Masker.cacheIn, uncached] at held
    contradiction
  obtain rfl := distinct remembers bytes here j sharing other known digest
  obtain ⟨id', there⟩ := written j other known
  exact (vouching i j sharing).token id id' other token here there made noise

theorem unmask_answer (coherent : f.Coherent masked) (vouching : f.Vouching) (i : ι)
    (token : String) :
    f.unmask i token = (f.maskers i).idMask.freshUnmask (f.engineRing i) token := by
  have sound : (f.maskers i).idMask.SoundMemo (f.engineRing i)
    ((f.maskers i).stateIn f.store).memo := coherent.memo i
  rw [unmask, Masker.unmask_result]
  refine IdMask.unmask_result sound ?_
  intro live cache bytes held short found
  obtain ⟨j, sharing, read⟩ := (coherent.cache i live cache held).of_findId found
  exact (vouching i j sharing).id token bytes short read

/-- What it takes to make some calls: rings are cleared only where no two masks share a cache. -/
structure Ready (f : Fleet layouts) (masked : ι → Set Bytes) (calls : List (Call layouts)) :
    Prop where
  coherent : f.Coherent masked
  vouching : f.Vouching
  guarded : (∀ c ∈ calls, ∃ u, c = .use u) ∨ f.Private ∧ f.OneRing
  known : ∀ i, ∀ bytes ∈ maskedBy calls i, bytes ∈ masked i

theorem exists_use_of_mem (us : List (Use layouts)) :
    ∀ c ∈ us.map (.use : Use layouts → Call layouts), ∃ u, c = .use u := by
  intro c member
  obtain ⟨u, _, rfl⟩ := List.mem_map.mp member
  exact ⟨u, rfl⟩

theorem Ready.head {c : Call layouts} {calls : List (Call layouts)}
    (ready : f.Ready masked (c :: calls)) : (∃ u, c = .use u) ∨ f.Private ∧ f.OneRing :=
  ready.guarded.imp_left fun uses => uses c List.mem_cons_self

theorem Ready.mask_answer {noise : Noise} {id : (layouts i).Id} {calls : List (Call layouts)}
    (ready : f.Ready masked (.use (.mask i noise id) :: calls))
    (written : ∀ j, ∀ bytes ∈ masked j, ∃ id, (layouts j).toBytes id = .ok bytes)
    (collisionless : f.Collisionless masked) :
    f.mask i noise id = (f.maskers i).idMask.freshMask (f.engineRing i) noise id := by
  apply Fleet.mask_answer ready.coherent ready.vouching written
  intro _ bytes here j sharing other known
  have member := ready.known i bytes ⟨noise, id, List.mem_cons_self, here⟩
  exact collisionless i j sharing bytes member other known

section

variable (unused : ∀ i, (f.maskers i).Unused)
include unused

theorem private_of_unused : f.Private :=
  fun i _ sharing => sharing.eq_of_unshared (unused i).not_shared

theorem coherent_of_unused : f.Coherent masked := by
  constructor
  · intro i
    rw [(unused i).memo]
    exact Memo.sound_nil
  · intro i _ cache held
    rcases (unused i).cache with empty | ⟨capacity, own⟩
    · rw [Masker.cacheIn, empty] at held
      contradiction
    · rw [Masker.cacheIn, own] at held
      cases held
      exact MemoryCache.holds_empty capacity

theorem ready_of_unused {calls : List (Call layouts)}
    (guarded : (∀ c ∈ calls, ∃ u, c = .use u) ∨ f.OneRing) :
    f.Ready (maskedBy calls) calls :=
  have isolated := private_of_unused unused
  ⟨coherent_of_unused unused, isolated.vouching, guarded.imp_right fun oneRing => ⟨isolated, oneRing⟩,
    fun _ _ member => member⟩

end

theorem written_of_maskedBy {calls : List (Call layouts)} {i : ι} {bytes : Bytes}
    (h : bytes ∈ maskedBy calls i) : ∃ id, (layouts i).toBytes id = .ok bytes := by
  obtain ⟨noise, id, _, written⟩ := h
  exact ⟨id, written⟩

variable [DecidableEq ι]

theorem Private.call (isolated : f.Private) (c : Call layouts) : (f.call c).2.Private := by
  intro i j sharing
  exact isolated i j ((f.call_sharing c i j).mp sharing)

theorem OneRing.call (oneRing : f.OneRing) (c : Call layouts) : (f.call c).2.OneRing := by
  intro i
  have engineRing := congrArg Masker.engineRing (f.call_maskers c i)
  have ring := congrArg Masker.ring (f.call_maskers c i)
  exact engineRing.trans ((oneRing i).trans ring.symm)

theorem Vouching.use (vouching : f.Vouching) (u : Use layouts) : (f.use u).2.Vouching := by
  intro i j sharing
  have before := vouching i j ((f.call_sharing (.use u) i j).mp sharing)
  exact before.congr (f.use_bare u).symm

theorem Ready.call {c : Call layouts} {calls : List (Call layouts)}
    (ready : f.Ready masked (c :: calls)) : (f.call c).2.Ready masked calls := by
  constructor
  · apply call_coherent ready.coherent c _ ready.head
    rintro i bytes ⟨noise, id, made, written⟩
    exact ready.known i bytes ⟨noise, id, List.mem_cons.mpr (.inl (List.mem_singleton.mp made)),
      written⟩
  · rcases ready.head with ⟨u, rfl⟩ | ⟨isolated, _⟩
    · exact ready.vouching.use u
    · exact (isolated.call c).vouching
  · rcases ready.guarded with uses | ⟨isolated, oneRing⟩
    · exact .inl fun c' member => uses c' (List.mem_cons_of_mem c member)
    · exact .inr ⟨isolated.call c, oneRing.call c⟩
  · rintro i bytes ⟨noise, id, made, written⟩
    exact ready.known i bytes ⟨noise, id, List.mem_cons_of_mem c made, written⟩

theorem Ready.after {first second : List (Call layouts)}
    (ready : f.Ready masked (first ++ second)) : (f.after first).Ready masked second := by
  induction first generalizing f with
  | nil => exact ready
  | cons c first ih => exact ih ready.call

theorem Ready.done {calls : List (Call layouts)} (ready : f.Ready masked calls) :
    (f.after calls).Ready masked [] := by
  rw [← List.append_nil calls] at ready
  exact ready.after

theorem Collisionless.call (collisionless : f.Collisionless masked) (c : Call layouts) :
    (f.call c).2.Collisionless masked := by
  intro i j sharing
  exact collisionless i j ((f.call_sharing c i j).mp sharing)

theorem Ready.use_answer {u : Use layouts} {calls : List (Call layouts)}
    (ready : f.Ready masked (.use u :: calls))
    (written : ∀ j, ∀ bytes ∈ masked j, ∃ id, (layouts j).toBytes id = .ok bytes)
    (collisionless : f.Collisionless masked) : (f.use u).1 = f.freshAnswer u := by
  cases u with
  | mask i noise id => exact congrArg Answer.token (ready.mask_answer written collisionless)
  | unmask i token =>
    exact congrArg (Answer.id i) (unmask_answer ready.coherent ready.vouching i token)

theorem Collisionless.after (collisionless : f.Collisionless masked) (calls : List (Call layouts)) :
    (f.after calls).Collisionless masked := by
  intro i j sharing
  exact collisionless i j ((f.after_sharing calls i j).mp sharing)

/-- Fleets that are alike but for their caches give the same answers. -/
theorem answers_congr {g : Fleet layouts} {calls : List (Call layouts)} (alike : f.bare = g.bare)
    (first : f.Ready masked calls) (second : g.Ready masked calls)
    (written : ∀ j, ∀ bytes ∈ masked j, ∃ id, (layouts j).toBytes id = .ok bytes)
    (collisionless : f.Collisionless masked) (collisionless' : g.Collisionless masked) :
    f.answers calls = g.answers calls := by
  -- Both fleets change, and stay alike and ready for the calls that are left.
  induction calls generalizing f g with
  | nil => rfl
  | cons c calls ih =>
    have rest := ih (call_bare_congr alike c) first.call second.call (collisionless.call c)
      (collisionless'.call c)
    have answer : (f.call c).1 = (g.call c).1 := by
      cases c with
      | use u =>
        have fresh := freshAnswer_congr alike u
        rw [call, call, first.use_answer written collisionless,
          second.use_answer written collisionless', fresh]
      | clear i => rfl
      | clearEngine i => rfl
      | clearRing id => rfl
    rw [answers, answers, answer, rest]

end IdVeil.Fleet
