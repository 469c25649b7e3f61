import IdVeil.Proofs.Mask.Requests

/-!
A mask with a cache gives what it gives from scratch, as long as what its cache answers is what
would be made or read from scratch (`mask_result`, `unmask_result`). Each use leaves the cache in
the relations it was in, if new tokens and newly read texts are in them. Watching the cache makes
no difference.
-/
namespace IdVeil

theorem Watched.cacheView {γ : Type} [ResultCache γ] : CacheView (Watched.cache : Watched γ → γ) where
  remember _ _ _ := rfl
  rememberRead _ _ _ := rfl
  findToken _ _ := rfl
  findId _ _ := rfl
  clear _ := rfl

def MaskState.unwatched (state : MaskState (Watched MemoryCache)) : MaskState MemoryCache :=
  ⟨state.memo, state.cache.map Watched.cache⟩

namespace IdMask

variable {layout : Layout} {m : IdMask layout} {engineRing ring : KeyRing}
  {state : MaskState MemoryCache} {T : Bytes → String → Prop} {I : String → Bytes → Prop}

theorem mask_result (sound : m.SoundMemo engineRing state.memo) {noise : Noise} {id : layout.Id}
    (vouched : m.Live ring → ∀ cache bytes token, state.cache = some cache →
      layout.toBytes id = .ok bytes → (ResultCache.findToken cache bytes).value = some token →
      m.freshToken engineRing noise bytes = .ok token) :
    (m.mask engineRing ring state noise id).result = m.freshMask engineRing noise id := by
  unfold mask freshMask
  cases written : layout.toBytes id with
  | error e => rfl
  | ok bytes =>
    simp only
    cases asked : m.liveCache? ring state with
    | none => exact produce_result sound noise bytes
    | some cache =>
      obtain ⟨live, kept⟩ := liveCache?_eq_some_iff.mp asked
      simp only
      cases found : (ResultCache.findToken cache bytes).value with
      | some token => exact (vouched live cache bytes token kept written found).symm
      | none => exact produce_result sound noise bytes

theorem unmask_result (sound : m.SoundMemo engineRing state.memo) {token : String}
    (vouched : m.Live ring → ∀ cache bytes, state.cache = some cache →
      token.length ≤ maxTokenLength → (ResultCache.findId cache token).value = some bytes →
      (m.freshRead engineRing token).map Prod.snd = layout.ofBytes bytes) :
    (m.unmask engineRing ring state token).result = m.freshUnmask engineRing token := by
  unfold unmask freshUnmask
  split
  · rfl
  · rename_i short
    cases asked : m.liveCache? ring state with
    | none => exact congrArg (Except.map Prod.snd) (accept_result sound token)
    | some cache =>
      obtain ⟨live, kept⟩ := liveCache?_eq_some_iff.mp asked
      simp only
      cases found : (ResultCache.findId cache token).value with
      | some bytes => exact (vouched live cache bytes kept (Nat.le_of_not_lt short) found).symm
      | none => exact congrArg (Except.map Prod.snd) (accept_result sound token)

/-- A token was made from scratch, or found in the cache. -/
theorem MaskStep.fresh_or_found {noise : Noise} {id : layout.Id} {requests : List CacheRequest}
    {done : Outcome (MaskState MemoryCache) String} {token : String}
    (step : m.MaskStep engineRing ring state noise id done requests)
    (sound : m.SoundMemo engineRing state.memo) (answered : done.result = .ok token) :
    (∃ bytes, m.freshToken engineRing noise bytes = .ok token) ∨
      ∃ cache bytes, m.Live ring ∧ state.cache = some cache ∧
        (ResultCache.findToken cache bytes).value = some token := by
  cases step with
  | refused | failed => contradiction
  | uncached _ _ made | made _ _ _ made =>
    have result := (congrArg Outcome.result made).trans answered
    exact .inl ⟨_, (produce_result sound noise _).symm.trans result⟩
  | found _ asked found =>
    cases answered
    obtain ⟨live, kept⟩ := liveCache?_eq_some_iff.mp asked
    exact .inr ⟨_, _, live, kept, congrArg Found.value found⟩

section

variable {cache : MemoryCache} (live : m.Live ring) (kept : state.cache = some cache)
include live kept

theorem mask_of_found {noise : Noise} {id : layout.Id} {bytes : Bytes} {token : String}
    (written : layout.toBytes id = .ok bytes)
    (found : (ResultCache.findToken cache bytes).value = some token) :
    (m.mask engineRing ring state noise id).result = .ok token := by
  unfold mask
  rw [written]
  simp only [liveCache?_eq_some_iff.mpr ⟨live, kept⟩, found]

theorem mask_of_missing (sound : m.SoundMemo engineRing state.memo) {noise : Noise}
    {id : layout.Id} {bytes : Bytes} {token : String} (written : layout.toBytes id = .ok bytes)
    (missing : (ResultCache.findToken cache bytes).value = none)
    (made : m.freshToken engineRing noise bytes = .ok token) :
    (m.mask engineRing ring state noise id).state.cache =
      some (ResultCache.remember (ResultCache.findToken cache bytes).cache bytes token) := by
  unfold mask
  rw [written]
  simp only [liveCache?_eq_some_iff.mpr ⟨live, kept⟩, missing, produce_result sound, made]

theorem unmask_of_found {token : String} {bytes : Bytes} (short : token.length ≤ maxTokenLength)
    (found : (ResultCache.findId cache token).value = some bytes) :
    (m.unmask engineRing ring state token).result = layout.ofBytes bytes := by
  unfold unmask
  rw [if_neg (Nat.not_lt_of_le short)]
  simp only [liveCache?_eq_some_iff.mpr ⟨live, kept⟩, found]

theorem unmask_of_missing (sound : m.SoundMemo engineRing state.memo) {token : String}
    {bytes : Bytes} {id : layout.Id} (short : token.length ≤ maxTokenLength)
    (missing : (ResultCache.findId cache token).value = none)
    (read : m.freshRead engineRing token = .ok (bytes, id)) :
    (m.unmask engineRing ring state token).state.cache =
      some (ResultCache.rememberRead (ResultCache.findId cache token).cache token bytes) := by
  unfold unmask
  rw [if_neg (Nat.not_lt_of_le short)]
  simp only [liveCache?_eq_some_iff.mpr ⟨live, kept⟩, missing, accept_result sound, read]

end

section

variable {γ : Type} [ResultCache γ] {state : MaskState γ} {noise : Noise} {id : layout.Id}
  {token : String} {requests : List CacheRequest}

theorem MaskStep.soundMemo {done : Outcome (MaskState γ) String}
    (step : m.MaskStep engineRing ring state noise id done requests)
    (sound : m.SoundMemo engineRing state.memo) : m.SoundMemo engineRing done.state.memo := by
  cases step with
  | refused | found => exact sound
  | uncached _ _ made | made _ _ _ made | failed _ _ _ made =>
    exact (congrArg (fun done => m.SoundMemo engineRing done.state) made).mp
      (produce_state sound noise _)

theorem UnmaskStep.soundMemo {done : Outcome (MaskState γ) layout.Id}
    (step : m.UnmaskStep engineRing ring state token done requests)
    (sound : m.SoundMemo engineRing state.memo) : m.SoundMemo engineRing done.state.memo := by
  cases step with
  | long | found => exact sound
  | uncached _ _ read | read _ _ _ read | failed _ _ _ read =>
    exact (congrArg (fun done => m.SoundMemo engineRing done.state) read).mp
      (accept_state sound token)

theorem MaskStep.isSome_cache {done : Outcome (MaskState γ) String}
    (step : m.MaskStep engineRing ring state noise id done requests) :
    done.state.cache.isSome = state.cache.isSome := by
  cases step with
  | refused | uncached => rfl
  | found _ asked | made _ asked | failed _ asked =>
    rw [(liveCache?_eq_some_iff.mp asked).2]
    rfl

theorem UnmaskStep.isSome_cache {done : Outcome (MaskState γ) layout.Id}
    (step : m.UnmaskStep engineRing ring state token done requests) :
    done.state.cache.isSome = state.cache.isSome := by
  cases step with
  | long | uncached => rfl
  | found _ asked | read _ asked | failed _ asked =>
    rw [(liveCache?_eq_some_iff.mp asked).2]
    rfl

end

/-- A mask leaves the cache in the relations it was in, if what it makes is in them. -/
theorem mask_cache (sound : m.SoundMemo engineRing state.memo) {noise : Noise} {id : layout.Id}
    (holds : ∀ cache ∈ state.cache, cache.Holds T I)
    (new : m.Live ring → ∀ bytes token, layout.toBytes id = .ok bytes →
      m.freshToken engineRing noise bytes = .ok token → T (sha256 bytes) token ∧ I token bytes) :
    ∀ cache ∈ (m.mask engineRing ring state noise id).state.cache, cache.Holds T I := by
  have step := m.mask_step engineRing ring state noise id
  rw [step.cache_eq]
  intro cache stored
  obtain ⟨start, kept, rfl⟩ := Option.map_eq_some_iff.mp stored
  refine (holds start kept).journal fun request member writes => ?_
  obtain ⟨bytes, token, live, written, made, _, rfl⟩ := step.of_writes member writes
  exact new live bytes token written ((produce_result sound noise bytes).symm.trans made)

theorem unmask_cache (sound : m.SoundMemo engineRing state.memo) {token : String}
    (holds : ∀ cache ∈ state.cache, cache.Holds T I)
    (new : m.Live ring → ∀ bytes id, m.freshRead engineRing token = .ok (bytes, id) →
      I token bytes) :
    ∀ cache ∈ (m.unmask engineRing ring state token).state.cache, cache.Holds T I := by
  have step := m.unmask_step engineRing ring state token
  rw [step.cache_eq]
  intro cache stored
  obtain ⟨start, kept, rfl⟩ := Option.map_eq_some_iff.mp stored
  refine (holds start kept).journal fun request member writes => ?_
  obtain ⟨bytes, id, live, read, _, rfl⟩ := step.of_writes member writes
  exact new live bytes id ((accept_result sound token).symm.trans read)

/-- Nothing depends on whether a cache is watched. -/
theorem mask_unwatched (state : MaskState (Watched MemoryCache)) (noise : Noise) (id : layout.Id) :
    (m.mask engineRing ring state.unwatched noise id).result =
        (m.mask engineRing ring state noise id).result ∧
      (m.mask engineRing ring state.unwatched noise id).state =
        (m.mask engineRing ring state noise id).state.unwatched := by
  have same := m.mask_view engineRing ring Watched.cacheView state noise id
  exact ⟨congrArg Outcome.result same, congrArg Outcome.state same⟩

theorem unmask_unwatched (state : MaskState (Watched MemoryCache)) (token : String) :
    (m.unmask engineRing ring state.unwatched token).result =
        (m.unmask engineRing ring state token).result ∧
      (m.unmask engineRing ring state.unwatched token).state =
        (m.unmask engineRing ring state token).state.unwatched := by
  have same := m.unmask_view engineRing ring Watched.cacheView state token
  exact ⟨congrArg Outcome.result same, congrArg Outcome.state same⟩

theorem clearState_unwatched (state : MaskState (Watched MemoryCache)) :
    clearState state.unwatched = (clearState state).unwatched :=
  clearState_view Watched.cacheView state

end IdMask

end IdVeil
