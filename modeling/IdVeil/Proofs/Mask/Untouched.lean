import IdVeil.Proofs.Mask.Cached

/-!
What makes no difference to a mask. What it derived earlier changes neither an answer nor the cache
(`mask_forget`, `unmask_forget`), and a use that fails leaves the cache as it was, in what it holds
and in what order (`MaskStep.cache_of_error`, `UnmaskStep.cache_of_error`).
-/
namespace IdVeil.IdMask

variable {layout : Layout} {m : IdMask layout} {engineRing ring : KeyRing}
  {state : MaskState MemoryCache} {noise : Noise} {id : layout.Id} {token : String} {e : Error}

theorem mask_forget (sound : m.SoundMemo engineRing state.memo) (ring : KeyRing) (noise : Noise)
    (id : layout.Id) :
    (m.mask engineRing ring state noise id).result =
        (m.mask engineRing ring ⟨[], state.cache⟩ noise id).result ∧
      (m.mask engineRing ring state noise id).state.cache =
        (m.mask engineRing ring ⟨[], state.cache⟩ noise id).state.cache := by
  have made (bytes : Bytes) : (m.produce engineRing state.memo noise bytes).result =
      (m.produce engineRing [] noise bytes).result := produce_result sound noise bytes
  have asked : m.liveCache? ring state = m.liveCache? ring ⟨[], state.cache⟩ := rfl
  unfold mask
  rw [asked]
  cases layout.toBytes id with
  | error e => exact ⟨rfl, rfl⟩
  | ok bytes =>
    simp only
    cases m.liveCache? ring ⟨[], state.cache⟩ with
    | none => exact ⟨made bytes, rfl⟩
    | some cache =>
      simp only [made bytes]
      cases (ResultCache.findToken cache bytes).value with
      | some token => exact ⟨rfl, rfl⟩
      | none => exact ⟨rfl, rfl⟩

theorem unmask_forget (sound : m.SoundMemo engineRing state.memo) (ring : KeyRing)
    (token : String) :
    (m.unmask engineRing ring state token).result =
        (m.unmask engineRing ring ⟨[], state.cache⟩ token).result ∧
      (m.unmask engineRing ring state token).state.cache =
        (m.unmask engineRing ring ⟨[], state.cache⟩ token).state.cache := by
  have read : (m.accept engineRing state.memo token).result =
      (m.accept engineRing [] token).result := accept_result sound token
  have asked : m.liveCache? ring state = m.liveCache? ring ⟨[], state.cache⟩ := rfl
  unfold unmask
  rw [asked]
  split
  · exact ⟨rfl, rfl⟩
  · cases m.liveCache? ring ⟨[], state.cache⟩ with
    | none => exact ⟨congrArg (Except.map Prod.snd) read, rfl⟩
    | some cache =>
      simp only [read]
      cases (ResultCache.findId cache token).value with
      | some bytes => exact ⟨rfl, rfl⟩
      | none => exact ⟨rfl, rfl⟩

theorem MaskStep.cache_of_error {done : Outcome (MaskState MemoryCache) String}
    {requests : List CacheRequest} (step : m.MaskStep engineRing ring state noise id done requests)
    (failed : done.result = .error e) : done.state.cache = state.cache := by
  cases step with
  | refused | uncached => rfl
  | found | made => contradiction
  | failed written asked missing =>
    have same := MemoryCache.cache_of_findToken_eq_none (congrArg Found.value missing)
    rw [missing] at same
    rw [(liveCache?_eq_some_iff.mp asked).2, ← same]

/-- What is found in the cache must be an id, as it is when the mask put it there. -/
theorem UnmaskStep.cache_of_error {done : Outcome (MaskState MemoryCache) layout.Id}
    {requests : List CacheRequest} (step : m.UnmaskStep engineRing ring state token done requests)
    (reads : m.Live ring → ∀ cache bytes, state.cache = some cache →
      (ResultCache.findId cache token).value = some bytes → ∃ id, layout.ofBytes bytes = .ok id)
    (failed : done.result = .error e) : done.state.cache = state.cache := by
  cases step with
  | long | uncached => rfl
  | found short asked found =>
    obtain ⟨live, kept⟩ := liveCache?_eq_some_iff.mp asked
    obtain ⟨id, read⟩ := reads live _ _ kept (congrArg Found.value found)
    cases read.symm.trans failed
  | read => contradiction
  | failed short asked missing =>
    have same := MemoryCache.cache_of_findId_eq_none (congrArg Found.value missing)
    rw [missing] at same
    rw [(liveCache?_eq_some_iff.mp asked).2, ← same]

end IdVeil.IdMask
