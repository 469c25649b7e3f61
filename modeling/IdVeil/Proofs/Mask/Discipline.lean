import IdVeil.Proofs.Mask.Untouched

/-!
What a mask stores in its cache. At any time in the use of a mask (`Reached`), with any cache, a use
that fails stores nothing, masking an id stores the token that it answers and unmasking a text
stores the text as it came (`Reached.disciplined`). A mask whose tokens are drawn at random, or
whose ring is cleared, does not even look.
-/
namespace IdVeil.IdMask

variable {layout : Layout} {γ : Type} [ResultCache γ] {m : IdMask layout}
  {engineRing ring : KeyRing} {state : MaskState γ}

/-- What becomes of a mask, together with its rings at that time. Its rings are cleared, by its
engine or behind its back, and its cache may be shared, so it may be any other at any time. -/
inductive Reached (m : IdMask layout) : KeyRing → KeyRing → MaskState γ → Prop where
  | new (engineRing ring : KeyRing) (cache : Option γ) : Reached m engineRing ring ⟨[], cache⟩
  | mask {engineRing ring : KeyRing} {state : MaskState γ} (noise : Noise) (id : layout.Id)
      (before : Reached m engineRing ring state) :
      Reached m engineRing ring (m.mask engineRing ring state noise id).state
  | unmask {engineRing ring : KeyRing} {state : MaskState γ} (token : String)
      (before : Reached m engineRing ring state) :
      Reached m engineRing ring (m.unmask engineRing ring state token).state
  | forget {engineRing ring : KeyRing} {state : MaskState γ}
      (before : Reached m engineRing ring state) : Reached m engineRing ring ⟨[], state.cache⟩
  | clearEngineRing {engineRing ring : KeyRing} {state : MaskState γ}
      (before : Reached m engineRing ring state) : Reached m engineRing.clear ring state
  | clearRing {engineRing ring : KeyRing} {state : MaskState γ}
      (before : Reached m engineRing ring state) : Reached m engineRing ring.clear state
  | elsewhere {engineRing ring : KeyRing} {state : MaskState γ} (cache : Option γ)
      (before : Reached m engineRing ring state) : Reached m engineRing ring ⟨state.memo, cache⟩

theorem Reached.soundMemo (reached : m.Reached engineRing ring state) :
    m.SoundMemo engineRing state.memo := by
  induction reached with
  | new => exact Memo.sound_nil
  | mask _ _ _ ih => exact (mask_step ..).soundMemo ih
  | unmask _ _ ih => exact (unmask_step ..).soundMemo ih
  | forget => exact Memo.sound_nil
  | clearEngineRing => exact Memo.sound_of_find?_eq_none (KeyRing.find?_clear _)
  | clearRing _ ih => exact ih
  | elsewhere _ _ ih => exact ih

/-- How the requests of a mask go with what it answers. A use of which a journal is kept is the same
use, and leaves the cache as the journal has it. -/
structure Disciplined (m : IdMask layout) (engineRing ring : KeyRing) (state : MaskState γ) :
    Prop where
  mask_journal : ∀ start, state.cache = some start → ∀ noise id,
    m.mask engineRing ring state noise id =
      (m.mask engineRing ring ⟨state.memo, some (Journal.empty start)⟩ noise id).mapState
        (MaskState.map Journal.cache)
  unmask_journal : ∀ start, state.cache = some start → ∀ text,
    m.unmask engineRing ring state text =
      (m.unmask engineRing ring ⟨state.memo, some (Journal.empty start)⟩ text).mapState
        (MaskState.map Journal.cache)
  mask_failed : ∀ noise id e, (m.mask engineRing ring state noise id).result = .error e →
    ∀ request ∈ m.maskRequests engineRing ring state noise id, ¬ request.Writes
  unmask_failed : ∀ text e, (m.unmask engineRing ring state text).result = .error e →
    ∀ request ∈ m.unmaskRequests engineRing ring state text, ¬ request.Writes
  mask_writes : ∀ noise id, ∀ request ∈ m.maskRequests engineRing ring state noise id,
    request.Writes → ∃ key bytes, engineRing.active? = some key ∧ layout.toBytes id = .ok bytes ∧
      let token := m.codec.encode (m.engine.envelope key (noise.take m.engine.entropyLength) bytes)
      (m.mask engineRing ring state noise id).result = .ok token ∧
        request = .remember bytes token
  unmask_writes : ∀ text, ∀ request ∈ m.unmaskRequests engineRing ring state text,
    request.Writes → ∃ envelope bytes id, m.codec.decode text = .ok envelope ∧
      (m.engine.unmask engineRing state.memo envelope).result = .ok bytes ∧
      layout.ofBytes bytes = .ok id ∧
      (m.unmask engineRing ring state text).result = .ok id ∧ request = .rememberRead text bytes
  idle : m.engine.randomized = true ∨ ring.keys = [] →
    (∀ noise id, m.maskRequests engineRing ring state noise id = []) ∧
      ∀ text, m.unmaskRequests engineRing ring state text = []

theorem not_live_of_idle (idle : m.engine.randomized = true ∨ ring.keys = []) : ¬ m.Live ring := by
  rintro ⟨deterministic, held⟩
  rcases idle with randomized | cleared
  · rw [randomized] at deterministic
    contradiction
  · simp [KeyRing.contains, KeyRing.find?, cleared] at held

theorem Reached.disciplined (reached : m.Reached engineRing ring state) :
    m.Disciplined engineRing ring state where
  mask_journal start kept noise id := by
    have same : state = MaskState.map Journal.cache ⟨state.memo, some (Journal.empty start)⟩ :=
      congrArg (MaskState.mk state.memo) kept
    rw [← m.mask_view engineRing ring Journal.cacheView, ← same]
  unmask_journal start kept text := by
    have same : state = MaskState.map Journal.cache ⟨state.memo, some (Journal.empty start)⟩ :=
      congrArg (MaskState.mk state.memo) kept
    rw [← m.unmask_view engineRing ring Journal.cacheView, ← same]
  mask_failed noise id e failed request member writes := by
    obtain ⟨_, _, _, _, _, answered, _⟩ := (m.mask_step ..).of_writes member writes
    rw [failed] at answered
    contradiction
  unmask_failed text e failed request member writes := by
    obtain ⟨_, _, _, _, answered, _⟩ := (m.unmask_step ..).of_writes member writes
    rw [failed] at answered
    contradiction
  mask_writes noise id request member writes := by
    obtain ⟨bytes, token, _, written, made, answered, rfl⟩ :=
      (m.mask_step ..).of_writes member writes
    rw [produce_result reached.soundMemo] at made
    obtain ⟨key, active, _, rfl⟩ := freshToken_eq_ok_iff.mp made
    exact ⟨key, bytes, active, written, answered, rfl⟩
  unmask_writes text request member writes := by
    obtain ⟨bytes, id, _, read, answered, rfl⟩ := (m.unmask_step ..).of_writes member writes
    obtain ⟨envelope, decoded, opened, converted⟩ := accept_eq_ok_iff.mp read
    exact ⟨envelope, bytes, id, decoded, opened, converted, answered, rfl⟩
  idle idle := ⟨fun _ _ => (m.mask_step ..).requests_eq_nil (not_live_of_idle idle),
    fun _ => (m.unmask_step ..).requests_eq_nil (not_live_of_idle idle)⟩

end IdVeil.IdMask
