import IdVeil.Proofs.Cache
import IdVeil.Proofs.Mask.Fresh

/-!
What a mask asks of its cache. A mask gets on with all caches alike (`mask_view`, `unmask_view`), so
its requests can be written down in a journal that passes them on. There are five things that
masking an id may come to, and as many for unmasking a text (`mask_step`, `unmask_step`), each with
the requests on the way and what they leave of the cache.
-/
namespace IdVeil

namespace Found

variable {γ δ α : Type}

def map (view : γ → δ) (found : Found γ α) : Found δ α :=
  ⟨found.value, view found.cache, found.events⟩

end Found

namespace Outcome

variable {σ τ α : Type}

def mapState (f : σ → τ) (done : Outcome σ α) : Outcome τ α :=
  ⟨done.result, f done.state, done.events⟩

end Outcome

/-- One cache seen as another, which answers every request alike. -/
structure CacheView {γ δ : Type} [ResultCache γ] [ResultCache δ] (view : γ → δ) : Prop where
  remember : ∀ cache id token,
    ResultCache.remember (view cache) id token = view (ResultCache.remember cache id token)
  rememberRead : ∀ cache token id,
    ResultCache.rememberRead (view cache) token id = view (ResultCache.rememberRead cache token id)
  findToken : ∀ cache id,
    ResultCache.findToken (view cache) id = (ResultCache.findToken cache id).map view
  findId : ∀ cache token,
    ResultCache.findId (view cache) token = (ResultCache.findId cache token).map view
  clear : ∀ cache, ResultCache.clear (view cache) = view (ResultCache.clear cache)

inductive CacheRequest where
  | remember (id : Bytes) (token : String)
  | rememberRead (token : String) (id : Bytes)
  | findToken (id : Bytes)
  | findId (token : String)
  | clear
deriving DecidableEq, Repr

namespace CacheRequest

/-- Whether something is stored or dropped, and not just looked up. -/
def Writes : CacheRequest → Prop
  | findToken _ => False
  | findId _ => False
  | _ => True

def perform {γ : Type} [ResultCache γ] (cache : γ) : CacheRequest → γ
  | remember id token => ResultCache.remember cache id token
  | rememberRead token id => ResultCache.rememberRead cache token id
  | findToken id => (ResultCache.findToken cache id).cache
  | findId token => (ResultCache.findId cache token).cache
  | clear => ResultCache.clear cache

end CacheRequest

/-- The requests to a cache since it was as at the start. -/
structure Journal {γ : Type} (start : γ) where
  requests : List CacheRequest

namespace Journal

variable {γ : Type} [ResultCache γ] {start : γ}

def empty (start : γ) : Journal start := ⟨[]⟩

/-- The cache as the requests leave it. -/
def cache (j : Journal start) : γ := j.requests.foldl CacheRequest.perform start

def note (j : Journal start) (request : CacheRequest) : Journal start := ⟨j.requests ++ [request]⟩

instance : ResultCache (Journal start) where
  remember j id token := j.note (.remember id token)
  rememberRead j token id := j.note (.rememberRead token id)
  findToken j id :=
    let found := ResultCache.findToken j.cache id
    ⟨found.value, j.note (.findToken id), found.events⟩
  findId j token :=
    let found := ResultCache.findId j.cache token
    ⟨found.value, j.note (.findId token), found.events⟩
  clear j := j.note .clear

theorem cache_note (j : Journal start) (request : CacheRequest) :
    (j.note request).cache = request.perform j.cache := by
  simp [cache, note]

theorem findToken_empty (id : Bytes) : ResultCache.findToken (empty start) id =
    ⟨(ResultCache.findToken start id).value, ⟨[.findToken id]⟩,
      (ResultCache.findToken start id).events⟩ := rfl

theorem findId_empty (token : String) : ResultCache.findId (empty start) token =
    ⟨(ResultCache.findId start token).value, ⟨[.findId token]⟩,
      (ResultCache.findId start token).events⟩ := rfl

theorem cacheView : CacheView (cache : Journal start → γ) where
  remember j id token := (j.cache_note (.remember id token)).symm
  rememberRead j token id := (j.cache_note (.rememberRead token id)).symm
  findToken j id := congrArg (Found.mk _ · _) (j.cache_note (.findToken id)).symm
  findId j token := congrArg (Found.mk _ · _) (j.cache_note (.findId token)).symm
  clear j := (j.cache_note .clear).symm

end Journal

namespace MemoryCache

variable {T : Bytes → String → Prop} {I : String → Bytes → Prop}

/-- Whether what a request stores is in the relations of a cache. -/
def Keeps (T : Bytes → String → Prop) (I : String → Bytes → Prop) : CacheRequest → Prop
  | .remember id token => T (sha256 id) token ∧ I token id
  | .rememberRead token id => I token id
  | _ => True

theorem Holds.perform {c : MemoryCache} (h : c.Holds T I) {request : CacheRequest}
    (keeps : request.Writes → Keeps T I request) : (request.perform c).Holds T I := by
  cases request with
  | remember id token => exact h.remember (keeps trivial).1 (keeps trivial).2
  | rememberRead token id => exact h.rememberRead (keeps trivial)
  | findToken id => exact h.findToken id
  | findId token => exact h.findId token
  | clear => exact holds_clear c

theorem Holds.journal {start : MemoryCache} (h : start.Holds T I) {requests : List CacheRequest}
    (keeps : ∀ request ∈ requests, request.Writes → Keeps T I request) :
    (⟨requests⟩ : Journal start).cache.Holds T I := by
  induction requests generalizing start with
  | nil => exact h
  | cons request requests ih =>
    have first := h.perform (keeps request List.mem_cons_self)
    exact ih first fun request' member => keeps request' (List.mem_cons_of_mem request member)

end MemoryCache

namespace MaskState

variable {γ δ : Type}

def map (view : γ → δ) (state : MaskState γ) : MaskState δ := ⟨state.memo, state.cache.map view⟩

end MaskState

namespace IdMask

variable {layout : Layout} (m : IdMask layout) (engineRing ring : KeyRing)

/-- A cache is asked for tokens and ids that are not drawn at random, while there is an active
key. -/
def Live (m : IdMask layout) (ring : KeyRing) : Prop :=
  m.engine.randomized = false ∧ ring.contains ring.activeId = true

theorem liveCache?_map {γ δ : Type} (view : γ → δ) (state : MaskState γ) :
    m.liveCache? ring (state.map view) = (m.liveCache? ring state).map view := by
  unfold liveCache?
  split
  all_goals rfl

theorem liveCache?_eq_some_iff {m : IdMask layout} {ring : KeyRing} {γ : Type}
    {state : MaskState γ} {cache : γ} :
    m.liveCache? ring state = some cache ↔ m.Live ring ∧ state.cache = some cache := by
  rw [liveCache?, Live]
  constructor
  · intro h
    split at h
    · contradiction
    · rename_i live
      rw [not_or, Bool.not_eq_true, not_not] at live
      exact ⟨live, h⟩
  · rintro ⟨⟨deterministic, active⟩, h⟩
    rw [deterministic, active, if_neg]
    · exact h
    · rintro (h | h)
      · contradiction
      · exact h rfl

theorem liveCache?_none {γ : Type} (memo : Memo Bytes) :
    m.liveCache? ring ⟨memo, (none : Option γ)⟩ = none := by
  simp [liveCache?]

/-- Whether a cache is asked does not depend on what it is. -/
theorem liveCache?_some_cases (memo : Memo Bytes) :
    (∀ {δ : Type} (cache : δ), m.liveCache? ring ⟨memo, some cache⟩ = some cache) ∨
      ∀ {δ : Type} (cache : δ), m.liveCache? ring ⟨memo, some cache⟩ = none := by
  by_cases dead : m.engine.randomized ∨ ¬ ring.contains ring.activeId
  · exact .inr fun _ => if_pos dead
  · exact .inl fun _ => if_neg dead

section

variable {γ δ : Type} [ResultCache γ] [ResultCache δ] {view : γ → δ} (same : CacheView view)
include same

theorem mask_view (state : MaskState γ) (noise : Noise) (id : layout.Id) :
    m.mask engineRing ring (state.map view) noise id =
      (m.mask engineRing ring state noise id).mapState (MaskState.map view) := by
  unfold mask
  rw [liveCache?_map]
  cases layout.toBytes id with
  | error e => rfl
  | ok bytes =>
    cases m.liveCache? ring state with
    | none => rfl
    | some cache =>
      simp only [Option.map_some, same.findToken, Found.map]
      cases (ResultCache.findToken cache bytes).value with
      | some token => rfl
      | none =>
        simp only [MaskState.map]
        cases (m.produce engineRing state.memo noise bytes).result with
        | error e => rfl
        | ok token => simp [Outcome.mapState, MaskState.map, same.remember]

theorem unmask_view (state : MaskState γ) (token : String) :
    m.unmask engineRing ring (state.map view) token =
      (m.unmask engineRing ring state token).mapState (MaskState.map view) := by
  unfold unmask
  rw [liveCache?_map]
  split
  · rfl
  · cases m.liveCache? ring state with
    | none => rfl
    | some cache =>
      simp only [Option.map_some, same.findId, Found.map]
      cases (ResultCache.findId cache token).value with
      | some bytes => rfl
      | none =>
        simp only [MaskState.map]
        cases (m.accept engineRing state.memo token).result with
        | error e => rfl
        | ok pair => simp [Outcome.mapState, MaskState.map, same.rememberRead]

theorem clearState_view (state : MaskState γ) :
    clearState (state.map view) = (clearState state).map view := by
  simp [clearState, MaskState.map, Function.comp_def, same.clear]

end

variable {γ : Type} [ResultCache γ] (state : MaskState γ)

/-- The requests that masking an id comes with. A mask that has no cache makes none. -/
def maskRequests (noise : Noise) (id : layout.Id) : List CacheRequest :=
  match state.cache with
  | none => []
  | some start =>
    let written := (m.mask engineRing ring ⟨state.memo, some (Journal.empty start)⟩ noise id).state
    (written.cache.map Journal.requests).getD []

def unmaskRequests (token : String) : List CacheRequest :=
  match state.cache with
  | none => []
  | some start =>
    let written := (m.unmask engineRing ring ⟨state.memo, some (Journal.empty start)⟩ token).state
    (written.cache.map Journal.requests).getD []

/-- What masking an id may come to, with the requests on the way. -/
inductive MaskStep (noise : Noise) (id : layout.Id) :
    Outcome (MaskState γ) String → List CacheRequest → Prop where
  | refused {e : Error} (written : layout.toBytes id = .error e) :
      MaskStep noise id (.fail e state) []
  | uncached {bytes : Bytes} {result : Except Error String} {memo : Memo Bytes}
      {events : List Event} (written : layout.toBytes id = .ok bytes)
      (asked : m.liveCache? ring state = none)
      (made : m.produce engineRing state.memo noise bytes = ⟨result, memo, events⟩) :
      MaskStep noise id ⟨result, ⟨memo, state.cache⟩, events⟩ []
  | found {bytes : Bytes} {cache cache' : γ} {token : String} {events : List Event}
      (written : layout.toBytes id = .ok bytes) (asked : m.liveCache? ring state = some cache)
      (found : ResultCache.findToken cache bytes = ⟨some token, cache', events⟩) :
      MaskStep noise id ⟨.ok token, ⟨state.memo, some cache'⟩, events⟩ [.findToken bytes]
  | made {bytes : Bytes} {cache cache' : γ} {token : String} {memo : Memo Bytes}
      {events events' : List Event} (written : layout.toBytes id = .ok bytes)
      (asked : m.liveCache? ring state = some cache)
      (missing : ResultCache.findToken cache bytes = ⟨none, cache', events⟩)
      (made : m.produce engineRing state.memo noise bytes = ⟨.ok token, memo, events'⟩) :
      MaskStep noise id
        ⟨.ok token, ⟨memo, some (ResultCache.remember cache' bytes token)⟩, events ++ events'⟩
        [.findToken bytes, .remember bytes token]
  | failed {bytes : Bytes} {cache cache' : γ} {e : Error} {memo : Memo Bytes}
      {events events' : List Event} (written : layout.toBytes id = .ok bytes)
      (asked : m.liveCache? ring state = some cache)
      (missing : ResultCache.findToken cache bytes = ⟨none, cache', events⟩)
      (failed : m.produce engineRing state.memo noise bytes = ⟨.error e, memo, events'⟩) :
      MaskStep noise id ⟨.error e, ⟨memo, some cache'⟩, events ++ events'⟩ [.findToken bytes]

/-- What unmasking a text may come to. -/
inductive UnmaskStep (token : String) :
    Outcome (MaskState γ) layout.Id → List CacheRequest → Prop where
  | long (long : maxTokenLength < token.length) :
      UnmaskStep token (.fail (.inputLength maxTokenLength token.length) state) []
  | uncached {result : Except Error (Bytes × layout.Id)} {memo : Memo Bytes} {events : List Event}
      (short : ¬ maxTokenLength < token.length) (asked : m.liveCache? ring state = none)
      (read : m.accept engineRing state.memo token = ⟨result, memo, events⟩) :
      UnmaskStep token ⟨result.map Prod.snd, ⟨memo, state.cache⟩, events⟩ []
  | found {cache cache' : γ} {bytes : Bytes} {events : List Event}
      (short : ¬ maxTokenLength < token.length) (asked : m.liveCache? ring state = some cache)
      (found : ResultCache.findId cache token = ⟨some bytes, cache', events⟩) :
      UnmaskStep token ⟨layout.ofBytes bytes, ⟨state.memo, some cache'⟩, events⟩ [.findId token]
  | read {cache cache' : γ} {bytes : Bytes} {id : layout.Id} {memo : Memo Bytes}
      {events events' : List Event} (short : ¬ maxTokenLength < token.length)
      (asked : m.liveCache? ring state = some cache)
      (missing : ResultCache.findId cache token = ⟨none, cache', events⟩)
      (read : m.accept engineRing state.memo token = ⟨.ok (bytes, id), memo, events'⟩) :
      UnmaskStep token
        ⟨.ok id, ⟨memo, some (ResultCache.rememberRead cache' token bytes)⟩, events ++ events'⟩
        [.findId token, .rememberRead token bytes]
  | failed {cache cache' : γ} {e : Error} {memo : Memo Bytes} {events events' : List Event}
      (short : ¬ maxTokenLength < token.length) (asked : m.liveCache? ring state = some cache)
      (missing : ResultCache.findId cache token = ⟨none, cache', events⟩)
      (failed : m.accept engineRing state.memo token = ⟨.error e, memo, events'⟩) :
      UnmaskStep token ⟨.error e, ⟨memo, some cache'⟩, events ++ events'⟩ [.findId token]

theorem mask_step (noise : Noise) (id : layout.Id) :
    m.MaskStep engineRing ring state noise id (m.mask engineRing ring state noise id)
      (m.maskRequests engineRing ring state noise id) := by
  obtain ⟨memo, cache⟩ := state
  unfold maskRequests mask
  cases written : layout.toBytes id with
  | error e =>
    cases cache with
    | none => exact .refused written
    | some start => exact .refused written
  | ok bytes =>
    cases cache with
    | none =>
      simp only [liveCache?_none]
      exact .uncached written (m.liveCache?_none ring memo) rfl
    | some start =>
      obtain asked | asked := m.liveCache?_some_cases ring memo
      · simp only [asked, Journal.findToken_empty]
        cases looked : ResultCache.findToken start bytes with
        | mk value cache' events =>
          cases value with
          | some token => exact .found written (asked start) looked
          | none =>
            cases produced : m.produce engineRing memo noise bytes with
            | mk result memo' events' =>
              cases result with
              | error e => exact .failed written (asked start) looked produced
              | ok token => exact .made written (asked start) looked produced
      · simp only [asked]
        exact .uncached written (asked start) rfl

theorem unmask_step (token : String) :
    m.UnmaskStep engineRing ring state token (m.unmask engineRing ring state token)
      (m.unmaskRequests engineRing ring state token) := by
  obtain ⟨memo, cache⟩ := state
  unfold unmaskRequests unmask
  by_cases long : maxTokenLength < token.length
  · simp only [if_pos long]
    cases cache with
    | none => exact .long long
    | some start => exact .long long
  · simp only [if_neg long]
    cases cache with
    | none =>
      simp only [liveCache?_none]
      exact .uncached long (m.liveCache?_none ring memo) rfl
    | some start =>
      obtain asked | asked := m.liveCache?_some_cases ring memo
      · simp only [asked, Journal.findId_empty]
        cases looked : ResultCache.findId start token with
        | mk value cache' events =>
          cases value with
          | some bytes => exact .found long (asked start) looked
          | none =>
            cases accepted : m.accept engineRing memo token with
            | mk result memo' events' =>
              cases result with
              | error e => exact .failed long (asked start) looked accepted
              | ok pair => exact .read long (asked start) looked accepted
      · simp only [asked]
        exact .uncached long (asked start) rfl

section

variable {m : IdMask layout} {engineRing ring : KeyRing} {state : MaskState γ} {noise : Noise}
  {id : layout.Id} {token : String} {requests : List CacheRequest}

/-- The cache is left as the requests leave it. -/
theorem MaskStep.cache_eq {done : Outcome (MaskState γ) String}
    (step : m.MaskStep engineRing ring state noise id done requests) :
    done.state.cache = state.cache.map fun start => (⟨requests⟩ : Journal start).cache := by
  cases step with
  | refused | uncached => exact Option.map_id'.symm
  | found _ asked looked | failed _ asked looked =>
    rw [(liveCache?_eq_some_iff.mp asked).2]
    exact congrArg (fun found => some found.cache) looked.symm
  | made _ asked looked =>
    rw [(liveCache?_eq_some_iff.mp asked).2]
    exact congrArg (fun found => some (ResultCache.remember found.cache _ _)) looked.symm

theorem UnmaskStep.cache_eq {done : Outcome (MaskState γ) layout.Id}
    (step : m.UnmaskStep engineRing ring state token done requests) :
    done.state.cache = state.cache.map fun start => (⟨requests⟩ : Journal start).cache := by
  cases step with
  | long | uncached => exact Option.map_id'.symm
  | found _ asked looked | failed _ asked looked =>
    rw [(liveCache?_eq_some_iff.mp asked).2]
    exact congrArg (fun found => some found.cache) looked.symm
  | read _ asked looked =>
    rw [(liveCache?_eq_some_iff.mp asked).2]
    exact congrArg (fun found => some (ResultCache.rememberRead found.cache _ _)) looked.symm

/-- What is stored when an id is masked is the token that was made of it. -/
theorem MaskStep.of_writes {done : Outcome (MaskState γ) String}
    (step : m.MaskStep engineRing ring state noise id done requests) {request : CacheRequest}
    (member : request ∈ requests) (writes : request.Writes) :
    ∃ bytes token, m.Live ring ∧ layout.toBytes id = .ok bytes ∧
      (m.produce engineRing state.memo noise bytes).result = .ok token ∧
      done.result = .ok token ∧ request = .remember bytes token := by
  cases step with
  | refused | uncached => cases member
  | found | failed =>
    cases List.mem_singleton.mp member
    exact writes.elim
  | made written asked _ made =>
    obtain rfl | member := List.mem_cons.mp member
    · exact writes.elim
    · have live := (liveCache?_eq_some_iff.mp asked).1
      exact ⟨_, _, live, written, congrArg Outcome.result made, rfl, List.mem_singleton.mp member⟩

/-- What is stored when a text is unmasked is the text, with the bytes that were read from it. -/
theorem UnmaskStep.of_writes {done : Outcome (MaskState γ) layout.Id}
    (step : m.UnmaskStep engineRing ring state token done requests) {request : CacheRequest}
    (member : request ∈ requests) (writes : request.Writes) :
    ∃ bytes id, m.Live ring ∧ (m.accept engineRing state.memo token).result = .ok (bytes, id) ∧
      done.result = .ok id ∧ request = .rememberRead token bytes := by
  cases step with
  | long | uncached => cases member
  | found | failed =>
    cases List.mem_singleton.mp member
    exact writes.elim
  | read _ asked _ read =>
    obtain rfl | member := List.mem_cons.mp member
    · exact writes.elim
    · have live := (liveCache?_eq_some_iff.mp asked).1
      exact ⟨_, _, live, congrArg Outcome.result read, rfl, List.mem_singleton.mp member⟩

theorem MaskStep.requests_eq_nil {done : Outcome (MaskState γ) String}
    (step : m.MaskStep engineRing ring state noise id done requests) (idle : ¬ m.Live ring) :
    requests = [] := by
  cases step with
  | refused | uncached => rfl
  | found _ asked | made _ asked | failed _ asked =>
    exact absurd (liveCache?_eq_some_iff.mp asked).1 idle

theorem UnmaskStep.requests_eq_nil {done : Outcome (MaskState γ) layout.Id}
    (step : m.UnmaskStep engineRing ring state token done requests) (idle : ¬ m.Live ring) :
    requests = [] := by
  cases step with
  | long | uncached => rfl
  | found _ asked | read _ asked | failed _ asked =>
    exact absurd (liveCache?_eq_some_iff.mp asked).1 idle

end

end IdMask

end IdVeil
