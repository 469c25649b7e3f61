import IdVeil.Proofs.Cache.Recency
import IdVeil.Proofs.Mask.Requests

/-!
A memory cache keeps the latest uses of each direction (`answers_of_recent_use`). Each of its maps
is what the requests to it alone leave (`tokens_after`, `ids_after`), so the law of one map
(`Lru.find_after`) holds of either. A token just made is a use in both directions and one just read
in one only, and neither map sees the look-ups in the other, so they part with different entries.
-/
namespace IdVeil

namespace MemoryCache

/-- The cache after requests, the latest of them first. -/
def after (capacity : Capacity) (history : List CacheRequest) : MemoryCache :=
  history.foldr (fun request cache => request.perform cache) (empty capacity)

/-- What a request asks of the tokens. -/
def tokenAccess? : CacheRequest → Option (Lru.Access Bytes String)
  | .remember id token => some (.insert id token)
  | .findToken id => some (.find id)
  | .clear => some .clear
  | .rememberRead _ _ => none
  | .findId _ => none

/-- What a request asks of the ids. -/
def idAccess? : CacheRequest → Option (Lru.Access String Bytes)
  | .remember id token => some (.insert token id)
  | .rememberRead token id => some (.insert token id)
  | .findId token => some (.find token)
  | .clear => some .clear
  | .findToken _ => none

abbrev tokenAccesses (history : List CacheRequest) : List (Lru.Access Bytes String) :=
  history.filterMap tokenAccess?

abbrev idAccesses (history : List CacheRequest) : List (Lru.Access String Bytes) :=
  history.filterMap idAccess?

theorem value_findToken (c : MemoryCache) (id : Bytes) :
    (ResultCache.findToken c id).value = (c.tokens.find (sha256 id)).1 := by
  simp only [ResultCache.findToken]
  split
  · next looked => rw [looked]
  · next looked => rw [looked]

theorem value_findId (c : MemoryCache) (token : String) :
    (ResultCache.findId c token).value = (c.ids.find token).1 := by
  simp only [ResultCache.findId]
  split
  · next looked => rw [looked]
  · next looked => rw [looked]

theorem cache_findToken (c : MemoryCache) (id : Bytes) :
    (ResultCache.findToken c id).cache = { c with tokens := (c.tokens.find (sha256 id)).2 } := by
  simp only [ResultCache.findToken]
  split
  · next looked => rw [Lru.find_snd_of_fst_eq_none (congrArg Prod.fst looked)]
  · next looked => rw [looked]

theorem cache_findId (c : MemoryCache) (token : String) :
    (ResultCache.findId c token).cache = { c with ids := (c.ids.find token).2 } := by
  simp only [ResultCache.findId]
  split
  · next looked => rw [Lru.find_snd_of_fst_eq_none (congrArg Prod.fst looked)]
  · next looked => rw [looked]

variable {capacity : Capacity} (history : List CacheRequest)

/-- The tokens are kept as the requests to them alone have it. -/
theorem tokens_after : (after capacity history).tokens =
    Lru.after sha256 capacity (tokenAccesses history) := by
  induction history with
  | nil => rfl
  | cons request earlier ih =>
    cases request with
    | remember id token => exact congrArg (Lru.insert · (sha256 id) token) ih
    | rememberRead token id => exact ih
    | findToken id =>
      have looked := congrArg MemoryCache.tokens (cache_findToken (after capacity earlier) id)
      exact looked.trans (congrArg (fun tokens => (tokens.find (sha256 id)).2) ih)
    | findId token =>
      have looked := congrArg MemoryCache.tokens (cache_findId (after capacity earlier) token)
      exact looked.trans ih
    | clear => exact congrArg Lru.clear ih

theorem ids_after : (after capacity history).ids =
    Lru.after (fun token => token) capacity (idAccesses history) := by
  induction history with
  | nil => rfl
  | cons request earlier ih =>
    cases request with
    | remember id token => exact congrArg (Lru.insert · token id) ih
    | rememberRead token id => exact congrArg (Lru.insert · token id) ih
    | findToken id =>
      have looked := congrArg MemoryCache.ids (cache_findToken (after capacity earlier) id)
      exact looked.trans ih
    | findId token =>
      have looked := congrArg MemoryCache.ids (cache_findId (after capacity earlier) token)
      exact looked.trans (congrArg (fun ids => (ids.find token).2) ih)
    | clear => exact congrArg Lru.clear ih

/-- A request that asks nothing of the tokens changes no later answer about them. -/
theorem findToken_skip {request : CacheRequest} (skipped : tokenAccess? request = none)
    (later : List CacheRequest) (id : Bytes) :
    (ResultCache.findToken (after capacity (later ++ request :: history)) id).value =
      (ResultCache.findToken (after capacity (later ++ history)) id).value := by
  have same : tokenAccesses (later ++ request :: history) = tokenAccesses (later ++ history) := by
    rw [tokenAccesses, List.filterMap_append, List.filterMap_cons_none skipped,
      ← List.filterMap_append]
  rw [value_findToken, value_findToken, tokens_after, tokens_after, same]

theorem findId_skip {request : CacheRequest} (skipped : idAccess? request = none)
    (later : List CacheRequest) (token : String) :
    (ResultCache.findId (after capacity (later ++ request :: history)) token).value =
      (ResultCache.findId (after capacity (later ++ history)) token).value := by
  have same : idAccesses (later ++ request :: history) = idAccesses (later ++ history) := by
    rw [idAccesses, List.filterMap_append, List.filterMap_cons_none skipped,
      ← List.filterMap_append]
  rw [value_findId, value_findId, ids_after, ids_after, same]

/-- Each direction answers with what was last stored there, while fewer others than the capacity
were used in it since. A request in the other direction only could as well be left out, and a
look-up that finds nothing changes nothing. -/
theorem answers_of_recent_use (capacity : Capacity) (history : List CacheRequest) :
    (∀ id token, Set.InjOn sha256 { id' | id' ∈ id :: Lru.keys (tokenAccesses history) } →
      ((ResultCache.findToken (after capacity history) id).value = some token ↔
        Lru.latest id (tokenAccesses history) = some token ∧
          (Lru.usedSince sha256 capacity id (tokenAccesses history)).card < capacity.val)) ∧
    (∀ token id, (ResultCache.findId (after capacity history) token).value = some id ↔
      Lru.latest token (idAccesses history) = some id ∧
        (Lru.usedSince (fun token => token) capacity token (idAccesses history)).card <
          capacity.val) ∧
    (∀ later id id' token,
      (ResultCache.findToken (after capacity (later ++ .rememberRead token id' :: history)) id).value =
          (ResultCache.findToken (after capacity (later ++ history)) id).value ∧
        (ResultCache.findToken (after capacity (later ++ .findId token :: history)) id).value =
          (ResultCache.findToken (after capacity (later ++ history)) id).value) ∧
    (∀ later id token,
      (ResultCache.findId (after capacity (later ++ .findToken id :: history)) token).value =
        (ResultCache.findId (after capacity (later ++ history)) token).value) ∧
    (∀ id, (ResultCache.findToken (after capacity history) id).value = none →
      (ResultCache.findToken (after capacity history) id).cache = after capacity history) ∧
    ∀ token, (ResultCache.findId (after capacity history) token).value = none →
      (ResultCache.findId (after capacity history) token).cache = after capacity history := by
  refine ⟨?_, ?_, ?_, ?_, fun id => cache_of_findToken_eq_none, fun token => cache_of_findId_eq_none⟩
  · intro id token apart
    rw [value_findToken, tokens_after]
    exact Lru.find_after _ apart
  · intro token id
    rw [value_findId, ids_after]
    exact Lru.find_after _ (fun _ _ _ _ same => same)
  · intro later id id' token
    exact ⟨findToken_skip history rfl later id, findToken_skip history rfl later id⟩
  · intro later id token
    exact findId_skip history rfl later token

/-- With room for two, the second id makes way for the third, since the first was looked up. No
token was looked up, so the first token makes way too. -/
def sampleHistory : List CacheRequest :=
  [.remember [99] "C", .findToken [97], .remember [98] "B", .remember [97] "A"]

theorem answers_of_recent_use_sample :
    Set.InjOn sha256 { id | id ∈ [97] :: Lru.keys (tokenAccesses sampleHistory) } ∧
    (ResultCache.findToken (after ⟨2, by decide⟩ sampleHistory) [97]).value = some "A" ∧
    (ResultCache.findId (after ⟨2, by decide⟩ sampleHistory) "A").value ≠ some [97] := by
  have apart : Set.InjOn sha256 { id | id ∈ [97] :: Lru.keys (tokenAccesses sampleHistory) } := by
    have all : ∀ id ∈ [97] :: Lru.keys (tokenAccesses sampleHistory),
        ∀ id' ∈ [97] :: Lru.keys (tokenAccesses sampleHistory),
          sha256 id = sha256 id' → id = id' := by decide +kernel
    exact fun id member id' member' => all id member id' member'
  have law := answers_of_recent_use ⟨2, by decide⟩ sampleHistory
  refine ⟨apart, (law.1 [97] "A" apart).mpr ?_, fun found => ?_⟩
  · decide +kernel
  · have room := ((law.2.1 "A" [97]).mp found).2
    revert room
    decide +kernel

end MemoryCache

end IdVeil
