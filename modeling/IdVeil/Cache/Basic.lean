import IdVeil.Event

/-!
Caches of results: tokens under ids and ids under tokens. A cache may also be watched, which
changes none of its answers.
-/
namespace IdVeil

/-- What a cache found, the cache after looking, and the events on the way. -/
structure Found (γ α : Type) where
  value : Option α
  cache : γ
  events : List Event := []

class ResultCache (γ : Type) where
  /-- Stores a token just made, in both directions. -/
  remember : γ → (id : Bytes) → (token : String) → γ
  /-- Stores a token just read, in the direction from token to id only: it may be spelled as no
  token is written. -/
  rememberRead : γ → (token : String) → (id : Bytes) → γ
  findToken : γ → (id : Bytes) → Found γ String
  findId : γ → (token : String) → Found γ Bytes
  clear : γ → γ

inductive CacheCall where
  | remember
  | rememberRead
  | findToken (hit : Bool)
  | findId (hit : Bool)
  | clear
deriving DecidableEq, Repr

structure Watched (γ : Type) where
  cache : γ
  calls : List CacheCall := []

namespace Watched

variable {γ α : Type}

def note (w : Watched γ) (cache : γ) (call : CacheCall) : Watched γ := ⟨cache, w.calls ++ [call]⟩

def noteFound (w : Watched γ) (found : Found γ α) (call : Bool → CacheCall) : Found (Watched γ) α where
  value := found.value
  cache := w.note found.cache (call found.value.isSome)
  events := found.events

instance [ResultCache γ] : ResultCache (Watched γ) where
  remember w id token := w.note (ResultCache.remember w.cache id token) .remember
  rememberRead w token id := w.note (ResultCache.rememberRead w.cache token id) .rememberRead
  findToken w id := w.noteFound (ResultCache.findToken w.cache id) .findToken
  findId w token := w.noteFound (ResultCache.findId w.cache token) .findId
  clear w := w.note (ResultCache.clear w.cache) .clear

end Watched

end IdVeil
