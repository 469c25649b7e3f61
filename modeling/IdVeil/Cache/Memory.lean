import IdVeil.Cache.Basic
import IdVeil.Cache.Lru
import IdVeil.Hash.Sha2

/-!
The cache in memory: one map of recent results for each direction. Ids that are looked up stand
under their SHA-256 digests, so that they are not kept as keys.
-/
namespace IdVeil

structure MemoryCache where
  tokens : Lru Bytes String
  ids : Lru String Bytes
deriving DecidableEq

namespace MemoryCache

def defaultCapacity : Capacity := ⟨256, by decide⟩

def empty (capacity : Capacity) : MemoryCache := ⟨.empty capacity, .empty capacity⟩

instance : ResultCache MemoryCache where
  remember c id token := ⟨c.tokens.insert (sha256 id) token, c.ids.insert token id⟩
  rememberRead c token id := { c with ids := c.ids.insert token id }
  findToken c id :=
    match c.tokens.find (sha256 id) with
    | (none, _) => { value := none, cache := c }
    | (some token, tokens) => ⟨some token, { c with tokens }, [.maskCacheHit]⟩
  findId c token :=
    match c.ids.find token with
    | (none, _) => { value := none, cache := c }
    | (some id, ids) => ⟨some id, { c with ids }, [.unmaskCacheHit]⟩
  clear c := ⟨c.tokens.clear, c.ids.clear⟩

end MemoryCache

end IdVeil
