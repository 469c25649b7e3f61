import IdVeil.Cache.Memory
import IdVeil.Proofs.Key.Memo

/-!
What a cache answers with was stored in it. A relation between keys and values that all stored
entries are in stays so whatever is looked up, and whatever is stored as long as it is in the
relation too. That a stored value is found at once needs that a cache holds one entry or more.
-/
namespace IdVeil

namespace Lru

variable {κ ν : Type} {m : Lru κ ν} {R : κ → ν → Prop} {key : κ} {value : ν}

def Holds (R : κ → ν → Prop) (m : Lru κ ν) : Prop :=
  ∀ key value, (key, value) ∈ m.entries → R key value

theorem holds_empty (capacity : Capacity) : (empty capacity : Lru κ ν).Holds R := by
  intro key value stored
  cases stored

theorem holds_clear (m : Lru κ ν) : m.clear.Holds R := by
  intro key value stored
  cases stored

variable [DecidableEq κ]

theorem mem_of_mem_front {entries : List (κ × ν)} {entry : κ × ν}
    (h : entry ∈ front key value entries) : entry = (key, value) ∨ entry ∈ entries := by
  rcases List.mem_cons.mp h with new | old
  · exact .inl new
  · exact .inr (List.mem_filter.mp old).1

theorem Holds.insert (h : m.Holds R) (new : R key value) : (m.insert key value).Holds R := by
  intro key' value' stored
  rcases mem_of_mem_front (List.mem_of_mem_take stored) with same | old
  · cases same
    exact new
  · exact h key' value' old

theorem Holds.of_find (h : m.Holds R) (found : (m.find key).1 = some value) : R key value := by
  unfold find at found
  split at found
  · contradiction
  · rename_i value' stored
    cases found
    exact h key value (mem_of_lookup stored)

theorem Holds.find_snd (h : m.Holds R) (key : κ) : (m.find key).2.Holds R := by
  unfold find
  split
  · exact h
  · rename_i value stored
    intro key' value' kept
    rcases mem_of_mem_front kept with same | old
    · cases same
      exact h key value (mem_of_lookup stored)
    · exact h key' value' old

theorem find_insert_self (m : Lru κ ν) (key : κ) (value : ν) :
    ((m.insert key value).find key).1 = some value := by
  have stored : ((m.insert key value).entries).lookup key = some value := by
    rw [insert, front, ← Nat.succ_pred_eq_of_pos m.capacity.property, List.take_succ_cons]
    exact List.lookup_cons_self
  unfold find
  rw [stored]

end Lru

namespace MemoryCache

variable {c : MemoryCache} {T : Bytes → String → Prop} {I : String → Bytes → Prop}

/-- All tokens are in one relation to the digests of their ids, and all ids in another to their
tokens. -/
structure Holds (T : Bytes → String → Prop) (I : String → Bytes → Prop) (c : MemoryCache) : Prop where
  tokens : c.tokens.Holds T
  ids : c.ids.Holds I

theorem holds_empty (capacity : Capacity) : (empty capacity).Holds T I :=
  ⟨Lru.holds_empty capacity, Lru.holds_empty capacity⟩

theorem holds_clear (c : MemoryCache) : (ResultCache.clear c).Holds T I :=
  ⟨Lru.holds_clear _, Lru.holds_clear _⟩

theorem Holds.mono {T' : Bytes → String → Prop} {I' : String → Bytes → Prop} (h : c.Holds T I)
    (tokens : ∀ digest token, T digest token → T' digest token)
    (ids : ∀ token id, I token id → I' token id) : c.Holds T' I' :=
  ⟨fun digest token stored => tokens digest token (h.tokens digest token stored),
    fun token id stored => ids token id (h.ids token id stored)⟩

theorem Holds.remember (h : c.Holds T I) {id : Bytes} {token : String} (made : T (sha256 id) token)
    (read : I token id) : (ResultCache.remember c id token).Holds T I :=
  ⟨h.tokens.insert made, h.ids.insert read⟩

theorem Holds.rememberRead (h : c.Holds T I) {id : Bytes} {token : String} (read : I token id) :
    (ResultCache.rememberRead c token id).Holds T I :=
  ⟨h.tokens, h.ids.insert read⟩

theorem Holds.of_findToken (h : c.Holds T I) {id : Bytes} {token : String}
    (found : (ResultCache.findToken c id).value = some token) : T (sha256 id) token := by
  simp only [ResultCache.findToken] at found
  split at found
  · contradiction
  · rename_i tokens looked
    cases found
    exact h.tokens.of_find (congrArg Prod.fst looked)

theorem Holds.of_findId (h : c.Holds T I) {token : String} {id : Bytes}
    (found : (ResultCache.findId c token).value = some id) : I token id := by
  simp only [ResultCache.findId] at found
  split at found
  · contradiction
  · rename_i ids looked
    cases found
    exact h.ids.of_find (congrArg Prod.fst looked)

theorem Holds.findToken (h : c.Holds T I) (id : Bytes) :
    (ResultCache.findToken c id).cache.Holds T I := by
  have kept := h.tokens.find_snd (sha256 id)
  simp only [ResultCache.findToken]
  split
  · exact h
  · rename_i looked
    rw [looked] at kept
    exact ⟨kept, h.ids⟩

theorem Holds.findId (h : c.Holds T I) (token : String) :
    (ResultCache.findId c token).cache.Holds T I := by
  have kept := h.ids.find_snd token
  simp only [ResultCache.findId]
  split
  · exact h
  · rename_i looked
    rw [looked] at kept
    exact ⟨h.tokens, kept⟩

/-- A look-up that finds nothing changes nothing. -/
theorem cache_of_findToken_eq_none {id : Bytes}
    (missing : (ResultCache.findToken c id).value = none) :
    (ResultCache.findToken c id).cache = c := by
  simp only [ResultCache.findToken] at missing ⊢
  split at missing
  · rfl
  · contradiction

theorem cache_of_findId_eq_none {token : String}
    (missing : (ResultCache.findId c token).value = none) :
    (ResultCache.findId c token).cache = c := by
  simp only [ResultCache.findId] at missing ⊢
  split at missing
  · rfl
  · contradiction

theorem findToken_remember (c : MemoryCache) (id : Bytes) (token : String) :
    (ResultCache.findToken (ResultCache.remember c id token) id).value = some token := by
  have stored := Lru.find_insert_self c.tokens (sha256 id) token
  simp only [ResultCache.findToken, ResultCache.remember]
  split
  · rename_i looked
    rw [looked] at stored
    contradiction
  · rename_i looked
    rw [looked] at stored
    exact stored

theorem findId_rememberRead (c : MemoryCache) (token : String) (id : Bytes) :
    (ResultCache.findId (ResultCache.rememberRead c token id) token).value = some id := by
  have stored := Lru.find_insert_self c.ids token id
  simp only [ResultCache.findId, ResultCache.rememberRead]
  split
  · rename_i looked
    rw [looked] at stored
    contradiction
  · rename_i looked
    rw [looked] at stored
    exact stored

end MemoryCache

end IdVeil
