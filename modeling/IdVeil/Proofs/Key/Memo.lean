import IdVeil.Key.Derived

/-!
Looking something up in a memo gives what deriving it anew gives, as long as all that was kept was
derived from the keys the ring has (`Memo.Sound`). A look-up keeps that so, and so does clearing
the ring, whether the memo forgets or not. After a look-up the memo has what was found, and nothing
else under that id (`Memo.Sound.mem_get_iff`).
-/
namespace IdVeil

theorem mem_of_lookup {κ ν : Type} [BEq κ] [LawfulBEq κ] {key : κ} {value : ν}
    {entries : List (κ × ν)} (h : entries.lookup key = some value) : (key, value) ∈ entries := by
  obtain ⟨before, after, split, _⟩ := List.lookup_eq_some_iff.mp h
  rw [split]
  exact List.mem_append_right before List.mem_cons_self

/-- What was kept under the id of a key was derived from that key. -/
def Memo.Sound {δ : Type} (derive : SecretKey → δ) (memo : Memo δ) (ring : KeyRing) : Prop :=
  ∀ id value, (id, value) ∈ memo → ∀ key, ring.find? id = some key → value = derive key

namespace KeyRing

theorem active?_eq_some_iff {ring : KeyRing} {key : SecretKey} :
    ring.active? = some key ↔ key.id = ring.activeId ∧ ring.find? key.id = some key := by
  constructor
  · intro h
    have same := id_of_find? h
    rw [active?, ← same] at h
    exact ⟨same, h⟩
  · rintro ⟨same, h⟩
    rw [active?, ← same, h]

end KeyRing

namespace Memo

variable {δ : Type} {derive : SecretKey → δ} {memo : Memo δ} {ring : KeyRing}

theorem sound_nil : Sound derive [] ring := by
  intro id value kept
  cases kept

theorem sound_of_find?_eq_none (lost : ∀ id, ring.find? id = none) : Sound derive memo ring := by
  intro id value _ key found
  rw [lost id] at found
  contradiction

theorem Sound.get_fst (h : Sound derive memo ring) (id : Nibble) :
    (get derive memo ring id).1 = (ring.find? id).map derive := by
  rw [get]
  cases found : ring.find? id with
  | none => rfl
  | some key =>
    cases kept : memo.lookup id with
    | none => rfl
    | some value =>
      have same := h id value (mem_of_lookup kept) key found
      exact congrArg some same

theorem Sound.get_snd (h : Sound derive memo ring) (id : Nibble) :
    Sound derive (get derive memo ring id).2 ring := by
  rw [get]
  cases found : ring.find? id with
  | none =>
    intro other value kept
    exact h other value (List.mem_filter.mp kept).1
  | some key =>
    cases memo.lookup id with
    | some value => exact h
    | none =>
      intro other value kept key' found'
      rcases List.mem_cons.mp kept with new | old
      · cases new
        rw [found] at found'
        cases found'
        rfl
      · exact h other value old key' found'

theorem Sound.active_fst (h : Sound derive memo ring) :
    (active derive memo ring).1 = match ring.active? with
      | some key => .ok (key.id, derive key)
      | none => .error .noActiveKey := by
  have value := h.get_fst ring.activeId
  rw [active, KeyRing.active?]
  cases found : ring.find? ring.activeId with
  | none =>
    rw [found] at value
    split
    · rename_i looked
      rw [looked] at value
      contradiction
    · rfl
  | some key =>
    rw [found] at value
    split
    · rename_i looked
      rw [looked] at value
      cases value
      exact congrArg (fun id => Except.ok (id, derive key)) (KeyRing.id_of_find? found).symm
    · rename_i looked
      rw [looked] at value
      contradiction

theorem Sound.active_snd (h : Sound derive memo ring) :
    Sound derive (active derive memo ring).2 ring := by
  have kept := h.get_snd ring.activeId
  rw [active]
  split
  all_goals
    rename_i looked
    rw [looked] at kept
    exact kept

theorem Sound.getByte_fst (h : Sound derive memo ring) (id : UInt8) :
    (getByte derive memo ring id).1 = (ring.findByte? id).map derive := by
  rw [getByte, KeyRing.findByte?]
  cases nibble? id with
  | none => rfl
  | some id => exact h.get_fst id

theorem Sound.getByte_snd (h : Sound derive memo ring) (id : UInt8) :
    Sound derive (getByte derive memo ring id).2 ring := by
  rw [getByte]
  cases nibble? id with
  | none => exact h
  | some id => exact h.get_snd id

theorem ne_of_mem_get {id : Nibble} (lost : ring.find? id = none) {entry : Nibble × δ}
    (kept : entry ∈ (get derive memo ring id).2) : entry.1 ≠ id := by
  simp only [get, lost] at kept
  simpa using (List.mem_filter.mp kept).2

theorem mem_get_of_found {id : Nibble} {value : δ}
    (found : (get derive memo ring id).1 = some value) :
    (id, value) ∈ (get derive memo ring id).2 := by
  rw [get] at found ⊢
  cases held : ring.find? id with
  | none => simp [held] at found
  | some key =>
    cases kept : memo.lookup id with
    | none =>
      simp only [held, kept, Option.some.injEq] at found ⊢
      exact found ▸ List.mem_cons_self
    | some old =>
      simp only [held, kept, Option.some.injEq] at found ⊢
      exact found ▸ mem_of_lookup kept

theorem Sound.mem_get_iff (h : Sound derive memo ring) {id : Nibble} {value : δ} :
    (id, value) ∈ (get derive memo ring id).2 ↔ (get derive memo ring id).1 = some value := by
  constructor
  · intro kept
    cases found : ring.find? id with
    | none => exact absurd rfl (ne_of_mem_get found kept)
    | some key =>
      rw [h.get_fst, found, h.get_snd id id value kept key found]
      rfl
  · exact mem_get_of_found

theorem Sound.mem_active_iff (h : Sound derive memo ring) {value : δ} :
    (ring.activeId, value) ∈ (active derive memo ring).2 ↔
      (active derive memo ring).1 = .ok (ring.activeId, value) := by
  have kept : (ring.activeId, value) ∈ (get derive memo ring ring.activeId).2 ↔ _ := h.mem_get_iff
  rw [active]
  split
  · next looked => simpa [looked, eq_comm] using kept
  · next looked => simpa [looked] using kept

end Memo

end IdVeil
