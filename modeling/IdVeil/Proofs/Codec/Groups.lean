import IdVeil.Codec.Basic
import IdVeil.Proofs.Codec.Bits

/-!
Texts with separators in them. `Separated` says which text a text is when the whole copies of a
separator are left out, wherever they stand. Taking out all copies in one pass from the left finds
that text (`removeAll_of_separated`), and finds no other (`separated_removeAll`).
-/
namespace IdVeil

/-- A text that is another one, its content, with whole copies of the separator put in. -/
inductive Separated (separator : List Char) : List Char → List Char → Prop where
  | nil : Separated separator [] []
  | symbol {c : Char} {text content : List Char} (foreign : c ∉ separator) :
      Separated separator text content → Separated separator (c :: text) (c :: content)
  | copy {text content : List Char} :
      Separated separator text content → Separated separator (separator ++ text) content

section
variable {separator text content : List Char}

namespace Separated

theorem append_symbols {run : List Char} (foreign : ∀ c ∈ run, c ∉ separator)
    (h : Separated separator text content) :
    Separated separator (run ++ text) (run ++ content) := by
  induction run with
  | nil => exact h
  | cons c run ih =>
    exact .symbol (foreign c List.mem_cons_self)
      (ih fun x hx => foreign x (List.mem_cons_of_mem _ hx))

theorem symbols {run : List Char} (foreign : ∀ c ∈ run, c ∉ separator) :
    Separated separator run run := by
  simpa using append_symbols foreign .nil

theorem intercalate {runs : List (List Char)} (foreign : ∀ run ∈ runs, ∀ c ∈ run, c ∉ separator) :
    Separated separator (separator.intercalate runs) runs.flatten := by
  induction runs with
  | nil => exact .nil
  | cons run runs ih =>
    have first := foreign run List.mem_cons_self
    have rest := ih fun r hr => foreign r (List.mem_cons_of_mem _ hr)
    cases runs with
    | nil => simpa using symbols first
    | cons next runs =>
      rw [List.intercalate_cons_cons, List.flatten_cons, List.append_assoc]
      exact append_symbols first (.copy rest)

theorem mem_or_mem (h : Separated separator text content) {c : Char} (hc : c ∈ text) :
    c ∈ separator ∨ c ∈ content := by
  induction h with
  | nil => exact absurd hc List.not_mem_nil
  | symbol _ _ ih =>
    rcases List.mem_cons.mp hc with rfl | hc
    · exact .inr List.mem_cons_self
    · exact (ih hc).imp_right (List.mem_cons_of_mem _)
  | copy _ ih =>
    rcases List.mem_append.mp hc with hc | hc
    · exact .inl hc
    · exact ih hc

end Separated

theorem removeFrom_append (skipped rest : List Char) :
    removeFrom separator skipped.length (skipped ++ rest) = removeFrom separator 0 rest := by
  induction skipped with
  | nil => rfl
  | cons c skipped ih => exact ih

theorem removeAll_of_separated (positive : separator ≠ []) (h : Separated separator text content) :
    removeAll separator text = content := by
  obtain ⟨first, others, rfl⟩ := List.exists_cons_of_ne_nil positive
  induction h with
  | nil => rfl
  | @symbol c text content foreign _ ih =>
    have other : ¬ first :: others <+: c :: text := by
      intro same
      exact foreign ((List.cons_prefix_cons.mp same).1 ▸ List.mem_cons_self)
    rw [removeAll, removeFrom, if_neg other]
    exact congrArg (c :: ·) ih
  | @copy text content _ ih =>
    have same : first :: others <+: first :: (others ++ text) := List.prefix_append _ _
    rw [removeAll, List.cons_append, removeFrom, if_pos same]
    exact (removeFrom_append others text).trans ih

/-- When no character of the separator is left over, only whole copies were taken out. -/
theorem separated_removeFrom (positive : separator ≠ []) (skip : Nat) (text : List Char)
    (foreign : ∀ c ∈ removeFrom separator skip text, c ∉ separator) :
    Separated separator (text.drop skip) (removeFrom separator skip text) := by
  fun_induction removeFrom separator skip text with
  | case1 => simpa using .nil
  | case2 skip c rest ih => exact ih foreign
  | case3 c rest same ih =>
    obtain ⟨after, split⟩ := same
    obtain ⟨first, others, rfl⟩ := List.exists_cons_of_ne_nil positive
    obtain ⟨rfl, rfl⟩ := List.cons.inj split
    have left := ih foreign
    rw [List.length_cons, Nat.add_sub_cancel, List.append_eq, List.drop_left] at left
    exact .copy left
  | case4 c rest _ ih =>
    exact .symbol (foreign c List.mem_cons_self)
      (ih fun x hx => foreign x (List.mem_cons_of_mem _ hx))

theorem separated_removeAll (positive : separator ≠ [])
    (foreign : ∀ c ∈ removeAll separator text, c ∉ separator) :
    Separated separator text (removeAll separator text) :=
  separated_removeFrom positive 0 text foreign

theorem separated_pieces {n : Nat} (hn : 0 < n) (foreign : ∀ c ∈ content, c ∉ separator) :
    Separated separator (separator.intercalate (pieces n content)) content := by
  have all : ∀ run ∈ pieces n content, ∀ c ∈ run, c ∉ separator := by
    intro run hr c hc
    exact foreign c (flatten_pieces hn content ▸ List.mem_flatten_of_mem hr hc)
  simpa [flatten_pieces hn] using Separated.intercalate all

end

end IdVeil
