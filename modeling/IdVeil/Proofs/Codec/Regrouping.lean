import IdVeil.Proofs.Codec.Symbols

/-!
Texts in other groups. `Regroups` says that a text is put together from runs of symbols and whole
copies of a separator. A codec with groups accepts exactly such texts, and only what the runs are
when joined counts, wherever and however often the separator stands (`decode_regrouped`).
-/
namespace IdVeil.Codec

/-- A text put together from runs of symbols of the codec, which may be empty, and whole copies of
the separator, beside the runs alone. -/
inductive Regroups (inner : Codec) (separator : String) : String → String → Prop where
  | nil : Regroups inner separator "" ""
  | run {run text content : String} (symbols : ∀ x ∈ run.toList, inner.isSymbol x = true) :
    Regroups inner separator text content →
      Regroups inner separator (run ++ text) (run ++ content)
  | copy {text content : String} :
    Regroups inner separator text content → Regroups inner separator (separator ++ text) content

namespace Regroups

variable {inner : Codec} {separator : String}

theorem separated (foreign : ∀ x, inner.isSymbol x = true → x ∉ separator.toList)
    {text content : String} (parts : inner.Regroups separator text content) :
    Separated separator.toList text.toList content.toList := by
  induction parts with
  | nil => exact .nil
  | run symbols _ ih =>
    simp only [String.toList_append]
    exact ih.append_symbols fun x member => foreign x (symbols x member)
  | copy _ ih =>
    rw [String.toList_append]
    exact .copy ih

theorem of_separated {text content : List Char}
    (parts : Separated separator.toList text content)
    (symbols : ∀ x ∈ content, inner.isSymbol x = true) :
    inner.Regroups separator (.ofList text) (.ofList content) := by
  induction parts with
  | nil => exact .nil
  | @symbol c text content _ _ ih =>
    obtain ⟨first, rest⟩ := List.forall_mem_cons.mp symbols
    have single : ∀ x ∈ (String.ofList [c]).toList, inner.isSymbol x = true := by simpa using first
    simpa [← String.ofList_append] using run single (ih rest)
  | copy _ ih => simpa [String.ofList_append] using copy (ih symbols)

end Regroups

theorem decode_eq_error_iff {c : Codec} {text : String} {e : Error} :
    c.decode text = .error e ↔ c.form.decode text.toList = none ∧ e = .decodingFailed := by
  rw [decode]
  cases c.form.decode text.toList <;> simp [eq_comm]

section
variable {inner c : Codec} {size : Nat} {separator : String}
  (accepted : inner.grouped size separator = .ok c)
include accepted

theorem wellFormed_of_grouped :
    (Form.grouped inner.form size separator.toList).WellFormed := by
  have form := (grouped_eq_ok_iff.mp accepted).2
  exact form ▸ c.wellFormed

theorem decode_of_regroups {text content : String}
    (parts : inner.Regroups separator text content) : c.decode text = inner.decode content := by
  have wf := wellFormed_of_grouped accepted
  have form := (grouped_eq_ok_iff.mp accepted).2
  have joined := removeAll_of_separated wf.separator_ne_nil
    (parts.separated fun _ symbol => wf.not_mem_separator symbol)
  simp only [decode, form, Form.decode, joined]

theorem regroups_of_decode {text : String} {bs : Bytes} (read : c.decode text = .ok bs) :
    ∃ content, inner.Regroups separator text content ∧ inner.decode content = .ok bs := by
  have form := (grouped_eq_ok_iff.mp accepted).2
  rw [decode_eq_ok_iff_form, form, Form.decode_grouped_iff (wellFormed_of_grouped accepted)] at read
  obtain ⟨content, parts, inside⟩ := read
  have symbols := Form.isSymbol_of_decode inner.wellFormed inside
  refine ⟨.ofList content, ?_, ?_⟩
  · simpa using Regroups.of_separated parts symbols
  · simpa [decode_eq_ok_iff_form] using inside

end

/-- A codec with groups accepts a text exactly when it is put together from runs of symbols of the
inner codec and whole separators, and the inner codec accepts the runs when they are joined. Any
other text cannot be decoded, and where the separators stand makes no difference. -/
theorem decode_regrouped {inner c : Codec} {size : Nat} {separator : String}
    (accepted : inner.grouped size separator = .ok c) :
    (∀ text bs, c.decode text = .ok bs ↔
      ∃ content, inner.Regroups separator text content ∧ inner.decode content = .ok bs) ∧
    (∀ text, (¬ ∃ bs content, inner.Regroups separator text content ∧
      inner.decode content = .ok bs) → c.decode text = .error .decodingFailed) ∧
    ∀ text text' content, inner.Regroups separator text content →
      inner.Regroups separator text' content → c.decode text = c.decode text' := by
  refine ⟨?_, ?_, ?_⟩
  · intro text bs
    constructor
    · exact regroups_of_decode accepted
    · rintro ⟨content, parts, inside⟩
      rw [decode_of_regroups accepted parts, inside]
  · intro text other
    cases read : c.decode text with
    | ok bs => exact absurd ⟨bs, regroups_of_decode accepted read⟩ other
    | error e => rw [(decode_eq_error_iff.mp read).2]
  · intro text text' content parts parts'
    rw [decode_of_regroups accepted parts, decode_of_regroups accepted parts']

/-- Separators may stand at the ends and beside each other. Of two copies that share a character
one is whole, and what is left of the other is foreign. -/
theorem decode_regrouped_sample :
    base16.grouped 3 "xyx" = .ok threes ∧
      base16.Regroups "xyx" "xyxaxyxxyxbCdxyx" "abCd" ∧
      base16.Regroups "xyx" "abxyxCd" "abCd" ∧
      threes.decode "xyxaxyxxyxbCdxyx" = .ok [0xab, 0xcd] ∧
      threes.decode "xyxaxyxxyxbCdxyx" = threes.decode "abxyxCd" ∧
      (¬ ∃ bs content, base16.Regroups "xyx" "abxyxyxCd" content ∧ base16.decode content = .ok bs) ∧
      threes.decode "abxyxyxCd" = .error .decodingFailed := by
  have accepted : base16.grouped 3 "xyx" = .ok threes := rfl
  have symbols (run : String) (all : run.toList.all base16.isSymbol = true) :
      ∀ x ∈ run.toList, base16.isSymbol x = true := List.all_eq_true.mp all
  have spread : base16.Regroups "xyx"
      ("xyx" ++ ("a" ++ ("xyx" ++ ("xyx" ++ ("bCd" ++ ("xyx" ++ "")))))) ("a" ++ ("bCd" ++ "")) :=
    .copy (.run (symbols "a" rfl) (.copy (.copy (.run (symbols "bCd" rfl) (.copy .nil)))))
  have middle : base16.Regroups "xyx" ("ab" ++ ("xyx" ++ ("Cd" ++ ""))) ("ab" ++ ("Cd" ++ "")) :=
    .run (symbols "ab" rfl) (.copy (.run (symbols "Cd" rfl) .nil))
  obtain ⟨reads, fails, same⟩ := decode_regrouped accepted
  have none : ¬ ∃ bs content,
      base16.Regroups "xyx" "abxyxyxCd" content ∧ base16.decode content = .ok bs := by
    rintro ⟨bs, parts⟩
    have failed : threes.decode "abxyxyxCd" = .error .decodingFailed := rfl
    have read := (reads "abxyxyxCd" bs).mpr parts
    rw [failed] at read
    contradiction
  exact ⟨accepted, spread, middle, (reads _ _).mpr ⟨_, spread, rfl⟩, same _ _ _ spread middle, none,
    fails _ none⟩

end IdVeil.Codec
