import IdVeil.Proofs.Codec.Spelling

/-!
Texts with something in front. What a codec reads in a text is its bare text, without the
separators of any group, in the symbols of one alphabet (`decode_eq_bare`). So what stands in front
of a written text is overlooked exactly when it is blank, nothing but whole separators
(`decode_append_encode_iff`), and what is left of a written text once its start is cut off never
stands for as many bytes (`decode_rest_ne`).
-/
namespace IdVeil

section
variable {separator text : List Char}

theorem removeFrom_sublist (skip : Nat) (text : List Char) :
    (removeFrom separator skip text).Sublist text := by
  fun_induction removeFrom separator skip text with
  | case1 => exact .slnil
  | case2 skip c rest ih => exact ih.cons c
  | case3 c rest same ih => exact ih.cons c
  | case4 c rest other ih => exact ih.cons_cons c

theorem prefix_append_foreign_iff {c : Char} (foreign : c ∉ separator) (front : List Char) :
    separator <+: front ++ c :: text ↔ separator <+: front := by
  constructor
  · rintro ⟨rest, split⟩
    obtain ⟨more, rfl, _⟩ | ⟨more, rfl, left⟩ := List.append_eq_append_iff.mp split
    · exact List.prefix_append _ _
    · cases more with
      | nil => simp
      | cons x more =>
        obtain ⟨rfl, _⟩ := List.cons.inj left
        exact absurd (by simp) foreign
  · exact fun copy => copy.trans (List.prefix_append _ _)

/-- No copy of the separator reaches into a text that starts with a character foreign to it. -/
theorem removeFrom_append_foreign {c : Char} (foreign : c ∉ separator) (text : List Char)
    (skip : Nat) (front : List Char) (within : skip ≤ front.length) :
    removeFrom separator skip (front ++ c :: text) =
      removeFrom separator skip front ++ removeFrom separator 0 (c :: text) := by
  fun_induction removeFrom separator skip front with
  | case1 skip =>
    obtain rfl : skip = 0 := Nat.le_zero.mp within
    rfl
  | case2 skip x front ih => exact ih (Nat.le_of_succ_le_succ within)
  | case3 x front copy ih =>
    have inside := copy.length_le
    rw [List.length_cons] at inside
    have reach : separator <+: x :: (front ++ c :: text) :=
      (prefix_append_foreign_iff foreign (x :: front)).mpr copy
    rw [List.cons_append, removeFrom, if_pos reach]
    exact ih (by omega)
  | case4 x front other ih =>
    have reach : ¬ separator <+: x :: (front ++ c :: text) :=
      mt (prefix_append_foreign_iff foreign (x :: front)).mp other
    rw [List.cons_append, removeFrom, if_neg reach]
    exact congrArg (x :: ·) (ih (Nat.zero_le _))

theorem Separated.countP_eq {content : List Char} {p : Char → Bool}
    (foreign : ∀ c ∈ separator, p c = false) (h : Separated separator text content) :
    text.countP p = content.countP p := by
  have none : separator.countP p = 0 := by
    apply List.countP_eq_zero.mpr
    intro c member
    simp [foreign c member]
  induction h with
  | nil => rfl
  | symbol _ _ ih => simp only [List.countP_cons, ih]
  | copy _ ih => rw [List.countP_append, none, ih, Nat.zero_add]

theorem head?_intercalate_pieces {n : Nat} (hn : 0 < n) (text : List Char) :
    (separator.intercalate (pieces n text)).head? = text.head? := by
  induction text using pieces_induction hn with
  | nil => rfl
  | last piece hne hle =>
    rw [pieces_short hne hle]
    simp
  | append front rest hf hr ih =>
    have more : front ≠ [] := List.length_pos_iff.mp (hf ▸ hn)
    rw [pieces_append hn hf]
    cases pieces n rest <;> simp [List.head?_append_of_ne_nil _ more]

end

namespace Alphabet

variable {a : Alphabet} {text : List Char} {bs : Bytes}

theorem length_of_decode (h : a.decode text = some bs) : text.length = (a.encode bs).length := by
  rw [← decode_eq_some_iff.mp h, List.length_map]

theorem decode_eq_nil_iff : a.decode text = some [] ↔ text = [] := by
  rw [decode_eq_some_iff]
  exact List.map_eq_nil_iff

theorem length_encode_congr {other : Bytes} (alike : other.length = bs.length) :
    (a.encode other).length = (a.encode bs).length := by
  rw [length_encode, length_encode, alike]

end Alphabet

namespace Codec.Form

/-- The alphabet of the text below all groups. -/
def alphabet : Form → Alphabet
  | plain a => a
  | grouped inner _ _ => inner.alphabet

/-- The text below all groups. -/
def bare : Form → List Char → List Char
  | plain _, text => text
  | grouped inner _ separator, text => inner.bare (removeAll separator text)

theorem decode_eq_bare (f : Form) (text : List Char) :
    f.decode text = f.alphabet.decode (f.bare text) := by
  induction f generalizing text with
  | plain a => rfl
  | grouped inner size separator ih => exact ih (removeAll separator text)

theorem bare_sublist (f : Form) (text : List Char) : (f.bare text).Sublist text := by
  induction f generalizing text with
  | plain a => exact .refl text
  | grouped inner size separator ih => exact (ih _).trans (removeFrom_sublist 0 text)

theorem isSymbol_of_alphabet {f : Form} {c : Char} (h : f.alphabet.isSymbol c = true) :
    f.isSymbol c = true := by
  induction f with
  | plain a => exact h
  | grouped inner size separator ih => rw [isSymbol, ih h, Bool.true_or]

theorem WellFormed.foreign_alphabet {inner : Form} {size : Nat} {separator : List Char}
    (wf : (grouped inner size separator).WellFormed) :
    ∀ c ∈ separator, inner.alphabet.isSymbol c = false := by
  intro c member
  cases symbol : inner.alphabet.isSymbol c with
  | false => rfl
  | true => exact absurd member (wf.not_mem_separator (isSymbol_of_alphabet symbol))

/-- The characters of its separators. -/
def separates : Form → Char → Bool
  | plain _, _ => false
  | grouped inner _ separator, c => inner.separates c || separator.contains c

theorem separates_of_blank {f : Form} (wf : f.WellFormed) {text : List Char}
    (blank : f.decode text = some []) : ∀ c ∈ text, f.separates c = true := by
  induction f generalizing text with
  | plain a =>
    rw [Alphabet.decode_eq_nil_iff.mp blank]
    simp
  | grouped inner size separator ih =>
    intro c member
    obtain ⟨content, parts, inside⟩ := (decode_grouped_iff wf).mp blank
    rw [separates, Bool.or_eq_true, List.contains_iff_mem]
    exact (parts.mem_or_mem member).symm.imp_left (ih wf.inner_wellFormed inside c)

variable {f : Form} (wf : f.WellFormed)
include wf

theorem head?_encode (bs : Bytes) : (f.encode bs).head? = (f.alphabet.encode bs).head? := by
  induction f with
  | plain a => rfl
  | grouped inner size separator ih =>
    exact (head?_intercalate_pieces wf.size_pos _).trans (ih wf.inner_wellFormed)

theorem countP_encode (bs : Bytes) :
    (f.encode bs).countP f.alphabet.isSymbol = (f.alphabet.encode bs).length := by
  induction f with
  | plain a => exact List.countP_eq_length.mpr fun _ => Alphabet.isSymbol_of_mem_encode
  | grouped inner size separator ih =>
    exact ((separated_encode wf bs).countP_eq wf.foreign_alphabet).trans (ih wf.inner_wellFormed)

theorem exists_encode_cons {bs : Bytes} (nonempty : bs ≠ []) :
    ∃ c text, f.encode bs = c :: text ∧ f.alphabet.isSymbol c = true := by
  have bytes := List.length_pos_iff.mpr nonempty
  have digits : 0 < (f.alphabet.encode bs).length := by
    rw [Alphabet.length_encode]
    exact Nat.div_pos (by omega) f.alphabet.width_pos
  obtain ⟨c, others, written⟩ := List.exists_cons_of_length_pos digits
  have first := head?_encode wf bs
  rw [written] at first
  obtain ⟨text, starts⟩ := List.head?_eq_some_iff.mp first
  have member : c ∈ f.alphabet.encode bs := by simp [written]
  exact ⟨c, text, starts, Alphabet.isSymbol_of_mem_encode member⟩

theorem bare_append_encode (front : List Char) {bs : Bytes} (nonempty : bs ≠ []) :
    f.bare (front ++ f.encode bs) = f.bare front ++ f.alphabet.encode bs := by
  induction f generalizing front with
  | plain a => rfl
  | grouped inner size separator ih =>
    have inside := ih wf.inner_wellFormed (removeAll separator front)
    obtain ⟨c, text, written, symbol⟩ := exists_encode_cons wf nonempty
    have foreign := wf.not_mem_separator (isSymbol_of_alphabet (f := inner) symbol)
    have content := removeAll_of_separated wf.separator_ne_nil (separated_encode wf bs)
    rw [written] at content
    have split := removeFrom_append_foreign foreign text 0 front (Nat.zero_le _)
    rw [bare, removeAll, written, split]
    exact (congrArg (fun t => inner.bare (removeAll separator front ++ t)) content).trans inside

end Codec.Form

namespace Codec.Form

variable {f : Form} (wf : f.WellFormed) {bs other : Bytes} (nonempty : bs ≠ [])
  (alike : other.length = bs.length)
include wf nonempty alike

/-- What stands in front of a written text is overlooked when it is read as nothing by itself. -/
theorem decode_append_encode_iff (front : List Char) :
    f.decode (front ++ f.encode bs) = some other ↔ f.decode front = some [] ∧ other = bs := by
  rw [decode_eq_bare, decode_eq_bare, Alphabet.decode_eq_nil_iff, bare_append_encode wf front nonempty]
  constructor
  · intro read
    have same := Alphabet.length_of_decode read
    rw [Alphabet.length_encode_congr alike, List.length_append] at same
    have blank : f.bare front = [] := List.length_eq_zero_iff.mp (by omega)
    rw [blank, List.nil_append, Alphabet.decode_encode] at read
    exact ⟨blank, (Option.some.inj read).symm⟩
  · rintro ⟨blank, rfl⟩
    rw [blank, List.nil_append, Alphabet.decode_encode]

/-- A written text without its start holds too few symbols for as many bytes. -/
theorem decode_rest_ne {front rest : List Char} (cut : front ≠ [])
    (split : f.encode bs = front ++ rest) : f.decode rest ≠ some other := by
  intro read
  rw [decode_eq_bare] at read
  obtain ⟨c, text, written, symbol⟩ := exists_encode_cons wf nonempty
  obtain ⟨c, front, rfl⟩ := List.exists_cons_of_ne_nil cut
  obtain ⟨rfl, _⟩ := List.cons.inj (written.symm.trans split)
  have kept : (f.bare rest).length ≤ rest.countP f.alphabet.isSymbol := by
    have all := List.countP_eq_length.mpr (Alphabet.isSymbol_of_decode read)
    exact all ▸ (bare_sublist f rest).countP_le
  have whole := countP_encode wf bs
  have same := Alphabet.length_of_decode read
  rw [Alphabet.length_encode_congr alike] at same
  rw [split, List.countP_append, List.countP_cons_of_pos symbol] at whole
  omega

end Codec.Form

namespace Codec

variable {c : Codec} {bs other : Bytes}

theorem decode_append_encode_iff (nonempty : bs ≠ []) (alike : other.length = bs.length)
    (front : String) :
    c.decode (front ++ c.encode bs) = .ok other ↔ c.decode front = .ok [] ∧ other = bs := by
  rw [decode_eq_ok_iff_form, decode_eq_ok_iff_form, String.toList_append, encode,
    String.toList_ofList]
  exact Form.decode_append_encode_iff c.wellFormed nonempty alike front.toList

theorem decode_rest_ne (nonempty : bs ≠ []) (alike : other.length = bs.length)
    {front rest : String} (cut : front ≠ "") (split : c.encode bs = front ++ rest) :
    c.decode rest ≠ .ok other := by
  have cut : front.toList ≠ [] := mt String.toList_eq_nil_iff.mp cut
  have split : c.form.encode bs = front.toList ++ rest.toList := by
    rw [← String.toList_append, ← split, encode, String.toList_ofList]
  rw [Ne, decode_eq_ok_iff_form]
  exact Form.decode_rest_ne c.wellFormed nonempty alike cut split

end Codec

end IdVeil
