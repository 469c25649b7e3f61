import IdVeil.Proofs.Codec.Alphabet
import IdVeil.Proofs.Codec.Groups

/-!
Spellings of one text. A codec reads a text as some bytes exactly when it is a spelling of what
the bytes are written as (`decode_eq_some_iff`), so it reads back what it writes
(`decode_encode`) and nothing else.
-/
namespace IdVeil.Codec

namespace Form

/-- Two spellings of one text: equal, or equal but for the case of letters where that does not
count, or equal but for where whole separators stand. -/
def SameText : Form → List Char → List Char → Prop
  | plain a, t, u => if a.eitherCase then t.map Char.toLower = u.map Char.toLower else t = u
  | grouped inner _ separator, t, u =>
    ∃ t' u', Separated separator t t' ∧ Separated separator u u' ∧ inner.SameText t' u'

theorem sameText_plain_iff {a : Alphabet} {t u : List Char} :
    (plain a).SameText t u ↔ t.map a.fold = u.map a.fold := by
  rw [SameText, Alphabet.map_fold, Alphabet.map_fold]
  split <;> rfl

namespace WellFormed

variable {inner : Form} {size : Nat} {separator : List Char}

theorem inner_wellFormed (h : (grouped inner size separator).WellFormed) : inner.WellFormed := h.1

theorem size_pos (h : (grouped inner size separator).WellFormed) : 0 < size :=
  Nat.lt_of_lt_of_le (by decide) h.2.1

theorem separator_ne_nil (h : (grouped inner size separator).WellFormed) : separator ≠ [] :=
  List.length_pos_iff.mp h.2.2.1

theorem not_mem_separator (h : (grouped inner size separator).WellFormed) {c : Char}
    (hc : inner.isSymbol c = true) : c ∉ separator := by
  intro member
  have foreign := List.all_eq_true.mp h.2.2.2.2 c member
  rw [hc] at foreign
  contradiction

end WellFormed

theorem isSymbol_of_mem_encode {f : Form} (wf : f.WellFormed) (bs : Bytes) :
    ∀ c ∈ f.encode bs, f.isSymbol c = true := by
  induction f with
  | plain a => exact fun c hc => Alphabet.isSymbol_of_mem_encode hc
  | grouped inner size separator ih =>
    intro c hc
    have inside := ih wf.inner_wellFormed
    have parts := separated_pieces wf.size_pos fun c hc => wf.not_mem_separator (inside c hc)
    rw [isSymbol, Bool.or_eq_true, List.contains_iff_mem]
    exact (parts.mem_or_mem hc).symm.imp_left (inside c)

theorem separated_encode {inner : Form} {size : Nat} {separator : List Char}
    (wf : (grouped inner size separator).WellFormed) (bs : Bytes) :
    Separated separator ((grouped inner size separator).encode bs) (inner.encode bs) :=
  separated_pieces wf.size_pos fun c hc =>
    wf.not_mem_separator (isSymbol_of_mem_encode wf.inner_wellFormed bs c hc)

theorem isSymbol_of_decode {f : Form} (wf : f.WellFormed) {text : List Char} {bs : Bytes}
    (h : f.decode text = some bs) : ∀ c ∈ text, f.isSymbol c = true := by
  induction f generalizing text with
  | plain a => exact Alphabet.isSymbol_of_decode h
  | grouped inner size separator ih =>
    intro c hc
    have inside := ih wf.inner_wellFormed h
    have parts := separated_removeAll wf.separator_ne_nil fun c hc =>
      wf.not_mem_separator (inside c hc)
    rw [isSymbol, Bool.or_eq_true, List.contains_iff_mem]
    exact (parts.mem_or_mem hc).symm.imp_left (inside c)

theorem decode_grouped_iff {inner : Form} {size : Nat} {separator text : List Char} {bs : Bytes}
    (wf : (grouped inner size separator).WellFormed) :
    (grouped inner size separator).decode text = some bs ↔
      ∃ content, Separated separator text content ∧ inner.decode content = some bs := by
  constructor
  · intro h
    have inside := isSymbol_of_decode wf.inner_wellFormed h
    exact ⟨_, separated_removeAll wf.separator_ne_nil fun c hc =>
      wf.not_mem_separator (inside c hc), h⟩
  · rintro ⟨content, parts, h⟩
    rw [decode, removeAll_of_separated wf.separator_ne_nil parts, h]

theorem decode_eq_some_iff {f : Form} (wf : f.WellFormed) {text : List Char} {bs : Bytes} :
    f.decode text = some bs ↔ f.SameText text (f.encode bs) := by
  induction f generalizing text with
  | plain a =>
    rw [sameText_plain_iff, encode, Alphabet.map_fold_encode]
    exact Alphabet.decode_eq_some_iff
  | grouped inner size separator ih =>
    rw [decode_grouped_iff wf]
    constructor
    · rintro ⟨content, parts, h⟩
      exact ⟨content, inner.encode bs, parts, separated_encode wf bs,
        (ih wf.inner_wellFormed).mp h⟩
    · rintro ⟨content, written, parts, groups, same⟩
      -- What is written has one content only, the text of the inner codec.
      have first := removeAll_of_separated wf.separator_ne_nil groups
      rw [removeAll_of_separated wf.separator_ne_nil (separated_encode wf bs)] at first
      exact ⟨content, parts, (ih wf.inner_wellFormed).mpr (first ▸ same)⟩

theorem decode_encode {f : Form} (wf : f.WellFormed) (bs : Bytes) :
    f.decode (f.encode bs) = some bs := by
  induction f with
  | plain a => exact Alphabet.decode_encode bs
  | grouped inner size separator ih =>
    exact (decode_grouped_iff wf).mpr
      ⟨inner.encode bs, separated_encode wf bs, ih wf.inner_wellFormed⟩

end Form

variable (c : Codec)

def SameText (t u : String) : Prop := c.form.SameText t.toList u.toList

example (t u : String) : base16.SameText t u ↔
    t.toList.map Char.toLower = u.toList.map Char.toLower := Iff.rfl

variable {c}

theorem decode_eq_ok_iff_form {text : String} {bs : Bytes} :
    c.decode text = .ok bs ↔ c.form.decode text.toList = some bs := by
  rw [decode]
  cases c.form.decode text.toList <;> simp

theorem decode_eq_ok_iff {text : String} {bs : Bytes} :
    c.decode text = .ok bs ↔ c.SameText text (c.encode bs) := by
  rw [SameText, encode, String.toList_ofList, ← Form.decode_eq_some_iff c.wellFormed]
  exact decode_eq_ok_iff_form

@[simp] theorem decode_encode (bs : Bytes) : c.decode (c.encode bs) = .ok bs := by
  rw [decode, encode, String.toList_ofList, Form.decode_encode c.wellFormed]

/-- Codecs where letter case counts and nothing is put into groups. -/
inductive Strict : Codec → Prop where
  | base64Url : Strict base64Url
  | base32 : Strict base32
  | cleanBase32 : Strict cleanBase32
  | ofSymbols {symbols : String} {c : Codec} (made : ofSymbols symbols = .ok c) : Strict c

theorem of_ofSymbols {symbols : List Char} {a : Alphabet}
    (h : Alphabet.ofSymbols symbols = .ok a) : a.symbols = symbols ∧ a.eitherCase = false := by
  unfold Alphabet.ofSymbols at h
  split at h
  · contradiction
  · split at h
    · contradiction
    · cases h
      exact ⟨rfl, rfl⟩

theorem exists_of_ofSymbols {symbols : String} {c : Codec} (made : ofSymbols symbols = .ok c) :
    ∃ a, c = ofAlphabet a ∧ a.symbols = symbols.toList ∧ a.eitherCase = false := by
  rw [ofSymbols] at made
  cases found : Alphabet.ofSymbols symbols.toList with
  | error fault =>
    rw [found] at made
    contradiction
  | ok a =>
    rw [found] at made
    exact ⟨a, (Except.ok.inj made).symm, of_ofSymbols found⟩

theorem Strict.exists_alphabet (strict : c.Strict) :
    ∃ a, c.form = .plain a ∧ a.eitherCase = false := by
  cases strict with
  | base64Url => exact ⟨_, rfl, rfl⟩
  | base32 => exact ⟨_, rfl, rfl⟩
  | cleanBase32 => exact ⟨_, rfl, rfl⟩
  | ofSymbols made =>
    obtain ⟨a, rfl, _, sensitive⟩ := exists_of_ofSymbols made
    exact ⟨a, rfl, sensitive⟩

theorem Strict.eq_of_sameText (strict : c.Strict) {t u : String} (h : c.SameText t u) : t = u := by
  obtain ⟨a, plain, sensitive⟩ := strict.exists_alphabet
  rw [SameText, plain, Form.SameText, sensitive] at h
  exact String.toList_inj.mp h

end IdVeil.Codec
