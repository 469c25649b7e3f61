import IdVeil.Proofs.Codec.Spelling

/-!
Codecs and their symbols. `Buildable` lists the codecs that can be built, each with the characters
that count as its symbols, and `Buildable.isSymbol_iff` says that a codec goes by these. What a
codec writes is read back, and no other character stands in what it writes or accepts
(`buildable_invertible`).
-/
namespace IdVeil

section
variable {x y : Char}

theorem char_le_iff : x ≤ y ↔ x.toNat ≤ y.toNat := Char.le_def.trans UInt32.le_iff_toNat_le

theorem isUpper_iff : x.isUpper = true ↔ 'A' ≤ x ∧ x ≤ 'Z' := decide_eq_true_iff

theorem isDigit_iff : x.isDigit = true ↔ '0' ≤ x ∧ x ≤ '9' := by
  simp [Char.isDigit_iff_toNat, char_le_iff]

theorem isAlphanum_iff : x.isAlphanum = true ↔
    ('A' ≤ x ∧ x ≤ 'Z') ∨ ('a' ≤ x ∧ x ≤ 'z') ∨ ('0' ≤ x ∧ x ≤ '9') := by
  have lower : x.isLower = true ↔ 'a' ≤ x ∧ x ≤ 'z' := by simp [Char.isLower, Char.le_def]
  simp only [Char.isAlphanum, Char.isAlpha, Bool.or_eq_true, isUpper_iff, lower, isDigit_iff,
    or_assoc]

theorem toNat_toLower (upper : x.isUpper = true) : x.toLower.toNat = x.toNat + 32 := by
  have bounds := isUpper_iff.mp upper
  simp only [char_le_iff, Char.reduceToNat] at bounds
  rw [Char.toLower_eq_of_isUpper upper, Char.toNat_ofNat, if_pos (Or.inl (by omega))]

end

namespace Alphabet

variable {a : Alphabet} {x : Char}

theorem isSymbol_iff : a.isSymbol x = true ↔ a.fold x ∈ a.symbols := List.isSome_idxOf?

theorem isSymbol_iff_mem (sensitive : a.eitherCase = false) :
    a.isSymbol x = true ↔ x ∈ a.symbols := by
  simp [isSymbol_iff, fold, sensitive]

/-- Numbers below the surrogates are characters. -/
theorem mem_span_iff {first last : Char} (low : last.toNat < 0xd800) :
    x ∈ span first last ↔ first ≤ x ∧ x ≤ last := by
  simp only [span, List.mem_map, List.mem_range'_1, char_le_iff]
  constructor
  · rintro ⟨n, ⟨above, below⟩, rfl⟩
    have number : (Char.ofNat n).toNat = n := by
      rw [Char.toNat_ofNat, if_pos (Or.inl (by omega))]
    omega
  · intro between
    exact ⟨x.toNat, by omega, Char.ofNat_toNat x⟩

theorem isSymbol_base64Url_iff :
    base64Url.isSymbol x = true ↔ x.isAlphanum = true ∨ x = '-' ∨ x = '_' := by
  simp [isSymbol_iff_mem, base64Url, mem_span_iff, isAlphanum_iff, or_assoc]

theorem isSymbol_base32_iff :
    base32.isSymbol x = true ↔ x.isUpper = true ∨ '2' ≤ x ∧ x ≤ '7' := by
  simp [isSymbol_iff_mem, base32, mem_span_iff, isUpper_iff]

theorem isSymbol_base16_iff : base16.isSymbol x = true ↔
    x.isDigit = true ∨ 'a' ≤ x ∧ x ≤ 'f' ∨ 'A' ≤ x ∧ x ≤ 'F' := by
  have folded : base16.isSymbol x = true ↔
      '0' ≤ x.toLower ∧ x.toLower ≤ '9' ∨ 'a' ≤ x.toLower ∧ x.toLower ≤ 'f' := by
    simp [isSymbol_iff, fold, base16, mem_span_iff]
  rw [folded, isDigit_iff]
  -- Capitals are read 32 places further on, and there is no digit and no letter up to `f` between.
  by_cases upper : x.isUpper = true
  · have bounds := isUpper_iff.mp upper
    simp only [char_le_iff, toNat_toLower upper, Char.reduceToNat] at bounds ⊢
    omega
  · have bounds := mt isUpper_iff.mpr upper
    simp only [char_le_iff, Char.toLower_eq_of_not_isUpper upper, Char.reduceToNat] at bounds ⊢
    omega

end Alphabet

namespace Codec

/-- Groups are accepted when they have two characters or more and one to six characters between
them, none a symbol of what is put into groups. -/
theorem grouped_eq_ok_iff {inner c : Codec} {size : Nat} {separator : String} :
    inner.grouped size separator = .ok c ↔
      (2 ≤ size ∧ 1 ≤ separator.toList.length ∧ separator.toList.length ≤ 6 ∧
        ∀ x ∈ separator.toList, inner.isSymbol x = false) ∧
      c.form = .grouped inner.form size separator.toList := by
  have foreign : (separator.toList.all fun x => !inner.form.isSymbol x) = true ↔
      ∀ x ∈ separator.toList, inner.isSymbol x = false := by
    simp [isSymbol]
  obtain ⟨form, wellFormed⟩ := c
  rw [grouped, ← foreign]
  split
  · rename_i small
    simp only [reduceCtorEq, false_iff]
    rintro ⟨⟨large, _⟩, _⟩
    omega
  · rename_i large
    split
    · rename_i fits
      constructor
      · rintro ⟨⟩
        exact ⟨⟨by omega, fits⟩, rfl⟩
      · rintro ⟨_, rfl⟩
        rfl
    · rename_i unfit
      simp only [reduceCtorEq, false_iff]
      rintro ⟨⟨_, fits⟩, _⟩
      exact unfit fits

/-- The codecs that can be built, each with the characters that count as its symbols. -/
inductive Buildable : Codec → (Char → Prop) → Prop where
  | base64Url : Buildable base64Url fun x => x.isAlphanum = true ∨ x = '-' ∨ x = '_'
  | base32 : Buildable base32 fun x => x.isUpper = true ∨ '2' ≤ x ∧ x ≤ '7'
  | base16 : Buildable base16 fun x => x.isDigit = true ∨ 'a' ≤ x ∧ x ≤ 'f' ∨ 'A' ≤ x ∧ x ≤ 'F'
  | cleanBase32 : Buildable cleanBase32 fun x => x ∈ "0123456789ABCDEFGHJKMNPQRSTVWXYZ".toList
  | ofSymbols {symbols : String} {c : Codec} (accepted : ofSymbols symbols = .ok c) :
    Buildable c fun x => x ∈ symbols.toList
  | grouped {inner c : Codec} {symbol : Char → Prop} {size : Nat} {separator : String}
    (built : Buildable inner symbol) (accepted : inner.grouped size separator = .ok c) :
    Buildable c fun x => symbol x ∨ x ∈ separator.toList

theorem Buildable.isSymbol_iff {c : Codec} {symbol : Char → Prop} (built : c.Buildable symbol)
    (x : Char) : c.isSymbol x = true ↔ symbol x := by
  induction built with
  | base64Url => exact Alphabet.isSymbol_base64Url_iff
  | base32 => exact Alphabet.isSymbol_base32_iff
  | base16 => exact Alphabet.isSymbol_base16_iff
  | cleanBase32 => exact Alphabet.isSymbol_iff_mem rfl
  | ofSymbols accepted =>
    obtain ⟨a, rfl, symbols, sensitive⟩ := exists_of_ofSymbols accepted
    exact symbols ▸ Alphabet.isSymbol_iff_mem sensitive
  | grouped built accepted ih =>
    obtain ⟨_, form⟩ := grouped_eq_ok_iff.mp accepted
    rw [isSymbol, form, Form.isSymbol, Bool.or_eq_true, List.contains_iff_mem]
    exact or_congr_left ih

/-- Whatever bytes are written are read back, and what is written or accepted consists of symbols
only. -/
theorem buildable_invertible {c : Codec} {symbol : Char → Prop} (built : c.Buildable symbol) :
    (∀ bs, c.decode (c.encode bs) = .ok bs) ∧
    (∀ bs, ∀ x ∈ (c.encode bs).toList, c.isSymbol x = true) ∧
    (∀ text bs, c.decode text = .ok bs → ∀ x ∈ text.toList, c.isSymbol x = true) ∧
    ∀ x, c.isSymbol x = true ↔ symbol x := by
  refine ⟨decode_encode, ?_, ?_, built.isSymbol_iff⟩
  · intro bs x member
    rw [encode, String.toList_ofList] at member
    exact Form.isSymbol_of_mem_encode c.wellFormed bs x member
  · intro text bs accepted
    exact Form.isSymbol_of_decode c.wellFormed (decode_eq_ok_iff_form.mp accepted)

/-- Hexadecimal digits by threes. -/
def threes : Codec :=
  ⟨.grouped base16.form 3 ['x', 'y', 'x'], trivial, by decide, by decide, by decide, by decide⟩

/-- The same by twos, which cuts the inner separators. -/
def twosOfThrees : Codec :=
  ⟨.grouped threes.form 2 ['–', 'é'], threes.wellFormed, by decide, by decide, by decide, by decide⟩

theorem buildable_invertible_sample :
    base16.grouped 3 "xyx" = .ok threes ∧ threes.grouped 2 "–é" = .ok twosOfThrees ∧
      twosOfThrees.encode [0xab, 0xcd] = "ab–écx–éyx–éd" ∧
      twosOfThrees.decode "ab–écx–éyx–éd" = .ok [0xab, 0xcd] ∧
      twosOfThrees.isSymbol 'é' = true ∧ twosOfThrees.isSymbol 'F' = true ∧
      twosOfThrees.isSymbol 'G' = false := by
  have inner : base16.grouped 3 "xyx" = .ok threes := rfl
  have outer : threes.grouped 2 "–é" = .ok twosOfThrees := rfl
  have written : twosOfThrees.encode [0xab, 0xcd] = "ab–écx–éyx–éd" := by decide +kernel
  obtain ⟨read, writes, _, symbols⟩ := buildable_invertible (.grouped (.grouped .base16 inner) outer)
  refine ⟨inner, outer, written, written ▸ read [0xab, 0xcd], ?_, ?_, ?_⟩
  · exact writes [0xab, 0xcd] 'é' (by rw [written]; decide)
  · exact (symbols 'F').mpr (by decide)
  · exact Bool.eq_false_iff.mpr (mt (symbols 'G').mp (by decide))

end Codec

end IdVeil
