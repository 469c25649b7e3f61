import IdVeil.Codec.Bits
import IdVeil.Error

/-!
Alphabets of a power of two symbols, each symbol standing for equally many bits. Bytes are written
as their bits, most significant first, without padding. A text is read only if it is what some
bytes are written as: no foreign character, no length that bytes do not give, no stray bits.
-/
namespace IdVeil

/-- At least two and at most 64 distinct symbols. With `eitherCase` a letter is read in either
case and written as it stands here. -/
structure Alphabet where
  symbols : List Char
  width : Nat
  eitherCase : Bool
  width_pos : 0 < width
  width_le : width ≤ 6
  length_symbols : symbols.length = Nat.pow 2 width
  distinct : symbols.Nodup
  lower : eitherCase = true → symbols.all fun c => c.toLower == c
deriving DecidableEq

namespace Alphabet

def symbol (a : Alphabet) (digit : Nat) : Char := a.symbols.getD digit ' '

def digit? (a : Alphabet) (c : Char) : Option Nat :=
  a.symbols.idxOf? (if a.eitherCase then c.toLower else c)

def isSymbol (a : Alphabet) (c : Char) : Bool := (a.digit? c).isSome

def symbolOf (a : Alphabet) (bits : List Bool) : Char :=
  a.symbol (ofBits (bits ++ List.replicate (a.width - bits.length) false))

def encode (a : Alphabet) (bs : Bytes) : List Char :=
  (pieces a.width (bitsOfBytes bs)).map a.symbolOf

def decode (a : Alphabet) (text : List Char) : Option Bytes := do
  let digits ← text.mapM a.digit?
  let bits := digits.flatMap (toBits a.width)
  let whole := bits.length / 8 * 8
  let stray := bits.drop whole
  if stray.length < a.width ∧ stray.all (!·) then some (bytesOfBits (bits.take whole)) else none

def span (first last : Char) : List Char :=
  (List.range' first.toNat (last.toNat + 1 - first.toNat)).map Char.ofNat

/-- Base64 for URLs (RFC 4648 section 5). -/
def base64Url : Alphabet where
  symbols := span 'A' 'Z' ++ span 'a' 'z' ++ span '0' '9' ++ ['-', '_']
  width := 6
  eitherCase := false
  width_pos := by decide
  width_le := by decide
  length_symbols := by decide
  distinct := by decide
  lower := by simp

/-- Base32 (RFC 4648 section 6). -/
def base32 : Alphabet where
  symbols := span 'A' 'Z' ++ span '2' '7'
  width := 5
  eitherCase := false
  width_pos := by decide
  width_le := by decide
  length_symbols := by decide
  distinct := by decide
  lower := by simp

/-- Lowercase hexadecimal, read in either case. -/
def base16 : Alphabet where
  symbols := span '0' '9' ++ span 'a' 'f'
  width := 4
  eitherCase := true
  width_pos := by decide
  width_le := by decide
  length_symbols := by decide
  distinct := by decide
  lower := by decide

/-- Digits and capitals without `I`, `L`, `O` and `U`, which are easy to mistake when read aloud. -/
def cleanBase32 : Alphabet where
  symbols := span '0' '9' ++ span 'A' 'H' ++ ['J', 'K', 'M', 'N'] ++ span 'P' 'T' ++ span 'V' 'Z'
  width := 5
  eitherCase := false
  width_pos := by decide
  width_le := by decide
  length_symbols := by decide
  distinct := by decide
  lower := by simp

/-- The first symbol that is not ASCII or stands a second time. -/
def faultFrom : List Char → List Char → Option AlphabetFault
  | _, [] => none
  | seen, c :: rest =>
    if 128 ≤ c.toNat then some .notAscii
    else if c ∈ seen then some (.conflict c)
    else faultFrom (c :: seen) rest

theorem faultFrom_eq_none {seen symbols : List Char} (h : faultFrom seen symbols = none) :
    (∀ c ∈ symbols, c.toNat < 128) ∧ symbols.Nodup ∧ ∀ c ∈ symbols, c ∉ seen := by
  induction symbols generalizing seen with
  | nil => simp
  | cons c rest ih =>
    rw [faultFrom] at h
    split at h
    · contradiction
    · split at h
      · contradiction
      · rename_i ascii fresh
        obtain ⟨hascii, hdistinct, hseen⟩ := ih h
        have hc : c ∉ rest := fun hm => hseen c hm (List.mem_cons_self)
        refine ⟨?_, List.nodup_cons.mpr ⟨hc, hdistinct⟩, ?_⟩
        · intro x hx
          rcases List.mem_cons.mp hx with rfl | hx
          · omega
          · exact hascii x hx
        · intro x hx
          rcases List.mem_cons.mp hx with rfl | hx
          · exact fresh
          · exact fun hs => hseen x hx (List.mem_cons_of_mem _ hs)

def byteCount (symbols : List Char) : Nat := symbols.foldr (fun c n => c.utf8Size + n) 0

theorem byteCount_eq_length {symbols : List Char} (h : ∀ c ∈ symbols, c.toNat < 128) :
    byteCount symbols = symbols.length := by
  induction symbols with
  | nil => rfl
  | cons c rest ih =>
    have hc : c.toNat < 128 := h c (List.mem_cons_self)
    have size : c.utf8Size = 1 := Char.utf8Size_eq_one_iff.mpr (by
      rw [UInt32.le_iff_toNat_le]
      exact Nat.le_of_lt_succ hc)
    have hrest := ih fun x hx => h x (List.mem_cons_of_mem _ hx)
    simp only [byteCount] at hrest
    simp only [byteCount, List.foldr_cons, List.length_cons, size, hrest]
    omega

def widthOf? (size : Nat) : Option Nat := [1, 2, 3, 4, 5, 6].find? fun k => size = Nat.pow 2 k

theorem widthOf?_eq_some {size k : Nat} (h : widthOf? size = some k) :
    0 < k ∧ k ≤ 6 ∧ size = Nat.pow 2 k := by
  have hm := List.mem_of_find?_eq_some h
  have hp := List.find?_some h
  simp only [decide_eq_true_eq] at hp
  have : 0 < k ∧ k ≤ 6 := by
    simp only [List.mem_cons, List.not_mem_nil, or_false] at hm
    omega
  exact ⟨this.1, this.2, hp⟩

/-- The alphabet of a text of 2, 4, 8, 16, 32 or 64 distinct ASCII symbols. Its size in bytes is
looked at first, then its symbols in order. -/
def ofSymbols (symbols : List Char) : Except AlphabetFault Alphabet :=
  match hw : widthOf? (byteCount symbols) with
  | none => .error .size
  | some width =>
    match hf : faultFrom [] symbols with
    | some fault => .error fault
    | none => .ok {
        symbols
        width
        eitherCase := false
        width_pos := (widthOf?_eq_some hw).1
        width_le := (widthOf?_eq_some hw).2.1
        length_symbols := by
          rw [← byteCount_eq_length (faultFrom_eq_none hf).1]
          exact (widthOf?_eq_some hw).2.2
        distinct := (faultFrom_eq_none hf).2.1
        lower := by simp }

end Alphabet

end IdVeil
