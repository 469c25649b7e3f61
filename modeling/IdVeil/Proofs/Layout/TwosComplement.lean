import IdVeil.Layout
import IdVeil.Proofs.Numerals

/-!
Two's complement. A number that fits and its digits determine each other
(`ofTwosComplement_twosComplement`, `twosComplement_ofTwosComplement`). A byte in front that repeats
the sign changes nothing, so the fewest digits of a number are what is left when such bytes are
stripped (`stripSign_twosComplement`), and a number fits in fewer bytes when the others are its sign
(`fitsIn_iff_signExtend`). The bytes of a machine word are the digits of its number
(`wordToBytes_eq_signed`, `toInt_wordOfBytes`).
-/
namespace IdVeil.Layout

/-- The last digits of a number in base 256, as many as are asked for. -/
def twosComplement (n : Nat) (x : Int) : Bytes :=
  Bytes.ofNat n (x % Int.ofNat (Nat.pow 2 (8 * n))).toNat

/-- The number of some digits, which is negative when their first bit is set. -/
def ofTwosComplement (bs : Bytes) : Int :=
  let x := Bytes.toNat bs
  let range := Nat.pow 2 (8 * bs.length)
  if range ≤ 2 * x then Int.ofNat x - Int.ofNat range else Int.ofNat x

theorem fitsIn_iff {n : Nat} {x : Int} :
    FitsIn n x ↔ -2 ^ (8 * n - 1) ≤ x ∧ x < 2 ^ (8 * n - 1) := by
  have bound : Int.ofNat (Nat.pow 2 (8 * n - 1)) = 2 ^ (8 * n - 1) := Int.natCast_pow 2 _
  rw [FitsIn, bound]

theorem byte_range (n : Nat) : 256 ^ n = 2 ^ (8 * n) := by
  rw [Nat.pow_mul]

theorem toNat_lt_two_pow (bs : Bytes) : Bytes.toNat bs < 2 ^ (8 * bs.length) :=
  byte_range _ ▸ Bytes.toNat_lt bs

@[simp] theorem length_twosComplement (n : Nat) (x : Int) : (twosComplement n x).length = n :=
  Bytes.length_ofNat _ _

theorem toNat_twosComplement (n : Nat) (x : Int) :
    (Bytes.toNat (twosComplement n x) : Int) = x % (2 ^ (8 * n) : Nat) := by
  have positive : (0 : Int) < (2 ^ (8 * n) : Nat) := Int.natCast_pos.mpr (Nat.two_pow_pos _)
  have digits : Bytes.toNat (twosComplement n x) =
      (x % (2 ^ (8 * n) : Nat)).toNat % 256 ^ n := Bytes.toNat_ofNat _ _
  have small : (x % (2 ^ (8 * n) : Nat)).toNat < 2 ^ (8 * n) := by
    have := Int.emod_lt_of_pos x positive
    omega
  rw [digits, byte_range, Nat.mod_eq_of_lt small, Int.toNat_of_nonneg (Int.emod_nonneg _ (by omega))]

theorem ofTwosComplement_eq (bs : Bytes) : ofTwosComplement bs =
    if 2 ^ (8 * bs.length) ≤ 2 * Bytes.toNat bs then
      (Bytes.toNat bs : Int) - (2 ^ (8 * bs.length) : Nat) else Bytes.toNat bs := rfl

theorem two_pow_eq {n : Nat} (hn : 0 < n) : 2 ^ (8 * n) = 2 * 2 ^ (8 * n - 1) := by
  rw [← Nat.pow_succ', Nat.succ_eq_add_one, Nat.sub_add_cancel (by omega)]

theorem ofTwosComplement_twosComplement {n : Nat} (hn : 0 < n) {x : Int} (h : FitsIn n x) :
    ofTwosComplement (twosComplement n x) = x := by
  have low : -((2 ^ (8 * n - 1) : Nat) : Int) ≤ x := h.1
  have high : x < (2 ^ (8 * n - 1) : Nat) := h.2
  have half := two_pow_eq hn
  have digits := toNat_twosComplement n x
  rw [ofTwosComplement_eq, length_twosComplement]
  rw [half] at digits ⊢
  by_cases negative : x < 0
  · have wrapped : x % (2 * 2 ^ (8 * n - 1) : Nat) = x + (2 * 2 ^ (8 * n - 1) : Nat) := by
      rw [← Int.add_emod_right, Int.emod_eq_of_lt (by omega) (by omega)]
    rw [if_pos (by omega)]
    omega
  · have same : x % (2 * 2 ^ (8 * n - 1) : Nat) = x :=
      Int.emod_eq_of_lt (by omega) (by omega)
    rw [if_neg (by omega)]
    omega

theorem fitsIn_ofTwosComplement {bs : Bytes} (nonempty : bs ≠ []) :
    FitsIn bs.length (ofTwosComplement bs) := by
  have half := two_pow_eq (List.length_pos_iff.mpr nonempty)
  have small := toNat_lt_two_pow bs
  change -((2 ^ (8 * bs.length - 1) : Nat) : Int) ≤ _ ∧ _ < ((2 ^ (8 * bs.length - 1) : Nat) : Int)
  rw [ofTwosComplement_eq]
  split <;> omega

theorem twosComplement_ofTwosComplement (bs : Bytes) :
    twosComplement bs.length (ofTwosComplement bs) = bs := by
  apply Bytes.eq_of_toNat_eq (length_twosComplement _ _)
  have small := toNat_lt_two_pow bs
  have digits := toNat_twosComplement bs.length (ofTwosComplement bs)
  have wrapped : ofTwosComplement bs % (2 ^ (8 * bs.length) : Nat) = Bytes.toNat bs := by
    rw [ofTwosComplement_eq]
    split
    · rw [Int.sub_emod_right, Int.emod_eq_of_lt (by omega) (by omega)]
    · rw [Int.emod_eq_of_lt (by omega) (by omega)]
  omega

theorem FitsIn.mono {n m : Nat} (positive : 0 < n) (le : n ≤ m) {x : Int} (fits : FitsIn n x) :
    FitsIn m x := by
  have pow : Nat.pow 2 (8 * n - 1) ≤ Nat.pow 2 (8 * m - 1) :=
    Nat.pow_le_pow_right (by decide) (by omega)
  have wide : Int.ofNat (Nat.pow 2 (8 * n - 1)) ≤ Int.ofNat (Nat.pow 2 (8 * m - 1)) :=
    Int.ofNat_le.mpr pow
  obtain ⟨low, high⟩ := fits
  exact ⟨by omega, by omega⟩

/-- The lengths at which a number has bytes of two's complement. -/
def lengths (x : Int) : Set Nat := {n | 1 ≤ n ∧ FitsIn n x}

theorem lengths_eq (x : Int) :
    lengths x = {n | 1 ≤ n ∧ -2 ^ (8 * n - 1) ≤ x ∧ x < 2 ^ (8 * n - 1)} := by
  simp only [lengths, fitsIn_iff]

theorem length_mem_lengths {bs : Bytes} (nonempty : bs ≠ []) :
    bs.length ∈ lengths (ofTwosComplement bs) :=
  ⟨List.length_pos_iff.mpr nonempty, fitsIn_ofTwosComplement nonempty⟩

theorem mem_lengths_of_le {n m : Nat} {x : Int} (long : n ∈ lengths x) (le : n ≤ m) :
    m ∈ lengths x := ⟨le_trans long.1 le, long.2.mono long.1 le⟩

theorem topBit_ne_zero_iff (b : UInt8) : b &&& 0x80 ≠ 0 ↔ 128 ≤ b.toNat := by
  revert b
  decide +kernel

theorem topBit_eq_iff (b : UInt8) (x : Int) :
    b &&& 0x80 = signByte x &&& 0x80 ↔ (128 ≤ b.toNat ↔ x < 0) := by
  have set : ∀ b : UInt8, b &&& 0x80 = 0xff &&& 0x80 ↔ b &&& 0x80 ≠ 0 := by decide +kernel
  have unset : ∀ b : UInt8, b &&& 0x80 = 0 &&& 0x80 ↔ ¬ b &&& 0x80 ≠ 0 := by decide +kernel
  by_cases negative : x < 0
  · simp only [signByte, negative, if_true, iff_true, set, topBit_ne_zero_iff]
  · simp only [signByte, negative, if_false, iff_false, unset, topBit_ne_zero_iff]

/-- The digits of two's complement count as usual, but for the first one, which has a sign. -/
theorem ofTwosComplement_cons (b : UInt8) (rest : Bytes) : ofTwosComplement (b :: rest) =
    (if 128 ≤ b.toNat then (b.toNat : Int) - 256 else b.toNat) * (256 ^ rest.length : Nat) +
      (Bytes.toNat rest : Int) := by
  have small : Bytes.toNat rest < 256 ^ rest.length := Bytes.toNat_lt rest
  have range : 2 ^ (8 * (b :: rest).length) = 256 * 256 ^ rest.length := by
    rw [← byte_range, List.length_cons, Nat.pow_succ, Nat.mul_comm]
  rw [ofTwosComplement_eq, range, Bytes.toNat_cons]
  generalize 256 ^ rest.length = p at *
  by_cases negative : 128 ≤ b.toNat
  · have := Nat.mul_le_mul_right p negative
    rw [if_pos negative, if_pos (by omega)]
    push_cast
    ring
  · have : (b.toNat + 1) * p ≤ 128 * p := Nat.mul_le_mul_right p (by omega)
    rw [if_neg negative, if_neg (by nlinarith)]
    push_cast
    ring

theorem ofTwosComplement_neg_iff (b : UInt8) (rest : Bytes) :
    ofTwosComplement (b :: rest) < 0 ↔ 128 ≤ b.toNat := by
  have small := Bytes.toNat_lt rest
  have byte := b.toNat_lt
  rw [ofTwosComplement_cons]
  generalize 256 ^ rest.length = p at *
  split
  · have : ((b.toNat : Int) - 256) * p ≤ -1 * p := by
      apply Int.mul_le_mul_of_nonneg_right <;> omega
    omega
  · have : 0 ≤ (b.toNat : Int) * p := by positivity
    omega

/-- A byte in front that repeats the sign changes nothing. -/
theorem ofTwosComplement_signByte_cons {bs : Bytes} (nonempty : bs ≠ []) :
    ofTwosComplement (signByte (ofTwosComplement bs) :: bs) = ofTwosComplement bs := by
  obtain ⟨b, rest, rfl⟩ := List.exists_cons_of_ne_nil nonempty
  have sign := ofTwosComplement_neg_iff b rest
  rw [ofTwosComplement_cons, signByte, Bytes.toNat_cons, List.length_cons, Nat.pow_succ]
  by_cases negative : 128 ≤ b.toNat
  · rw [if_pos (sign.mpr negative), ofTwosComplement_cons, if_pos negative, if_pos (by decide)]
    push_cast
    ring
  · rw [if_neg (mt sign.mp negative), ofTwosComplement_cons, if_neg negative, if_neg (by decide)]
    push_cast
    ring

/-- The digits of a number start with its sign. -/
theorem exists_digits {n : Nat} {x : Int} (long : n ∈ lengths x) :
    ∃ b rest, twosComplement n x = b :: rest ∧ rest.length + 1 = n ∧ (128 ≤ b.toNat ↔ x < 0) ∧
      ofTwosComplement (b :: rest) = x := by
  have value := ofTwosComplement_twosComplement long.1 long.2
  have length := length_twosComplement n x
  cases digits : twosComplement n x with
  | nil =>
    rw [digits] at length
    exact absurd long.1 (by simp [← length])
  | cons b rest =>
    rw [digits] at value length
    exact ⟨b, rest, rfl, length, value ▸ (ofTwosComplement_neg_iff b rest).symm, value⟩

theorem twosComplement_succ {n : Nat} {x : Int} (long : n ∈ lengths x) :
    twosComplement (n + 1) x = signByte x :: twosComplement n x := by
  obtain ⟨b, rest, digits, _, _, value⟩ := exists_digits long
  have wider := ofTwosComplement_signByte_cons (List.cons_ne_nil b rest)
  rw [value, ← digits] at wider
  have longer := twosComplement_ofTwosComplement (signByte x :: twosComplement n x)
  rwa [wider, List.length_cons, length_twosComplement] at longer

theorem twosComplement_eq_append {n m : Nat} {x : Int} (long : n ∈ lengths x) (le : n ≤ m) :
    twosComplement m x = List.replicate (m - n) (signByte x) ++ twosComplement n x := by
  induction m, le using Nat.le_induction with
  | base => simp
  | succ m le ih =>
    rw [twosComplement_succ (mem_lengths_of_le long le), ih, Nat.succ_sub le, List.replicate_succ,
      List.cons_append]

/-- When the first byte only repeats the sign, the number has a byte less. -/
theorem fitsIn_of_repeated {a b : UInt8} {rest : Bytes} {x : Int}
    (value : ofTwosComplement (a :: b :: rest) = x) (front : a = signByte x)
    (top : b &&& 0x80 = signByte x &&& 0x80) : FitsIn (rest.length + 1) x := by
  have shorter := ofTwosComplement_signByte_cons (List.cons_ne_nil b rest)
  have sign : ofTwosComplement (b :: rest) < 0 ↔ x < 0 :=
    (ofTwosComplement_neg_iff b rest).trans ((topBit_eq_iff b x).mp top)
  have same : signByte (ofTwosComplement (b :: rest)) = a := by
    rw [front]
    simp only [signByte, sign]
  rw [same, value] at shorter
  have fits := fitsIn_ofTwosComplement (List.cons_ne_nil b rest)
  rwa [← shorter] at fits

/-- Stripping the digits of a number leaves its fewest digits. -/
theorem stripSign_twosComplement {n m : Nat} {x : Int} (least : IsLeast (lengths x) n)
    (le : n ≤ m) : stripSign (signByte x) (twosComplement m x) = twosComplement n x := by
  induction m, le using Nat.le_induction with
  | base =>
    obtain ⟨a, rest, digits, length, _, value⟩ := exists_digits least.1
    cases rest with
    | nil =>
      rw [digits]
      rfl
    | cons b rest =>
      rw [digits, stripSign, if_neg]
      rintro ⟨front, top⟩
      have fewer := least.2 ⟨Nat.succ_pos _, fitsIn_of_repeated value front top⟩
      simp only [List.length_cons] at length
      omega
  | succ m le ih =>
    have long := mem_lengths_of_le least.1 le
    obtain ⟨b, rest, digits, _, sign, _⟩ := exists_digits long
    rw [twosComplement_succ long, digits, stripSign, if_pos ⟨rfl, (topBit_eq_iff b x).mpr sign⟩,
      ← digits, ih]

theorem signExtend_twosComplement {n m : Nat} {x : Int} (long : n ∈ lengths x) (le : n ≤ m) :
    signExtend m (twosComplement n x) = twosComplement m x := by
  obtain ⟨b, rest, digits, _, sign, _⟩ := exists_digits long
  have fill : (if b &&& 0x80 ≠ 0 then 0xff else 0) = signByte x := by
    simp only [signByte, ← sign, topBit_ne_zero_iff]
  rw [twosComplement_eq_append long le, signExtend, length_twosComplement, digits, List.headD_cons,
    fill]

/-- Digits with a sign in front stand for the number that they stood for. -/
theorem ofTwosComplement_signExtend {n : Nat} {bs : Bytes} (nonempty : bs ≠ [])
    (le : bs.length ≤ n) : ofTwosComplement (signExtend n bs) = ofTwosComplement bs := by
  have long := length_mem_lengths nonempty
  have longer := mem_lengths_of_le long le
  have digits := signExtend_twosComplement long le
  rw [twosComplement_ofTwosComplement] at digits
  rw [digits, ofTwosComplement_twosComplement longer.1 longer.2]

/-- A number fits in fewer bytes exactly when the others are its sign. -/
theorem fitsIn_iff_signExtend {n : Nat} {bs : Bytes} (positive : 0 < n) (le : n ≤ bs.length) :
    FitsIn n (ofTwosComplement bs) ↔ signExtend bs.length (bs.drop (bs.length - n)) = bs := by
  have length : (bs.drop (bs.length - n)).length = n := by
    simp only [List.length_drop]
    omega
  constructor
  · intro fits
    have whole := twosComplement_ofTwosComplement bs
    have digits := twosComplement_eq_append ⟨positive, fits⟩ le
    rw [whole] at digits
    have last : bs.drop (bs.length - n) = twosComplement n (ofTwosComplement bs) :=
      (congrArg (List.drop _) digits).trans (List.drop_left' (by simp))
    rw [last, signExtend_twosComplement ⟨positive, fits⟩ le, whole]
  · intro extended
    have nonempty : bs.drop (bs.length - n) ≠ [] :=
      List.length_pos_iff.mp (positive.trans_eq length.symm)
    have value := ofTwosComplement_signExtend nonempty (length.trans_le le)
    have fits := fitsIn_ofTwosComplement nonempty
    rwa [length, ← value, extended] at fits

theorem wordOfBytes_wordToBytes (n : Nat) (x : BitVec (8 * n)) :
    wordOfBytes n (wordToBytes n x) = x := by
  rw [wordOfBytes, wordToBytes, Bytes.toNat_ofNat, byte_range, Nat.mod_eq_of_lt x.isLt,
    BitVec.ofNat_toNat, BitVec.setWidth_eq]

theorem wordToBytes_wordOfBytes {n : Nat} {bs : Bytes} (h : bs.length = n) :
    wordToBytes n (wordOfBytes n bs) = bs := by
  subst h
  rw [wordToBytes, wordOfBytes, BitVec.toNat_ofNat, Nat.mod_eq_of_lt (toNat_lt_two_pow bs),
    Bytes.ofNat_toNat]

@[simp] theorem length_wordToBytes (n : Nat) (x : BitVec (8 * n)) :
    (wordToBytes n x).length = n := Bytes.length_ofNat _ _

theorem wordToBytes_ofInt (n : Nat) (x : Int) :
    wordToBytes n (BitVec.ofInt (8 * n) x) = twosComplement n x := by
  simp [wordToBytes, twosComplement]

theorem wordToBytes_eq_signed {n : Nat} (x : BitVec (8 * n)) :
    wordToBytes n x = twosComplement n x.toInt := by
  simpa using wordToBytes_ofInt n x.toInt

theorem fitsIn_toInt {n : Nat} (x : BitVec (8 * n)) : FitsIn n x.toInt :=
  fitsIn_iff.mpr ⟨x.le_toInt, x.toInt_lt⟩

/-- A word that is read from as many bytes as it has is the number of these digits. -/
theorem toInt_wordOfBytes {n : Nat} (positive : 0 < n) {bs : Bytes} (length : bs.length = n) :
    (wordOfBytes n bs).toInt = ofTwosComplement bs := by
  have digits := wordToBytes_wordOfBytes length
  rw [wordToBytes_eq_signed] at digits
  have value := ofTwosComplement_twosComplement positive (fitsIn_toInt (wordOfBytes n bs))
  rw [← value, digits]

end IdVeil.Layout
