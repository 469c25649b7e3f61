import IdVeil.Proofs.Layout.TwosComplement

/-!
Big integers byte by byte. A number is laid out in its fewest digits if these are 15 or less, and is
read back from them (`bigInteger_exact`). What is read as a number is a row of bytes, which may be
filled up with anything and may have more digits than the number needs. It is what the number is
laid out as exactly when it is canonical (`bigInteger_canonical_iff`).
-/
namespace IdVeil.Layout

/-- A number of 128 bits has a least length, and its bytes that do not repeat the sign are as many
digits. -/
theorem exists_minimalTwosComplement (x : Int128) : ∃ n, IsLeast (lengths x.toInt) n ∧
    minimalTwosComplement x = twosComplement n x.toInt := by
  have sixteen : 16 ∈ lengths x.toInt := ⟨by decide, fitsIn_toInt (n := 16) x.toBitVec⟩
  have least := isLeast_csInf (Set.nonempty_of_mem sixteen)
  refine ⟨_, least, ?_⟩
  rw [minimalTwosComplement, wordToBytes_eq_signed (n := 16)]
  exact stripSign_twosComplement least (least.2 sixteen)

theorem fitsIn_field_iff_le {x : Int} {n : Nat} (least : IsLeast (lengths x) n) :
    FitsIn bigIntegerField x ↔ n ≤ bigIntegerField := by
  constructor
  · exact fun fits => least.2 ⟨by decide, fits⟩
  · exact least.1.2.mono least.1.1

theorem bigIntegerToBytes_eq_error_iff {x : Int128} {e : Error} : bigIntegerToBytes x = .error e ↔
    ¬ FitsIn bigIntegerField x.toInt ∧ e = .invalidId .bigIntegerTooLong := by
  obtain ⟨n, least, digits⟩ := exists_minimalTwosComplement x
  rw [bigIntegerToBytes, digits, length_twosComplement, fitsIn_field_iff_le least, Nat.not_le]
  split
  · next long => simp [long, eq_comm]
  · next short => simp [short]

theorem bigIntegerToBytes_eq_ok_iff {x : Int128} {bs : Bytes} : bigIntegerToBytes x = .ok bs ↔
    ∃ n, (IsLeast (lengths x.toInt) n ∧ n ≤ bigIntegerField) ∧
      UInt8.ofNat n :: Bytes.zeros (bigIntegerField - n) ++ twosComplement n x.toInt = bs := by
  obtain ⟨n, least, digits⟩ := exists_minimalTwosComplement x
  rw [bigIntegerToBytes, digits, length_twosComplement]
  constructor
  · intro written
    split at written
    · cases written
    · next short => exact ⟨n, ⟨least, Nat.not_lt.mp short⟩, Except.ok.inj written⟩
  · rintro ⟨m, ⟨least', short⟩, rfl⟩
    rw [least'.unique least] at short ⊢
    exact if_neg (Nat.not_lt.mpr short)

theorem toBytes_bigInteger (x : Int128) : bigInteger.toBytes x = bigIntegerToBytes x := rfl

theorem exists_toBytes_iff {x : Int128} :
    (∃ bs, bigInteger.toBytes x = .ok bs) ↔ FitsIn bigIntegerField x.toInt := by
  rw [toBytes_bigInteger]
  constructor
  · rintro ⟨bs, written⟩
    by_contra unfit
    cases written.symm.trans (bigIntegerToBytes_eq_error_iff.mpr ⟨unfit, rfl⟩)
  · intro fits
    cases written : bigIntegerToBytes x with
    | ok bs => exact ⟨bs, rfl⟩
    | error e => exact absurd fits (bigIntegerToBytes_eq_error_iff.mp written).1

theorem fitsIn_field_iff {x : Int} : FitsIn bigIntegerField x ↔ -2 ^ 119 ≤ x ∧ x < 2 ^ 119 :=
  fitsIn_iff

/-- What stands after the byte with the length: bytes that fill up the field, and as many digits as
the length says. -/
structure BigIntegerRow where
  padding : Bytes
  digits : Bytes
  nonempty : digits ≠ []
  full : padding.length + digits.length = bigIntegerField

namespace BigIntegerRow

def bytes (r : BigIntegerRow) : Bytes := UInt8.ofNat r.digits.length :: r.padding ++ r.digits

def value (r : BigIntegerRow) : Int := ofTwosComplement r.digits

/-- The number that is read, from the digits with the sign in front of them. -/
def number (r : BigIntegerRow) : Int128 := ⟨wordOfBytes 16 (signExtend 16 r.digits)⟩

/-- Filled up with zeros, and with no digit more than the number needs. -/
def Canonical (r : BigIntegerRow) : Prop :=
  r.padding = Bytes.zeros r.padding.length ∧ IsLeast (lengths r.value) r.digits.length

variable {r r' : BigIntegerRow}

theorem length_bytes (r : BigIntegerRow) : r.bytes.length = 1 + bigIntegerField := by
  simp only [bytes, List.cons_append, List.length_cons, List.length_append, r.full]
  omega

theorem length_digits_le (r : BigIntegerRow) : r.digits.length ≤ bigIntegerField :=
  r.full ▸ Nat.le_add_left _ _

theorem toNat_length (r : BigIntegerRow) : (UInt8.ofNat r.digits.length).toNat = r.digits.length := by
  have small : r.digits.length ≤ 15 := r.length_digits_le
  rw [UInt8.toNat_ofNat', Nat.mod_eq_of_lt (by omega)]

theorem twosComplement_value (r : BigIntegerRow) :
    twosComplement r.digits.length r.value = r.digits := twosComplement_ofTwosComplement r.digits

theorem mem_lengths (r : BigIntegerRow) : r.digits.length ∈ lengths r.value :=
  length_mem_lengths r.nonempty

theorem toInt_number (r : BigIntegerRow) : r.number.toInt = r.value := by
  have short : r.digits.length ≤ 16 := r.length_digits_le.trans (by decide)
  have wide : (signExtend 16 r.digits).length = 16 := by
    rw [signExtend, List.length_append, List.length_replicate, Nat.sub_add_cancel short]
  have read : r.number.toInt = ofTwosComplement (signExtend 16 r.digits) :=
    toInt_wordOfBytes (by decide) wide
  rw [read, ofTwosComplement_signExtend r.nonempty short, value]

theorem bytes_of_zeros (r : BigIntegerRow) (zeros : r.padding = Bytes.zeros r.padding.length) : r.bytes =
    UInt8.ofNat r.digits.length :: Bytes.zeros (bigIntegerField - r.digits.length) ++ r.digits := by
  rw [← r.full, Nat.add_sub_cancel, ← zeros, bytes]

theorem bytes_injective (same : r.bytes = r'.bytes) : r = r' := by
  obtain ⟨first, rest⟩ := List.cons.inj same
  have lengths := congrArg UInt8.toNat first
  rw [r.toNat_length, r'.toNat_length] at lengths
  obtain ⟨padding, digits⟩ := List.append_inj' rest lengths
  cases r
  cases r'
  simp only [mk.injEq]
  exact ⟨padding, digits⟩

/-- The row with another byte to fill it up. -/
def fill (r : BigIntegerRow) (b : UInt8) : BigIntegerRow :=
  { r with
    padding := List.replicate r.padding.length b
    full := by rw [List.length_replicate, r.full] }

theorem length_digits_of_fill (same : (r.fill 0).bytes = (r.fill 1).bytes) :
    r.digits.length = bigIntegerField := by
  have padding := congrArg BigIntegerRow.padding (bytes_injective same)
  have full := r.full
  cases length : r.padding.length with
  | zero => omega
  | succ n => simp [fill, length, List.replicate_succ] at padding

theorem length_digits_of_least (r : BigIntegerRow) (least : IsLeast (lengths r.value) 15) :
    r.digits.length = 15 := Nat.le_antisymm r.length_digits_le (least.2 r.mem_lengths)

theorem padding_eq_nil (r : BigIntegerRow) (length : r.digits.length = 15) : r.padding = [] := by
  have full := r.full
  rw [length] at full
  exact List.length_eq_zero_iff.mp (Nat.add_right_cancel (full.trans (Nat.zero_add _).symm))

end BigIntegerRow

theorem bigIntegerOfBytes_bytes (r : BigIntegerRow) : bigIntegerOfBytes r.bytes = .ok r.number := by
  have front : (UInt8.ofNat r.digits.length :: r.padding).length =
      1 + bigIntegerField - r.digits.length := by
    rw [← r.full, List.length_cons]
    omega
  have head : (r.bytes.headD 0).toNat = r.digits.length := r.toNat_length
  rw [bigIntegerOfBytes]
  simp only [head]
  rw [if_pos ⟨List.length_pos_iff.mpr r.nonempty, r.length_digits_le⟩, BigIntegerRow.number,
    ← front, BigIntegerRow.bytes, List.drop_left]

theorem exists_row_of_bigIntegerOfBytes {bs : Bytes} {x : Int128}
    (length : bs.length = 1 + bigIntegerField) (read : bigIntegerOfBytes bs = .ok x) :
    ∃ r : BigIntegerRow, r.bytes = bs := by
  obtain ⟨b, field, rfl⟩ := List.exists_cons_of_length_eq_add_one (length.trans (Nat.add_comm _ _))
  have whole : field.length = bigIntegerField := by simpa [Nat.add_comm] using length
  rw [bigIntegerOfBytes] at read
  split at read
  · rename_i bounds
    rw [List.headD_cons] at bounds
    have back : (field.drop (field.length - b.toNat)).length = b.toNat := by
      rw [List.length_drop]
      omega
    refine ⟨⟨field.take (field.length - b.toNat), field.drop (field.length - b.toNat), ?_, ?_⟩, ?_⟩
    · exact List.length_pos_iff.mp (by omega)
    · rw [← List.length_append, List.take_append_drop, whole]
    · simp only [BigIntegerRow.bytes, back, UInt8.ofNat_toNat, List.cons_append,
        List.take_append_drop]
  · cases read

theorem ofBytes_bytes (r : BigIntegerRow) : bigInteger.ofBytes r.bytes = .ok r.number := by
  have length : r.bytes.length = bigInteger.byteLength := r.length_bytes
  exact (dif_pos length).trans (bigIntegerOfBytes_bytes r)

theorem ofBytes_bigInteger_iff {bs : Bytes} {x : Int128} :
    bigInteger.ofBytes bs = .ok x ↔ ∃ r : BigIntegerRow, r.bytes = bs ∧ r.value = x.toInt := by
  constructor
  · intro read
    have h := read
    rw [ofBytes] at h
    split at h
    · rename_i length
      obtain ⟨r, rfl⟩ := exists_row_of_bigIntegerOfBytes length h
      have same : r.number = x := Except.ok.inj ((ofBytes_bytes r).symm.trans read)
      exact ⟨r, rfl, same ▸ r.toInt_number.symm⟩
    · contradiction
  · rintro ⟨r, rfl, same⟩
    rw [ofBytes_bytes, Int128.toInt_inj.mp (r.toInt_number.trans same)]

theorem toBytes_bigInteger_iff {bs : Bytes} {x : Int128} : bigInteger.toBytes x = .ok bs ↔
    ∃ r : BigIntegerRow, r.bytes = bs ∧ r.value = x.toInt ∧ r.Canonical := by
  rw [toBytes_bigInteger, bigIntegerToBytes_eq_ok_iff]
  constructor
  · rintro ⟨n, ⟨least, small⟩, rfl⟩
    have length := length_twosComplement n x.toInt
    have value := ofTwosComplement_twosComplement least.1.1 least.1.2
    have nonempty : twosComplement n x.toInt ≠ [] :=
      List.length_pos_iff.mp (length.symm ▸ least.1.1)
    refine ⟨⟨Bytes.zeros (bigIntegerField - n), twosComplement n x.toInt, nonempty, ?_⟩, ?_, value,
      ?_, ?_⟩
    · rw [Bytes.length_zeros, length, Nat.sub_add_cancel small]
    · simp only [BigIntegerRow.bytes, length]
    · simp only [Bytes.length_zeros]
    · simpa only [BigIntegerRow.value, value, length] using least
  · rintro ⟨r, rfl, same, zeros, least⟩
    refine ⟨r.digits.length, ⟨same ▸ least, r.length_digits_le⟩, ?_⟩
    rw [← same, r.twosComplement_value, r.bytes_of_zeros zeros]

theorem toBytes_value_iff {r : BigIntegerRow} {x : Int128} (same : r.value = x.toInt) :
    bigInteger.toBytes x = .ok r.bytes ↔ r.Canonical := by
  rw [toBytes_bigInteger_iff]
  constructor
  · rintro ⟨r', same', _, canonical⟩
    exact BigIntegerRow.bytes_injective same' ▸ canonical
  · exact fun canonical => ⟨r, rfl, same, canonical⟩

theorem length_of_bigInteger {bs : Bytes} {x : Int128} (h : bigInteger.toBytes x = .ok bs) :
    bs.length = 1 + bigIntegerField := by
  obtain ⟨r, rfl, _⟩ := toBytes_bigInteger_iff.mp h
  exact r.length_bytes

theorem ofBytes_of_toBytes {bs : Bytes} {x : Int128} (h : bigInteger.toBytes x = .ok bs) :
    bigInteger.ofBytes bs = .ok x := by
  obtain ⟨r, same, value, _⟩ := toBytes_bigInteger_iff.mp h
  exact ofBytes_bigInteger_iff.mpr ⟨r, same, value⟩

/-- Numbers that are read can be laid out again. -/
theorem exists_toBytes_of_value {r : BigIntegerRow} {x : Int128} (same : r.value = x.toInt) :
    ∃ bs, bigInteger.toBytes x = .ok bs :=
  exists_toBytes_iff.mpr (same ▸ r.mem_lengths.2.mono r.mem_lengths.1 r.length_digits_le)

/-- A number has bytes exactly when 15 bytes of two's complement hold it. They are its length, the
least that holds it, zeros, and its digits, to which sign bytes give back all of its bytes. It is
read back from them, and nothing is read as a number out of their range. -/
theorem bigInteger_exact (x : Int128) :
    ((∃ bs, bigInteger.toBytes x = .ok bs) ↔ -2 ^ 119 ≤ x.toInt ∧ x.toInt < 2 ^ 119) ∧
    (∀ e, bigInteger.toBytes x = .error e → e = .invalidId .bigIntegerTooLong) ∧
    (∀ bs, bigInteger.toBytes x = .ok bs → ∃ n digits,
      IsLeast {n : Nat | 1 ≤ n ∧ -2 ^ (8 * n - 1) ≤ x.toInt ∧ x.toInt < 2 ^ (8 * n - 1)} n ∧
      n ≤ 15 ∧ digits.length = n ∧ bs = UInt8.ofNat n :: Bytes.zeros (15 - n) ++ digits ∧
      (Bytes.toNat digits : Int) = x.toInt % 2 ^ (8 * n) ∧
      wordToBytes 16 x.toBitVec = List.replicate (16 - n) (signByte x.toInt) ++ digits ∧
      bigInteger.ofBytes bs = .ok x) ∧
    ∀ bs, bigInteger.ofBytes bs = .ok x → -2 ^ 119 ≤ x.toInt ∧ x.toInt < 2 ^ 119 := by
  simp only [← fitsIn_field_iff]
  refine ⟨exists_toBytes_iff, ?_, ?_, ?_⟩
  · intro e refused
    rw [toBytes_bigInteger] at refused
    exact (bigIntegerToBytes_eq_error_iff.mp refused).2
  · intro bs written
    obtain ⟨r, rfl, same, zeros, least⟩ := toBytes_bigInteger_iff.mp written
    have small : r.digits.length ≤ 15 := r.length_digits_le
    have digits : twosComplement r.digits.length x.toInt = r.digits := same ▸ r.twosComplement_value
    have number := toNat_twosComplement r.digits.length x.toInt
    rw [digits] at number
    refine ⟨r.digits.length, r.digits, lengths_eq _ ▸ same ▸ least, small, rfl, ?_, ?_, ?_, ?_⟩
    · exact r.bytes_of_zeros zeros
    · simpa using number
    · rw [wordToBytes_eq_signed (n := 16)]
      have whole := twosComplement_eq_append (same ▸ r.mem_lengths) (by omega : _ ≤ 16)
      rwa [digits] at whole
    · exact ofBytes_of_toBytes written
  · intro bs read
    obtain ⟨r, rfl, same⟩ := ofBytes_bigInteger_iff.mp read
    exact exists_toBytes_iff.mp (exists_toBytes_of_value same)

/-- The last number of two digits before one is enough, and the first beyond fifteen. -/
theorem bigInteger_exact_sample :
    bigInteger.toBytes (Int128.ofInt (-129)) = .ok (2 :: Bytes.zeros 13 ++ [0xff, 0x7f]) ∧
      bigInteger.ofBytes (2 :: Bytes.zeros 13 ++ [0xff, 0x7f]) = .ok (Int128.ofInt (-129)) ∧
      (∃ bs, bigInteger.toBytes (Int128.ofInt (-2 ^ 119)) = .ok bs) ∧
      bigInteger.toBytes (Int128.ofInt (2 ^ 119)) = .error (.invalidId .bigIntegerTooLong) := by
  have written : bigInteger.toBytes (Int128.ofInt (-129)) =
      .ok (2 :: Bytes.zeros 13 ++ [0xff, 0x7f]) := rfl
  obtain ⟨_, _, exact, _⟩ := bigInteger_exact (Int128.ofInt (-129))
  obtain ⟨_, _, _, _, _, _, _, _, read⟩ := exact _ written
  obtain ⟨low, _⟩ := bigInteger_exact (Int128.ofInt (-2 ^ 119))
  obtain ⟨high, refused, _⟩ := bigInteger_exact (Int128.ofInt (2 ^ 119))
  refine ⟨written, read, low.mpr (by decide), ?_⟩
  cases result : bigInteger.toBytes (Int128.ofInt (2 ^ 119)) with
  | ok bs => exact absurd (high.mp ⟨bs, result⟩).2 (by decide)
  | error e => rw [refused e result]

/-- What is read as a number is a row. It is what the number is laid out as exactly when zeros fill
it up and its digits are the fewest, and nothing else is read as the number exactly when its fewest
digits take up the field. -/
theorem bigInteger_canonical_iff {bs : Bytes} {x : Int128} (read : bigInteger.ofBytes bs = .ok x) :
    ∃ r : BigIntegerRow, r.bytes = bs ∧ r.value = x.toInt ∧
      (bigInteger.toBytes x = .ok bs ↔ r.Canonical) ∧
      ((∀ bs', bigInteger.ofBytes bs' = .ok x → bs' = bs) ↔ IsLeast (lengths x.toInt) 15) := by
  obtain ⟨r, rfl, value⟩ := ofBytes_bigInteger_iff.mp read
  refine ⟨r, rfl, value, toBytes_value_iff value, ?_⟩
  constructor
  · intro only
    obtain ⟨bs, written⟩ := exists_toBytes_of_value value
    obtain ⟨least, rfl, same, _, fewest⟩ := toBytes_bigInteger_iff.mp written
    -- The row of the fewest digits could be filled up with anything, if there were room.
    have alike (b : UInt8) : (least.fill b).bytes = r.bytes :=
      only _ (ofBytes_bigInteger_iff.mpr ⟨least.fill b, rfl, same⟩)
    have length := BigIntegerRow.length_digits_of_fill ((alike 0).trans (alike 1).symm)
    rwa [same, length] at fewest
  · rintro least bs' read'
    obtain ⟨r', rfl, value'⟩ := ofBytes_bigInteger_iff.mp read'
    have length := r.length_digits_of_least (value ▸ least)
    have length' := r'.length_digits_of_least (value' ▸ least)
    have digits : r'.digits = r.digits := by
      rw [← r'.twosComplement_value, ← r.twosComplement_value, length, length', value, value']
    rw [BigIntegerRow.bytes, BigIntegerRow.bytes, digits, r.padding_eq_nil length,
      r'.padding_eq_nil length']

theorem bigInteger_canonical_sample :
    bigInteger.ofBytes (1 :: Bytes.zeros 14 ++ [5]) = .ok (Int128.ofInt 5) ∧
      (∃ bs, bs ≠ 1 :: Bytes.zeros 14 ++ [5] ∧ bigInteger.ofBytes bs = .ok (Int128.ofInt 5)) ∧
      bigInteger.ofBytes (15 :: 0x40 :: Bytes.zeros 14) = .ok (Int128.ofInt (2 ^ 118)) ∧
      ∀ bs, bigInteger.ofBytes bs = .ok (Int128.ofInt (2 ^ 118)) → bs = 15 :: 0x40 :: Bytes.zeros 14 := by
  have small : bigInteger.ofBytes (1 :: Bytes.zeros 14 ++ [5]) = .ok (Int128.ofInt 5) := rfl
  have large : bigInteger.ofBytes (15 :: 0x40 :: Bytes.zeros 14) = .ok (Int128.ofInt (2 ^ 118)) := rfl
  have one : (1 : Nat) ∈ lengths 5 := ⟨by decide, by decide⟩
  have fifteen : IsLeast (lengths (2 ^ 118)) 15 := by
    refine ⟨⟨by decide, by decide⟩, ?_⟩
    rintro n ⟨positive, fits⟩
    by_contra fewer
    have short : ¬ FitsIn 14 (2 ^ 118) := by decide
    exact short (fits.mono positive (by omega))
  obtain ⟨_, _, _, _, fiveOnly⟩ := bigInteger_canonical_iff small
  obtain ⟨_, _, _, _, largeOnly⟩ := bigInteger_canonical_iff large
  refine ⟨small, ?_, large, largeOnly.mpr fifteen⟩
  by_contra none
  push Not at none
  have least := fiveOnly.mp fun bs read => not_not.mp fun other => none bs other read
  exact absurd (least.2 one) (by decide)

/-- Five is also read from digits that it does not need, and with other bytes than zeros in front. -/
theorem bigInteger_other_rows :
    bigInteger.toBytes (Int128.ofInt 5) = .ok (1 :: Bytes.zeros 14 ++ [5]) ∧
      bigInteger.ofBytes (2 :: Bytes.zeros 13 ++ [0, 5]) = .ok (Int128.ofInt 5) ∧
      bigInteger.ofBytes (1 :: List.replicate 14 0xff ++ [5]) = .ok (Int128.ofInt 5) ∧
      bigInteger.toBytes (Int128.ofInt 5) ≠ .ok (2 :: Bytes.zeros 13 ++ [0, 5]) ∧
      bigInteger.toBytes (Int128.ofInt 5) ≠ .ok (1 :: List.replicate 14 0xff ++ [5]) := by
  refine ⟨rfl, rfl, rfl, ?_, ?_⟩
  · decide
  · decide

end IdVeil.Layout
