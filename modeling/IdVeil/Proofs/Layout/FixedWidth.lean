import IdVeil.Proofs.Layout

/-!
Layouts of a fixed width, which are all but that of big integers. An id is one number or several,
and its bytes are the digits of these in full (`toBytes_eq_numbers`). Bytes of the right length are
those of exactly one id, but for numbers of 32 bits laid out as numbers of 64, which have only the
bytes that are extended by their sign (`fixedWidth_exact`).
-/
namespace IdVeil.Layout

theorem wordToBytes_eq_unsigned {n : Nat} (x : BitVec (8 * n)) :
    wordToBytes n x = twosComplement n x.toNat := by
  simpa using wordToBytes_ofInt n x.toNat

theorem twosComplement_one_toNat (b : UInt8) : twosComplement 1 b.toNat = [b] := by
  have small : (b.toNat : Int) % 256 = b.toNat := by
    have := b.toNat_lt
    omega
  simp [twosComplement, Bytes.ofNat, small]

theorem int64ToBytes_eq_twosComplement (x : Int64) : int64ToBytes x = twosComplement 8 x.toInt :=
  wordToBytes_eq_signed (n := 8) x.toBitVec

theorem int64ToBytes_toInt64 (x : Int32) : int64ToBytes x.toInt64 = twosComplement 8 x.toInt := by
  simp [int64ToBytes_eq_twosComplement]

theorem toInt_int64OfBytes {bs : Bytes} (length : bs.length = 8) :
    (int64OfBytes bs).toInt = ofTwosComplement bs :=
  toInt_wordOfBytes (by decide) length

/-- The numbers that an id is made of, in order. -/
def numbers : (layout : Layout) → layout.Id → List Int
  | int64, x => [Int64.toInt x]
  | uint64, x => [UInt64.toNat x]
  | int32, x => [Int32.toInt x]
  | compactInt32, x => [Int32.toInt x]
  | int64Pair, x => [Int64.toInt (Prod.fst x), Int64.toInt (Prod.snd x)]
  | uuid, x => (Uuid.bytes x).val.map fun b => (b.toNat : Int)
  | uint128, x => [BitVec.toNat x]
  | bigInteger, x => [Int128.toInt x]
  | bytes _, x => (Subtype.val x).map fun b => (b.toNat : Int)

/-- How many bytes there are for each of them. -/
def numberLength : Layout → Nat
  | int64 => 8
  | uint64 => 8
  | int32 => 8
  | compactInt32 => 4
  | int64Pair => 8
  | uuid => 1
  | uint128 => 16
  | bigInteger => bigIntegerField
  | bytes _ => 1

/-- Every number of an id is written with as many digits as it may have. -/
theorem toBytes_eq_numbers {layout : Layout} (fixed : layout ≠ .bigInteger) (id : layout.Id) :
    layout.toBytes id = .ok ((layout.numbers id).flatMap (twosComplement layout.numberLength)) := by
  have one (n : Nat) (x : Int) : [x].flatMap (twosComplement n) = twosComplement n x := by simp
  have each (bs : Bytes) : (bs.map fun b => (b.toNat : Int)).flatMap (twosComplement 1) = bs := by
    simp [List.flatMap_map, twosComplement_one_toNat]
  cases layout with
  | int64 => exact congrArg Except.ok ((int64ToBytes_eq_twosComplement id).trans (one 8 _).symm)
  | uint64 => exact congrArg Except.ok ((wordToBytes_eq_unsigned _).trans (one 8 _).symm)
  | int32 => exact congrArg Except.ok ((int64ToBytes_toInt64 id).trans (one 8 _).symm)
  | compactInt32 => exact congrArg Except.ok ((wordToBytes_eq_signed _).trans (one 4 _).symm)
  | int64Pair => simp [toBytes, numbers, numberLength, int64ToBytes_eq_twosComplement]
  | uuid => exact congrArg Except.ok (each _).symm
  | uint128 => exact congrArg Except.ok ((wordToBytes_eq_unsigned _).trans (one 16 _).symm)
  | bigInteger => exact absurd rfl fixed
  | bytes n => exact congrArg Except.ok (each _).symm

theorem ofBytes_int32_eq_error_iff {bs : Bytes} (length : bs.length = int32.byteLength)
    {e : Error} : int32.ofBytes bs = .error e ↔
      signExtend 8 (bs.drop 4) ≠ bs ∧ e = .invalidId .notInt32 := by
  have eight : bs.length = 8 := length
  have narrow : FitsIn 4 (ofTwosComplement bs) ↔ _ := fitsIn_iff_signExtend (by decide) (by omega)
  simp only [eight, ← toInt_int64OfBytes eight, Nat.reduceSub] at narrow
  simp only [ofBytes, dif_pos length, read, ne_eq, ← narrow]
  split
  · next fits => simp [fits]
  · next unfit => simp [unfit, eq_comm]

theorem ofBytes_eq_error_iff {layout : Layout} (fixed : layout ≠ .bigInteger) {bs : Bytes}
    {e : Error} : layout.ofBytes bs = .error e ↔
      bs.length ≠ layout.byteLength ∧ e = .inputLength layout.byteLength bs.length ∨
      layout = .int32 ∧ bs.length = layout.byteLength ∧ signExtend 8 (bs.drop 4) ≠ bs ∧
        e = .invalidId .notInt32 := by
  by_cases length : bs.length = layout.byteLength
  · cases layout with
    | int32 => simp [ofBytes_int32_eq_error_iff length, length]
    | bigInteger => exact absurd rfl fixed
    | _ => simp [ofBytes, length, read]
  · simp [ofBytes, length, eq_comm]

/-- Every id of a layout of fixed width has bytes, as many as the layout says, which are the digits
of its numbers. It is read from these and from no others. Bytes of another length are refused, and
so are eight bytes for a number of 32 bits that are not the last four extended by their sign. -/
theorem fixedWidth_exact {layout : Layout} (fixed : layout ≠ .bigInteger) :
    (∀ id, ∃ bs, layout.toBytes id = .ok bs ∧ bs.length = layout.byteLength ∧
      bs = (layout.numbers id).flatMap (twosComplement layout.numberLength)) ∧
    (∀ id bs, layout.toBytes id = .ok bs ↔ layout.ofBytes bs = .ok id) ∧
    ∀ bs e, layout.ofBytes bs = .error e ↔
      bs.length ≠ layout.byteLength ∧ e = .inputLength layout.byteLength bs.length ∨
      layout = .int32 ∧ bs.length = layout.byteLength ∧ signExtend 8 (bs.drop 4) ≠ bs ∧
        e = .invalidId .notInt32 := by
  refine ⟨?_, ?_, fun bs e => ofBytes_eq_error_iff fixed⟩
  · intro id
    have written := toBytes_eq_numbers fixed id
    exact ⟨_, written, length_of_toBytes written, rfl⟩
  · intro id bs
    exact ⟨ofBytes_toBytes, toBytes_ofBytes fixed⟩

/-- The least number of 32 bits and the first one beyond, and a pair that is short of a byte. -/
theorem fixedWidth_exact_sample :
    int32.ofBytes [0xff, 0xff, 0xff, 0xff, 0x80, 0, 0, 0] = .ok (-2 ^ 31 : Int32) ∧
      int32.ofBytes [0, 0, 0, 0, 0x80, 0, 0, 0] = .error (.invalidId .notInt32) ∧
      int64.ofBytes [0, 0, 0, 0, 0x80, 0, 0, 0] = .ok (2 ^ 31 : Int64) ∧
      int64Pair.toBytes ((1, -1) : Int64 × Int64) =
        .ok (Bytes.zeros 7 ++ 1 :: List.replicate 8 0xff) ∧
      int64Pair.ofBytes (Bytes.zeros 15) = .error (.inputLength 16 15) := by
  have first : int32 ≠ bigInteger := by decide
  have second : int64 ≠ bigInteger := by decide
  have third : int64Pair ≠ bigInteger := by decide
  obtain ⟨_, narrow, refused⟩ := fixedWidth_exact first
  obtain ⟨_, wide, _⟩ := fixedWidth_exact second
  obtain ⟨written, _, short⟩ := fixedWidth_exact third
  obtain ⟨_, pair, _, rfl⟩ := written ((1, -1) : Int64 × Int64)
  refine ⟨(narrow _ _).mp rfl, ?_, (wide _ _).mp rfl, pair, ?_⟩
  · exact (refused _ _).mpr (.inr ⟨rfl, rfl, by decide, rfl⟩)
  · exact (short _ _).mpr (.inl ⟨by decide, rfl⟩)

end IdVeil.Layout
