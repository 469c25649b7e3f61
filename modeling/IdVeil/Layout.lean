import IdVeil.Bytes
import IdVeil.Error

/-!
How ids of each kind are laid out as bytes of one length, numbers in big-endian order. Signed
numbers are in two's complement.
-/
namespace IdVeil

structure Uuid where
  bytes : FixedBytes 16
deriving DecidableEq

/-- Signed numbers of 128 bits. -/
structure Int128 where
  toBitVec : BitVec 128
deriving DecidableEq

def Int128.ofInt (x : Int) : Int128 := ⟨BitVec.ofInt 128 x⟩

def Int128.toInt (x : Int128) : Int := x.toBitVec.toInt

theorem Int128.toInt_inj {x y : Int128} : x.toInt = y.toInt ↔ x = y := by
  cases x
  cases y
  simp [Int128.toInt, BitVec.toInt_inj]

/-- The kinds of ids. `int32` has the layout of `int64`, `compactInt32` one of its own. -/
inductive Layout where
  | int64
  | uint64
  | int32
  | compactInt32
  | int64Pair
  | uuid
  | uint128
  | bigInteger
  | bytes (n : Nat)
deriving DecidableEq

namespace Layout

/-- The ids of a layout. There are numbers of 128 bits that do not fit in a big integer. -/
def Id : Layout → Type
  | int64 => Int64
  | uint64 => UInt64
  | int32 => Int32
  | compactInt32 => Int32
  | int64Pair => Int64 × Int64
  | uuid => Uuid
  | uint128 => BitVec 128
  | bigInteger => Int128
  | bytes n => FixedBytes n

/-- Bytes of the field that holds a big integer, after the byte that holds its length. -/
def bigIntegerField : Nat := 15

def byteLength : Layout → Nat
  | int64 => 8
  | uint64 => 8
  | int32 => 8
  | compactInt32 => 4
  | int64Pair => 16
  | uuid => 16
  | uint128 => 16
  | bigInteger => 1 + bigIntegerField
  | bytes n => n

def wordToBytes (n : Nat) (x : BitVec (8 * n)) : Bytes := Bytes.ofNat n x.toNat

def wordOfBytes (n : Nat) (bs : Bytes) : BitVec (8 * n) := BitVec.ofNat (8 * n) (Bytes.toNat bs)

def int64ToBytes (x : Int64) : Bytes := wordToBytes 8 x.toBitVec

def int64OfBytes (bs : Bytes) : Int64 := .ofBitVec (wordOfBytes 8 bs)

/-- The byte that fills a number up to the left. -/
def signByte (x : Int) : UInt8 := if x < 0 then 0xff else 0

/-- Leaves out bytes in front that only repeat the sign of the byte after them. -/
def stripSign (sign : UInt8) : Bytes → Bytes
  | a :: b :: rest =>
    if a = sign ∧ b &&& 0x80 = sign &&& 0x80 then stripSign sign (b :: rest) else a :: b :: rest
  | bs => bs

/-- The fewest bytes of two's complement for a number, found from all of them. -/
def minimalTwosComplement (x : Int128) : Bytes :=
  stripSign (signByte x.toInt) (wordToBytes 16 x.toBitVec)

/-- The bytes filled up in front by copies of their first bit. -/
def signExtend (n : Nat) (bs : Bytes) : Bytes :=
  List.replicate (n - bs.length) (if bs.headD 0 &&& 0x80 ≠ 0 then 0xff else 0) ++ bs

/-- The length of the number, then the number at the right end of its field. -/
def bigIntegerToBytes (x : Int128) : Except Error Bytes :=
  let digits := minimalTwosComplement x
  if bigIntegerField < digits.length then .error (.invalidId .bigIntegerTooLong)
  else .ok (UInt8.ofNat digits.length :: Bytes.zeros (bigIntegerField - digits.length) ++ digits)

/-- The bytes between the length and the number are not looked at. -/
def bigIntegerOfBytes (bs : Bytes) : Except Error Int128 :=
  let n := (bs.headD 0).toNat
  if 1 ≤ n ∧ n ≤ bigIntegerField then
    .ok ⟨wordOfBytes 16 (signExtend 16 (bs.drop (1 + bigIntegerField - n)))⟩
  else .error (.invalidId .bigIntegerLength)

/-- Whether a number has a two's complement of so many bytes. -/
def FitsIn (n : Nat) (x : Int) : Prop :=
  -Int.ofNat (Nat.pow 2 (8 * n - 1)) ≤ x ∧ x < Int.ofNat (Nat.pow 2 (8 * n - 1))

instance (n : Nat) (x : Int) : Decidable (FitsIn n x) := inferInstanceAs (Decidable (_ ∧ _))

def toBytes : (layout : Layout) → layout.Id → Except Error Bytes
  | int64, x => .ok (int64ToBytes x)
  | uint64, x => .ok (wordToBytes 8 (UInt64.toBitVec x))
  | int32, x => .ok (int64ToBytes (Int32.toInt64 x))
  | compactInt32, x => .ok (wordToBytes 4 (Int32.toBitVec x))
  | int64Pair, x => .ok (int64ToBytes (Prod.fst x) ++ int64ToBytes (Prod.snd x))
  | uuid, x => .ok (Uuid.bytes x).val
  | uint128, x => .ok (wordToBytes 16 x)
  | bigInteger, x => bigIntegerToBytes x
  | bytes _, x => .ok (Subtype.val x)

def read : (layout : Layout) → (bs : Bytes) → bs.length = layout.byteLength → Except Error layout.Id
  | int64, bs, _ => .ok (int64OfBytes bs)
  | uint64, bs, _ => .ok (UInt64.ofBitVec (wordOfBytes 8 bs))
  | int32, bs, _ =>
    let wide := int64OfBytes bs
    if FitsIn 4 wide.toInt then .ok wide.toInt32 else .error (.invalidId .notInt32)
  | compactInt32, bs, _ => .ok (Int32.ofBitVec (wordOfBytes 4 bs))
  | int64Pair, bs, _ => .ok (int64OfBytes (bs.take 8), int64OfBytes (bs.drop 8))
  | uuid, bs, h => .ok (Uuid.mk ⟨bs, h⟩)
  | uint128, bs, _ => .ok (wordOfBytes 16 bs)
  | bigInteger, bs, _ => bigIntegerOfBytes bs
  | bytes _, bs, h => .ok ⟨bs, h⟩

def ofBytes (layout : Layout) (bs : Bytes) : Except Error layout.Id :=
  if h : bs.length = layout.byteLength then layout.read bs h
  else .error (.inputLength layout.byteLength bs.length)

end Layout

end IdVeil
