import IdVeil.Bytes

/-!
The Shannon entropy of the bytes of a key, in bits per byte. With `n` bytes of which each value
occurs `c` times it is `log₂ n` less the mean of `log₂ c` over the bytes, so it is compared with
two and a half bits in whole numbers.
-/
namespace IdVeil.Entropy

def counts (bs : Bytes) : List Nat :=
  ((List.range 256).map fun v => bs.count (UInt8.ofNat v)).filter (0 < ·)

def total (counts : List Nat) : Nat := counts.foldl (· + ·) 0

/-- The entropy against two and a half bits. -/
def compareWithLimit (counts : List Nat) : Ordering :=
  let n := total counts
  let repeats := counts.foldl (fun x c => x * Nat.pow c (2 * c)) 1
  compare (Nat.pow n (2 * n)) (Nat.pow 2 (5 * n) * repeats)

/-- The entropy in double precision, summed in the order of the byte values. -/
def approximate (counts : List Nat) : Float :=
  let n := Float.ofNat (total counts)
  counts.foldl (fun sum c => let p := Float.ofNat c / n; sum + -p * p.log2) 0

/-- Whether the bytes have two and a half bits of entropy each. An exact tie is left to the
rounding of the sum in double precision. -/
def isEnough (bs : Bytes) : Bool :=
  let counts := counts bs
  match compareWithLimit counts with
  | .lt => false
  | .gt => true
  | .eq => 2.5 ≤ approximate counts

end IdVeil.Entropy
