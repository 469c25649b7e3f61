/-!
Byte strings as lists: numbers in big-endian order, exclusive or, pieces of one length.
`xor_xor_cancel` and `xorFront_xorFront` say that exclusive or undoes itself, `flatten_pieces` that
cutting into pieces loses nothing.
-/
namespace IdVeil

abbrev Bytes := List UInt8

abbrev FixedBytes (n : Nat) := { bs : Bytes // bs.length = n }

/-- An endless supply of random bytes. -/
abbrev Noise := Nat → UInt8

namespace Bytes

def zeros (n : Nat) : Bytes := List.replicate n 0

/-- Bytewise exclusive or, as long as the shorter operand. -/
def xor (a b : Bytes) : Bytes := List.zipWith (· ^^^ ·) a b

/-- The string with its front under a keystream. What is longer than the keystream stays. -/
def xorFront : Bytes → Bytes → Bytes
  | k :: keystream, b :: bs => (b ^^^ k) :: xorFront keystream bs
  | _, bs => bs

/-- The last `n` base-256 digits of a number, most significant first. -/
def ofNat : Nat → Nat → Bytes
  | 0, _ => []
  | n + 1, x => ofNat n (x / 256) ++ [UInt8.ofNat x]

/-- The number whose base-256 digits are the bytes, most significant first. -/
def toNat (bs : Bytes) : Nat := bs.foldl (fun x b => x * 256 + b.toNat) 0

/-- The string filled up with zero bytes on the right to at least `n` bytes. -/
def padTo (n : Nat) (bs : Bytes) : Bytes := bs ++ zeros (n - bs.length)

theorem xor_left_comm (a b c : UInt8) : a ^^^ (b ^^^ c) = b ^^^ (a ^^^ c) := by
  rw [← UInt8.xor_assoc, UInt8.xor_comm a b, UInt8.xor_assoc]

theorem xor_cancel_left (a b : UInt8) : a ^^^ (a ^^^ b) = b := by
  rw [← UInt8.xor_assoc, UInt8.xor_self, UInt8.zero_xor]

theorem xor_cancel_right (a b : UInt8) : a ^^^ b ^^^ b = a := by
  rw [UInt8.xor_assoc, UInt8.xor_self, UInt8.xor_zero]

@[simp] theorem length_zeros (n : Nat) : (zeros n).length = n := by simp [zeros]

@[simp] theorem length_xor (a b : Bytes) : (xor a b).length = min a.length b.length := by
  simp [xor]

@[simp] theorem length_ofNat (n x : Nat) : (ofNat n x).length = n := by
  induction n generalizing x with
  | zero => rfl
  | succ n ih => simp [ofNat, ih]

@[simp] theorem length_padTo (n : Nat) (bs : Bytes) : (padTo n bs).length = max bs.length n := by
  simp only [padTo, List.length_append, length_zeros]
  omega

theorem xor_xor_cancel {a b : Bytes} (h : a.length ≤ b.length) : xor (xor a b) b = a := by
  induction a generalizing b with
  | nil => rfl
  | cons x a ih =>
    cases b with
    | nil => simp at h
    | cons y b =>
      have hb : a.length ≤ b.length := by simpa using h
      have := ih hb
      simp only [xor] at this
      simp only [xor, List.zipWith_cons_cons, this, xor_cancel_right]

theorem xor_comm (a b : Bytes) : xor a b = xor b a :=
  List.zipWith_comm_of_comm UInt8.xor_comm

theorem xor_assoc (a b c : Bytes) : xor (xor a b) c = xor a (xor b c) := by
  induction a generalizing b c with
  | nil => rfl
  | cons x a ih =>
    cases b with
    | nil => rfl
    | cons y b =>
      cases c with
      | nil => rfl
      | cons z c =>
        have rest := ih b c
        simp only [xor] at rest
        simp only [xor, List.zipWith_cons_cons, UInt8.xor_assoc, rest]

theorem xor_xor_self_left {a b : Bytes} (h : b.length ≤ a.length) : xor a (xor a b) = b := by
  rw [xor_comm a (xor a b), xor_comm a b, xor_xor_cancel h]

@[simp] theorem xorFront_nil (bs : Bytes) : xorFront [] bs = bs := by
  unfold xorFront
  rfl

@[simp] theorem length_xorFront (keystream bs : Bytes) :
    (xorFront keystream bs).length = bs.length := by
  induction keystream generalizing bs with
  | nil => rw [xorFront_nil]
  | cons k keystream ih =>
    cases bs with
    | nil => rfl
    | cons b bs => simp [xorFront, ih]

@[simp] theorem xorFront_xorFront (keystream bs : Bytes) :
    xorFront keystream (xorFront keystream bs) = bs := by
  induction keystream generalizing bs with
  | nil => simp
  | cons k keystream ih =>
    cases bs with
    | nil => rfl
    | cons b bs => rw [xorFront, xorFront, ih, xor_cancel_right]

theorem xorFront_eq_xor {keystream bs : Bytes} (cover : bs.length ≤ keystream.length) :
    xorFront keystream bs = xor bs keystream := by
  induction keystream generalizing bs with
  | nil =>
    obtain rfl : bs = [] := List.length_eq_zero_iff.mp (Nat.le_zero.mp cover)
    rfl
  | cons k keystream ih =>
    cases bs with
    | nil => rfl
    | cons b bs =>
      have shorter : bs.length ≤ keystream.length := by simpa using cover
      rw [xorFront, ih shorter]
      rfl

theorem getD_xorFront (keystream : Bytes) {bs : Bytes} {i : Nat} (inside : i < bs.length) :
    (xorFront keystream bs).getD i 0 = bs.getD i 0 ^^^ keystream.getD i 0 := by
  induction keystream generalizing bs i with
  | nil => simp
  | cons k keystream ih =>
    cases bs with
    | nil => contradiction
    | cons b bs =>
      cases i with
      | zero => rfl
      | succ i =>
        have shorter : i < bs.length := by simpa using inside
        simpa [xorFront] using ih shorter

@[simp] theorem toNat_nil : toNat [] = 0 := rfl

@[simp] theorem toNat_concat (bs : Bytes) (b : UInt8) :
    toNat (bs ++ [b]) = toNat bs * 256 + b.toNat := by
  simp [toNat]

end Bytes

/-- As many zero bytes as it takes. -/
def FixedBytes.zeros (n : Nat) : FixedBytes n := ⟨Bytes.zeros n, Bytes.length_zeros n⟩

def Noise.take (noise : Noise) (n : Nat) : Bytes := (List.range n).map noise

@[simp] theorem Noise.length_take (noise : Noise) (n : Nat) : (noise.take n).length = n := by
  simp [Noise.take]

def piecesWithin {α : Type} (n : Nat) : Nat → List α → List (List α)
  | 0, _ => []
  | _, [] => []
  | k + 1, l => l.take n :: piecesWithin n k (l.drop n)

/-- The list cut into pieces of `n` elements, the last one possibly shorter. -/
def pieces {α : Type} (n : Nat) (l : List α) : List (List α) := piecesWithin n l.length l

theorem flatten_piecesWithin {α : Type} {n : Nat} (hn : 0 < n) (k : Nat) (l : List α)
    (h : l.length ≤ k) : (piecesWithin n k l).flatten = l := by
  induction k generalizing l with
  | zero =>
    obtain rfl : l = [] := List.length_eq_zero_iff.mp (by omega)
    rfl
  | succ k ih =>
    cases l with
    | nil => rfl
    | cons a l =>
      have hd : ((a :: l).drop n).length ≤ k := by
        simp only [List.length_drop, List.length_cons] at h ⊢
        omega
      rw [piecesWithin, List.flatten_cons, ih _ hd, List.take_append_drop]
      simp

theorem flatten_pieces {α : Type} {n : Nat} (hn : 0 < n) (l : List α) :
    (pieces n l).flatten = l := flatten_piecesWithin hn _ l (Nat.le_refl _)

end IdVeil
