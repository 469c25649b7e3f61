import IdVeil.Bytes

/-!
Bit strings, most significant bit first. `toBits_ofBits` says that a bit string is known by its
length and its number.
-/
namespace IdVeil

/-- The last `n` binary digits of a number, most significant first. -/
def toBits : Nat → Nat → List Bool
  | 0, _ => []
  | n + 1, x => toBits n (x / 2) ++ [x % 2 == 1]

/-- The number whose binary digits are the bits, most significant first. -/
def ofBits (bits : List Bool) : Nat := bits.foldl (fun x b => 2 * x + b.toNat) 0

def bitsOfBytes (bs : Bytes) : List Bool := bs.flatMap fun b => toBits 8 b.toNat

def bytesOfBits (bits : List Bool) : Bytes := (pieces 8 bits).map fun group => UInt8.ofNat (ofBits group)

@[simp] theorem length_toBits (n x : Nat) : (toBits n x).length = n := by
  induction n generalizing x with
  | zero => rfl
  | succ n ih => simp [toBits, ih]

@[simp] theorem ofBits_concat (bits : List Bool) (b : Bool) :
    ofBits (bits ++ [b]) = 2 * ofBits bits + b.toNat := by
  simp [ofBits]

theorem toBits_ofBits (bits : List Bool) : toBits bits.length (ofBits bits) = bits := by
  obtain ⟨r, rfl⟩ : ∃ r : List Bool, bits = r.reverse := ⟨bits.reverse, by simp⟩
  induction r with
  | nil => rfl
  | cons b r ih =>
    rw [List.reverse_cons, List.length_append, List.length_singleton, toBits, ofBits_concat]
    have front : (2 * ofBits r.reverse + b.toNat) / 2 = ofBits r.reverse := by
      have := b.toNat_le
      omega
    have last : ((2 * ofBits r.reverse + b.toNat) % 2 == 1) = b := by cases b <;> simp
    rw [front, last, ih]

@[simp] theorem length_bitsOfBytes (bs : Bytes) : (bitsOfBytes bs).length = 8 * bs.length := by
  induction bs with
  | nil => rfl
  | cons b bs ih => simp [bitsOfBytes] at ih ⊢; omega

end IdVeil
