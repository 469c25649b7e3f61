import Mathlib
import IdVeil.Codec.Bits

/-!
Numerals of a fixed width. A number within range and its digits determine each other, in bytes
(`toNat_ofNat`) and in bits (`ofBits_toBits`).
-/
namespace IdVeil

namespace Bytes

theorem toNat_ofNat (n x : Nat) : toNat (ofNat n x) = x % 256 ^ n := by
  induction n generalizing x with
  | zero => simp [ofNat, Nat.mod_one]
  | succ n ih =>
    have digit : (UInt8.ofNat x).toNat = x % 256 := by simp
    rw [ofNat, toNat_concat, ih, digit, Nat.pow_succ, Nat.mul_comm (256 ^ n) 256, Nat.mod_mul]
    omega

theorem ofNat_toNat (bs : Bytes) : ofNat bs.length (toNat bs) = bs := by
  induction bs using List.reverseRecOn with
  | nil => rfl
  | append_singleton bs b ih =>
    have front : (toNat bs * 256 + b.toNat) / 256 = toNat bs := by
      have := b.toNat_lt
      omega
    have last : UInt8.ofNat (toNat bs * 256 + b.toNat) = b := by
      apply UInt8.toNat_inj.mp
      rw [UInt8.toNat_ofNat']
      have := b.toNat_lt
      omega
    rw [List.length_append, List.length_singleton, toNat_concat, ofNat, front, last, ih]

theorem toNat_lt (bs : Bytes) : toNat bs < 256 ^ bs.length := by
  have h := toNat_ofNat bs.length (toNat bs)
  rw [ofNat_toNat] at h
  exact h ▸ Nat.mod_lt _ (Nat.pow_pos (by decide))

theorem toNat_append (a b : Bytes) : toNat (a ++ b) = toNat a * 256 ^ b.length + toNat b := by
  induction b using List.reverseRecOn with
  | nil => simp
  | append_singleton b x ih =>
    rw [← List.append_assoc, toNat_concat, ih, toNat_concat, List.length_append,
      List.length_singleton, Nat.pow_succ]
    ring

theorem toNat_cons (x : UInt8) (b : Bytes) : toNat (x :: b) = x.toNat * 256 ^ b.length + toNat b := by
  simpa [toNat] using toNat_append [x] b

theorem eq_of_toNat_eq {a b : Bytes} (length : a.length = b.length) (same : toNat a = toNat b) :
    a = b := by
  rw [← ofNat_toNat a, ← ofNat_toNat b, length, same]

end Bytes

theorem ofBits_toBits {n x : Nat} (h : x < 2 ^ n) : ofBits (toBits n x) = x := by
  induction n generalizing x with
  | zero =>
    obtain rfl : x = 0 := by simpa using h
    rfl
  | succ n ih =>
    have half : x / 2 < 2 ^ n := by rw [Nat.pow_succ] at h; omega
    have last : (x % 2 == 1).toNat = x % 2 := by
      rcases Nat.mod_two_eq_zero_or_one x with e | e <;> rw [e] <;> rfl
    rw [toBits, ofBits_concat, ih half, last]
    omega

theorem ofBits_lt (bits : List Bool) : ofBits bits < 2 ^ bits.length := by
  obtain ⟨r, rfl⟩ : ∃ r : List Bool, bits = r.reverse := ⟨bits.reverse, by simp⟩
  induction r with
  | nil => decide
  | cons b r ih =>
    rw [List.reverse_cons, ofBits_concat, List.length_append, List.length_singleton, Nat.pow_succ]
    have := b.toNat_le
    omega

end IdVeil
