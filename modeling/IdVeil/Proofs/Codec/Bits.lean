import IdVeil.Proofs.Numerals

/-!
Lists in pieces of one length, and bytes as bits. Bits and bytes determine each other
(`bytesOfBits_bitsOfBytes`, `bitsOfBytes_bytesOfBits`). Filling up the last piece with zeros is
the same as filling up the list before it is cut (`map_fillBits_pieces`).
-/
namespace IdVeil

section
variable {α : Type} {n : Nat}

@[simp] theorem pieces_nil : pieces n ([] : List α) = [] := rfl

theorem piecesWithin_eq_pieces (hn : 0 < n) {k : Nat} {l : List α} (h : l.length ≤ k) :
    piecesWithin n k l = pieces n l := by
  have enough : ∀ k k' (l : List α), l.length ≤ k → l.length ≤ k' →
      piecesWithin n k l = piecesWithin n k' l := by
    intro k
    induction k with
    | zero =>
      intro k' l hk _
      obtain rfl : l = [] := List.length_eq_zero_iff.mp (by omega)
      cases k' <;> rfl
    | succ k ih =>
      intro k' l hk hk'
      cases l with
      | nil => cases k' <;> rfl
      | cons a l =>
        cases k' with
        | zero => simp at hk'
        | succ k' =>
          have shorter : ((a :: l).drop n).length ≤ l.length := by
            rw [List.length_drop, List.length_cons]
            omega
          rw [List.length_cons] at hk hk'
          rw [piecesWithin, piecesWithin, ih k' _ (by omega) (by omega)] <;> simp
  exact enough k l.length l h (Nat.le_refl _)

theorem pieces_append (hn : 0 < n) {piece : List α} (h : piece.length = n) (rest : List α) :
    pieces n (piece ++ rest) = piece :: pieces n rest := by
  cases piece with
  | nil => simp at h; omega
  | cons a piece =>
    have front : (a :: (piece ++ rest)).take n = a :: piece := List.take_left' h
    have back : (a :: (piece ++ rest)).drop n = rest := List.drop_left' h
    rw [pieces, List.cons_append, List.length_cons, piecesWithin, front, back,
      piecesWithin_eq_pieces hn (by simp)]
    simp

theorem pieces_short {l : List α} (hl : l ≠ []) (h : l.length ≤ n) : pieces n l = [l] := by
  cases l with
  | nil => exact absurd rfl hl
  | cons a l =>
    rw [pieces, List.length_cons, piecesWithin, List.take_of_length_le h,
      List.drop_of_length_le h]
    · cases l <;> rfl
    · simp

/-- Statements about pieces go by induction on the pieces that are followed by another one. -/
theorem pieces_induction (hn : 0 < n) {motive : List α → Prop} (nil : motive [])
    (last : ∀ piece, piece ≠ [] → piece.length ≤ n → motive piece)
    (append : ∀ piece rest, piece.length = n → rest ≠ [] → motive rest → motive (piece ++ rest))
    (l : List α) : motive l := by
  induction h : l.length using Nat.strongRecOn generalizing l with
  | ind size ih =>
    by_cases empty : l = []
    · exact empty ▸ nil
    by_cases short : l.length ≤ n
    · exact last l empty short
    · have front : (l.take n).length = n := by rw [List.length_take]; omega
      have back : (l.drop n).length = l.length - n := List.length_drop
      have more : l.drop n ≠ [] := by
        intro none
        rw [none, List.length_nil] at back
        omega
      rw [← List.take_append_drop n l]
      exact append _ _ front more (ih (l.length - n) (by omega) _ back)

theorem pieces_flatten (hn : 0 < n) {ls : List (List α)} (h : ∀ l ∈ ls, l.length = n) :
    pieces n ls.flatten = ls := by
  induction ls with
  | nil => rfl
  | cons l ls ih =>
    rw [List.flatten_cons, pieces_append hn (h l List.mem_cons_self),
      ih fun l hl => h l (List.mem_cons_of_mem _ hl)]

theorem length_of_mem_pieces (hn : 0 < n) {l piece : List α} (hl : n ∣ l.length)
    (hp : piece ∈ pieces n l) : piece.length = n := by
  induction l using pieces_induction hn with
  | nil => simp at hp
  | last l hne hle =>
    rw [pieces_short hne hle, List.mem_singleton] at hp
    subst piece
    exact Nat.le_antisymm hle (Nat.le_of_dvd (List.length_pos_iff.mpr hne) hl)
  | append front rest hf _ ih =>
    rw [pieces_append hn hf, List.mem_cons] at hp
    rcases hp with rfl | hp
    · exact hf
    · rw [List.length_append, hf] at hl
      exact ih ((Nat.dvd_add_right (Nat.dvd_refl n)).mp hl) hp

theorem length_le_of_mem_pieces (hn : 0 < n) {l piece : List α} (hp : piece ∈ pieces n l) :
    piece.length ≤ n := by
  induction l using pieces_induction hn with
  | nil => simp at hp
  | last l hne hle =>
    rw [pieces_short hne hle, List.mem_singleton] at hp
    exact hp ▸ hle
  | append front rest hf _ ih =>
    rw [pieces_append hn hf, List.mem_cons] at hp
    rcases hp with rfl | hp
    · exact Nat.le_of_eq hf
    · exact ih hp

theorem length_pieces (hn : 0 < n) (l : List α) : (pieces n l).length = (l.length + n - 1) / n := by
  induction l using pieces_induction hn with
  | nil => simp [Nat.div_eq_of_lt (Nat.sub_lt hn Nat.one_pos)]
  | last l hne hle =>
    have positive := List.length_pos_iff.mpr hne
    have one : (l.length + n - 1) / n = 1 := by
      rw [show l.length + n - 1 = l.length - 1 + n by omega, Nat.add_div_right _ hn,
        Nat.div_eq_of_lt (by omega)]
    rw [pieces_short hne hle, one, List.length_singleton]
  | append front rest hf hr ih =>
    have positive := List.length_pos_iff.mpr hr
    rw [pieces_append hn hf, List.length_cons, ih, List.length_append, hf,
      show n + rest.length + n - 1 = rest.length + n - 1 + n by omega, Nat.add_div_right _ hn]

end

theorem bitsOfBytes_cons (b : UInt8) (bs : Bytes) :
    bitsOfBytes (b :: bs) = toBits 8 b.toNat ++ bitsOfBytes bs := by
  simp [bitsOfBytes]

theorem bytesOfBits_bitsOfBytes (bs : Bytes) : bytesOfBits (bitsOfBytes bs) = bs := by
  induction bs with
  | nil => rfl
  | cons b bs ih =>
    have digits : ofBits (toBits 8 b.toNat) = b.toNat := ofBits_toBits b.toNat_lt
    rw [bitsOfBytes_cons, bytesOfBits, pieces_append (by decide) (length_toBits _ _),
      List.map_cons, digits, UInt8.ofNat_toNat]
    exact congrArg (b :: ·) ih

theorem bitsOfBytes_bytesOfBits {bits : List Bool} (h : 8 ∣ bits.length) :
    bitsOfBytes (bytesOfBits bits) = bits := by
  have group : ∀ g ∈ pieces 8 bits, toBits 8 (UInt8.ofNat (ofBits g)).toNat = g := by
    intro g hg
    have size : g.length = 8 := length_of_mem_pieces (by decide) h hg
    have small : ofBits g < 2 ^ 8 := size ▸ ofBits_lt g
    rw [UInt8.toNat_ofNat', Nat.mod_eq_of_lt small, ← size, toBits_ofBits]
  rw [bitsOfBytes, bytesOfBits, List.flatMap_map, List.flatMap_def, List.map_congr_left group,
    List.map_id', flatten_pieces (by decide)]

def fillBits (n : Nat) (bits : List Bool) : List Bool :=
  bits ++ List.replicate (n - bits.length) false

theorem length_fillBits {n : Nat} {bits : List Bool} (h : bits.length ≤ n) :
    (fillBits n bits).length = n := by
  rw [fillBits, List.length_append, List.length_replicate]
  omega

theorem map_fillBits_pieces {n r : Nat} {bits : List Bool} (hr : r < n)
    (h : n ∣ bits.length + r) :
    (pieces n bits).map (fillBits n) = pieces n (bits ++ List.replicate r false) := by
  have hn : 0 < n := by omega
  induction bits using pieces_induction hn with
  | nil =>
    obtain rfl : r = 0 := Nat.eq_zero_of_dvd_of_lt (by simpa using h) hr
    rfl
  | last piece hne hle =>
    have positive := List.length_pos_iff.mpr hne
    have whole : piece.length + r = n := by
      obtain ⟨k, hk⟩ := h
      obtain rfl : k = 1 := by
        have : n * k < n * 2 := by omega
        have := Nat.lt_of_mul_lt_mul_left this
        have : k ≠ 0 := by rintro rfl; omega
        omega
      omega
    have filled : fillBits n piece = piece ++ List.replicate r false := by
      rw [fillBits, show n - piece.length = r by omega]
    rw [pieces_short hne hle, List.map_singleton, filled, pieces_short (by simp [hne]) (by simp; omega)]
  | append front rest hf _ ih =>
    have filled : fillBits n front = front := by simp [fillBits, hf]
    have tail : n ∣ rest.length + r := by
      rw [List.length_append, hf, Nat.add_assoc] at h
      exact (Nat.dvd_add_right (Nat.dvd_refl n)).mp h
    rw [pieces_append hn hf, List.map_cons, filled, ih tail, List.append_assoc,
      pieces_append hn hf]

end IdVeil
