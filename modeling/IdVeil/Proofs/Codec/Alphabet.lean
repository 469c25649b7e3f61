import IdVeil.Codec.Alphabet
import IdVeil.Proofs.Codec.Bits

/-!
Writing and reading in the symbols of an alphabet. A text is read as some bytes exactly when it is
what they are written as, letter case aside where case does not count (`decode_eq_some_iff`).
-/
namespace IdVeil

theorem mapM_eq_some_iff {α β : Type} {f : α → Option β} {l : List α} {r : List β} :
    l.mapM f = some r ↔ l.map f = r.map some := by
  induction l generalizing r with
  | nil => cases r <;> simp
  | cons a l ih =>
    rw [List.mapM_cons, List.map_cons]
    cases f a with
    | none => cases r <;> simp
    | some b =>
      cases r with
      | nil => cases l.mapM f <;> simp
      | cons c r =>
        rw [List.map_cons, List.cons.injEq, ← ih]
        cases l.mapM f <;> simp

namespace Alphabet

variable (a : Alphabet)

/-- A character in the case that the symbols have, where case does not count. -/
def fold (c : Char) : Char := if a.eitherCase then c.toLower else c

theorem map_fold (text : List Char) :
    text.map a.fold = if a.eitherCase then text.map Char.toLower else text := by
  cases either : a.eitherCase with
  | true => exact List.map_congr_left fun c _ => by rw [fold, if_pos either]
  | false => exact List.map_id'' (fun c => by rw [fold, either]; rfl) text

theorem symbols_length : a.symbols.length = 2 ^ a.width := a.length_symbols

variable {a}

theorem symbol_eq_getElem {d : Nat} (h : d < a.symbols.length) : a.symbol d = a.symbols[d] := by
  rw [symbol, List.getD_eq_getElem _ _ h]

theorem fold_symbol {d : Nat} (h : d < 2 ^ a.width) : a.fold (a.symbol d) = a.symbol d := by
  rw [← a.symbols_length] at h
  rw [fold]
  split
  · rename_i either
    have lower := List.all_eq_true.mp (a.lower either) a.symbols[d] (List.getElem_mem h)
    rw [symbol_eq_getElem h]
    exact eq_of_beq lower
  · rfl

theorem digit?_eq_some_iff {c : Char} {d : Nat} :
    a.digit? c = some d ↔ d < 2 ^ a.width ∧ a.fold c = a.symbol d := by
  rw [← a.symbols_length]
  constructor
  · intro h
    obtain ⟨small, found, _⟩ := List.idxOf?_eq_some_iff.mp h
    exact ⟨small, by rw [symbol_eq_getElem small, found, fold]⟩
  · rintro ⟨small, same⟩
    refine List.idxOf?_eq_some_iff.mpr ⟨small, ?_, ?_⟩
    · rw [← symbol_eq_getElem small, ← same, fold]
    · intro j hj found
      have twice : a.symbols[j] = a.symbols[d] := by
        rw [found, ← symbol_eq_getElem small, ← same, fold]
      exact absurd ((a.distinct.getElem_inj_iff).mp twice) (by omega)

theorem mapM_digit?_eq_some_iff {text : List Char} {ds : List Nat} :
    text.mapM a.digit? = some ds ↔
      (∀ d ∈ ds, d < 2 ^ a.width) ∧ text.map a.fold = ds.map a.symbol := by
  rw [mapM_eq_some_iff]
  induction text generalizing ds with
  | nil => cases ds <;> simp
  | cons c text ih =>
    cases ds with
    | nil => simp
    | cons d ds =>
      simp only [List.map_cons, List.cons.injEq, digit?_eq_some_iff, ih, List.forall_mem_cons]
      constructor
      · rintro ⟨⟨small, same⟩, rest, text⟩
        exact ⟨⟨small, rest⟩, same, text⟩
      · rintro ⟨⟨small, rest⟩, same, text⟩
        exact ⟨⟨small, same⟩, rest, text⟩

variable (a)

def digits (bs : Bytes) : List Nat :=
  (pieces a.width (bitsOfBytes bs)).map fun piece => ofBits (fillBits a.width piece)

theorem encode_eq_map_symbol (bs : Bytes) : a.encode bs = (a.digits bs).map a.symbol := by
  rw [encode, digits, List.map_map]
  rfl

/-- Zero bits that fill up the last digit. -/
def stray (bs : Bytes) : Nat := (a.width - 8 * bs.length % a.width) % a.width

theorem stray_lt (bs : Bytes) : a.stray bs < a.width := Nat.mod_lt _ a.width_pos

theorem width_dvd_stray (bs : Bytes) : a.width ∣ (bitsOfBytes bs).length + a.stray bs := by
  have small := Nat.mod_lt (8 * bs.length) a.width_pos
  rw [length_bitsOfBytes, stray, Nat.dvd_iff_mod_eq_zero, Nat.add_mod, Nat.mod_mod]
  by_cases whole : 8 * bs.length % a.width = 0
  · rw [whole, Nat.sub_zero, Nat.mod_self, Nat.zero_add, Nat.zero_mod]
  · rw [Nat.mod_eq_of_lt (b := a.width) (a := a.width - 8 * bs.length % a.width) (by omega),
      Nat.add_sub_cancel' (Nat.le_of_lt small), Nat.mod_self]

variable {a}

theorem digits_eq_of_bits {bs : Bytes} {ds : List Nat} {r : Nat} (hr : r < a.width)
    (small : ∀ d ∈ ds, d < 2 ^ a.width)
    (h : ds.flatMap (toBits a.width) = bitsOfBytes bs ++ List.replicate r false) :
    ds = a.digits bs := by
  have whole : ∀ bits ∈ ds.map (toBits a.width), bits.length = a.width := by
    intro bits hb
    obtain ⟨d, _, rfl⟩ := List.mem_map.mp hb
    exact length_toBits _ _
  have divides : a.width ∣ (bitsOfBytes bs).length + r := by
    have size := congrArg List.length h
    rw [List.length_append, List.length_replicate, List.length_flatMap] at size
    simp only [length_toBits, List.map_const', List.sum_replicate_nat] at size
    exact ⟨ds.length, by rw [← size, Nat.mul_comm]⟩
  have filled : (pieces a.width (bitsOfBytes bs)).map (fillBits a.width) =
      ds.map (toBits a.width) := by
    rw [map_fillBits_pieces hr divides, ← h, List.flatMap_def, pieces_flatten a.width_pos whole]
  calc ds = (ds.map (toBits a.width)).map ofBits := by
        rw [List.map_map]
        exact (List.map_id ds).symm.trans
          (List.map_congr_left fun d hd => (ofBits_toBits (small d hd)).symm)
    _ = a.digits bs := by rw [← filled, List.map_map]; rfl

variable (a) in
theorem digits_lt (bs : Bytes) : ∀ d ∈ a.digits bs, d < 2 ^ a.width := by
  intro d hd
  obtain ⟨piece, hp, rfl⟩ := List.mem_map.mp hd
  have size := length_fillBits (length_le_of_mem_pieces a.width_pos hp)
  have bound := ofBits_lt (fillBits a.width piece)
  rwa [size] at bound

variable (a) in
theorem flatMap_toBits_digits (bs : Bytes) : (a.digits bs).flatMap (toBits a.width) =
    bitsOfBytes bs ++ List.replicate (a.stray bs) false := by
  have back : ∀ piece ∈ pieces a.width (bitsOfBytes bs),
      toBits a.width (ofBits (fillBits a.width piece)) = fillBits a.width piece := by
    intro piece hp
    have size := length_fillBits (length_le_of_mem_pieces a.width_pos hp)
    have same := toBits_ofBits (fillBits a.width piece)
    rwa [size] at same
  rw [digits, List.flatMap_map, List.flatMap_def, List.map_congr_left back,
    map_fillBits_pieces (a.stray_lt bs) (a.width_dvd_stray bs), flatten_pieces a.width_pos]

/-- The bytes that bits stand for, when fewer than `width` bits are left over and all are zero. -/
def bytesWithin (width : Nat) (bits : List Bool) : Option Bytes :=
  let whole := bits.length / 8 * 8
  let stray := bits.drop whole
  if stray.length < width ∧ stray.all (!·) then some (bytesOfBits (bits.take whole)) else none

theorem bytesWithin_eq_some_iff {width : Nat} (hw : width ≤ 8) {bits : List Bool} {bs : Bytes} :
    bytesWithin width bits = some bs ↔
      ∃ r < width, bits = bitsOfBytes bs ++ List.replicate r false := by
  constructor
  · intro h
    simp only [bytesWithin] at h
    split at h
    · rename_i accepted
      cases h
      obtain ⟨few, zero⟩ := accepted
      refine ⟨_, few, ?_⟩
      have divides : 8 ∣ (bits.take (bits.length / 8 * 8)).length := by
        rw [List.length_take, Nat.min_eq_left (Nat.div_mul_le_self _ _)]
        exact Nat.dvd_mul_left _ _
      have zeros : bits.drop (bits.length / 8 * 8) =
          List.replicate (bits.drop (bits.length / 8 * 8)).length false := by
        refine List.eq_replicate_iff.mpr ⟨rfl, ?_⟩
        intro b hb
        simpa using List.all_eq_true.mp zero b hb
      rw [bitsOfBytes_bytesOfBits divides, ← zeros, List.take_append_drop]
    · contradiction
  · rintro ⟨r, hr, rfl⟩
    have whole : (bitsOfBytes bs ++ List.replicate r false).length / 8 * 8 =
        (bitsOfBytes bs).length := by
      rw [List.length_append, length_bitsOfBytes, List.length_replicate]
      omega
    simp only [bytesWithin, whole, List.drop_left, List.take_left, List.length_replicate]
    rw [if_pos ⟨hr, by simp⟩, bytesOfBits_bitsOfBytes]

theorem decode_eq_bind (text : List Char) : a.decode text =
    (text.mapM a.digit?).bind fun ds => bytesWithin a.width (ds.flatMap (toBits a.width)) := rfl

/-- A text is read as some bytes exactly when it is what they are written as, letter case aside. -/
theorem decode_eq_some_iff {text : List Char} {bs : Bytes} :
    a.decode text = some bs ↔ text.map a.fold = a.encode bs := by
  have width_le : a.width ≤ 8 := Nat.le_trans a.width_le (by decide)
  rw [decode_eq_bind, Option.bind_eq_some_iff, encode_eq_map_symbol]
  constructor
  · rintro ⟨ds, hds, hbits⟩
    obtain ⟨small, same⟩ := mapM_digit?_eq_some_iff.mp hds
    obtain ⟨r, hr, bits⟩ := (bytesWithin_eq_some_iff width_le).mp hbits
    rw [same, ← digits_eq_of_bits hr small bits]
  · intro same
    refine ⟨a.digits bs, mapM_digit?_eq_some_iff.mpr ⟨a.digits_lt bs, same⟩, ?_⟩
    exact (bytesWithin_eq_some_iff width_le).mpr
      ⟨a.stray bs, a.stray_lt bs, a.flatMap_toBits_digits bs⟩

theorem map_fold_encode (bs : Bytes) : (a.encode bs).map a.fold = a.encode bs := by
  rw [encode_eq_map_symbol, List.map_map]
  exact List.map_congr_left fun d hd => fold_symbol (a.digits_lt bs d hd)

theorem decode_encode (bs : Bytes) : a.decode (a.encode bs) = some bs :=
  decode_eq_some_iff.mpr (map_fold_encode bs)

theorem isSymbol_of_mem_encode {bs : Bytes} {c : Char} (h : c ∈ a.encode bs) :
    a.isSymbol c = true := by
  rw [encode_eq_map_symbol] at h
  obtain ⟨d, hd, rfl⟩ := List.mem_map.mp h
  have small := a.digits_lt bs d hd
  rw [isSymbol, digit?_eq_some_iff.mpr ⟨small, fold_symbol small⟩]
  rfl

theorem isSymbol_of_decode {text : List Char} {bs : Bytes} (h : a.decode text = some bs) :
    ∀ c ∈ text, a.isSymbol c = true := by
  intro c hc
  rw [decode_eq_bind, Option.bind_eq_some_iff] at h
  obtain ⟨ds, hds, _⟩ := h
  have found : a.digit? c ∈ ds.map some := mapM_eq_some_iff.mp hds ▸ List.mem_map_of_mem hc
  obtain ⟨d, _, hd⟩ := List.mem_map.mp found
  rw [isSymbol, ← hd]
  rfl

theorem length_encode (bs : Bytes) :
    (a.encode bs).length = (8 * bs.length + a.width - 1) / a.width := by
  rw [encode, List.length_map, length_pieces a.width_pos, length_bitsOfBytes]

end Alphabet

end IdVeil
