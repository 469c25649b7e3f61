import IdVeil.Proofs.Layout.BigInteger

/-!
Ids and their bytes. The bytes of an id are read back as that id (`ofBytes_toBytes`). For all
layouts but that of big integers, bytes that are read as an id are the bytes of that id
(`toBytes_ofBytes`).
-/
namespace IdVeil.Layout

@[simp] theorem length_int64ToBytes (x : Int64) : (int64ToBytes x).length = 8 :=
  length_wordToBytes 8 _

theorem int64OfBytes_int64ToBytes (x : Int64) : int64OfBytes (int64ToBytes x) = x := by
  rw [int64OfBytes, int64ToBytes, wordOfBytes_wordToBytes, Int64.ofBitVec_toBitVec]

theorem int64ToBytes_int64OfBytes {bs : Bytes} (h : bs.length = 8) :
    int64ToBytes (int64OfBytes bs) = bs :=
  wordToBytes_wordOfBytes h

theorem fitsIn_int32 (x : Int32) : FitsIn 4 x.toInt64.toInt := by
  rw [Int32.toInt_toInt64]
  exact ⟨x.le_toInt, x.toInt_lt⟩

theorem toInt64_toInt32 {x : Int64} (h : FitsIn 4 x.toInt) : x.toInt32.toInt64 = x := by
  apply Int64.toInt_inj.mp
  rw [Int32.toInt_toInt64, Int64.toInt_toInt32]
  exact Int.bmod_eq_of_le h.1 h.2

theorem length_of_toBytes {layout : Layout} {id : layout.Id} {bs : Bytes}
    (h : layout.toBytes id = .ok bs) : bs.length = layout.byteLength := by
  cases layout with
  | int64 => exact Except.ok.inj h ▸ length_int64ToBytes id
  | uint64 => exact Except.ok.inj h ▸ length_wordToBytes 8 _
  | int32 => exact Except.ok.inj h ▸ length_int64ToBytes _
  | compactInt32 => exact Except.ok.inj h ▸ length_wordToBytes 4 _
  | int64Pair =>
    cases h
    rw [List.length_append, length_int64ToBytes, length_int64ToBytes]
    rfl
  | uuid => exact Except.ok.inj h ▸ (Uuid.bytes id).property
  | uint128 => exact Except.ok.inj h ▸ length_wordToBytes 16 id
  | bigInteger => exact length_of_bigInteger h
  | bytes n => exact Except.ok.inj h ▸ id.property

theorem ofBytes_toBytes {layout : Layout} {id : layout.Id} {bs : Bytes}
    (h : layout.toBytes id = .ok bs) : layout.ofBytes bs = .ok id := by
  rw [ofBytes, dif_pos (length_of_toBytes h)]
  cases layout with
  | int64 =>
    cases h
    exact congrArg Except.ok (int64OfBytes_int64ToBytes id)
  | uint64 =>
    cases h
    exact congrArg (Except.ok ∘ UInt64.ofBitVec) (wordOfBytes_wordToBytes 8 _)
  | int32 =>
    cases h
    rw [read, int64OfBytes_int64ToBytes, if_pos (fitsIn_int32 id)]
    exact congrArg Except.ok (Int32.toInt32_toInt64 id)
  | compactInt32 =>
    cases h
    exact congrArg (Except.ok ∘ Int32.ofBitVec) (wordOfBytes_wordToBytes 4 _)
  | int64Pair =>
    cases h
    have front : (int64ToBytes (Prod.fst id) ++ int64ToBytes (Prod.snd id)).take 8 =
        int64ToBytes (Prod.fst id) := List.take_left' (length_int64ToBytes _)
    have back : (int64ToBytes (Prod.fst id) ++ int64ToBytes (Prod.snd id)).drop 8 =
        int64ToBytes (Prod.snd id) := List.drop_left' (length_int64ToBytes _)
    rw [read, front, back, int64OfBytes_int64ToBytes, int64OfBytes_int64ToBytes]
    rfl
  | uuid =>
    cases h
    rfl
  | uint128 =>
    have written : wordToBytes 16 id = bs := Except.ok.inj h
    subst written
    exact congrArg Except.ok (wordOfBytes_wordToBytes 16 id)
  | bigInteger =>
    have length : bs.length = bigInteger.byteLength := length_of_bigInteger h
    have read := ofBytes_of_toBytes h
    rwa [ofBytes, dif_pos length] at read
  | bytes n =>
    cases h
    rfl

/-- Bytes that are read as an id are the bytes of that id. Big integers are left out, since bytes
that are not looked at may be anything. -/
theorem toBytes_ofBytes {layout : Layout} (hl : layout ≠ .bigInteger) {bs : Bytes}
    {id : layout.Id} (h : layout.ofBytes bs = .ok id) : layout.toBytes id = .ok bs := by
  rw [ofBytes] at h
  split at h
  · rename_i length
    cases layout with
    | int64 =>
      cases h
      exact congrArg Except.ok (int64ToBytes_int64OfBytes length)
    | uint64 =>
      cases h
      exact congrArg Except.ok (wordToBytes_wordOfBytes length)
    | int32 =>
      rw [read] at h
      split at h
      · rename_i fits
        cases h
        have wide := congrArg int64ToBytes (toInt64_toInt32 fits)
        exact congrArg Except.ok (wide.trans (int64ToBytes_int64OfBytes length))
      · contradiction
    | compactInt32 =>
      cases h
      exact congrArg Except.ok (wordToBytes_wordOfBytes length)
    | int64Pair =>
      cases h
      have front : (bs.take 8).length = 8 := by
        rw [List.length_take, length]
        rfl
      have back : (bs.drop 8).length = 8 := by
        rw [List.length_drop, length]
        rfl
      have whole : int64ToBytes (int64OfBytes (bs.take 8)) ++
          int64ToBytes (int64OfBytes (bs.drop 8)) = bs := by
        rw [int64ToBytes_int64OfBytes front, int64ToBytes_int64OfBytes back,
          List.take_append_drop]
      exact congrArg Except.ok whole
    | uuid =>
      cases h
      rfl
    | uint128 =>
      cases h
      exact congrArg Except.ok (wordToBytes_wordOfBytes length)
    | bigInteger => exact absurd rfl hl
    | bytes n =>
      cases h
      rfl
  · contradiction

end IdVeil.Layout
