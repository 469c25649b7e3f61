import IdVeil.Cipher.Block

/-!
The AES block cipher for keys of 16 and 32 bytes. Main statements: under any list of round keys
decryption undoes encryption (`decrypt_encrypt`) and encryption undoes decryption
(`encrypt_decrypt`).
-/
namespace IdVeil.Aes

/-- The substitution of bytes: a row for each high half, a column for each low half. -/
def substitutes : List (List UInt8) := [
  [0x63, 0x7c, 0x77, 0x7b, 0xf2, 0x6b, 0x6f, 0xc5, 0x30, 0x01, 0x67, 0x2b, 0xfe, 0xd7, 0xab, 0x76],
  [0xca, 0x82, 0xc9, 0x7d, 0xfa, 0x59, 0x47, 0xf0, 0xad, 0xd4, 0xa2, 0xaf, 0x9c, 0xa4, 0x72, 0xc0],
  [0xb7, 0xfd, 0x93, 0x26, 0x36, 0x3f, 0xf7, 0xcc, 0x34, 0xa5, 0xe5, 0xf1, 0x71, 0xd8, 0x31, 0x15],
  [0x04, 0xc7, 0x23, 0xc3, 0x18, 0x96, 0x05, 0x9a, 0x07, 0x12, 0x80, 0xe2, 0xeb, 0x27, 0xb2, 0x75],
  [0x09, 0x83, 0x2c, 0x1a, 0x1b, 0x6e, 0x5a, 0xa0, 0x52, 0x3b, 0xd6, 0xb3, 0x29, 0xe3, 0x2f, 0x84],
  [0x53, 0xd1, 0x00, 0xed, 0x20, 0xfc, 0xb1, 0x5b, 0x6a, 0xcb, 0xbe, 0x39, 0x4a, 0x4c, 0x58, 0xcf],
  [0xd0, 0xef, 0xaa, 0xfb, 0x43, 0x4d, 0x33, 0x85, 0x45, 0xf9, 0x02, 0x7f, 0x50, 0x3c, 0x9f, 0xa8],
  [0x51, 0xa3, 0x40, 0x8f, 0x92, 0x9d, 0x38, 0xf5, 0xbc, 0xb6, 0xda, 0x21, 0x10, 0xff, 0xf3, 0xd2],
  [0xcd, 0x0c, 0x13, 0xec, 0x5f, 0x97, 0x44, 0x17, 0xc4, 0xa7, 0x7e, 0x3d, 0x64, 0x5d, 0x19, 0x73],
  [0x60, 0x81, 0x4f, 0xdc, 0x22, 0x2a, 0x90, 0x88, 0x46, 0xee, 0xb8, 0x14, 0xde, 0x5e, 0x0b, 0xdb],
  [0xe0, 0x32, 0x3a, 0x0a, 0x49, 0x06, 0x24, 0x5c, 0xc2, 0xd3, 0xac, 0x62, 0x91, 0x95, 0xe4, 0x79],
  [0xe7, 0xc8, 0x37, 0x6d, 0x8d, 0xd5, 0x4e, 0xa9, 0x6c, 0x56, 0xf4, 0xea, 0x65, 0x7a, 0xae, 0x08],
  [0xba, 0x78, 0x25, 0x2e, 0x1c, 0xa6, 0xb4, 0xc6, 0xe8, 0xdd, 0x74, 0x1f, 0x4b, 0xbd, 0x8b, 0x8a],
  [0x70, 0x3e, 0xb5, 0x66, 0x48, 0x03, 0xf6, 0x0e, 0x61, 0x35, 0x57, 0xb9, 0x86, 0xc1, 0x1d, 0x9e],
  [0xe1, 0xf8, 0x98, 0x11, 0x69, 0xd9, 0x8e, 0x94, 0x9b, 0x1e, 0x87, 0xe9, 0xce, 0x55, 0x28, 0xdf],
  [0x8c, 0xa1, 0x89, 0x0d, 0xbf, 0xe6, 0x42, 0x68, 0x41, 0x99, 0x2d, 0x0f, 0xb0, 0x54, 0xbb, 0x16]]

def preimages : List (List UInt8) := [
  [0x52, 0x09, 0x6a, 0xd5, 0x30, 0x36, 0xa5, 0x38, 0xbf, 0x40, 0xa3, 0x9e, 0x81, 0xf3, 0xd7, 0xfb],
  [0x7c, 0xe3, 0x39, 0x82, 0x9b, 0x2f, 0xff, 0x87, 0x34, 0x8e, 0x43, 0x44, 0xc4, 0xde, 0xe9, 0xcb],
  [0x54, 0x7b, 0x94, 0x32, 0xa6, 0xc2, 0x23, 0x3d, 0xee, 0x4c, 0x95, 0x0b, 0x42, 0xfa, 0xc3, 0x4e],
  [0x08, 0x2e, 0xa1, 0x66, 0x28, 0xd9, 0x24, 0xb2, 0x76, 0x5b, 0xa2, 0x49, 0x6d, 0x8b, 0xd1, 0x25],
  [0x72, 0xf8, 0xf6, 0x64, 0x86, 0x68, 0x98, 0x16, 0xd4, 0xa4, 0x5c, 0xcc, 0x5d, 0x65, 0xb6, 0x92],
  [0x6c, 0x70, 0x48, 0x50, 0xfd, 0xed, 0xb9, 0xda, 0x5e, 0x15, 0x46, 0x57, 0xa7, 0x8d, 0x9d, 0x84],
  [0x90, 0xd8, 0xab, 0x00, 0x8c, 0xbc, 0xd3, 0x0a, 0xf7, 0xe4, 0x58, 0x05, 0xb8, 0xb3, 0x45, 0x06],
  [0xd0, 0x2c, 0x1e, 0x8f, 0xca, 0x3f, 0x0f, 0x02, 0xc1, 0xaf, 0xbd, 0x03, 0x01, 0x13, 0x8a, 0x6b],
  [0x3a, 0x91, 0x11, 0x41, 0x4f, 0x67, 0xdc, 0xea, 0x97, 0xf2, 0xcf, 0xce, 0xf0, 0xb4, 0xe6, 0x73],
  [0x96, 0xac, 0x74, 0x22, 0xe7, 0xad, 0x35, 0x85, 0xe2, 0xf9, 0x37, 0xe8, 0x1c, 0x75, 0xdf, 0x6e],
  [0x47, 0xf1, 0x1a, 0x71, 0x1d, 0x29, 0xc5, 0x89, 0x6f, 0xb7, 0x62, 0x0e, 0xaa, 0x18, 0xbe, 0x1b],
  [0xfc, 0x56, 0x3e, 0x4b, 0xc6, 0xd2, 0x79, 0x20, 0x9a, 0xdb, 0xc0, 0xfe, 0x78, 0xcd, 0x5a, 0xf4],
  [0x1f, 0xdd, 0xa8, 0x33, 0x88, 0x07, 0xc7, 0x31, 0xb1, 0x12, 0x10, 0x59, 0x27, 0x80, 0xec, 0x5f],
  [0x60, 0x51, 0x7f, 0xa9, 0x19, 0xb5, 0x4a, 0x0d, 0x2d, 0xe5, 0x7a, 0x9f, 0x93, 0xc9, 0x9c, 0xef],
  [0xa0, 0xe0, 0x3b, 0x4d, 0xae, 0x2a, 0xf5, 0xb0, 0xc8, 0xeb, 0xbb, 0x3c, 0x83, 0x53, 0x99, 0x61],
  [0x17, 0x2b, 0x04, 0x7e, 0xba, 0x77, 0xd6, 0x26, 0xe1, 0x69, 0x14, 0x63, 0x55, 0x21, 0x0c, 0x7d]]

def lookUp (table : List (List UInt8)) (b : UInt8) : UInt8 :=
  (table.getD (b.toNat / 16) []).getD (b.toNat % 16) 0

def substitute (b : UInt8) : UInt8 := lookUp substitutes b

def restore (b : UInt8) : UInt8 := lookUp preimages b

theorem restore_substitute : ∀ b, restore (substitute b) = b := by
  have h : ∀ i : Fin 256, restore (substitute (UInt8.ofFin i)) = UInt8.ofFin i := by decide +kernel
  exact fun b => h b.toFin

theorem substitute_restore : ∀ b, substitute (restore b) = b := by
  have h : ∀ i : Fin 256, substitute (restore (UInt8.ofFin i)) = UInt8.ofFin i := by decide +kernel
  exact fun b => h b.toFin

/-- Twice the byte in the field of 256 elements. -/
def double (b : UInt8) : UInt8 := b <<< 1 ^^^ bif b.toBitVec.msb then 0x1b else 0

theorem double_xor (a b : UInt8) : double (a ^^^ b) = double a ^^^ double b := by
  have shift : (a ^^^ b) <<< 1 = a <<< 1 ^^^ b <<< 1 := by
    apply UInt8.toBitVec_inj.mp
    simp [BitVec.shiftLeft_xor_distrib]
  simp only [double, shift, UInt8.toBitVec_xor, BitVec.msb_xor]
  cases a.toBitVec.msb <;> cases b.toBitVec.msb <;>
    simp [UInt8.xor_assoc, UInt8.xor_comm, Bytes.xor_left_comm]

/-- Row `i` of the block turned left by `i` columns. -/
def shiftRows (s : Block) : Block :=
  ⟨⟨s.c₀.b₀, s.c₁.b₁, s.c₂.b₂, s.c₃.b₃⟩, ⟨s.c₁.b₀, s.c₂.b₁, s.c₃.b₂, s.c₀.b₃⟩,
   ⟨s.c₂.b₀, s.c₃.b₁, s.c₀.b₂, s.c₁.b₃⟩, ⟨s.c₃.b₀, s.c₀.b₁, s.c₁.b₂, s.c₂.b₃⟩⟩

def unshiftRows (s : Block) : Block :=
  ⟨⟨s.c₀.b₀, s.c₃.b₁, s.c₂.b₂, s.c₁.b₃⟩, ⟨s.c₁.b₀, s.c₀.b₁, s.c₃.b₂, s.c₂.b₃⟩,
   ⟨s.c₂.b₀, s.c₁.b₁, s.c₀.b₂, s.c₃.b₃⟩, ⟨s.c₃.b₀, s.c₂.b₁, s.c₁.b₂, s.c₀.b₃⟩⟩

/-- The column times the circulant matrix of 2, 3, 1, 1. -/
def mix (x : Column) : Column :=
  let sum := x.b₀ ^^^ x.b₁ ^^^ x.b₂ ^^^ x.b₃
  ⟨x.b₀ ^^^ sum ^^^ double (x.b₀ ^^^ x.b₁), x.b₁ ^^^ sum ^^^ double (x.b₁ ^^^ x.b₂),
   x.b₂ ^^^ sum ^^^ double (x.b₂ ^^^ x.b₃), x.b₃ ^^^ sum ^^^ double (x.b₃ ^^^ x.b₀)⟩

/-- The square of `mix`: the circulant matrix of 5, 0, 4, 0, which is its own inverse. -/
def mixTwice (x : Column) : Column :=
  let even := double (double (x.b₀ ^^^ x.b₂))
  let odd := double (double (x.b₁ ^^^ x.b₃))
  ⟨x.b₀ ^^^ even, x.b₁ ^^^ odd, x.b₂ ^^^ even, x.b₃ ^^^ odd⟩

/-- The cube of `mix`, which is its inverse. -/
def unmix (x : Column) : Column := mix (mixTwice x)

def substituteAll (s : Block) : Block := s.map (Column.map substitute)

def restoreAll (s : Block) : Block := s.map (Column.map restore)

def encryptRounds : List Block → Block → Block
  | [], s => s
  | [k], s => shiftRows (substituteAll s) ^^^ k
  | k :: next :: ks, s => encryptRounds (next :: ks) ((shiftRows (substituteAll s)).map mix ^^^ k)

def decryptRounds : List Block → Block → Block
  | [], s => s
  | [k], s => restoreAll (unshiftRows (s ^^^ k))
  | k :: next :: ks, s => restoreAll (unshiftRows ((decryptRounds (next :: ks) s ^^^ k).map unmix))

/-- Encrypts one block under the round keys, the first of which is only added. -/
def encrypt (keys : List Block) (s : Block) : Block :=
  match keys with
  | [] => s
  | k :: ks => encryptRounds ks (s ^^^ k)

def decrypt (keys : List Block) (s : Block) : Block :=
  match keys with
  | [] => s
  | k :: ks => decryptRounds ks s ^^^ k

/-- Adds `count` columns to a key schedule held newest first, the next being number `i`. Every
`size` columns the last one is turned, substituted and given the round constant. -/
def growKey (size : Nat) : Nat → Nat → UInt8 → List Column → List Column
  | 0, _, _, columns => columns
  | count + 1, i, constant, columns =>
    let last := columns.headD .zero
    let back := columns.getD (size - 1) .zero
    if i % size = 0 then
      let turned : Column := ⟨last.b₁, last.b₂, last.b₃, last.b₀⟩
      let next := back ^^^ turned.map substitute ^^^ ⟨constant, 0, 0, 0⟩
      growKey size count (i + 1) (double constant) (next :: columns)
    else if 6 < size ∧ i % size = 4 then
      growKey size count (i + 1) constant ((back ^^^ last.map substitute) :: columns)
    else
      growKey size count (i + 1) constant ((back ^^^ last) :: columns)

def columnOf (bs : Bytes) : Column := ⟨bs.getD 0 0, bs.getD 1 0, bs.getD 2 0, bs.getD 3 0⟩

def blockOf (columns : List Column) : Block :=
  ⟨columns.getD 0 .zero, columns.getD 1 .zero, columns.getD 2 .zero, columns.getD 3 .zero⟩

/-- The round keys of a key of 16 or 32 bytes: eleven or fifteen. -/
def roundKeys (key : Bytes) : List Block :=
  let columns := (pieces 4 key).map columnOf
  let size := columns.length
  let all := growKey size (4 * (size + 7) - size) size 1 columns.reverse
  (pieces 4 all.reverse).map blockOf

theorem unshiftRows_shiftRows (s : Block) : unshiftRows (shiftRows s) = s := rfl

theorem shiftRows_unshiftRows (s : Block) : shiftRows (unshiftRows s) = s := rfl

theorem map_restore_substitute (x : Column) : (x.map substitute).map restore = x := by
  simp [Column.map, restore_substitute]

theorem map_substitute_restore (x : Column) : (x.map restore).map substitute = x := by
  simp [Column.map, substitute_restore]

theorem restoreAll_substituteAll (s : Block) : restoreAll (substituteAll s) = s := by
  simp [restoreAll, substituteAll, Block.map, map_restore_substitute]

theorem substituteAll_restoreAll (s : Block) : substituteAll (restoreAll s) = s := by
  simp [restoreAll, substituteAll, Block.map, map_substitute_restore]

theorem mix_mix (x : Column) : mix (mix x) = mixTwice x := by
  apply Column.ext <;>
    simp only [mix, mixTwice, double_xor, UInt8.xor_assoc, UInt8.xor_comm, Bytes.xor_left_comm,
      Bytes.xor_cancel_left, UInt8.xor_self, UInt8.xor_zero, UInt8.zero_xor]

theorem mixTwice_mixTwice (x : Column) : mixTwice (mixTwice x) = x := by
  apply Column.ext <;>
    simp only [mixTwice, double_xor, UInt8.xor_comm, Bytes.xor_left_comm, UInt8.xor_self,
      UInt8.xor_zero]

theorem unmix_mix (x : Column) : unmix (mix x) = x := by
  rw [unmix, ← mix_mix, mix_mix x, mix_mix, mixTwice_mixTwice]

theorem mix_unmix (x : Column) : mix (unmix x) = x := by
  rw [unmix, mix_mix, mixTwice_mixTwice]

theorem map_map (f g : Column → Column) (h : ∀ x, f (g x) = x) (s : Block) :
    (s.map g).map f = s := by
  simp [Block.map, h]

theorem decryptRounds_encryptRounds (ks : List Block) (s : Block) :
    decryptRounds ks (encryptRounds ks s) = s := by
  fun_induction encryptRounds ks s with
  | case1 => simp [decryptRounds]
  | case2 k s =>
    rw [decryptRounds, Block.xor_xor_cancel, unshiftRows_shiftRows, restoreAll_substituteAll]
  | case3 k next ks s ih =>
    rw [decryptRounds, ih, Block.xor_xor_cancel, map_map _ _ unmix_mix, unshiftRows_shiftRows,
      restoreAll_substituteAll]

theorem encryptRounds_decryptRounds (ks : List Block) (s : Block) :
    encryptRounds ks (decryptRounds ks s) = s := by
  fun_induction decryptRounds ks s with
  | case1 => simp [encryptRounds]
  | case2 k s =>
    rw [encryptRounds, substituteAll_restoreAll, shiftRows_unshiftRows, Block.xor_xor_cancel]
  | case3 k next ks s ih =>
    rw [encryptRounds, substituteAll_restoreAll, shiftRows_unshiftRows, map_map _ _ mix_unmix,
      Block.xor_xor_cancel, ih]

theorem decrypt_encrypt (keys : List Block) (s : Block) : decrypt keys (encrypt keys s) = s := by
  cases keys with
  | nil => rfl
  | cons k ks => rw [encrypt, decrypt, decryptRounds_encryptRounds, Block.xor_xor_cancel]

theorem encrypt_decrypt (keys : List Block) (s : Block) : encrypt keys (decrypt keys s) = s := by
  cases keys with
  | nil => rfl
  | cons k ks => rw [decrypt, encrypt, Block.xor_xor_cancel, encryptRounds_decryptRounds]

end IdVeil.Aes
