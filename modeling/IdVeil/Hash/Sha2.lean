import IdVeil.Bytes

/-!
SHA-256 and SHA-512. The two members of the family run the same rounds over 32-bit and 64-bit
words, so the algorithm is stated once over a class of words and the word type picks the member.
-/
namespace IdVeil

/-- The eight words that are chained from block to block. -/
structure Chain (ω : Type) where
  a : ω
  b : ω
  c : ω
  d : ω
  e : ω
  f : ω
  g : ω
  h : ω

/-- What tells one member of the family from another: its word, its mixing functions, the
constant of each round and the words a digest starts from. -/
class Sha2 (ω : Type) extends Add ω, XorOp ω, AndOp ω, Complement ω where
  wordLength : Nat
  ofBytes : Bytes → ω
  toBytes : ω → Bytes
  length_toBytes : ∀ w, (toBytes w).length = wordLength
  wide₀ : ω → ω
  wide₁ : ω → ω
  narrow₀ : ω → ω
  narrow₁ : ω → ω
  roundConstants : List ω
  start : Chain ω

namespace Sha2

section
variable {ω : Type} [Sha2 ω]

def blockLength (ω : Type) [Sha2 ω] : Nat := 16 * wordLength ω

def digestLength (ω : Type) [Sha2 ω] : Nat := 8 * wordLength ω

/-- Adds `n` words to a schedule held newest first. Each comes from the words 2, 7, 15 and 16
places before it. -/
@[specialize] def extend : Nat → List ω → List ω
  | n + 1, ws@(_ :: w₂ :: _ :: _ :: _ :: _ :: w₇ :: _ :: _ :: _ :: _ :: _ :: _ :: _ :: w₁₅ :: w₁₆ :: _) =>
    extend n ((narrow₁ w₂ + w₇ + narrow₀ w₁₅ + w₁₆) :: ws)
  | _, ws => ws

/-- One word for each round, the block's own sixteen first. -/
@[specialize] def schedule (block : Bytes) : List ω :=
  let words := (pieces (wordLength ω) block).map ofBytes
  (extend ((roundConstants (ω := ω)).length - 16) words.reverse).reverse

@[specialize] def round (s : Chain ω) (constant word : ω) : Chain ω :=
  let choice := (s.e &&& s.f) ^^^ (~~~s.e &&& s.g)
  let majority := (s.a &&& s.b) ^^^ (s.a &&& s.c) ^^^ (s.b &&& s.c)
  let t₁ := s.h + wide₁ s.e + choice + constant + word
  let t₂ := wide₀ s.a + majority
  ⟨t₁ + t₂, s.a, s.b, s.c, s.d + t₁, s.e, s.f, s.g⟩

@[specialize] def rounds : List ω → List ω → Chain ω → Chain ω
  | k :: ks, w :: ws, s => rounds ks ws (round s k w)
  | _, _, s => s

@[specialize] def compress (s : Chain ω) (block : Bytes) : Chain ω :=
  let t := rounds roundConstants (schedule block) s
  ⟨s.a + t.a, s.b + t.b, s.c + t.c, s.d + t.d, s.e + t.e, s.f + t.f, s.g + t.g, s.h + t.h⟩

/-- The message followed by a one bit, zeros and its length in bits, a whole number of blocks. -/
def pad (ω : Type) [Sha2 ω] (message : Bytes) : Bytes :=
  let block := blockLength ω
  let tail := 2 * wordLength ω
  let used := (message.length + 1 + tail) % block
  message ++ 0x80 :: Bytes.zeros ((block - used) % block) ++ Bytes.ofNat tail (8 * message.length)

def Chain.toBytes (s : Chain ω) : Bytes :=
  [s.a, s.b, s.c, s.d, s.e, s.f, s.g, s.h].flatMap Sha2.toBytes

/-- The digest of a message under the member with words `ω`. -/
@[specialize] def digest (ω : Type) [Sha2 ω] (message : Bytes) : Bytes :=
  Chain.toBytes ((pieces (blockLength ω) (pad ω message)).foldl compress (start (ω := ω)))

@[simp] theorem length_digest (message : Bytes) :
    (digest ω message).length = digestLength ω := by
  simp only [digest, Chain.toBytes, List.flatMap_cons, List.flatMap_nil, List.length_append,
    length_toBytes, List.length_nil, digestLength]
  omega

end

def rotateRight32 (x : UInt32) (n : UInt32) : UInt32 := x >>> n ||| x <<< (32 - n)

def rotateRight64 (x : UInt64) (n : UInt64) : UInt64 := x >>> n ||| x <<< (64 - n)

def roundConstants32 : List UInt32 := [
    0x428a2f98, 0x71374491, 0xb5c0fbcf, 0xe9b5dba5, 0x3956c25b, 0x59f111f1, 0x923f82a4, 0xab1c5ed5,
    0xd807aa98, 0x12835b01, 0x243185be, 0x550c7dc3, 0x72be5d74, 0x80deb1fe, 0x9bdc06a7, 0xc19bf174,
    0xe49b69c1, 0xefbe4786, 0x0fc19dc6, 0x240ca1cc, 0x2de92c6f, 0x4a7484aa, 0x5cb0a9dc, 0x76f988da,
    0x983e5152, 0xa831c66d, 0xb00327c8, 0xbf597fc7, 0xc6e00bf3, 0xd5a79147, 0x06ca6351, 0x14292967,
    0x27b70a85, 0x2e1b2138, 0x4d2c6dfc, 0x53380d13, 0x650a7354, 0x766a0abb, 0x81c2c92e, 0x92722c85,
    0xa2bfe8a1, 0xa81a664b, 0xc24b8b70, 0xc76c51a3, 0xd192e819, 0xd6990624, 0xf40e3585, 0x106aa070,
    0x19a4c116, 0x1e376c08, 0x2748774c, 0x34b0bcb5, 0x391c0cb3, 0x4ed8aa4a, 0x5b9cca4f, 0x682e6ff3,
    0x748f82ee, 0x78a5636f, 0x84c87814, 0x8cc70208, 0x90befffa, 0xa4506ceb, 0xbef9a3f7, 0xc67178f2]

def roundConstants64 : List UInt64 := [
    0x428a2f98d728ae22, 0x7137449123ef65cd, 0xb5c0fbcfec4d3b2f, 0xe9b5dba58189dbbc,
    0x3956c25bf348b538, 0x59f111f1b605d019, 0x923f82a4af194f9b, 0xab1c5ed5da6d8118,
    0xd807aa98a3030242, 0x12835b0145706fbe, 0x243185be4ee4b28c, 0x550c7dc3d5ffb4e2,
    0x72be5d74f27b896f, 0x80deb1fe3b1696b1, 0x9bdc06a725c71235, 0xc19bf174cf692694,
    0xe49b69c19ef14ad2, 0xefbe4786384f25e3, 0x0fc19dc68b8cd5b5, 0x240ca1cc77ac9c65,
    0x2de92c6f592b0275, 0x4a7484aa6ea6e483, 0x5cb0a9dcbd41fbd4, 0x76f988da831153b5,
    0x983e5152ee66dfab, 0xa831c66d2db43210, 0xb00327c898fb213f, 0xbf597fc7beef0ee4,
    0xc6e00bf33da88fc2, 0xd5a79147930aa725, 0x06ca6351e003826f, 0x142929670a0e6e70,
    0x27b70a8546d22ffc, 0x2e1b21385c26c926, 0x4d2c6dfc5ac42aed, 0x53380d139d95b3df,
    0x650a73548baf63de, 0x766a0abb3c77b2a8, 0x81c2c92e47edaee6, 0x92722c851482353b,
    0xa2bfe8a14cf10364, 0xa81a664bbc423001, 0xc24b8b70d0f89791, 0xc76c51a30654be30,
    0xd192e819d6ef5218, 0xd69906245565a910, 0xf40e35855771202a, 0x106aa07032bbd1b8,
    0x19a4c116b8d2d0c8, 0x1e376c085141ab53, 0x2748774cdf8eeb99, 0x34b0bcb5e19b48a8,
    0x391c0cb3c5c95a63, 0x4ed8aa4ae3418acb, 0x5b9cca4f7763e373, 0x682e6ff3d6b2b8a3,
    0x748f82ee5defb2fc, 0x78a5636f43172f60, 0x84c87814a1f0ab72, 0x8cc702081a6439ec,
    0x90befffa23631e28, 0xa4506cebde82bde9, 0xbef9a3f7b2c67915, 0xc67178f2e372532b,
    0xca273eceea26619c, 0xd186b8c721c0c207, 0xeada7dd6cde0eb1e, 0xf57d4f7fee6ed178,
    0x06f067aa72176fba, 0x0a637dc5a2c898a6, 0x113f9804bef90dae, 0x1b710b35131c471b,
    0x28db77f523047d84, 0x32caab7b40c72493, 0x3c9ebe0a15c9bebc, 0x431d67c49c100d4c,
    0x4cc5d4becb3e42b6, 0x597f299cfc657e2a, 0x5fcb6fab3ad6faec, 0x6c44198c4a475817]

/-- SHA-256. -/
instance : Sha2 UInt32 where
  wordLength := 4
  ofBytes bs := UInt32.ofNat (Bytes.toNat bs)
  toBytes w := Bytes.ofNat 4 w.toNat
  length_toBytes _ := Bytes.length_ofNat _ _
  wide₀ x := rotateRight32 x 2 ^^^ rotateRight32 x 13 ^^^ rotateRight32 x 22
  wide₁ x := rotateRight32 x 6 ^^^ rotateRight32 x 11 ^^^ rotateRight32 x 25
  narrow₀ x := rotateRight32 x 7 ^^^ rotateRight32 x 18 ^^^ x >>> 3
  narrow₁ x := rotateRight32 x 17 ^^^ rotateRight32 x 19 ^^^ x >>> 10
  roundConstants := roundConstants32
  start := ⟨
    0x6a09e667, 0xbb67ae85, 0x3c6ef372, 0xa54ff53a,
    0x510e527f, 0x9b05688c, 0x1f83d9ab, 0x5be0cd19⟩

/-- SHA-512. -/
instance : Sha2 UInt64 where
  wordLength := 8
  ofBytes bs := UInt64.ofNat (Bytes.toNat bs)
  toBytes w := Bytes.ofNat 8 w.toNat
  length_toBytes _ := Bytes.length_ofNat _ _
  wide₀ x := rotateRight64 x 28 ^^^ rotateRight64 x 34 ^^^ rotateRight64 x 39
  wide₁ x := rotateRight64 x 14 ^^^ rotateRight64 x 18 ^^^ rotateRight64 x 41
  narrow₀ x := rotateRight64 x 1 ^^^ rotateRight64 x 8 ^^^ x >>> 7
  narrow₁ x := rotateRight64 x 19 ^^^ rotateRight64 x 61 ^^^ x >>> 6
  roundConstants := roundConstants64
  start := ⟨
    0x6a09e667f3bcc908, 0xbb67ae8584caa73b, 0x3c6ef372fe94f82b, 0xa54ff53a5f1d36f1,
    0x510e527fade682d1, 0x9b05688c2b3e6c1f, 0x1f83d9abfb41bd6b, 0x5be0cd19137e2179⟩

end Sha2

def sha256 (message : Bytes) : Bytes := Sha2.digest UInt32 message

end IdVeil
