import IdVeil.Proofs.Engine.Rotation

/-!
What the formats of all engines are written with: labels as text, the version byte by its bits, key
material as a prefix of longer material (`Hkdf.take_expand`), entropy with the part of it that is
sent. An engine in use makes the envelope of its active key (`Reached.mask_of_active`) and opens the
envelopes of the keys it holds and no others (`Reached.unmask_eq_ok_iff`), so a format is exact once
it is shown to be its envelope.
-/
namespace IdVeil

/-- A text of ASCII characters, one byte for each. -/
def Bytes.ofAscii (text : String) : Bytes := text.toList.map fun c => UInt8.ofNat c.toNat

/-- The two ids side by side, under the first byte of the body. -/
def Version.byte (key engine : Nibble) (first : UInt8) : UInt8 :=
  (UInt8.ofNat key.val <<< 4 ||| UInt8.ofNat engine.val) ^^^ first

theorem Version.encode_eq_byte (key engine : Nibble) (first : UInt8) :
    encode key engine first = byte key engine first := by
  have packed : ∀ k e : Nibble, UInt8.ofNat (16 * k.val + e.val) =
      UInt8.ofNat k.val <<< 4 ||| UInt8.ofNat e.val := by decide
  rw [encode, packed, byte]

@[simp] theorem Version.keyId_byte (key engine : Nibble) (first : UInt8) :
    keyId (byte key engine first) first = key := by
  rw [← encode_eq_byte, keyId_encode]

@[simp] theorem Version.engineId_byte (key engine : Nibble) (first : UInt8) :
    engineId (byte key engine first) first = engine := by
  rw [← encode_eq_byte, engineId_encode]

namespace Hkdf

variable (ω : Type) [Sha2 ω]

theorem stream_isPrefix (root info : Bytes) (count more i : Nat) (previous : Bytes) :
    stream ω root info count i previous <+: stream ω root info (count + more) i previous := by
  induction count generalizing i previous with
  | zero => exact List.nil_prefix
  | succ count ih =>
    rw [Nat.succ_add, stream, stream]
    exact (List.prefix_append_right_inj _).mpr (ih _ _)

/-- A shorter expansion is the front of a longer one. -/
theorem take_expand (root info : Bytes) {short long : Nat} (h : short ≤ long)
    (positive : 0 < Sha2.digestLength ω) :
    (expand ω root info long).take short = expand ω root info short := by
  have fewer : (short + Sha2.digestLength ω - 1) / Sha2.digestLength ω ≤
      (long + Sha2.digestLength ω - 1) / Sha2.digestLength ω :=
    Nat.div_le_div_right (by omega)
  obtain ⟨more, sum⟩ := Nat.exists_eq_add_of_le fewer
  have front := stream_isPrefix ω root info
    ((short + Sha2.digestLength ω - 1) / Sha2.digestLength ω) more 1 []
  have whole := length_expand ω root info short positive
  rw [expand, List.length_take] at whole
  rw [expand, expand, sum, List.take_take, Nat.min_eq_left h]
  obtain ⟨rest, split⟩ := front
  rw [← split, List.take_append_of_le_length (by omega)]

end Hkdf

/-- What a scheme may take as entropy: any bytes when they are sent, zeros when they are not. -/
structure Bytes.IsEntropy (randomized : Bool) (n : Nat) (r : Bytes) : Prop where
  length : r.length = n
  zeros : randomized = false → r = .zeros n

/-- The part of the entropy that stands in an envelope. -/
def Bytes.sent (randomized : Bool) (r : Bytes) : Bytes := if randomized then r else []

def Noise.draw (noise : Noise) (randomized : Bool) (n : Nat) : Bytes :=
  if randomized then noise.take n else .zeros n

section

variable {randomized : Bool} {n : Nat} {r entropy : Bytes}

theorem Noise.isEntropy_draw (noise : Noise) (randomized : Bool) (n : Nat) :
    (noise.draw randomized n).IsEntropy randomized n := by
  cases randomized with
  | true => exact ⟨Noise.length_take noise n, fun h => absurd h.symm Bool.false_ne_true⟩
  | false => exact ⟨Bytes.length_zeros n, fun _ => rfl⟩

theorem Noise.sent_draw (noise : Noise) (randomized : Bool) (n : Nat) :
    (noise.draw randomized n).sent randomized = noise.take (if randomized then n else 0) := by
  cases randomized with
  | true => rfl
  | false => rfl

namespace Bytes

theorem IsEntropy.length_sent (h : r.IsEntropy randomized n) :
    (r.sent randomized).length = if randomized then n else 0 := by
  cases randomized with
  | true => exact h.length
  | false => rfl

theorem IsEntropy.padTo_sent (h : r.IsEntropy randomized n) : padTo n (r.sent randomized) = r := by
  cases randomized with
  | true => simp [padTo, sent, h.length, Bytes.zeros]
  | false => exact (h.zeros rfl).symm

theorem exists_sent (h : entropy.length = if randomized then n else 0) :
    ∃ r : Bytes, r.IsEntropy randomized n ∧ entropy = r.sent randomized := by
  cases randomized with
  | true => exact ⟨entropy, ⟨h, fun h => absurd h.symm Bool.false_ne_true⟩, rfl⟩
  | false => exact ⟨.zeros n, ⟨length_zeros n, fun _ => rfl⟩, List.length_eq_zero_iff.mp h⟩

end Bytes

end

namespace KeyedEngine

variable {e : Engine} {k : KeyedEngine} {s : Store}

theorem Reached.mask_eq (reached : Reached e k s) (noise : Noise) (value : Bytes) :
    (k.mask s noise value).result =
      if value.length ≠ e.valueLength then .error (.inputLength e.valueLength value.length)
      else match (s.ring k.ring).active? with
        | some key => .ok (e.envelope key (noise.take e.entropyLength) value)
        | none => .error .noActiveKey := by
  cases reached.engine_eq
  exact Engine.mask_result reached.sound noise value

theorem Reached.mask_of_active (reached : Reached e k s) {key : SecretKey}
    (active : (s.ring k.ring).active? = some key) (noise : Noise) {value : Bytes}
    (hv : value.length = e.valueLength) :
    (k.mask s noise value).result = .ok (e.envelope key (noise.take e.entropyLength) value) := by
  rw [reached.mask_eq, if_neg (not_not_intro hv), active]

end KeyedEngine

end IdVeil
