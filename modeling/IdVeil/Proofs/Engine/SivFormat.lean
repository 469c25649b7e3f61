import IdVeil.Proofs.Engine.Formats

/-!
The format of SIV envelopes: a version byte, the entropy and the sealed value, all under a keystream
as long as the envelope. An engine writes its values in this format, and a byte string is opened
exactly when it is the format of the value it is opened to, under some key that is held and some
entropy of the right length (`siv_exact`).
-/
namespace IdVeil

namespace SivScheme

def cipherKey (w : SivWidth) (key : SecretKey) : Bytes :=
  Hkdf.expand UInt64 (Hkdf.extract UInt64 key.bytes) (.ofAscii "siv-key") w.keyLength

/-- The value under the cipher, with the two ids and the entropy as associated data. -/
def sealedValue (w : SivWidth) (key : SecretKey) (entropy value : Bytes) : Bytes :=
  Siv.encrypt (cipherKey w key) [UInt8.ofNat key.id.val :: UInt8.ofNat w.engineId.val :: entropy]
    value

def keystream (obfuscation : FixedBytes 8) (length : Nat) : Bytes :=
  Hkdf.expand UInt32 (Hkdf.extract UInt32 obfuscation.val) (.ofAscii "envelope-obfuscation") length

def format (w : SivWidth) (obfuscation : FixedBytes 8) (key : SecretKey) (entropy value : Bytes) :
    Bytes :=
  let body := sealedValue w key entropy value
  Bytes.xor (Version.byte key.id w.engineId (body.headD 0) :: entropy ++ body)
    (keystream obfuscation (1 + entropy.length + w.tagLength + w.valueLength))

variable {w : SivWidth} {obfuscation : FixedBytes 8} {key : SecretKey} {entropy value : Bytes}

@[simp] theorem length_keystream (length : Nat) : (keystream obfuscation length).length = length :=
  Hkdf.length_expand32 _ _ _

theorem derive_eq_cipherKey (w : SivWidth) (key : SecretKey) : derive w key = cipherKey w key := by
  have label : Bytes.ofAscii "siv-key" = keyInfo := by decide
  rw [cipherKey, label]
  rfl

/-- All widths take their keys from the front of one expansion. -/
theorem cipherKey_eq_take (w : SivWidth) (key : SecretKey) : cipherKey w key =
    (Hkdf.expand UInt64 (Hkdf.extract UInt64 key.bytes) (.ofAscii "siv-key") 64).take
      w.keyLength := by
  have short : w.keyLength ≤ 64 := by cases w <;> decide
  exact (Hkdf.take_expand UInt64 _ _ short (by decide)).symm

theorem length_sealedValue (hv : value.length = w.valueLength) :
    (sealedValue w key entropy value).length = w.tagLength + w.valueLength := by
  rw [sealedValue, Siv.length_encrypt, hv]
  rfl

theorem length_format (hv : value.length = w.valueLength) :
    (format w obfuscation key entropy value).length =
      1 + entropy.length + w.tagLength + w.valueLength := by
  have body : (sealedValue w key entropy value).length = w.tagLength + w.valueLength :=
    length_sealedValue hv
  simp only [format, Bytes.length_xor, length_keystream, List.cons_append, List.length_cons,
    List.length_append, body]
  omega

theorem veil_eq_keystream (length : Nat) :
    veil obfuscation.val length = keystream obfuscation length := by
  have label : Bytes.ofAscii "envelope-obfuscation" = veilInfo := by decide
  rw [keystream, label]
  rfl

/-- An engine puts its whole envelope under a keystream of that length. -/
theorem veil_eq_xor {randomized : Bool} {plain : Bytes} {length : Nat}
    (own : Engine.envelopeLength ⟨.siv w obfuscation, randomized⟩ = length)
    (whole : plain.length = length) : Engine.veil ⟨.siv w obfuscation, randomized⟩ plain =
      Bytes.xor plain (keystream obfuscation length) := by
  have stream : Engine.keystream ⟨.siv w obfuscation, randomized⟩ = keystream obfuscation length := by
    rw [← own]
    exact veil_eq_keystream _
  have cover : plain.length ≤ (keystream obfuscation length).length := by simp [whole]
  rw [Engine.veil, stream, Bytes.xorFront_eq_xor cover]

theorem envelope_eq_format {randomized : Bool}
    (he : entropy.length = if randomized then w.entropyLength else 0)
    (hv : value.length = w.valueLength) :
    Engine.envelope ⟨.siv w obfuscation, randomized⟩ key entropy value =
      format w obfuscation key entropy value := by
  have body : Scheme.body (.siv w obfuscation) (derive w key) key.id entropy value =
      sealedValue w key entropy value := by
    rw [derive_eq_cipherKey]
    rfl
  have own : Engine.envelopeLength ⟨.siv w obfuscation, randomized⟩ =
      1 + entropy.length + w.tagLength + w.valueLength := by
    rw [he]
    exact (Nat.add_assoc _ _ _).symm
  have whole : (Version.byte key.id w.engineId ((sealedValue w key entropy value).headD 0) ::
      entropy ++ sealedValue w key entropy value).length =
        1 + entropy.length + w.tagLength + w.valueLength := by
    rw [List.cons_append, List.length_cons, List.length_append, length_sealedValue hv]
    omega
  change Engine.veil ⟨.siv w obfuscation, randomized⟩ (Version.encode key.id w.engineId
    ((Scheme.body (.siv w obfuscation) (derive w key) key.id entropy value).headD 0) ::
    entropy ++ Scheme.body (.siv w obfuscation) (derive w key) key.id entropy value) = _
  rw [body, Version.encode_eq_byte, veil_eq_xor own whole]
  rfl

end SivScheme

namespace KeyedEngine

/-- A SIV engine writes a value in its format under the active key, and opens exactly what is
written so under a key it holds, whatever was done with it before. -/
theorem siv_exact (w : SivWidth) (obfuscation : FixedBytes 8) (randomized : Bool) {k : KeyedEngine}
    {s : Store} (reached : Reached ⟨.siv w obfuscation, randomized⟩ k s) :
    (∀ key noise value, (s.ring k.ring).active? = some key → value.length = w.valueLength →
      (k.mask s noise value).result = .ok (SivScheme.format w obfuscation key
        (noise.take (if randomized then w.entropyLength else 0)) value)) ∧
    (∀ env value, (k.unmask s env).result = .ok value ↔
      ∃ key entropy, (s.ring k.ring).find? key.id = some key ∧
        entropy.length = (if randomized then w.entropyLength else 0) ∧
        value.length = w.valueLength ∧ env = SivScheme.format w obfuscation key entropy value) ∧
    (∀ key entropy value, entropy.length = (if randomized then w.entropyLength else 0) →
      value.length = w.valueLength → (SivScheme.format w obfuscation key entropy value).length =
        Engine.envelopeLength ⟨.siv w obfuscation, randomized⟩) ∧
    ∀ key, SivScheme.cipherKey w key =
      (Hkdf.expand UInt64 (Hkdf.extract UInt64 key.bytes) (.ofAscii "siv-key") 64).take
        w.keyLength := by
  refine ⟨?_, ?_, ?_, SivScheme.cipherKey_eq_take w⟩
  · intro key noise value active hv
    rw [reached.mask_of_active active noise hv]
    have he := Noise.length_take noise (Engine.entropyLength ⟨.siv w obfuscation, randomized⟩)
    exact congrArg Except.ok (SivScheme.envelope_eq_format he hv)
  · intro env value
    rw [reached.unmask_eq_ok_iff]
    constructor
    · rintro ⟨key, entropy, held, he, hv, rfl⟩
      exact ⟨key, entropy, held, he, hv, SivScheme.envelope_eq_format he hv⟩
    · rintro ⟨key, entropy, held, he, hv, rfl⟩
      exact ⟨key, entropy, held, he, hv, (SivScheme.envelope_eq_format he hv).symm⟩
  · intro key entropy value he hv
    rw [SivScheme.length_format hv, he]
    exact Nat.add_assoc _ _ _

def sampleObfuscation : FixedBytes 8 := .zeros 8

def sampleSivEngine : KeyedEngine :=
  { engine := ⟨.siv .int8 sampleObfuscation, true⟩, ring := 1 }

def sampleSivEnvelope (key : SecretKey) : Bytes :=
  SivScheme.format .int8 sampleObfuscation key (List.replicate 8 7) (Bytes.zeros 8)

/-- Written under the newer key, and opened under the older one too. -/
theorem siv_exact_sample :
    Reached ⟨.siv .int8 sampleObfuscation, true⟩ sampleSivEngine sampleRings ∧
      (sampleSivEngine.mask sampleRings (fun _ => 7) (Bytes.zeros 8)).result =
        .ok (sampleSivEnvelope newerKey) ∧
      (sampleSivEngine.unmask sampleRings (sampleSivEnvelope olderKey)).result =
        .ok (Bytes.zeros 8) ∧
      (sampleSivEnvelope olderKey).length = 33 := by
  have reached : Reached ⟨.siv .int8 sampleObfuscation, true⟩ sampleSivEngine sampleRings :=
    .new 1 sampleRings
  obtain ⟨made, opened, length, _⟩ := siv_exact .int8 sampleObfuscation true reached
  refine ⟨reached, made newerKey (fun _ => 7) (Bytes.zeros 8) rfl rfl, ?_, ?_⟩
  · exact (opened _ _).mpr ⟨olderKey, List.replicate 8 7, rfl, rfl, rfl, rfl⟩
  · exact length olderKey (List.replicate 8 7) (Bytes.zeros 8) rfl rfl

end KeyedEngine

end IdVeil
