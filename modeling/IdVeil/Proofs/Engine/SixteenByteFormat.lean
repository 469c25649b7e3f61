import IdVeil.Proofs.Codec.Bits
import IdVeil.Proofs.Engine.Formats

/-!
The format of sixteen-byte envelopes: a version byte, the entropy if it is sent, one block in CBC
mode and a code over the vector, the block and the version byte. All keys come from the entropy,
which also masks the value. An engine writes its values in this format, and a byte string is opened
exactly when it is the format of the value it is opened to (`sixteenByte_exact`).
-/
namespace IdVeil

namespace Aes

/-- CBC mode: each block is added to the one encrypted before it, the first to the vector. -/
def cbc (keys : List Block) : Block → List Block → List Block
  | _, [] => []
  | vector, b :: rest =>
    let c := encrypt keys (b ^^^ vector)
    c :: cbc keys c rest

def cbcEncrypt (key vector plaintext : Bytes) : Bytes :=
  (cbc (roundKeys key) (.ofBytes vector) ((pieces Block.length plaintext).map .ofBytes)).flatMap
    Block.toBytes

theorem cbcEncrypt_block {key vector plaintext : Bytes} (h : plaintext.length = Block.length) :
    cbcEncrypt key vector plaintext =
      (encrypt (roundKeys key) (.ofBytes plaintext ^^^ .ofBytes vector)).toBytes := by
  have one : pieces Block.length plaintext = [plaintext] := by
    apply pieces_short
    · rintro rfl
      contradiction
    · exact Nat.le_of_eq h
  rw [cbcEncrypt, one]
  exact List.append_nil _

end Aes

namespace SixteenByte

/-- What the keys for one message are taken from, one after another: the cipher key, the vector and
the root of the key of the code. -/
def material (key : SecretKey) (r : Bytes) : Bytes :=
  Hkdf.expand UInt64 (Hkdf.extract UInt64 key.bytes) r 64

def vector (key : SecretKey) (r : Bytes) : Bytes := ((material key r).drop 16).take 16

def ciphertext (key : SecretKey) (r value : Bytes) : Bytes :=
  Aes.cbcEncrypt ((material key r).take 16) (vector key r) (Bytes.xor value r)

/-- The whole code, of which an envelope has the front. -/
def code (key : SecretKey) (r ciphertext : Bytes) (version : UInt8) : Bytes :=
  hmac UInt32 (Hkdf.expand UInt32 ((material key r).drop 32) (.ofAscii "macKey") 32)
    (vector key r ++ ciphertext ++ [version])

def format (high randomized : Bool) (key : SecretKey) (r value : Bytes) : Bytes :=
  let body := ciphertext key r value
  let version := Version.byte key.id 1 (body.headD 0)
  version :: r.sent randomized ++ body ++ (code key r body version).take (if high then 16 else 8)

variable {high randomized : Bool} {key : SecretKey} {r value : Bytes}

theorem mac_messageKeys (key : SecretKey) (r ciphertext : Bytes) (version : UInt8) :
    mac (messageKeys key.root r) high ciphertext version =
      (code key r ciphertext version).take (if high then 16 else 8) := by
  have label : Bytes.ofAscii "macKey" = macInfo := by decide
  rw [code, label]
  rfl

section

variable (hr : r.IsEntropy randomized 16) (hv : value.length = 16)
include hr hv

theorem ciphertext_eq : ciphertext key r value =
    (Aes.encrypt (Aes.roundKeys (messageKeys key.root r).cipher)
      (.ofBytes (Bytes.xor value r) ^^^ .ofBytes (messageKeys key.root r).vector)).toBytes := by
  have whitened : (Bytes.xor value r).length = Block.length := by
    rw [Bytes.length_xor, hv, hr.length]
    rfl
  exact Aes.cbcEncrypt_block whitened

theorem headD_ciphertext_append (rest : Bytes) :
    (ciphertext key r value ++ rest).headD 0 = (ciphertext key r value).headD 0 := by
  rw [ciphertext_eq hr hv]
  rfl

theorem body_sent : body high key.root key.id (r.sent randomized) value =
    ciphertext key r value ++
      (code key r (ciphertext key r value)
        (Version.byte key.id 1 ((ciphertext key r value).headD 0))).take
          (if high then 16 else 8) := by
  have full : fullEntropy (r.sent randomized) = r := hr.padTo_sent
  simp only [body, full]
  rw [← ciphertext_eq hr hv, mac_messageKeys, Version.encode_eq_byte]
  rfl

theorem envelope_eq_format :
    Engine.envelope ⟨.sixteenByte high, randomized⟩ key (r.sent randomized) value =
      format high randomized key r value := by
  change Version.encode key.id engineId
      ((body high key.root key.id (r.sent randomized) value).headD 0) :: r.sent randomized ++
    body high key.root key.id (r.sent randomized) value = _
  rw [body_sent hr hv, headD_ciphertext_append hr hv, Version.encode_eq_byte, ← List.append_assoc]
  rfl

end

end SixteenByte

namespace KeyedEngine

/-- A sixteen-byte engine writes a value in its format under the active key, and opens exactly what
is written so under a key it holds, whatever was done with it before. -/
theorem sixteenByte_exact (high randomized : Bool) {k : KeyedEngine} {s : Store}
    (reached : Reached ⟨.sixteenByte high, randomized⟩ k s) :
    (∀ key noise value, (s.ring k.ring).active? = some key → value.length = 16 →
      (k.mask s noise value).result =
        .ok (SixteenByte.format high randomized key (noise.draw randomized 16) value)) ∧
    ∀ env value, (k.unmask s env).result = .ok value ↔
      ∃ key r, (s.ring k.ring).find? key.id = some key ∧ r.IsEntropy randomized 16 ∧
        value.length = 16 ∧ env = SixteenByte.format high randomized key r value := by
  constructor
  · intro key noise value active hv
    rw [reached.mask_of_active active noise hv]
    rw [← SixteenByte.envelope_eq_format (noise.isEntropy_draw randomized 16) hv, noise.sent_draw]
    rfl
  · intro env value
    rw [reached.unmask_eq_ok_iff]
    constructor
    · rintro ⟨key, entropy, held, he, hv, rfl⟩
      obtain ⟨r, hr, rfl⟩ := Bytes.exists_sent he
      exact ⟨key, r, held, hr, hv, SixteenByte.envelope_eq_format hr hv⟩
    · rintro ⟨key, r, held, hr, hv, rfl⟩
      exact ⟨key, _, held, hr.length_sent, hv, (SixteenByte.envelope_eq_format hr hv).symm⟩

def sampleMacEngine : KeyedEngine := { engine := ⟨.sixteenByte true, false⟩, ring := 1 }

/-- Without entropy the keys for a message come from zeros, which are not sent. -/
theorem sixteenByte_exact_sample :
    Reached ⟨.sixteenByte true, false⟩ sampleMacEngine sampleRings ∧
      (sampleMacEngine.mask sampleRings (fun _ => 7) (Bytes.zeros 16)).result =
        .ok (SixteenByte.format true false newerKey (Bytes.zeros 16) (Bytes.zeros 16)) ∧
      (sampleMacEngine.unmask sampleRings
        (SixteenByte.format true false olderKey (Bytes.zeros 16) (Bytes.zeros 16))).result =
        .ok (Bytes.zeros 16) := by
  have reached : Reached ⟨.sixteenByte true, false⟩ sampleMacEngine sampleRings :=
    .new 1 sampleRings
  obtain ⟨made, opened⟩ := sixteenByte_exact true false reached
  refine ⟨reached, made newerKey (fun _ => 7) (Bytes.zeros 16) rfl rfl, ?_⟩
  exact (opened _ _).mpr ⟨olderKey, Bytes.zeros 16, rfl, ⟨rfl, fun _ => rfl⟩, rfl, rfl⟩

end KeyedEngine

end IdVeil
