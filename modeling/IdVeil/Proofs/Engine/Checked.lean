import IdVeil.Proofs.Engine.Formats

/-!
Engines that stop where a step cannot be taken. Here every piece that is cut out must be there and
every key and digest must have the length its use asks for. No cipher takes in more associated data
than it can, no keystream is longer than there can be, and a version byte is made only of ids that
fit. An engine whose derived keys belong to its ring never stops, and does what it does without the
checks (`Engine.mask?_eq`, `Engine.unmask?_eq`).
-/
namespace IdVeil

namespace Bytes

/-- The first `n` bytes, if there are as many. -/
def front? (n : Nat) (bs : Bytes) : Option Bytes := if n ≤ bs.length then some (bs.take n) else none

/-- What follows the first `n` bytes, if there are as many. -/
def back? (n : Nat) (bs : Bytes) : Option Bytes := if n ≤ bs.length then some (bs.drop n) else none

/-- The bytes, if they fill a place of `n` bytes. -/
def exactly? (n : Nat) (bs : Bytes) : Option Bytes := if bs.length = n then some bs else none

variable {n : Nat} {bs : Bytes}

theorem front?_eq (h : n ≤ bs.length) : front? n bs = some (bs.take n) := if_pos h

theorem back?_eq (h : n ≤ bs.length) : back? n bs = some (bs.drop n) := if_pos h

theorem exactly?_eq (h : bs.length = n) : exactly? n bs = some bs := if_pos h

theorem head?_eq_headD (h : 0 < bs.length) : bs.head? = some (bs.headD 0) := by
  cases bs with
  | nil => contradiction
  | cons b bs => rfl

end Bytes

def Block.ofBytes? (bs : Bytes) : Option Block :=
  if bs.length = length then some (ofBytes bs) else none

theorem Block.ofBytes?_eq {bs : Bytes} (h : bs.length = length) :
    ofBytes? bs = some (ofBytes bs) := if_pos h

def Aes.roundKeys? (key : Bytes) : Option (List Block) :=
  if key.length = 16 then some (roundKeys key) else none

theorem Aes.roundKeys?_eq {key : Bytes} (h : key.length = 16) :
    roundKeys? key = some (roundKeys key) := if_pos h

namespace Hkdf

variable (ω : Type) [Sha2 ω]

/-- The root must be as long as a digest, and no more than 255 digests can be asked for. -/
def expand? (root info : Bytes) (length : Nat) : Option Bytes :=
  if Sha2.digestLength ω ≤ root.length ∧ length ≤ 255 * Sha2.digestLength ω then
    some (expand ω root info length)
  else none

theorem expand?_eq {root : Bytes} (long : Sha2.digestLength ω ≤ root.length) {length : Nat}
    (small : length ≤ 255 * Sha2.digestLength ω) (info : Bytes) :
    expand? ω root info length = some (expand ω root info length) := if_pos ⟨long, small⟩

end Hkdf

/-- The version byte, with both ids given as bytes and checked. -/
def Version.encode? (key engine : Nibble) (first : UInt8) : Option UInt8 :=
  (ofBytes (UInt8.ofNat key.val) (UInt8.ofNat engine.val) first).toOption

theorem Version.encode?_eq (key engine : Nibble) (first : UInt8) :
    encode? key engine first = some (encode key engine first) := by
  have fits : ∀ id : Nibble, nibble? (UInt8.ofNat id.val) = some id := by decide
  rw [encode?, ofBytes, fits, fits]
  rfl

/-- The root is kept in a place of 64 bytes. -/
def SecretKey.root? (key : SecretKey) : Option Bytes := key.root.exactly? 64

@[simp] theorem SecretKey.length_root (key : SecretKey) : key.root.length = 64 :=
  length_hmac UInt64 [] key.bytes

theorem SecretKey.root?_eq (key : SecretKey) : key.root? = some key.root :=
  Bytes.exactly?_eq key.length_root

namespace EightByte

def derive? (key : SecretKey) : Option Bytes := do
  let root ← key.root?
  root.front? 16

def body? (material entropy value : Bytes) : Option Bytes := do
  let keys ← Aes.roundKeys? material
  let front ← (reference entropy).exactly? referenceLength
  let back ← value.exactly? valueLength
  let block ← Block.ofBytes? (front ++ back)
  some (Aes.encrypt keys block).toBytes

def recover? (material entropy body : Bytes) : Option (Option Bytes) := do
  let keys ← Aes.roundKeys? material
  let block ← Block.ofBytes? body
  let plain := (Aes.decrypt keys block).toBytes
  let front ← plain.front? referenceLength
  let back ← plain.back? referenceLength
  some (if front = reference entropy then some back else none)

theorem derive?_eq (key : SecretKey) : derive? key = some (derive key) := by
  have long : 16 ≤ key.root.length := by simp
  rw [derive?, key.root?_eq]
  exact Bytes.front?_eq long

@[simp] theorem length_derive (key : SecretKey) : (derive key).length = 16 := by simp [derive]

theorem body?_eq {material entropy value : Bytes} (hm : material.length = 16)
    (he : entropy.length ≤ referenceLength) (hv : value.length = valueLength) :
    body? material entropy value = some (body material entropy value) := by
  have front := length_reference he
  have whole : (reference entropy ++ value).length = Block.length := by
    rw [List.length_append, front, hv]
    rfl
  rw [body?, Aes.roundKeys?_eq hm, Bytes.exactly?_eq front, Bytes.exactly?_eq hv]
  simp only [Option.bind_eq_bind, Option.bind_some, Block.ofBytes?_eq whole]
  rfl

theorem recover?_eq {material body : Bytes} (hm : material.length = 16)
    (hb : body.length = bodyLength) (entropy : Bytes) :
    recover? material entropy body = some (recover material entropy body) := by
  have long (x : Block) : referenceLength ≤ x.toBytes.length := by
    rw [Block.length_toBytes]
    decide
  rw [recover?, Aes.roundKeys?_eq hm, Block.ofBytes?_eq hb]
  simp only [Option.bind_eq_bind, Option.bind_some, Bytes.front?_eq (long _),
    Bytes.back?_eq (long _)]
  rfl

end EightByte

namespace SixteenByte

def derive? (key : SecretKey) : Option Bytes := key.root?

def messageKeys? (root entropy : Bytes) : Option MessageKeys := do
  let material ← Hkdf.expand? UInt64 root entropy 64
  let cipher ← material.front? 16
  let rest ← material.back? 16
  let vector ← rest.front? 16
  let macRoot ← material.back? 32
  let mac ← Hkdf.expand? UInt32 macRoot macInfo 32
  some { cipher, vector, mac }

def mac? (keys : MessageKeys) (highSecurity : Bool) (ciphertext : Bytes) (version : UInt8) :
    Option Bytes :=
  (hmac UInt32 keys.mac (keys.vector ++ ciphertext ++ [version])).front? (macLength highSecurity)

def body? (highSecurity : Bool) (root : Bytes) (key : Nibble) (entropy value : Bytes) :
    Option Bytes := do
  let entropy ← (fullEntropy entropy).exactly? Block.length
  let keys ← messageKeys? root entropy
  let cipher ← Aes.roundKeys? keys.cipher
  let vector ← Block.ofBytes? keys.vector
  let block ← Block.ofBytes? (Bytes.xor value entropy)
  let ciphertext := (Aes.encrypt cipher (block ^^^ vector)).toBytes
  let first ← ciphertext.head?
  let version ← Version.encode? key engineId first
  let mac ← mac? keys highSecurity ciphertext version
  some (ciphertext ++ mac)

def recover? (highSecurity : Bool) (root : Bytes) (version : UInt8) (entropy body : Bytes) :
    Option (Option Bytes) := do
  let entropy ← (fullEntropy entropy).exactly? Block.length
  let ciphertext ← body.front? Block.length
  let received ← body.back? Block.length
  let keys ← messageKeys? root entropy
  let mac ← mac? keys highSecurity ciphertext version
  if mac = received then
    let cipher ← Aes.roundKeys? keys.cipher
    let vector ← Block.ofBytes? keys.vector
    let block ← Block.ofBytes? ciphertext
    some (some (Bytes.xor (Aes.decrypt cipher block ^^^ vector).toBytes entropy))
  else some none

theorem derive?_eq (key : SecretKey) : derive? key = some (derive key) := key.root?_eq

section

variable {root : Bytes} (hr : root.length = 64) (entropy : Bytes)

@[simp] theorem length_messageKeys_cipher : (messageKeys root entropy).cipher.length = 16 := by
  simp [messageKeys]

@[simp] theorem length_messageKeys_vector :
    (messageKeys root entropy).vector.length = Block.length := by
  simp [messageKeys, Block.length]

include hr in
theorem messageKeys?_eq : messageKeys? root entropy = some (messageKeys root entropy) := by
  have material : (Hkdf.expand UInt64 root entropy 64).length = 64 := by simp
  rw [messageKeys?, Hkdf.expand?_eq UInt64 (Nat.le_of_eq hr.symm) (by decide)]
  simp only [Option.bind_eq_bind, Option.bind_some]
  rw [Bytes.front?_eq (by omega), Bytes.back?_eq (by omega), Bytes.back?_eq (by omega)]
  simp only [Option.bind_some]
  rw [Bytes.front?_eq (by simp), Hkdf.expand?_eq UInt32 _ (by decide)]
  · rfl
  · rw [List.length_drop, material]
    decide

theorem mac?_eq (keys : MessageKeys) (highSecurity : Bool) (ciphertext : Bytes) (version : UInt8) :
    mac? keys highSecurity ciphertext version =
      some (mac keys highSecurity ciphertext version) := by
  apply Bytes.front?_eq
  rw [length_hmac]
  cases highSecurity <;> decide

include hr in
theorem body?_eq {value : Bytes} (he : entropy.length ≤ entropyLength)
    (hv : value.length = valueLength) (highSecurity : Bool) (key : Nibble) :
    body? highSecurity root key entropy value =
      some (body highSecurity root key entropy value) := by
  have full := length_fullEntropy he
  have block : (Bytes.xor value (fullEntropy entropy)).length = Block.length := by
    rw [Bytes.length_xor, full, hv]
    rfl
  have first (x : Block) : x.toBytes.head? = some (x.toBytes.headD 0) := rfl
  rw [body?, Bytes.exactly?_eq full]
  simp only [Option.bind_eq_bind, Option.bind_some, messageKeys?_eq hr,
    Aes.roundKeys?_eq (length_messageKeys_cipher _),
    Block.ofBytes?_eq (length_messageKeys_vector _), Block.ofBytes?_eq block, first,
    Version.encode?_eq, mac?_eq]
  rfl

include hr in
theorem recover?_eq {bs : Bytes} (he : entropy.length ≤ entropyLength)
    (hb : Block.length ≤ bs.length) (highSecurity : Bool) (version : UInt8) :
    recover? highSecurity root version entropy bs =
      some (recover highSecurity root version entropy bs) := by
  have front : (bs.take Block.length).length = Block.length := List.length_take_of_le hb
  rw [recover?, Bytes.exactly?_eq (length_fullEntropy he), Bytes.front?_eq hb, Bytes.back?_eq hb]
  simp only [Option.bind_eq_bind, Option.bind_some, messageKeys?_eq hr, mac?_eq]
  rw [recover]
  split
  · simp only [Aes.roundKeys?_eq (length_messageKeys_cipher _),
      Block.ofBytes?_eq (length_messageKeys_vector _), Block.ofBytes?_eq front, Option.bind_some]
  · rfl

end

end SixteenByte

namespace Siv

/-- AES-SIV takes keys of two sizes. -/
def key? (key : Bytes) : Option Bytes :=
  if key.length = 32 ∨ key.length = 64 then some key else none

/-- The vector takes in no more than 126 items of associated data. -/
def encrypt? (key : Bytes) (items : List Bytes) (plaintext : Bytes) : Option Bytes := do
  let key ← key? key
  if items.length ≤ 126 then some (encrypt key items plaintext) else none

/-- With more items a text is not authentic, which is no step that cannot be taken. -/
def decrypt? (key : Bytes) (items : List Bytes) (text : Bytes) : Option (Option Bytes) := do
  let key ← key? key
  some (if items.length ≤ 126 then decrypt key items text else none)

variable {key : Bytes} {items : List Bytes}

theorem encrypt?_eq (sized : key? key = some key) (few : items.length ≤ 126) (plaintext : Bytes) :
    encrypt? key items plaintext = some (encrypt key items plaintext) := by
  rw [encrypt?, sized]
  exact if_pos few

theorem decrypt?_eq (sized : key? key = some key) (few : items.length ≤ 126) (text : Bytes) :
    decrypt? key items text = some (decrypt key items text) := by
  rw [decrypt?, sized]
  exact congrArg some (if_pos few)

end Siv

namespace SivScheme

/-- All widths take the front of one expansion. -/
def derive? (w : SivWidth) (key : SecretKey) : Option Bytes := do
  let root ← key.root?
  let material ← Hkdf.expand? UInt64 root keyInfo 64
  material.front? w.keyLength

def body? (w : SivWidth) (material : Bytes) (key : Nibble) (entropy value : Bytes) :
    Option Bytes :=
  Siv.encrypt? material [associatedData w key entropy] value

def recover? (w : SivWidth) (material : Bytes) (key : Nibble) (entropy body : Bytes) :
    Option (Option Bytes) :=
  Siv.decrypt? material [associatedData w key entropy] body

def veil? (obfuscation : Bytes) (length : Nat) : Option Bytes :=
  Hkdf.expand? UInt32 (Hkdf.extract UInt32 obfuscation) veilInfo length

theorem derive?_eq (w : SivWidth) (key : SecretKey) : derive? w key = some (derive w key) := by
  have short : w.keyLength ≤ 64 := by cases w <;> decide
  rw [derive?, key.root?_eq]
  simp only [Option.bind_eq_bind, Option.bind_some]
  rw [Hkdf.expand?_eq UInt64 (Nat.le_of_eq key.length_root.symm) (by decide)]
  simp only [Option.bind_some]
  rw [Bytes.front?_eq (by simpa using short), Hkdf.take_expand UInt64 _ _ short (by decide)]
  rfl

theorem key?_derive (w : SivWidth) (key : SecretKey) :
    Siv.key? (derive w key) = some (derive w key) := by
  apply if_pos
  rw [derive, Hkdf.length_expand64]
  cases w <;> decide

theorem veil?_eq {length : Nat} (small : length ≤ 255 * 32) (obfuscation : Bytes) :
    veil? obfuscation length = some (veil obfuscation length) :=
  Hkdf.expand?_eq UInt32 (Nat.le_of_eq (length_hmac UInt32 [] obfuscation).symm) small veilInfo

end SivScheme

namespace Scheme

def derive? : Scheme → SecretKey → Option Bytes
  | eightByte => EightByte.derive?
  | sixteenByte _ => SixteenByte.derive?
  | siv w _ => SivScheme.derive? w

def body? (scheme : Scheme) (material : Bytes) (key : Nibble) (entropy value : Bytes) :
    Option Bytes :=
  match scheme with
  | eightByte => EightByte.body? material entropy value
  | sixteenByte high => SixteenByte.body? high material key entropy value
  | siv w _ => SivScheme.body? w material key entropy value

def recover? (scheme : Scheme) (material : Bytes) (key : Nibble) (version : UInt8)
    (entropy body : Bytes) : Option (Option Bytes) :=
  match scheme with
  | eightByte => EightByte.recover? material entropy body
  | sixteenByte high => SixteenByte.recover? high material version entropy body
  | siv w _ => SivScheme.recover? w material key entropy body

variable {scheme : Scheme} {entropy : Bytes}

theorem derive?_eq (scheme : Scheme) (key : SecretKey) :
    scheme.derive? key = some (scheme.derive key) := by
  cases scheme with
  | eightByte => exact EightByte.derive?_eq key
  | sixteenByte high => exact SixteenByte.derive?_eq key
  | siv w obfuscation => exact SivScheme.derive?_eq w key

theorem body?_eq {value : Bytes} (he : entropy.length ≤ scheme.entropyLength)
    (hv : value.length = scheme.valueLength) (owner : SecretKey) (key : Nibble) :
    scheme.body? (scheme.derive owner) key entropy value =
      some (scheme.body (scheme.derive owner) key entropy value) := by
  cases scheme with
  | eightByte => exact EightByte.body?_eq (EightByte.length_derive owner) he hv
  | sixteenByte high => exact SixteenByte.body?_eq owner.length_root entropy he hv high key
  | siv w obfuscation =>
    exact Siv.encrypt?_eq (SivScheme.key?_derive w owner) (by simp) value

theorem recover?_eq {bs : Bytes} (he : entropy.length ≤ scheme.entropyLength)
    (hb : bs.length = scheme.bodyLength) (owner : SecretKey) (key : Nibble) (version : UInt8) :
    scheme.recover? (scheme.derive owner) key version entropy bs =
      some (scheme.recover (scheme.derive owner) key version entropy bs) := by
  cases scheme with
  | eightByte => exact EightByte.recover?_eq (EightByte.length_derive owner) hb entropy
  | sixteenByte high =>
    have long : Block.length ≤ bs.length := hb ▸ Nat.le_add_right _ _
    exact SixteenByte.recover?_eq owner.length_root entropy he long high version
  | siv w obfuscation =>
    exact Siv.decrypt?_eq (SivScheme.key?_derive w owner) (by simp) bs

end Scheme

namespace Memo

variable {δ : Type} {derive? : SecretKey → Option δ} {derive : SecretKey → δ}

def get? (derive? : SecretKey → Option δ) (memo : Memo δ) (ring : KeyRing) (id : Nibble) :
    Option (Option δ × Memo δ) :=
  match ring.find? id with
  | none => some (none, memo.filter fun entry => entry.1 ≠ id)
  | some key =>
    match memo.lookup id with
    | some value => some (some value, memo)
    | none => (derive? key).map fun value => (some value, (id, value) :: memo)

def active? (derive? : SecretKey → Option δ) (memo : Memo δ) (ring : KeyRing) :
    Option (Except Error (Nibble × δ) × Memo δ) :=
  (get? derive? memo ring ring.activeId).map fun
    | (some value, memo) => (.ok (ring.activeId, value), memo)
    | (none, memo) => (.error .noActiveKey, memo)

theorem get?_eq (derived : ∀ key, derive? key = some (derive key)) (memo : Memo δ) (ring : KeyRing)
    (id : Nibble) : get? derive? memo ring id = some (get derive memo ring id) := by
  rw [get?, get]
  cases ring.find? id with
  | none => rfl
  | some key =>
    cases memo.lookup id with
    | some value => rfl
    | none =>
      simp only [derived]
      rfl

theorem active?_eq (derived : ∀ key, derive? key = some (derive key)) (memo : Memo δ)
    (ring : KeyRing) : active? derive? memo ring = some (active derive memo ring) := by
  rw [active?, get?_eq derived, active]
  rfl

end Memo

namespace Engine

/-- The keystream must be within what can be asked for. -/
def keystream? (e : Engine) : Option Bytes :=
  match e.scheme with
  | .siv _ obfuscation => SivScheme.veil? obfuscation.val e.envelopeLength
  | _ => some []

def veil? (e : Engine) (envelope : Bytes) : Option Bytes := do
  let keystream ← e.keystream?
  some (Bytes.xorFront keystream envelope)

def assemble? (e : Engine) (key : Nibble) (material entropy value : Bytes) : Option Bytes := do
  let body ← e.scheme.body? material key entropy value
  let first ← body.head?
  let version ← Version.encode? key e.engineId first
  e.veil? (version :: entropy ++ body)

def mask? (e : Engine) (ring : KeyRing) (memo : Memo Bytes) (noise : Noise) (value : Bytes) :
    Option (Outcome (Memo Bytes) Bytes) :=
  if value.length ≠ e.valueLength then some (.fail (.inputLength e.valueLength value.length) memo)
  else do
    match ← memo.active? e.scheme.derive? ring with
    | (.error err, memo) => some (.fail err memo)
    | (.ok (key, material), memo) =>
      let envelope ← e.assemble? key material (noise.take e.entropyLength) value
      some { result := .ok envelope, state := memo }

def unmask? (e : Engine) (ring : KeyRing) (memo : Memo Bytes) (envelope : Bytes) :
    Option (Outcome (Memo Bytes) Bytes) :=
  if envelope.length ≠ e.envelopeLength then
    some (.fail (.inputLength e.envelopeLength envelope.length) memo)
  else do
    let plain ← e.veil? envelope
    let version ← plain.head?
    let rest ← plain.back? 1
    let entropy ← rest.front? e.entropyLength
    let body ← rest.back? e.entropyLength
    let first ← body.head?
    if Version.engineId version first ≠ e.engineId then some (.reject .unknownEngine memo)
    else
      let key := Version.keyId version first
      match ← memo.get? e.scheme.derive? ring key with
      | (none, memo) => some (.reject .unknownKey memo)
      | (some material, memo) =>
        match ← e.scheme.recover? material key version entropy body with
        | none => some (.reject .mismatch memo)
        | some value => some { result := .ok value, state := memo }

variable {e : Engine} {ring : KeyRing} {memo : Memo Bytes}

theorem veil?_eq (e : Engine) (envelope : Bytes) : e.veil? envelope = some (e.veil envelope) := by
  have made : e.keystream? = some e.keystream := by
    obtain ⟨scheme, randomized⟩ := e
    cases scheme with
    | siv w obfuscation =>
      have short : envelopeLength ⟨.siv w obfuscation, randomized⟩ < 256 := envelopeLength_lt _
      exact SivScheme.veil?_eq (by omega) obfuscation.val
    | _ => rfl
  rw [veil?, made]
  rfl

theorem assemble?_eq {entropy value : Bytes} (he : entropy.length = e.entropyLength)
    (hv : value.length = e.valueLength) (owner : SecretKey) (key : Nibble) :
    e.assemble? key (e.scheme.derive owner) entropy value =
      some (e.assemble key (e.scheme.derive owner) entropy value) := by
  have body : (e.scheme.body (e.scheme.derive owner) key entropy value).length =
      e.scheme.bodyLength := Scheme.length_body hv
  rw [assemble?, Scheme.body?_eq (he ▸ e.entropyLength_le) hv]
  simp only [Option.bind_eq_bind, Option.bind_some, Version.encode?_eq]
  rw [Bytes.head?_eq_headD (body ▸ e.scheme.bodyLength_pos)]
  exact e.veil?_eq _

variable (sound : memo.Sound e.scheme.derive ring)
include sound

/-- Making an envelope never stops. -/
theorem mask?_eq (noise : Noise) (value : Bytes) :
    e.mask? ring memo noise value = some (e.mask ring memo noise value) := by
  have looked := sound.active_fst
  rw [mask?, mask]
  split
  · rfl
  · rename_i length
    rw [Memo.active?_eq e.scheme.derive?_eq]
    simp only [Option.bind_eq_bind, Option.bind_some]
    generalize memo.active e.scheme.derive ring = given at looked
    obtain ⟨answer, memo'⟩ := given
    simp only at looked
    rw [looked]
    cases ring.active? with
    | none => rfl
    | some key =>
      simp only
      rw [assemble?_eq (Noise.length_take _ _) (Decidable.not_not.mp length)]
      rfl

/-- Opening an envelope never stops, whatever bytes there are. -/
theorem unmask?_eq (env : Bytes) : e.unmask? ring memo env = some (e.unmask ring memo env) := by
  rw [unmask?, unmask]
  split
  · rfl
  · rename_i length
    have plain : (e.veil env).length = 1 + e.entropyLength + e.scheme.bodyLength :=
      (length_veil env).trans (Decidable.not_not.mp length)
    have positive := e.scheme.bodyLength_pos
    have tail : (e.veil env).tail.length = e.entropyLength + e.scheme.bodyLength := by
      rw [List.length_tail, plain]
      omega
    have body : ((e.veil env).tail.drop e.entropyLength).length = e.scheme.bodyLength := by
      rw [List.length_drop, tail]
      omega
    rw [veil?_eq]
    simp only [Option.bind_eq_bind, Option.bind_some]
    rw [Bytes.head?_eq_headD (by omega), Bytes.back?_eq (by omega), List.drop_one]
    simp only [Option.bind_some]
    rw [Bytes.front?_eq (by omega), Bytes.back?_eq (by omega)]
    simp only [Option.bind_some]
    rw [Bytes.head?_eq_headD (by omega)]
    simp only [Option.bind_some]
    split
    · rfl
    · have looked := sound.get_fst (Version.keyId ((e.veil env).headD 0)
        (((e.veil env).tail.drop e.entropyLength).headD 0))
      rw [Memo.get?_eq e.scheme.derive?_eq]
      simp only [Option.bind_some]
      generalize memo.get e.scheme.derive ring _ = given at looked
      obtain ⟨material, memo'⟩ := given
      simp only at looked
      rw [looked]
      cases ring.find? _ with
      | none => rfl
      | some key =>
        simp only [Option.map_some]
        rw [Scheme.recover?_eq _ body]
        · simp only [Option.bind_some]
          cases e.scheme.recover _ _ _ _ _ with
          | none => rfl
          | some value => rfl
        · rw [List.length_take, tail]
          have := e.entropyLength_le
          omega

end Engine

end IdVeil
