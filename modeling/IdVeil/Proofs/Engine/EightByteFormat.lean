import IdVeil.Proofs.Engine.Formats

/-!
The format of eight-byte envelopes: a version byte, the reference if it is sent, and one block that
holds the reference and the value. An engine writes its values in this format, and a byte string is
opened exactly when it is the format of the value it is opened to. Since the reference stands in the
block too, an envelope is no longer opened once the reference that is sent was changed
(`eightByte_exact`).
-/
namespace IdVeil

namespace EightByte

/-- The reference and the value under the cipher. The cipher key is the front of the root. -/
def ciphertext (key : SecretKey) (r value : Bytes) : Bytes :=
  (Aes.encrypt (Aes.roundKeys ((Hkdf.extract UInt64 key.bytes).take 16))
    (.ofBytes (r ++ value))).toBytes

def format (randomized : Bool) (key : SecretKey) (r value : Bytes) : Bytes :=
  let block := ciphertext key r value
  Version.byte key.id 0 (block.headD 0) :: r.sent randomized ++ block

variable {randomized : Bool} {key : SecretKey} {r value : Bytes}

theorem body_sent (hr : r.IsEntropy randomized 8) :
    body (derive key) (r.sent randomized) value = ciphertext key r value := by
  have full : reference (r.sent randomized) = r := hr.padTo_sent
  rw [body, full]
  rfl

theorem envelope_eq_format (hr : r.IsEntropy randomized 8) :
    Engine.envelope ⟨.eightByte, randomized⟩ key (r.sent randomized) value =
      format randomized key r value := by
  change Version.encode key.id engineId ((body (derive key) (r.sent randomized) value).headD 0) ::
    r.sent randomized ++ body (derive key) (r.sent randomized) value = _
  rw [body_sent hr, Version.encode_eq_byte]
  rfl

theorem envelope_take (noise : Noise) :
    Engine.envelope ⟨.eightByte, randomized⟩ key
        (noise.take (Engine.entropyLength ⟨.eightByte, randomized⟩)) value =
      format randomized key (noise.draw randomized 8) value := by
  rw [← envelope_eq_format (noise.isEntropy_draw randomized 8), noise.sent_draw]
  rfl

/-- A block under one key holds one reference and one value. -/
theorem ciphertext_inj {r' value' : Bytes} (hr : r.length = 8) (hv : value.length = 8)
    (hr' : r'.length = 8) (hv' : value'.length = 8)
    (same : ciphertext key r value = ciphertext key r' value') : r = r' ∧ value = value' := by
  have plain {a b : Bytes} (ha : a.length = 8) (hb : b.length = 8) :
      (Block.ofBytes (a ++ b)).toBytes = a ++ b :=
    Block.toBytes_ofBytes (by rw [List.length_append, ha, hb]; rfl)
  have blocks := congrArg Block.ofBytes same
  rw [ciphertext, ciphertext, Block.ofBytes_toBytes, Block.ofBytes_toBytes] at blocks
  have plains := congrArg (Aes.decrypt (Aes.roundKeys ((Hkdf.extract UInt64 key.bytes).take 16))) blocks
  rw [Aes.decrypt_encrypt, Aes.decrypt_encrypt] at plains
  have whole := congrArg Block.toBytes plains
  rw [plain hr hv, plain hr' hv'] at whole
  exact List.append_inj whole (hr.trans hr'.symm)

/-- An envelope has one version byte, one reference and one block. -/
theorem format_eq_parts {version : UInt8} {sent block : Bytes} (length : block.length = 16)
    (h : version :: sent ++ block = format randomized key r value) :
    version = Version.byte key.id 0 (block.headD 0) ∧ sent = r.sent randomized ∧
      block = ciphertext key r value := by
  obtain ⟨head, tail⟩ := List.cons.inj h
  obtain ⟨front, back⟩ := List.append_inj' tail length
  subst back
  exact ⟨head, front, rfl⟩

end EightByte

namespace KeyedEngine

variable {randomized : Bool} {k : KeyedEngine} {s : Store}

theorem Reached.unmask_eightByte_iff (reached : Reached ⟨.eightByte, randomized⟩ k s)
    {env value : Bytes} : (k.unmask s env).result = .ok value ↔
      ∃ key r, (s.ring k.ring).find? key.id = some key ∧ r.IsEntropy randomized 8 ∧
        value.length = 8 ∧ env = EightByte.format randomized key r value := by
  rw [reached.unmask_eq_ok_iff]
  constructor
  · rintro ⟨key, entropy, held, he, hv, rfl⟩
    obtain ⟨r, hr, rfl⟩ := Bytes.exists_sent he
    exact ⟨key, r, held, hr, hv, EightByte.envelope_eq_format hr⟩
  · rintro ⟨key, r, held, hr, hv, rfl⟩
    exact ⟨key, _, held, hr.length_sent, hv, (EightByte.envelope_eq_format hr).symm⟩

/-- The same key is named whatever the reference is, and its block holds the old one. -/
theorem Reached.unmask_other_reference (reached : Reached ⟨.eightByte, true⟩ k s) {version : UInt8}
    {r r' block value : Bytes} (hr : r.length = 8) (hr' : r'.length = 8) (other : r' ≠ r)
    (opened : (k.unmask s (version :: r ++ block)).result = .ok value) :
    (k.unmask s (version :: r' ++ block)).result = .error (.authentication .mismatch) := by
  obtain ⟨key, r₀, held, hr₀, hv, same⟩ := reached.unmask_eightByte_iff.mp opened
  have whole := congrArg List.length same
  simp only [EightByte.format, List.cons_append, List.length_cons, List.length_append, hr,
    hr₀.length_sent] at whole
  have hb : block.length = 16 := Nat.add_left_cancel (Nat.succ.inj whole)
  obtain ⟨version_eq, rfl, block_eq⟩ := EightByte.format_eq_parts hb same
  have engine : Engine.namedEngine ⟨.eightByte, true⟩ (version :: r' ++ block) = 0 := by
    refine (Engine.namedEngine_veil (e := ⟨.eightByte, true⟩) hr' version block).trans ?_
    rw [version_eq, Version.engineId_byte]
  have named : Engine.namedKey ⟨.eightByte, true⟩ (version :: r' ++ block) = key.id := by
    refine (Engine.namedKey_veil (e := ⟨.eightByte, true⟩) hr' version block).trans ?_
    rw [version_eq, Version.keyId_byte]
  have length : (version :: r' ++ block).length = 25 := by simp [hr', hb]
  have answer := reached.unmask_eq (version :: r' ++ block)
  rw [named, held] at answer
  obtain ⟨foreign, _⟩ | ⟨_, missing, _⟩ | ⟨_, _, mismatch | ⟨value', reopened⟩⟩ :=
    Engine.answer_cases (e := ⟨.eightByte, true⟩) length (some key)
  · exact absurd engine foreign
  · contradiction
  · exact answer.trans mismatch
  · obtain ⟨key', r'', held', hr'', hv', same'⟩ :=
      reached.unmask_eightByte_iff.mp (answer.trans reopened)
    obtain ⟨version_eq', rfl, block_eq'⟩ := EightByte.format_eq_parts hb same'
    have ids : key'.id = key.id := by
      have seen := congrArg (Version.keyId · (block.headD 0)) (version_eq'.symm.trans version_eq)
      simpa using seen
    obtain rfl : key' = key := by
      rw [ids, held] at held'
      exact (Option.some.inj held').symm
    exact absurd (EightByte.ciphertext_inj hr' hv' hr hv (block_eq'.symm.trans block_eq)).1 other

/-- An eight-byte engine writes a value in its format under the active key, and opens exactly what
is written so under a key it holds, whatever was done with it before. An envelope that it opens is
rejected with any other reference. -/
theorem eightByte_exact (randomized : Bool) {k : KeyedEngine} {s : Store}
    (reached : Reached ⟨.eightByte, randomized⟩ k s) :
    (∀ key noise value, (s.ring k.ring).active? = some key → value.length = 8 →
      (k.mask s noise value).result =
        .ok (EightByte.format randomized key (noise.draw randomized 8) value)) ∧
    (∀ env value, (k.unmask s env).result = .ok value ↔
      ∃ key r, (s.ring k.ring).find? key.id = some key ∧ r.IsEntropy randomized 8 ∧
        value.length = 8 ∧ env = EightByte.format randomized key r value) ∧
    (randomized = true → ∀ version r r' block value, r.length = 8 → r'.length = 8 → r' ≠ r →
      (k.unmask s (version :: r ++ block)).result = .ok value →
      (k.unmask s (version :: r' ++ block)).result = .error (.authentication .mismatch)) := by
  refine ⟨?_, fun env value => reached.unmask_eightByte_iff, ?_⟩
  · intro key noise value active hv
    rw [reached.mask_of_active active noise hv, EightByte.envelope_take]
  · rintro rfl version r r' block value hr hr' other opened
    exact reached.unmask_other_reference hr hr' other opened

def sampleReferenceEngine : KeyedEngine := { engine := ⟨.eightByte, true⟩, ring := 1 }

/-- The envelope of zeros under the older key with the reference that is put into the block and the
one that is sent. -/
def sampleReferences (inside sent : UInt8) : Bytes :=
  let block := EightByte.ciphertext olderKey (List.replicate 8 inside) (Bytes.zeros 8)
  Version.byte 0 0 (block.headD 0) :: List.replicate 8 sent ++ block

theorem eightByte_exact_sample :
    Reached ⟨.eightByte, true⟩ sampleReferenceEngine sampleRings ∧
      (sampleReferenceEngine.mask sampleRings (fun _ => 7) (Bytes.zeros 8)).result =
        .ok (EightByte.format true newerKey (List.replicate 8 7) (Bytes.zeros 8)) ∧
      (sampleReferenceEngine.unmask sampleRings (sampleReferences 7 7)).result =
        .ok (Bytes.zeros 8) ∧
      (sampleReferenceEngine.unmask sampleRings (sampleReferences 7 9)).result =
        .error (.authentication .mismatch) := by
  have reached : Reached ⟨.eightByte, true⟩ sampleReferenceEngine sampleRings := .new 1 sampleRings
  obtain ⟨made, opens, changed⟩ := eightByte_exact true reached
  have drawn : Bytes.IsEntropy true 8 (List.replicate 8 7) := ⟨rfl, fun h => nomatch h⟩
  have opened := (opens (sampleReferences 7 7) (Bytes.zeros 8)).mpr
    ⟨olderKey, List.replicate 8 7, rfl, drawn, rfl, rfl⟩
  refine ⟨reached, made newerKey (fun _ => 7) (Bytes.zeros 8) rfl rfl, opened, ?_⟩
  exact changed rfl _ _ _ _ _ rfl rfl (by decide) opened

end KeyedEngine

end IdVeil
