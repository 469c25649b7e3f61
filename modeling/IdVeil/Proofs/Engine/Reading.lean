import IdVeil.Proofs.Engine.Envelopes

/-!
What an engine sees in an envelope: a version byte, the entropy and a body, and through them the id
of an engine and the id of a key. What it answers depends on the envelope and on one record, that
of the key id it sees (`unmask_eq_answer`), whatever was derived before. In an envelope that it
makes itself it sees its own id and the id of the key (`namedEngine_envelope`,
`namedKey_envelope`).
-/
namespace IdVeil.Engine

section

variable (e : Engine) (env : Bytes)

def versionIn : UInt8 := (e.veil env).headD 0

def entropyIn : Bytes := (e.veil env).tail.take e.entropyLength

def bodyIn : Bytes := (e.veil env).tail.drop e.entropyLength

/-- The key id that the envelope names. -/
def namedKey : Nibble := Version.keyId (e.versionIn env) ((e.bodyIn env).headD 0)

/-- The engine id that the envelope names. -/
def namedEngine : Nibble := Version.engineId (e.versionIn env) ((e.bodyIn env).headD 0)

/-- The value of the envelope under what was derived from a key. -/
def recoverIn (material : Bytes) : Except Error Bytes :=
  match e.scheme.recover material (e.namedKey env) (e.versionIn env) (e.entropyIn env)
      (e.bodyIn env) with
  | none => .error (.authentication .mismatch)
  | some value => .ok value

/-- The answer to the envelope when this is the record under the key id it names. -/
def answer (key? : Option SecretKey) : Except Error Bytes :=
  if env.length ≠ e.envelopeLength then .error (.inputLength e.envelopeLength env.length)
  else if e.namedEngine env ≠ e.engineId then .error (.authentication .unknownEngine)
  else match key? with
    | none => .error (.authentication .unknownKey)
    | some key => e.recoverIn env (e.scheme.derive key)

theorem unmask_eq {ring : KeyRing} {memo : Memo Bytes} : e.unmask ring memo env =
    if env.length ≠ e.envelopeLength then .fail (.inputLength e.envelopeLength env.length) memo
    else if e.namedEngine env ≠ e.engineId then .reject .unknownEngine memo
    else match memo.get e.scheme.derive ring (e.namedKey env) with
      | (none, memo) => .reject .unknownKey memo
      | (some material, memo) =>
        match e.scheme.recover material (e.namedKey env) (e.versionIn env) (e.entropyIn env)
            (e.bodyIn env) with
        | none => .reject .mismatch memo
        | some value => { result := .ok value, state := memo } := rfl

end

variable {e : Engine}

theorem versionIn_eq_getD (env : Bytes) : e.versionIn env = (e.veil env).getD 0 0 := by
  simp [versionIn, List.head?_eq_getElem?]

theorem headD_bodyIn (env : Bytes) :
    (e.bodyIn env).headD 0 = (e.veil env).getD (1 + e.entropyLength) 0 := by
  simp [bodyIn, Nat.add_comm]

/-- Nothing but the record under the named key id counts. -/
theorem unmask_eq_answer {ring : KeyRing} {memo : Memo Bytes}
    (sound : memo.Sound e.scheme.derive ring) (env : Bytes) :
    (e.unmask ring memo env).result = e.answer env (ring.find? (e.namedKey env)) := by
  have looked := sound.get_fst (e.namedKey env)
  unfold answer
  rw [unmask_eq]
  split
  · rfl
  · split
    · rfl
    · generalize memo.get e.scheme.derive ring (e.namedKey env) = found at looked
      obtain ⟨material, memo'⟩ := found
      cases looked
      cases ring.find? (e.namedKey env) with
      | none => rfl
      | some key =>
        simp only [recoverIn]
        cases e.scheme.recover (e.scheme.derive key) (e.namedKey env) (e.versionIn env)
            (e.entropyIn env) (e.bodyIn env) with
        | none => rfl
        | some value => rfl

theorem answer_of_length_ne {env : Bytes} (other : env.length ≠ e.envelopeLength)
    (key? : Option SecretKey) :
    e.answer env key? = .error (.inputLength e.envelopeLength env.length) := if_pos other

theorem recoverIn_cases (env material : Bytes) :
    e.recoverIn env material = .error (.authentication .mismatch) ∨
      ∃ value, e.recoverIn env material = .ok value := by
  unfold recoverIn
  split
  · exact .inl rfl
  · rename_i value _
    exact .inr ⟨value, rfl⟩

section

variable {env : Bytes} (length : env.length = e.envelopeLength) (key? : Option SecretKey)
include length

/-- The three steps that an envelope of the right length may fail at, in their order. -/
theorem answer_cases :
    e.namedEngine env ≠ e.engineId ∧
        e.answer env key? = .error (.authentication .unknownEngine) ∨
      e.namedEngine env = e.engineId ∧ key? = none ∧
        e.answer env key? = .error (.authentication .unknownKey) ∨
      e.namedEngine env = e.engineId ∧ key?.isSome ∧
        (e.answer env key? = .error (.authentication .mismatch) ∨
          ∃ value, e.answer env key? = .ok value) := by
  unfold answer
  rw [if_neg (not_not_intro length)]
  by_cases own : e.namedEngine env = e.engineId
  · rw [if_neg (not_not_intro own)]
    cases key? with
    | none => exact .inr (.inl ⟨own, rfl, rfl⟩)
    | some key => exact .inr (.inr ⟨own, rfl, recoverIn_cases env (e.scheme.derive key)⟩)
  · rw [if_pos own]
    exact .inl ⟨own, rfl⟩

theorem answer_eq_unknownEngine_iff :
    e.answer env key? = .error (.authentication .unknownEngine) ↔
      e.namedEngine env ≠ e.engineId := by
  obtain ⟨foreign, answer⟩ | ⟨own, _, answer⟩ | ⟨own, _, answer | ⟨value, answer⟩⟩ :=
    answer_cases length key?
  · simp [answer, foreign]
  · simp [answer, own]
  · simp [answer, own]
  · simp [answer, own]

theorem answer_eq_unknownKey_iff :
    e.answer env key? = .error (.authentication .unknownKey) ↔
      e.namedEngine env = e.engineId ∧ key? = none := by
  obtain ⟨foreign, answer⟩ | ⟨own, missing, answer⟩ | ⟨own, held, answer | ⟨value, answer⟩⟩ :=
    answer_cases length key?
  · simp [answer, foreign]
  · exact ⟨fun _ => ⟨own, missing⟩, fun _ => answer⟩
  · simp [answer, Option.ne_none_iff_isSome.mpr held]
  · simp [answer, Option.ne_none_iff_isSome.mpr held]

/-- No envelope of the right length is refused but by a rejection. -/
theorem answer_eq_ok_or_rejected :
    (∃ value, e.answer env key? = .ok value) ∨
      ∃ reason, e.answer env key? = .error (.authentication reason) := by
  obtain ⟨_, answer⟩ | ⟨_, _, answer⟩ | ⟨_, _, answer | ⟨value, answer⟩⟩ := answer_cases length key?
  · exact .inr ⟨_, answer⟩
  · exact .inr ⟨_, answer⟩
  · exact .inr ⟨_, answer⟩
  · exact .inl ⟨value, answer⟩

end

theorem versionIn_veil (version : UInt8) (rest : Bytes) :
    e.versionIn (e.veil (version :: rest)) = version := by
  rw [versionIn, veil_veil, List.headD_cons]

section

variable {key : SecretKey} {entropy value : Bytes} (he : entropy.length = e.entropyLength)
include he

theorem bodyIn_veil (version : UInt8) (body : Bytes) :
    e.bodyIn (e.veil (version :: entropy ++ body)) = body := by
  simp only [bodyIn, veil_veil, List.cons_append, List.tail_cons]
  rw [← he, List.drop_left]

theorem namedKey_veil (version : UInt8) (body : Bytes) :
    e.namedKey (e.veil (version :: entropy ++ body)) =
      Version.keyId version (body.headD 0) := by
  rw [namedKey, bodyIn_veil he, List.cons_append, versionIn_veil]

theorem namedEngine_veil (version : UInt8) (body : Bytes) :
    e.namedEngine (e.veil (version :: entropy ++ body)) =
      Version.engineId version (body.headD 0) := by
  rw [namedEngine, bodyIn_veil he, List.cons_append, versionIn_veil]

theorem versionIn_envelope : e.versionIn (e.envelope key entropy value) =
    Version.encode key.id e.engineId ((e.bodyIn (e.envelope key entropy value)).headD 0) := by
  rw [envelope, assemble, bodyIn_veil he, List.cons_append, versionIn_veil]

@[simp] theorem namedKey_envelope : e.namedKey (e.envelope key entropy value) = key.id := by
  simp only [namedKey, versionIn_envelope he, Version.keyId_encode]

@[simp] theorem namedEngine_envelope :
    e.namedEngine (e.envelope key entropy value) = e.engineId := by
  simp only [namedEngine, versionIn_envelope he, Version.engineId_encode]

end

end IdVeil.Engine
