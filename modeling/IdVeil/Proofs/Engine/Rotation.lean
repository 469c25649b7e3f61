import IdVeil.Proofs.Engine.Reading
import IdVeil.Proofs.Mask.Stored

/-!
Keys in rotation. At any time in the use of an engine its answer to an envelope depends on one
record, whatever other keys there are, which of them is active and what was done before
(`unmask_record`). So an envelope is opened with every ring that has the key it was made with, and
with no ring that has none under that id.
-/
namespace IdVeil

namespace KeyedEngine

/-- What becomes of a new engine, together with the store at that time. It is used, and its keys
or any others are cleared. -/
inductive Reached (e : Engine) : KeyedEngine → Store → Prop where
  | new (ring : RingId) (s : Store) : Reached e { engine := e, ring } s
  | mask {k : KeyedEngine} {s : Store} (noise : Noise) (value : Bytes) (before : Reached e k s) :
      Reached e (k.mask s noise value).state s
  | unmask {k : KeyedEngine} {s : Store} (env : Bytes) (before : Reached e k s) :
      Reached e (k.unmask s env).state s
  | clear {k : KeyedEngine} {s : Store} (before : Reached e k s) :
      Reached e (k.clear s).state.1 (k.clear s).state.2
  | clearRing {k : KeyedEngine} {s : Store} (id : RingId) (before : Reached e k s) :
      Reached e k (s.clearRing id).state

variable {e : Engine} {k : KeyedEngine} {s : Store}

/-- To clear an engine is to clear its memo together with the ring. -/
theorem clear_memo (k : KeyedEngine) (s : Store) :
    ((k.clear s).state.1.memo, (k.clear s).state.2.ring k.ring) = k.memo.clear (s.ring k.ring) := by
  simp [clear, Memo.clear, Store.ring_clearRing]

theorem Reached.engine_eq (reached : Reached e k s) : k.engine = e := by
  induction reached with
  | new => rfl
  | mask _ _ _ ih => exact ih
  | unmask _ _ ih => exact ih
  | clear _ ih => exact ih
  | clearRing _ _ ih => exact ih

theorem Reached.sound (reached : Reached e k s) :
    k.memo.Sound k.engine.scheme.derive (s.ring k.ring) := by
  induction reached with
  | new => exact Memo.sound_nil
  | mask noise value _ ih => exact Engine.mask_state ih noise value
  | unmask env _ ih => exact Engine.unmask_state ih env
  | clear => exact Memo.sound_nil
  | clearRing id _ ih => exact Store.sound_clearRing ih id

theorem Reached.unmask_eq (reached : Reached e k s) (env : Bytes) :
    (k.unmask s env).result = e.answer env ((s.ring k.ring).find? (e.namedKey env)) := by
  cases reached.engine_eq
  exact Engine.unmask_eq_answer reached.sound env

theorem Reached.unmask_eq_ok_iff (reached : Reached e k s) {env value : Bytes} :
    (k.unmask s env).result = .ok value ↔
      ∃ key entropy, (s.ring k.ring).find? key.id = some key ∧ entropy.length = e.entropyLength ∧
        value.length = e.valueLength ∧ env = e.envelope key entropy value := by
  cases reached.engine_eq
  exact Engine.unmask_eq_ok_iff reached.sound

theorem Reached.exists_of_mask (reached : Reached e k s) {noise : Noise} {value env : Bytes}
    (made : (k.mask s noise value).result = .ok env) :
    ∃ key, (s.ring k.ring).active? = some key ∧ value.length = e.valueLength ∧
      env = e.envelope key (noise.take e.entropyLength) value := by
  cases reached.engine_eq
  exact (Engine.mask_eq_ok_iff reached.sound).mp made

end KeyedEngine

theorem KeyRing.find?_eq_of_bytes {first second : KeyRing} {id : Nibble}
    (same : (first.find? id).map SecretKey.bytes = (second.find? id).map SecretKey.bytes) :
    first.find? id = second.find? id := by
  cases found : first.find? id with
  | none =>
    rw [found] at same
    exact (Option.map_eq_none_iff.mp same.symm).symm
  | some key =>
    rw [found] at same
    obtain ⟨other, found', bytes⟩ := Option.map_eq_some_iff.mp same.symm
    rw [found']
    have ids : key.id = other.id := (id_of_find? found).trans (id_of_find? found').symm
    obtain ⟨_, _⟩ := key
    obtain ⟨_, _⟩ := other
    cases ids
    cases bytes
    rfl

namespace KeyedEngine

/-- The answer to an envelope depends on the record under the key id that it names and on nothing
else that a ring has or had. What was made under an active key is opened wherever that key is held,
active or not, and its key is unknown wherever there is none of its id. -/
theorem unmask_record (e : Engine) :
    (∀ k s k' s' env, Reached e k s → Reached e k' s' →
      ((s.ring k.ring).find? (e.namedKey env)).map SecretKey.bytes =
        ((s'.ring k'.ring).find? (e.namedKey env)).map SecretKey.bytes →
      (k.unmask s env).result = (k'.unmask s' env).result) ∧
    ∀ k s noise value env, Reached e k s → (k.mask s noise value).result = .ok env →
      ∃ key, (s.ring k.ring).active? = some key ∧ ∀ k' s', Reached e k' s' →
        ((s'.ring k'.ring).find? key.id = some key → (k'.unmask s' env).result = .ok value) ∧
        ((s'.ring k'.ring).find? key.id = none →
          (k'.unmask s' env).result = .error (.authentication .unknownKey)) := by
  constructor
  · intro k s k' s' env reached reached' same
    rw [reached.unmask_eq, reached'.unmask_eq, KeyRing.find?_eq_of_bytes same]
  · intro k s noise value env reached made
    obtain ⟨key, active, length, rfl⟩ := reached.exists_of_mask made
    have he : (noise.take e.entropyLength).length = e.entropyLength := Noise.length_take _ _
    refine ⟨key, active, ?_⟩
    intro k' s' reached'
    constructor
    · intro held
      cases reached'.engine_eq
      exact Engine.unmask_envelope reached'.sound held he length
    · intro missing
      rw [reached'.unmask_eq, Engine.namedKey_envelope he, missing]
      simp [Engine.answer, Engine.namedEngine_envelope he, Engine.length_envelope he length]

def olderKey : SecretKey :=
  ⟨0, [0x00, 0x11, 0x22, 0x33, 0x44, 0x55, 0x66, 0x77,
    0x88, 0x99, 0xaa, 0xbb, 0xcc, 0xdd, 0xee, 0xff]⟩

def newerKey : SecretKey := ⟨1, [0xff, 0xee, 0xdd, 0xcc, 0xbb, 0xaa, 0x99, 0x88]⟩

/-- The older key has become a legacy key. -/
def rotated : KeyRing where
  activeId := 1
  keys := [newerKey, olderKey]
  distinct := by decide
  active_mem := by decide

def sampleRings : Store := { rings := [.single olderKey, rotated] }

def sampleEngine (ring : RingId) : KeyedEngine := { engine := ⟨.eightByte, false⟩, ring }

theorem unmask_record_sample :
    ∃ env, ((sampleEngine 0).mask sampleRings (fun _ => 0) (Bytes.zeros 8)).result = .ok env ∧
      ((sampleEngine 0).unmask sampleRings env).result =
        ((sampleEngine 1).unmask sampleRings env).result ∧
      ((sampleEngine 1).unmask sampleRings env).result = .ok (Bytes.zeros 8) ∧
      ((sampleEngine 0).unmask (sampleRings.clearRing 0).state env).result =
        .error (.authentication .unknownKey) := by
  have older : Reached ⟨.eightByte, false⟩ (sampleEngine 0) sampleRings := .new 0 sampleRings
  have newer : Reached ⟨.eightByte, false⟩ (sampleEngine 1) sampleRings := .new 1 sampleRings
  have made : ((sampleEngine 0).mask sampleRings (fun _ => 0) (Bytes.zeros 8)).result =
      .ok (Engine.envelope ⟨.eightByte, false⟩ olderKey [] (Bytes.zeros 8)) :=
    (Engine.mask_eq_ok_iff older.sound).mpr ⟨olderKey, rfl, rfl, rfl⟩
  obtain ⟨same, opened⟩ := unmask_record ⟨.eightByte, false⟩
  obtain ⟨key, active, answers⟩ := opened _ _ _ _ _ older made
  cases active
  refine ⟨_, made, same _ _ _ _ _ older newer ?_, (answers _ _ newer).1 rfl,
    (answers _ _ (older.clearRing 0)).2 rfl⟩
  rw [Engine.namedKey_envelope rfl]
  rfl

end KeyedEngine

end IdVeil
