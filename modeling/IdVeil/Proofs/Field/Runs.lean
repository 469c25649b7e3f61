import IdVeil.Proofs.Fleet.Transparency
import Mathlib.Data.List.DropRight

/-!
Fields while configurations come and go. The mask kept for fields is asked only as long as no
configuration was set since it was made, and then it is one for the configuration in force, with
right entries in its cache (`asks_currentMasker`). So a field is decoded as by a mask made from
scratch (`decodeField_result`), and what is encoded holds the text of some envelope
(`envelope_of_encodeField`).
-/
namespace IdVeil

namespace Masker

variable {layout : Layout}

/-- A mask by itself. -/
def alone (m : Masker layout) (s : Store) : Fleet fun _ : Unit => layout := ⟨s, fun _ => m⟩

theorem private_alone (m : Masker layout) (s : Store) : (m.alone s).Private := fun _ _ _ => rfl

theorem put_alone (m : Masker layout) (s : Store) (next : Masker layout × Store) :
    (m.alone s).put () next = next.1.alone next.2 := by
  refine congrArg (Fleet.mk next.2) ?_
  funext i
  exact Fleet.put_maskers_self (f := m.alone s) (i := i)

end Masker

inductive FieldCall where
  | setGlobal (config : Config)
  | clearRing (id : RingId)
  | encode (marker : String) (noise : Noise) (id : UInt64)
  | decode (marker text : String)

def FieldCall.isSet : FieldCall → Bool
  | setGlobal _ => true
  | _ => false

theorem FieldCall.isSet_iff {call : FieldCall} : call.isSet ↔ ∃ config, call = setGlobal config := by
  cases call <;> simp [isSet]

theorem FieldCall.countP_isSet_cons (call : FieldCall) (calls : List FieldCall) :
    (call :: calls).countP isSet = [call].countP isSet + calls.countP isSet := by
  rw [← List.singleton_append, List.countP_append]

namespace Store

/-- A mask for the configuration with no cache but its own, which is right about the ids that were
masked. -/
structure Serves (s : Store) (masked : Set Bytes) (config : Config) (m : Masker .uint64) :
    Prop where
  bare : m.bare = (Masker.ofKind .uint64 config).bare
  own : ∀ id, m.cache ≠ .shared id
  coherent : (m.alone s).Coherent fun _ => masked

/-- The mask kept for fields was made so many configurations ago, and serves the one in force if
it is still of use. -/
def FieldsKept (s : Store) (masked : Set Bytes) (sets : Nat) : Prop :=
  ∀ generation m, s.fieldMasker = some (generation, m) →
    ∃ age ≤ sets, s.generation = generation + UInt64.ofNat age ∧
      (age = 0 → ∃ config, s.global = some config ∧ s.Serves masked config m)

variable {s : Store} {masked : Set Bytes} {config : Config} {m : Masker .uint64} {sets : Nat}

theorem serves_ofKind (s : Store) (masked : Set Bytes) (config : Config) :
    s.Serves masked config (.ofKind .uint64 config) := by
  have unused : (Masker.ofKind .uint64 config).Unused := (Masker.Built.ofKind _ _).unused
  exact ⟨rfl, unused.not_shared, Fleet.coherent_of_unused fun _ => unused⟩

theorem Serves.idMask (serves : s.Serves masked config m) :
    m.idMask = MaskKind.uint64.mask config := congrArg Masker.idMask serves.bare

theorem Serves.engineRing (serves : s.Serves masked config m) : m.engineRing = config.ring :=
  congrArg Masker.engineRing serves.bare

theorem Serves.ring (serves : s.Serves masked config m) : m.ring = config.ring :=
  congrArg Masker.ring serves.bare

theorem Serves.run {α : Type}
    {f : {γ : Type} → [ResultCache γ] → MaskState γ → Outcome (MaskState γ) α}
    (serves : s.Serves masked config m)
    (coherent : ((m.alone s).put () (m.run s f).state).Coherent fun _ => masked) :
    (m.run s f).state.2 = s ∧ s.Serves masked config (m.run s f).state.1 := by
  have frame := Masker.run_frame m s f
  have store := Masker.run_store serves.own s f
  refine ⟨store, frame.bare.trans serves.bare, ?_, ?_⟩
  · intro id shared
    obtain ⟨_, slot, _⟩ := (frame.meets (.shared id)).mp ⟨id, shared, rfl⟩
    exact serves.own _ slot
  · rw [Masker.put_alone, store] at coherent
    exact coherent

theorem Serves.mask (serves : s.Serves masked config m) (noise : Noise) {id : UInt64}
    (known : ∀ bytes, Layout.uint64.toBytes id = .ok bytes → bytes ∈ masked) :
    (m.mask s noise id).state.2 = s ∧ s.Serves masked config (m.mask s noise id).state.1 :=
  serves.run (Fleet.mask_coherent serves.coherent known)

theorem Serves.unmask (serves : s.Serves masked config m) (token : String) :
    (m.unmask s token).state.2 = s ∧ s.Serves masked config (m.unmask s token).state.1 :=
  serves.run (Fleet.unmask_coherent serves.coherent () token)

theorem Serves.clearRing (serves : s.Serves masked config m) (id : RingId) :
    (s.clearRing id).state.Serves masked config m := by
  refine ⟨serves.bare, serves.own, ?_⟩
  apply Fleet.clearRing_coherent serves.coherent (m.private_alone s)
  intro _
  exact serves.engineRing.trans serves.ring.symm

def freshMasker (s : Store) : Except Error (Masker .uint64) :=
  match s.global with
  | none => .error (.config .missingGlobalConfig)
  | some config => .ok (.ofKind .uint64 config)

theorem currentMasker_eq (s : Store) : s.currentMasker =
    match s.fieldMasker with
    | none => s.freshMasker
    | some (generation, m) => if generation = s.generation then .ok m else s.freshMasker := rfl

theorem fieldsKept_of_none (none : s.fieldMasker = none) : s.FieldsKept masked sets := by
  intro generation m kept
  rw [none] at kept
  contradiction

/-- What fields are masked with: nothing, or a mask that serves. -/
structure Asks (s : Store) (masked : Set Bytes) (asked : Except Error (Masker .uint64)) : Prop where
  unset : s.global = none → asked = .error (.config .missingGlobalConfig)
  set : ∀ config, s.global = some config → ∃ m, asked = .ok m ∧ s.Serves masked config m

theorem asks_freshMasker (s : Store) (masked : Set Bytes) : s.Asks masked s.freshMasker := by
  constructor
  · intro unset
    rw [freshMasker, unset]
  · intro config set
    rw [freshMasker, set]
    exact ⟨_, rfl, s.serves_ofKind masked config⟩

/-- Generations come round only after as many sets as there are of them. -/
theorem age_eq_zero {generation : UInt64} {age : Nat} (young : age < 2 ^ 64)
    (same : generation = generation + UInt64.ofNat age) : age = 0 := by
  have zero := congrArg UInt64.toNat (left_eq_add.mp same)
  rw [UInt64.toNat_ofNat', Nat.mod_eq_of_lt young] at zero
  exact zero

theorem generation_setGlobal {generation : UInt64} {age : Nat}
    (later : s.generation = generation + UInt64.ofNat age) (config : Config) :
    (s.setGlobal config).generation = generation + UInt64.ofNat (age + 1) := by
  rw [setGlobal, later, UInt64.ofNat_add, UInt64.add_assoc]
  rfl

/-- With fewer sets than generations there are, a mask of the present generation is not an old
one. -/
theorem asks_currentMasker (few : sets < 2 ^ 64) (kept : s.FieldsKept masked sets) :
    s.Asks masked s.currentMasker := by
  rw [currentMasker_eq]
  cases last : s.fieldMasker with
  | none => exact s.asks_freshMasker masked
  | some pair =>
    obtain ⟨generation, m⟩ := pair
    simp only
    split
    · rename_i same
      obtain ⟨age, young, later, serves⟩ := kept generation m last
      have now : age = 0 := age_eq_zero (Nat.lt_of_le_of_lt young few) (same.trans later)
      obtain ⟨config, force, serves⟩ := serves now
      constructor
      · intro unset
        rw [force] at unset
        contradiction
      · intro config' force'
        cases force.symm.trans force'
        exact ⟨m, rfl, serves⟩
    · exact s.asks_freshMasker masked

theorem runField_kept {α : Type} {f : Masker .uint64 → Outcome (Masker .uint64 × Store) α}
    (few : sets < 2 ^ 64) (kept : s.FieldsKept masked sets)
    (stays : ∀ config m, s.Serves masked config m →
      (f m).state.2 = s ∧ s.Serves masked config (f m).state.1) :
    (s.runField f).state.FieldsKept masked sets := by
  have asks := asks_currentMasker few kept
  rw [runField]
  cases force : s.global with
  | none =>
    rw [asks.unset force]
    exact kept
  | some config =>
    obtain ⟨m, asked, serves⟩ := asks.set config force
    obtain ⟨store, serves⟩ := stays config m serves
    rw [asked]
    rintro generation m' ⟨⟩
    simp only [store]
    refine ⟨0, Nat.zero_le _, by simp, fun _ => ⟨config, force, serves.bare, serves.own, ?_⟩⟩
    exact ⟨serves.coherent.memo, serves.coherent.cache⟩

theorem encodeField_kept {marker : String} (few : sets < 2 ^ 64) (kept : s.FieldsKept masked sets)
    (noise : Noise) {f : Field marker}
    (known : ∀ bytes, Layout.uint64.toBytes f.id = .ok bytes → bytes ∈ masked) :
    (s.encodeField noise f).state.FieldsKept masked sets :=
  runField_kept few kept fun _ _ serves => serves.mask noise known

theorem decodeField_kept (few : sets < 2 ^ 64) (kept : s.FieldsKept masked sets)
    (marker text : String) : (s.decodeField marker text).state.FieldsKept masked sets := by
  rw [decodeField]
  cases Field.tokenOf marker text with
  | error e => exact kept
  | ok token => exact runField_kept few kept fun _ _ serves => serves.unmask token

/-- From here on the mask that was kept is of no use, whatever was masked with it. -/
theorem setGlobal_kept (kept : s.FieldsKept masked sets) (config : Config) (masked' : Set Bytes) :
    (s.setGlobal config).FieldsKept masked' (sets + 1) := by
  intro generation m last
  obtain ⟨age, young, later, _⟩ := kept generation m last
  exact ⟨age + 1, Nat.succ_le_succ young, generation_setGlobal later config,
    fun none => absurd none (Nat.succ_ne_zero age)⟩

theorem clearRing_kept (kept : s.FieldsKept masked sets) (id : RingId) :
    (s.clearRing id).state.FieldsKept masked sets := by
  intro generation m last
  obtain ⟨age, young, later, serves⟩ := kept generation m last
  refine ⟨age, young, later, ?_⟩
  intro now
  obtain ⟨config, force, serves⟩ := serves now
  exact ⟨config, force, serves.clearRing id⟩

def fieldCall (s : Store) : FieldCall → Store
  | .setGlobal config => s.setGlobal config
  | .clearRing id => (s.clearRing id).state
  | .encode marker noise id => (s.encodeField noise (⟨id⟩ : Field marker)).state
  | .decode marker text => (s.decodeField marker text).state

def afterFields (s : Store) : List FieldCall → Store
  | [] => s
  | call :: calls => (s.fieldCall call).afterFields calls

/-- The bytes of the ids that some calls encode. -/
def encodedBy (calls : List FieldCall) : Set Bytes :=
  { bytes | ∃ marker noise id, .encode marker noise id ∈ calls ∧
    Layout.uint64.toBytes id = .ok bytes }

/-- The calls since a configuration was set last. -/
def sinceSet (calls : List FieldCall) : List FieldCall := calls.rtakeWhile fun call => !call.isSet

theorem exists_of_sinceSet (calls : List FieldCall) : sinceSet calls = calls ∨
    ∃ earlier config, calls = earlier ++ .setGlobal config :: sinceSet calls := by
  induction calls using List.reverseRecOn with
  | nil => exact .inl rfl
  | append_singleton calls call ih =>
    by_cases set : call.isSet
    · obtain ⟨config, rfl⟩ := FieldCall.isSet_iff.mp set
      rw [sinceSet, List.rtakeWhile_concat_neg _ _ _ (by simp [FieldCall.isSet])]
      exact .inr ⟨calls, config, rfl⟩
    · have longer : sinceSet (calls ++ [call]) = sinceSet calls ++ [call] :=
        List.rtakeWhile_concat_pos _ _ _ (by simpa using set)
      rw [longer]
      rcases ih with all | ⟨earlier, config, split⟩
      · exact .inl (congrArg (· ++ [call]) all)
      · refine .inr ⟨earlier, config, ?_⟩
        rw [← List.cons_append, ← List.append_assoc, ← split]

/-- States that fields come to from one where no mask was kept for them. -/
def FieldsReach (s : Store) : Prop :=
  ∃ (start : Store) (calls : List FieldCall), start.fieldMasker = none ∧
    calls.countP FieldCall.isSet < 2 ^ 64 ∧ s = start.afterFields calls

theorem fieldCall_kept (kept : s.FieldsKept masked sets) (call : FieldCall)
    (few : sets < 2 ^ 64) (known : encodedBy [call] ⊆ masked) :
    (s.fieldCall call).FieldsKept masked (sets + [call].countP FieldCall.isSet) := by
  cases call with
  | setGlobal config => exact setGlobal_kept kept config masked
  | clearRing id => exact clearRing_kept kept id
  | encode marker noise id =>
    apply encodeField_kept few kept
    intro bytes written
    exact known ⟨marker, noise, id, List.mem_singleton_self _, written⟩
  | decode marker text => exact decodeField_kept few kept marker text

theorem afterFields_kept {calls : List FieldCall} (kept : s.FieldsKept masked sets)
    (few : sets + calls.countP FieldCall.isSet < 2 ^ 64) (known : encodedBy calls ⊆ masked) :
    (s.afterFields calls).FieldsKept masked (sets + calls.countP FieldCall.isSet) := by
  induction calls generalizing s sets with
  | nil => exact kept
  | cons call calls ih =>
    rw [FieldCall.countP_isSet_cons, ← Nat.add_assoc] at few ⊢
    apply ih _ few
    · rintro bytes ⟨marker, noise, id, member, written⟩
      exact known ⟨marker, noise, id, List.mem_cons_of_mem call member, written⟩
    · apply fieldCall_kept kept call (by omega)
      rintro bytes ⟨marker, noise, id, member, written⟩
      refine known ⟨marker, noise, id, ?_, written⟩
      exact List.mem_cons.mpr (.inl (List.mem_singleton.mp member))

theorem afterFields_append (s : Store) (calls later : List FieldCall) :
    s.afterFields (calls ++ later) = (s.afterFields calls).afterFields later := by
  induction calls generalizing s with
  | nil => rfl
  | cons call calls ih => exact ih (s.fieldCall call)

/-- Only what was encoded since a configuration was set counts. -/
theorem afterFields_kept_since (unkept : s.fieldMasker = none) (calls : List FieldCall)
    (few : calls.countP FieldCall.isSet < 2 ^ 64) :
    (s.afterFields calls).FieldsKept (encodedBy (sinceSet calls)) (calls.countP FieldCall.isSet) := by
  have new (masked : Set Bytes) : s.FieldsKept masked 0 := fieldsKept_of_none unkept
  rcases exists_of_sinceSet calls with all | ⟨earlier, config, split⟩
  · rw [all]
    have kept := afterFields_kept (new _) (by omega) (Set.Subset.refl (encodedBy calls))
    rwa [Nat.zero_add] at kept
  · generalize sinceSet calls = since at split
    subst split
    have count : (earlier ++ .setGlobal config :: since).countP FieldCall.isSet =
        0 + earlier.countP FieldCall.isSet + 1 + since.countP FieldCall.isSet := by
      rw [List.countP_append, FieldCall.countP_isSet_cons, Nat.zero_add, Nat.add_assoc]
      rfl
    rw [count] at few ⊢
    have before := afterFields_kept (new _) (by omega) (Set.subset_univ (encodedBy earlier))
    rw [afterFields_append]
    exact afterFields_kept (setGlobal_kept before config _) few (Set.Subset.refl _)

theorem FieldsReach.kept (reached : s.FieldsReach) :
    ∃ sets < 2 ^ 64, s.FieldsKept Set.univ sets := by
  obtain ⟨start, calls, none, few, rfl⟩ := reached
  have new : start.FieldsKept Set.univ 0 := fieldsKept_of_none none
  have kept := afterFields_kept new (by omega) (Set.subset_univ (encodedBy calls))
  exact ⟨_, by omega, kept⟩

/-- What decoding answers when no mask is kept. -/
def freshDecode (s : Store) (marker text : String) : Except Error (Field marker) :=
  (Field.tokenOf marker text).bind fun token =>
    match s.global with
    | none => .error (.config .missingGlobalConfig)
    | some config =>
      ((MaskKind.uint64.mask config).freshUnmask (s.ring config.ring) token).map
        fun (id : UInt64) => ⟨id⟩

theorem decodeField_result (few : sets < 2 ^ 64) (kept : s.FieldsKept masked sets)
    (marker text : String) : (s.decodeField marker text).result = s.freshDecode marker text := by
  have asks := asks_currentMasker few kept
  rw [decodeField, freshDecode]
  cases Field.tokenOf marker text with
  | error e => rfl
  | ok token =>
    simp only [Except.bind, runField]
    cases force : s.global with
    | none => rw [asks.unset force]; rfl
    | some config =>
      obtain ⟨m, asked, serves⟩ := asks.set config force
      have answer := Fleet.unmask_answer serves.coherent (m.private_alone s).vouching () token
      have same : (m.unmask s token).result =
          (MaskKind.uint64.mask config).freshUnmask (s.ring config.ring) token := by
        rw [← serves.idMask, ← serves.engineRing]
        exact answer
      rw [asked]
      exact congrArg (Except.map _) same

theorem envelope_of_encodeField {marker : String} (few : sets < 2 ^ 64)
    (kept : s.FieldsKept masked sets) (force : s.global = some config) {noise : Noise}
    {f : Field marker} {text : String} (made : (s.encodeField noise f).result = .ok text) :
    ∃ envelope, envelope.length = config.eightByte.envelopeLength ∧
      text = Field.label marker ++ config.codec.encode envelope := by
  obtain ⟨m, asked, serves⟩ := (asks_currentMasker few kept).set config force
  rw [encodeField, runField, asked] at made
  simp only at made
  cases token : (m.mask s noise f.id).result with
  | error e =>
    rw [token] at made
    contradiction
  | ok token' =>
    rw [token] at made
    cases made
    obtain ⟨_, _, bytes, fresh⟩ := Fleet.exists_of_mask serves.coherent (i := ()) token
    obtain ⟨key, _, length, rfl⟩ := IdMask.freshToken_eq_ok_iff.mp fresh
    have whole : (Engine.envelope _ key _ bytes).length = _ :=
      Engine.length_envelope (Noise.length_take noise _) length
    have idMask : ((m.alone s).maskers ()).idMask = MaskKind.uint64.mask config := serves.idMask
    rw [idMask] at whole ⊢
    exact ⟨_, whole, rfl⟩

end Store

end IdVeil
