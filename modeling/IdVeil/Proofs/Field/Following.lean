import IdVeil.Proofs.Field.Labels
import IdVeil.Proofs.Mask.Untouched

/-!
Fields follow the configuration that was set last. What counts in a store for fields is the rings,
the configuration and what the mask kept for fields has in its cache, if it is still of use
(`Alike`): stores that are alike answer alike for good (`fieldAnswers_congr`), and a call that fails
leaves a store like the one before (`alike_of_failed`).
-/
namespace IdVeil

namespace Masker

variable {layout : Layout} {m : Masker layout}

theorem mask_of_bare (new : m.bare = m) (s : Store) (noise : Noise) (id : layout.Id) :
    (m.mask s noise id).result = m.idMask.freshMask (s.ring m.engineRing) noise id := by
  have state : m.stateIn s = ⟨[], none⟩ := by rw [← new]; rfl
  have sound : m.idMask.SoundMemo (s.ring m.engineRing) [] := Memo.sound_nil
  rw [mask_result, state]
  refine IdMask.mask_result sound ?_
  intro _ cache _ _ held
  cases held

theorem unmask_of_bare (new : m.bare = m) (s : Store) (token : String) :
    (m.unmask s token).result = m.idMask.freshUnmask (s.ring m.engineRing) token := by
  have state : m.stateIn s = ⟨[], none⟩ := by rw [← new]; rfl
  have sound : m.idMask.SoundMemo (s.ring m.engineRing) [] := Memo.sound_nil
  rw [unmask_result, state]
  refine IdMask.unmask_result sound ?_
  intro _ cache _ held
  cases held

end Masker

inductive FieldAnswer where
  | done
  | text (result : Except Error String)
  | field (marker : String) (result : Except Error (Field marker))

/-- Only an encoding or a decoding can fail. -/
def FieldAnswer.Failed : FieldAnswer → Prop
  | text (.error _) => True
  | field _ (.error _) => True
  | _ => False

/-- The configuration set last, after one more call. -/
def FieldCall.setBy (last : Option Config) : FieldCall → Option Config
  | setGlobal config => some config
  | _ => last

namespace Store

def fieldAnswer (s : Store) : FieldCall → FieldAnswer
  | .encode marker noise id => .text (s.encodeField noise (⟨id⟩ : Field marker)).result
  | .decode marker text => .field marker (s.decodeField marker text).result
  | _ => .done

def fieldAnswers (s : Store) : List FieldCall → List FieldAnswer
  | [] => []
  | call :: calls => s.fieldAnswer call :: (s.fieldCall call).fieldAnswers calls

/-- The configuration that was set last, if any was. -/
def lastSet (calls : List FieldCall) : Option Config := calls.foldl FieldCall.setBy none

/-- What a mask made on the spot makes of an id, under the label. -/
def encodeBy (s : Store) (config : Config) (marker : String) (noise : Noise) (id : UInt64) :
    Except Error String :=
  ((Masker.ofKind .uint64 config.noCache).mask s noise id).result.map (Field.label marker ++ ·)

/-- What a mask made on the spot reads in a token. -/
def decodeBy (s : Store) (config : Config) (marker token : String) : Except Error (Field marker) :=
  ((Masker.ofKind .uint64 config.noCache).unmask s token).result.map fun (id : UInt64) => ⟨id⟩

/-- What fields have in a cache now, if the mask kept for them is still of use. -/
def fieldCache (s : Store) : Option MemoryCache :=
  match s.currentMasker with
  | .ok m => m.cacheIn s
  | .error _ => none

structure Alike (s t : Store) : Prop where
  rings : s.rings = t.rings
  global : s.global = t.global
  cache : s.fieldCache = t.fieldCache

variable {s t : Store} {masked : Set Bytes} {config : Config} {sets : Nat} {marker : String}

theorem fieldCache_of_asked {m : Masker .uint64} (asked : s.currentMasker = .ok m) :
    s.fieldCache = m.cacheIn s := by rw [fieldCache, asked]

/-- What masking is with the cache of fields and nothing derived before. -/
def maskNow (s : Store) (config : Config) (noise : Noise) (id : UInt64) :
    Outcome (MaskState MemoryCache) String :=
  (MaskKind.uint64.mask config).mask (s.ring config.ring) (s.ring config.ring) ⟨[], s.fieldCache⟩
    noise id

def unmaskNow (s : Store) (config : Config) (token : String) :
    Outcome (MaskState MemoryCache) UInt64 :=
  (MaskKind.uint64.mask config).unmask (s.ring config.ring) (s.ring config.ring) ⟨[], s.fieldCache⟩
    token

/-- An operation on fields gives what one on a mask gives, and of all that counts it changes no
more than the cache. -/
structure Does {α : Type} (s : Store) (done : Outcome (MaskState MemoryCache) α)
    (after : Outcome Store α) : Prop where
  result : after.result = done.result
  cache : after.state.fieldCache = done.state.cache
  rings : after.state.rings = s.rings
  global : after.state.global = s.global

theorem runField_does {α : Type} {done : Outcome (MaskState MemoryCache) α}
    {op : Masker .uint64 → Outcome (Masker .uint64 × Store) α} {m : Masker .uint64}
    (asked : s.currentMasker = .ok m) (store : (op m).state.2 = s)
    (result : (op m).result = done.result) (cache : (op m).state.1.cacheIn s = done.state.cache) :
    s.Does done (s.runField op) := by
  rw [runField, asked]
  simp only [store]
  refine ⟨result, ?_, rfl, rfl⟩
  have current : { s with fieldMasker := some (s.generation, (op m).state.1) }.currentMasker =
      .ok (op m).state.1 := if_pos rfl
  exact (fieldCache_of_asked current).trans cache

/-- What such an operation gives under each configuration. Without one it fails. -/
structure Runs {α : Type} (s : Store) (done : Config → Outcome (MaskState MemoryCache) α)
    (after : Outcome Store α) : Prop where
  unset : s.global = none → after = .fail (.config .missingGlobalConfig) s
  set : ∀ config, s.global = some config → s.Does (done config) after

section

variable (few : sets < 2 ^ 64) (kept : s.FieldsKept masked sets)
include few kept

theorem runField_unset {α : Type} (unset : s.global = none)
    (op : Masker .uint64 → Outcome (Masker .uint64 × Store) α) :
    s.runField op = .fail (.config .missingGlobalConfig) s := by
  rw [runField, (asks_currentMasker few kept).unset unset]

theorem mask_runs (noise : Noise) (id : UInt64) :
    s.Runs (s.maskNow · noise id) (s.runField fun m => m.mask s noise id) := by
  refine ⟨fun unset => runField_unset few kept unset _, ?_⟩
  intro config force
  obtain ⟨m, asked, serves⟩ := (asks_currentMasker few kept).set config force
  have sound : m.idMask.SoundMemo (s.ring m.engineRing) (m.stateIn s).memo :=
    serves.coherent.memo ()
  have store : (m.mask s noise id).state.2 = s := Masker.run_store serves.own s _
  have now : s.maskNow config noise id = m.idMask.mask (s.ring m.engineRing) (s.ring m.ring)
      ⟨[], m.cacheIn s⟩ noise id := by
    rw [maskNow, fieldCache_of_asked asked, serves.idMask, serves.engineRing, serves.ring]
    rfl
  obtain ⟨result, cache⟩ := IdMask.mask_forget sound (s.ring m.ring) noise id
  rw [now]
  refine runField_does asked store ((m.mask_result s noise id).trans result) ?_
  have left := m.mask_cacheIn s noise id
  rw [store] at left
  exact left.trans cache

theorem unmask_runs (token : String) :
    s.Runs (s.unmaskNow · token) (s.runField fun m => m.unmask s token) := by
  refine ⟨fun unset => runField_unset few kept unset _, ?_⟩
  intro config force
  obtain ⟨m, asked, serves⟩ := (asks_currentMasker few kept).set config force
  have sound : m.idMask.SoundMemo (s.ring m.engineRing) (m.stateIn s).memo :=
    serves.coherent.memo ()
  have store : (m.unmask s token).state.2 = s := (serves.unmask token).1
  have now : s.unmaskNow config token = m.idMask.unmask (s.ring m.engineRing) (s.ring m.ring)
      ⟨[], m.cacheIn s⟩ token := by
    rw [unmaskNow, fieldCache_of_asked asked, serves.idMask, serves.engineRing, serves.ring]
    rfl
  obtain ⟨result, cache⟩ := IdMask.unmask_forget sound (s.ring m.ring) token
  rw [now]
  refine runField_does asked store ((m.unmask_result s token).trans result) ?_
  have left := m.unmask_cacheIn s token
  rw [store] at left
  exact left.trans cache

end

theorem Alike.refl (s : Store) : s.Alike s := ⟨rfl, rfl, rfl⟩

theorem Alike.ring (alike : s.Alike t) (id : RingId) : s.ring id = t.ring id :=
  congrArg (fun rings : List KeyRing => rings.getD id .empty) alike.rings

theorem Alike.maskNow (alike : s.Alike t) (config : Config) (noise : Noise) (id : UInt64) :
    s.maskNow config noise id = t.maskNow config noise id := by
  rw [Store.maskNow, Store.maskNow, alike.ring, alike.cache]

theorem Alike.unmaskNow (alike : s.Alike t) (config : Config) (token : String) :
    s.unmaskNow config token = t.unmaskNow config token := by
  rw [Store.unmaskNow, Store.unmaskNow, alike.ring, alike.cache]

/-- A mask kept from before a configuration was set is of no use any more. -/
theorem currentMasker_setGlobal (few : sets + 1 < 2 ^ 64) (kept : s.FieldsKept masked sets)
    (config : Config) : (s.setGlobal config).currentMasker = .ok (.ofKind .uint64 config) := by
  rw [currentMasker_eq]
  cases last : (s.setGlobal config).fieldMasker with
  | none => rfl
  | some pair =>
    obtain ⟨generation, m⟩ := pair
    obtain ⟨age, young, later, _⟩ := kept generation m last
    have old : generation ≠ (s.setGlobal config).generation := by
      intro same
      have now := age_eq_zero (by omega) (same.trans (generation_setGlobal later config))
      exact absurd now (Nat.succ_ne_zero age)
    exact if_neg old

theorem cacheIn_ofKind (s : Store) (config : Config) :
    (Masker.ofKind .uint64 config).cacheIn s = config.cacheSize.map .empty := by
  unfold Masker.cacheIn Masker.ofKind
  cases config.cacheSize with
  | none => rfl
  | some capacity => rfl

theorem fieldCache_setGlobal (few : sets + 1 < 2 ^ 64) (kept : s.FieldsKept masked sets)
    (config : Config) : (s.setGlobal config).fieldCache = config.cacheSize.map .empty :=
  (fieldCache_of_asked (currentMasker_setGlobal few kept config)).trans (cacheIn_ofKind _ config)

section

variable {α : Type} {done : Config → Outcome (MaskState MemoryCache) α} {after : Outcome Store α}

theorem Runs.congr {after' : Outcome Store α} (runs : s.Runs done after)
    (runs' : t.Runs done after') (alike : s.Alike t) :
    after.result = after'.result ∧ after.state.Alike after'.state := by
  cases force : s.global with
  | none =>
    rw [runs.unset force, runs'.unset (alike.global ▸ force)]
    exact ⟨rfl, alike⟩
  | some config =>
    have first := runs.set config force
    have second := runs'.set config (alike.global ▸ force)
    refine ⟨first.result.trans second.result.symm, ?_, ?_, first.cache.trans second.cache.symm⟩
    · rw [first.rings, second.rings, alike.rings]
    · rw [first.global, second.global, alike.global]

theorem Runs.global (runs : s.Runs done after) : after.state.global = s.global := by
  cases force : s.global with
  | none =>
    rw [runs.unset force]
    exact force
  | some config => exact (runs.set config force).global.trans force

/-- An operation makes no cache where there is none. -/
theorem Runs.cache_eq_none (runs : s.Runs done after)
    (isSome : ∀ config, (done config).state.cache.isSome = s.fieldCache.isSome)
    (none : s.fieldCache = none) : after.state.fieldCache = .none := by
  cases force : s.global with
  | none =>
    rw [runs.unset force]
    exact none
  | some config =>
    rw [(runs.set config force).cache]
    have same := isSome config
    rw [none] at same
    exact Option.not_isSome_iff_eq_none.mp (Bool.not_eq_true _ ▸ same)

theorem Runs.alike_of_error {e : Error} (runs : s.Runs done after)
    (leaves : ∀ config, s.global = some config → (done config).result = .error e →
      (done config).state.cache = s.fieldCache)
    (failed : after.result = .error e) : after.state.Alike s := by
  cases force : s.global with
  | none =>
    rw [runs.unset force]
    exact Alike.refl s
  | some config =>
    have does := runs.set config force
    have left := leaves config force (does.result.symm.trans failed)
    exact ⟨does.rings, does.global, does.cache.trans left⟩

end

theorem fieldCall_congr {masked' : Set Bytes} (kept : s.FieldsKept masked sets)
    (kept' : t.FieldsKept masked' sets) (call : FieldCall)
    (few : sets + [call].countP FieldCall.isSet < 2 ^ 64) (alike : s.Alike t) :
    s.fieldAnswer call = t.fieldAnswer call ∧ (s.fieldCall call).Alike (t.fieldCall call) := by
  cases call with
  | setGlobal config =>
    refine ⟨rfl, alike.rings, rfl, ?_⟩
    exact (fieldCache_setGlobal few kept config).trans (fieldCache_setGlobal few kept' config).symm
  | clearRing id =>
    have rings : s.rings.modify id KeyRing.clear = t.rings.modify id KeyRing.clear := by
      rw [alike.rings]
    exact ⟨rfl, rings, alike.global, alike.cache⟩
  | encode marker noise id =>
    have few : sets < 2 ^ 64 := few
    have same : (s.maskNow · noise id) = (t.maskNow · noise id) :=
      funext fun config => alike.maskNow config noise id
    obtain ⟨result, state⟩ := (mask_runs few kept noise id).congr
      (same ▸ mask_runs few kept' noise id) alike
    refine ⟨congrArg FieldAnswer.text ?_, state⟩
    exact congrArg (Except.map (Field.label marker ++ ·)) result
  | decode marker text =>
    have few : sets < 2 ^ 64 := few
    rw [fieldAnswer, fieldAnswer, fieldCall, fieldCall, decodeField, decodeField]
    cases Field.tokenOf marker text with
    | error e => exact ⟨rfl, alike⟩
    | ok token =>
      have same : (s.unmaskNow · token) = (t.unmaskNow · token) :=
        funext fun config => alike.unmaskNow config token
      obtain ⟨result, state⟩ := (unmask_runs few kept token).congr
        (same ▸ unmask_runs few kept' token) alike
      refine ⟨congrArg (FieldAnswer.field marker) ?_, state⟩
      exact congrArg (Except.map fun (id : UInt64) => (⟨id⟩ : Field marker)) result

/-- Stores that are alike answer all calls alike. -/
theorem fieldAnswers_congr {calls : List FieldCall} (kept : s.FieldsKept Set.univ sets)
    (kept' : t.FieldsKept Set.univ sets) (few : sets + calls.countP FieldCall.isSet < 2 ^ 64)
    (alike : s.Alike t) : s.fieldAnswers calls = t.fieldAnswers calls := by
  induction calls generalizing s t sets with
  | nil => rfl
  | cons call calls ih =>
    rw [FieldCall.countP_isSet_cons, ← Nat.add_assoc] at few
    obtain ⟨answer, next⟩ := fieldCall_congr kept kept' call (by omega) alike
    have rest := ih (fieldCall_kept kept call (by omega) (Set.subset_univ _))
      (fieldCall_kept kept' call (by omega) (Set.subset_univ _)) few next
    rw [fieldAnswers, fieldAnswers, answer, rest]

/-- What is found in the cache of fields is an id, since the mask in force read it there. -/
theorem exists_of_findId (few : sets < 2 ^ 64) (kept : s.FieldsKept masked sets)
    (force : s.global = some config)
    (live : (MaskKind.uint64.mask config).Live (s.ring config.ring)) {cache : MemoryCache}
    (held : s.fieldCache = some cache) {token : String} {bytes : Bytes}
    (found : (ResultCache.findId cache token).value = some bytes) :
    ∃ id, Layout.uint64.ofBytes bytes = .ok id := by
  obtain ⟨m, asked, serves⟩ := (asks_currentMasker few kept).set config force
  rw [fieldCache_of_asked asked] at held
  have live : (m.alone s).Live () := by
    rw [← serves.idMask, ← serves.ring] at live
    exact live
  obtain ⟨_, _, id, read⟩ := (serves.coherent.cache () live cache held).of_findId found
  exact ⟨id, (IdMask.freshRead_eq_ok_iff.mp read).1⟩

theorem countP_isSet_of_failed {call : FieldCall} (failed : (s.fieldAnswer call).Failed) :
    [call].countP FieldCall.isSet = 0 := by
  cases call with
  | setGlobal config => exact failed.elim
  | _ => rfl

/-- After a call that fails all that counts is as it was. -/
theorem alike_of_failed (few : sets < 2 ^ 64) (kept : s.FieldsKept masked sets) {call : FieldCall}
    (failed : (s.fieldAnswer call).Failed) : (s.fieldCall call).Alike s := by
  cases call with
  | setGlobal config => exact failed.elim
  | clearRing id => exact failed.elim
  | encode marker noise id =>
    cases result : (s.runField fun m => m.mask s noise id).result with
    | ok token =>
      rw [fieldAnswer, encodeField, result] at failed
      exact failed.elim
    | error e =>
      exact (mask_runs few kept noise id).alike_of_error
        (fun _ _ failed => (IdMask.mask_step ..).cache_of_error failed) result
  | decode marker text =>
    rw [fieldAnswer, decodeField] at failed
    rw [fieldCall, decodeField]
    cases split : Field.tokenOf marker text with
    | error e => exact Alike.refl s
    | ok token =>
      rw [split] at failed
      cases result : (s.runField fun m => m.unmask s token).result with
      | ok id =>
        simp only [result] at failed
        exact failed.elim
      | error e =>
        refine (unmask_runs few kept token).alike_of_error ?_ result
        intro config force failed
        refine (IdMask.unmask_step ..).cache_of_error ?_ failed
        intro live cache bytes held found
        exact exists_of_findId few kept force live held found

/-- Fields have no cache under a configuration that asks for none. -/
def Uncached (s : Store) : Prop :=
  ∀ config, s.global = some config → config.cacheSize = none → s.fieldCache = none

theorem uncached_of_none (unkept : s.fieldMasker = none) : s.Uncached := by
  intro config force none
  have current : s.currentMasker = .ok (.ofKind .uint64 config) := by
    rw [currentMasker_eq, unkept]
    simp only [freshMasker, force]
  rw [fieldCache_of_asked current]
  exact (cacheIn_ofKind s config).trans (congrArg (Option.map _) none)

theorem fieldCall_force (kept : s.FieldsKept masked sets) (uncached : s.Uncached)
    (call : FieldCall) (few : sets + [call].countP FieldCall.isSet < 2 ^ 64) :
    (s.fieldCall call).global = call.setBy s.global ∧ (s.fieldCall call).Uncached := by
  cases call with
  | setGlobal config =>
    refine ⟨rfl, ?_⟩
    rintro config' ⟨⟩ none
    rw [fieldCall, fieldCache_setGlobal few kept, none]
    rfl
  | clearRing id => exact ⟨rfl, uncached⟩
  | encode marker noise id =>
    have runs := mask_runs (Nat.lt_of_le_of_lt (Nat.le_add_right _ _) few) kept noise id
    refine ⟨runs.global, ?_⟩
    intro config force none
    exact runs.cache_eq_none (fun _ => (IdMask.mask_step ..).isSome_cache)
      (uncached config (runs.global.symm.trans force) none)
  | decode marker text =>
    rw [fieldCall, decodeField]
    cases Field.tokenOf marker text with
    | error e => exact ⟨rfl, uncached⟩
    | ok token =>
      have runs := unmask_runs (Nat.lt_of_le_of_lt (Nat.le_add_right _ _) few) kept token
      refine ⟨runs.global, ?_⟩
      intro config force none
      exact runs.cache_eq_none (fun _ => (IdMask.unmask_step ..).isSome_cache)
        (uncached config (runs.global.symm.trans force) none)

theorem afterFields_force {calls : List FieldCall} (kept : s.FieldsKept Set.univ sets)
    (few : sets + calls.countP FieldCall.isSet < 2 ^ 64) (uncached : s.Uncached) :
    (s.afterFields calls).global = calls.foldl FieldCall.setBy s.global ∧
      (s.afterFields calls).Uncached := by
  induction calls generalizing s sets with
  | nil => exact ⟨rfl, uncached⟩
  | cons call calls ih =>
    rw [FieldCall.countP_isSet_cons, ← Nat.add_assoc] at few
    obtain ⟨global, next⟩ := fieldCall_force kept uncached call (by omega)
    obtain ⟨last, rest⟩ :=
      ih (fieldCall_kept kept call (by omega) (Set.subset_univ _)) few next
    rw [afterFields, List.foldl_cons, ← global]
    exact ⟨last, rest⟩

theorem encodeBy_eq (s : Store) (config : Config) (marker : String) (noise : Noise) (id : UInt64) :
    s.encodeBy config marker noise id =
      ((MaskKind.uint64.mask config).freshMask (s.ring config.ring) noise id).map
        (Field.label marker ++ ·) :=
  congrArg (Except.map _) (Masker.mask_of_bare (m := .ofKind .uint64 config.noCache) rfl s noise id)

theorem decodeBy_eq (s : Store) (config : Config) (marker token : String) :
    s.decodeBy config marker token =
      ((MaskKind.uint64.mask config).freshUnmask (s.ring config.ring) token).map
        fun (id : UInt64) => ⟨id⟩ :=
  congrArg (Except.map _) (Masker.unmask_of_bare (m := .ofKind .uint64 config.noCache) rfl s token)

/-- What is encoded is what a mask made on the spot makes of it, if no id that the cache may know has
the digest of this one. That matters only for a cache that is asked. -/
theorem encodeField_result {calls : List FieldCall} (few : sets < 2 ^ 64)
    (kept : s.FieldsKept (encodedBy calls) sets) (uncached : s.Uncached)
    (force : s.global = some config) (noise : Noise) (f : Field marker)
    (distinct : config.randomized = false → config.cacheSize ≠ none →
      Set.InjOn sha256 (encodedBy (calls ++ [.encode marker noise f.id]))) :
    (s.encodeField noise f).result = s.encodeBy config marker noise f.id := by
  obtain ⟨m, asked, serves⟩ := (asks_currentMasker few kept).set config force
  have deterministic (remembers : m.Remembers) : config.randomized = false := by
    have same := remembers.1
    rw [serves.idMask] at same
    exact same
  have cached (remembers : m.Remembers) : config.cacheSize ≠ none := by
    intro none
    have empty := (fieldCache_of_asked asked).symm.trans (uncached config force none)
    rw [Masker.cacheIn] at empty
    cases slot : m.cache with
    | none => exact remembers.2 slot
    | own cache =>
      rw [slot] at empty
      contradiction
    | shared id => exact serves.own id slot
  have answer : (m.mask s noise f.id).result =
      (MaskKind.uint64.mask config).freshMask (s.ring config.ring) noise f.id := by
    rw [← serves.idMask, ← serves.engineRing]
    refine Fleet.mask_answer (i := ()) serves.coherent (m.private_alone s).vouching ?_ noise ?_
    · rintro _ bytes ⟨_, _, id, _, written⟩
      exact ⟨id, written⟩
    · intro remembers bytes written _ _ other known same
      obtain ⟨marker', noise', id, member, written'⟩ := known
      refine distinct (deterministic remembers) (cached remembers) ?_ ?_ same.symm
      · exact ⟨marker', noise', id, List.mem_append_left _ member, written'⟩
      · exact ⟨marker, noise, f.id, List.mem_append_right _ (List.mem_singleton_self _), written⟩
  rw [encodeField, runField, asked, encodeBy_eq]
  exact congrArg (Except.map _) answer

theorem encodeBy_noise {noise noise' : Noise} (same : config.randomized = true → noise' = noise)
    (s : Store) (marker : String) (id : UInt64) :
    s.encodeBy config marker noise' id = s.encodeBy config marker noise id := by
  cases randomized : config.randomized with
  | true => rw [same randomized]
  | false =>
    rw [encodeBy_eq, encodeBy_eq]
    exact congrArg (Except.map _) (IdMask.freshMask_noise randomized noise' noise _)

theorem decodeField_of_unlabelled (s : Store) {text : String}
    (other : ¬ (Field.label marker).toList <+: text.toList) : s.decodeField marker text =
      .fail (.invalidLabel (Field.receivedLabel text) (Field.label marker)) s := by
  rw [decodeField, Field.tokenOf]
  simp only [if_neg other]

/-- Fields follow the configuration that was set last, through all calls and clearings. What fails
leaves no trace in any later answer. -/
theorem fields_follow_global (start : Store) (unset : start.global = none)
    (unkept : start.fieldMasker = none) (calls : List FieldCall)
    (few : calls.countP FieldCall.isSet < 2 ^ 64) :
    (∀ marker token,
      ((start.afterFields calls).decodeField marker (Field.label marker ++ token)).result =
        match lastSet calls with
        | none => .error (.config .missingGlobalConfig)
        | some config => (start.afterFields calls).decodeBy config marker token) ∧
    (∀ marker noise id, lastSet calls = none →
      ((start.afterFields calls).encodeField noise (⟨id⟩ : Field marker)).result =
        .error (.config .missingGlobalConfig)) ∧
    (∀ marker noise noise' id config, lastSet calls = some config →
      (config.randomized = true → noise' = noise) →
      (config.randomized = false → config.cacheSize ≠ none →
        Set.InjOn sha256 (encodedBy (sinceSet calls ++ [.encode marker noise id]))) →
      ((start.afterFields calls).encodeField noise (⟨id⟩ : Field marker)).result =
        (start.afterFields calls).encodeBy config marker noise' id) ∧
    (∀ (s : Store) marker text, ¬ (Field.label marker).toList <+: text.toList →
      (s.decodeField marker text).result =
        .error (.invalidLabel (Field.receivedLabel text) (Field.label marker))) ∧
    ∀ call later, (calls ++ later).countP FieldCall.isSet < 2 ^ 64 →
      ((start.afterFields calls).fieldAnswer call).Failed →
      ((start.afterFields calls).fieldCall call).fieldAnswers later =
        (start.afterFields calls).fieldAnswers later := by
  have few : 0 + calls.countP FieldCall.isSet < 2 ^ 64 := by omega
  have new : start.FieldsKept Set.univ 0 := fieldsKept_of_none unkept
  have kept := afterFields_kept new few (Set.subset_univ _)
  obtain ⟨force, uncached⟩ := afterFields_force new few (uncached_of_none unkept)
  have force : (start.afterFields calls).global = lastSet calls := by rw [force, unset, lastSet]
  refine ⟨?_, ?_, ?_, fun s marker text other => ?_, ?_⟩
  · intro marker token
    rw [decodeField_result few kept, freshDecode, Field.tokenOf_eq_ok_iff.mpr rfl, force]
    cases lastSet calls with
    | none => rfl
    | some config => exact (decodeBy_eq _ _ _ _).symm
  · intro marker noise id last
    rw [encodeField, runField_unset few kept (force.trans last)]
    rfl
  · intro marker noise noise' id config last same distinct
    have since := afterFields_kept_since unkept calls (by omega)
    rw [encodeBy_noise same]
    exact encodeField_result (by omega) since uncached (force.trans last) noise ⟨id⟩ distinct
  · rw [decodeField_of_unlabelled s other]
    rfl
  · intro call later fewer failed
    have unset := countP_isSet_of_failed failed
    rw [List.countP_append] at fewer
    have after := fieldCall_kept kept call (by omega) (Set.subset_univ _)
    rw [unset, Nat.add_zero] at after
    exact fieldAnswers_congr after kept (by omega) (alike_of_failed few kept failed)

/-- A configuration whose keys are cleared is replaced by another. -/
def sampleFieldCalls : List FieldCall :=
  [.setGlobal { ring := 0 }, .encode "user" (fun _ => 0) 7, .clearRing 0, .setGlobal { ring := 1 },
    .encode "user" (fun _ => 0) 5]

/-- No other id was encoded since the configuration was replaced. -/
theorem distinct_sampleFieldCalls : Set.InjOn sha256
    (encodedBy (sinceSet sampleFieldCalls ++ [.encode "user" (fun _ => 0) 5])) := by
  have since : sinceSet sampleFieldCalls = [.encode "user" (fun _ => 0) 5] := rfl
  have known : ∀ bytes ∈ encodedBy (sinceSet sampleFieldCalls ++ [.encode "user" (fun _ => 0) 5]),
      Layout.uint64.toBytes (5 : UInt64) = .ok bytes := by
    rintro bytes ⟨marker, noise, id, made, written⟩
    simp only [since, List.mem_append, List.mem_singleton, or_self] at made
    cases made
    exact written
  intro a ha b hb _
  exact Except.ok.inj ((known a ha).symm.trans (known b hb))

theorem fields_follow_global_sample :
    sampleFieldCalls.countP FieldCall.isSet < 2 ^ 64 ∧
      ((Fleet.sampleStore.afterFields sampleFieldCalls).encodeField (fun _ => 0)
          (⟨5⟩ : Field "user")).result =
        (Fleet.sampleStore.afterFields sampleFieldCalls).encodeBy { ring := 1 } "user"
          (fun _ => 7) 5 ∧
      (Fleet.sampleStore.encodeField (fun _ => 0) (⟨5⟩ : Field "user")).result =
        .error (.config .missingGlobalConfig) ∧
      ∀ later, later.countP FieldCall.isSet < 2 ^ 64 →
        (Fleet.sampleStore.fieldCall (.decode "user" "user_")).fieldAnswers later =
          Fleet.sampleStore.fieldAnswers later := by
  have few : sampleFieldCalls.countP FieldCall.isSet < 2 ^ 64 := by decide
  obtain ⟨_, _, encoded, _, _⟩ :=
    fields_follow_global Fleet.sampleStore rfl rfl sampleFieldCalls few
  obtain ⟨_, unset, _, _, failed⟩ := fields_follow_global Fleet.sampleStore rfl rfl [] (by decide)
  refine ⟨few, ?_, unset "user" (fun _ => 0) 5 rfl, fun later fewer => ?_⟩
  · exact encoded "user" (fun _ => 0) (fun _ => 7) 5 { ring := 1 } rfl nofun
      fun _ _ => distinct_sampleFieldCalls
  · exact failed (.decode "user" "user_") later fewer trivial

end Store

end IdVeil
