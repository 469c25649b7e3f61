import IdVeil.Proofs.Fleet.Transparency
import Mathlib.Data.Set.Function

/-!
Masks with a cache each. Nobody can tell whether the masks of some kinds have caches, however they
are used and cleared. While the keys of a mask are not cleared, all it makes is what its active key
makes of the id.
-/
namespace IdVeil.Fleet

variable {ι : Type}

/-- Masks as they are made for some kinds under some configurations. -/
def ofKinds (s : Store) (kinds : ι → MaskKind) (configs : ι → Config) :
    Fleet fun i => (kinds i).layout := ⟨s, fun i => .ofKind (kinds i) (configs i)⟩

variable {s : Store} {kinds : ι → MaskKind} {configs : ι → Config}

theorem unused_ofKinds (i : ι) : ((ofKinds s kinds configs).maskers i).Unused :=
  (Masker.Built.ofKind (kinds i) (configs i)).unused

theorem ready_ofKinds (calls : List (Call fun i => (kinds i).layout)) :
    (ofKinds s kinds configs).Ready (maskedBy calls) calls :=
  ready_of_unused unused_ofKinds (.inr fun _ => rfl)

theorem collisionless_ofKinds {masked : ι → Set Bytes} (distinct : ∀ i, Set.InjOn sha256 (masked i)) :
    (ofKinds s kinds configs).Collisionless masked := by
  intro i j sharing bytes known other known' same
  obtain rfl := private_of_unused unused_ofKinds i j sharing
  exact (distinct i known known' same).symm

theorem randomized_engine (kind : MaskKind) (config : Config) :
    (kind.engine config).randomized = config.randomized := by
  cases kind <;> rfl

theorem mask_noCache (kind : MaskKind) (config : Config) :
    kind.mask config.noCache = kind.mask config := by
  have engine : kind.engine config.noCache = kind.engine config := by
    cases kind <;> rfl
  rw [MaskKind.mask, MaskKind.mask]
  simp only [engine]
  rfl

theorem bare_noCache : (ofKinds s kinds configs).bare =
    (ofKinds s kinds fun i => (configs i).noCache).bare := by
  have maskers : (fun i => (Masker.ofKind (kinds i) (configs i)).bare) =
      fun i => (Masker.ofKind (kinds i) (configs i).noCache).bare := by
    funext i
    have idMask := mask_noCache (kinds i) (configs i)
    rw [Masker.bare, Masker.bare, Masker.ofKind, Masker.ofKind, idMask]
    rfl
  exact congrArg (Fleet.mk _) maskers

variable [DecidableEq ι]

theorem idMask_after (calls : List (Call fun i => (kinds i).layout)) (i : ι) :
    (((ofKinds s kinds configs).after calls).maskers i).idMask = (kinds i).mask (configs i) :=
  congrArg Masker.idMask (after_maskers _ calls i)

theorem engineRing_after (calls : List (Call fun i => (kinds i).layout)) (i : ι) :
    ((ofKinds s kinds configs).after calls).engineRing i =
      ((ofKinds s kinds configs).after calls).store.ring (configs i).ring :=
  congrArg (Store.ring _) (congrArg Masker.engineRing (after_maskers _ calls i))

theorem mask_answer_of_active {earlier later : List (Call fun i => (kinds i).layout)} {i : ι}
    {noise : Noise} {id : (kinds i).layout.Id} {key : SecretKey}
    (distinct : ∀ j, Set.InjOn sha256 (maskedBy (earlier ++ .use (.mask i noise id) :: later) j))
    (deterministic : (configs i).randomized = false)
    (active : (s.ring (configs i).ring).active? = some key)
    (kept : ∀ c ∈ earlier, (ofKinds s kinds configs).clearedBy c ≠ some (configs i).ring) :
    ((ofKinds s kinds configs).after earlier).mask i noise id =
      ((kinds i).layout.toBytes id).map fun bytes =>
        (configs i).codec.encode (((kinds i).engine (configs i)).envelope key [] bytes) := by
  have ready : (ofKinds s kinds configs).Ready _ (earlier ++ .use (.mask i noise id) :: later) :=
    ready_ofKinds _
  have collisionless : (ofKinds s kinds configs).Collisionless _ := collisionless_ofKinds distinct
  have ring : ((ofKinds s kinds configs).after earlier).engineRing i = s.ring (configs i).ring :=
    (engineRing_after earlier i).trans ((ofKinds s kinds configs).after_ring earlier _ kept)
  rw [ready.after.mask_answer (fun _ _ => written_of_maskedBy) (collisionless.after earlier),
    idMask_after, ring]
  have deterministic := (randomized_engine (kinds i) (configs i)).trans deterministic
  exact IdMask.freshMask_of_active deterministic active noise id

/-- The masks of some kinds answer as if they had no caches, whatever is masked, unmasked and
cleared in any order. A mask whose ring was not cleared makes of an id what the active key makes
of its bytes. -/
theorem answers_noCache (s : Store) (kinds : ι → MaskKind) (configs : ι → Config)
    (calls : List (Call fun i => (kinds i).layout))
    (distinct : ∀ i, Set.InjOn sha256 (maskedBy calls i)) :
    (ofKinds s kinds configs).answers calls =
        (ofKinds s kinds fun i => (configs i).noCache).answers calls ∧
      ∀ earlier later i noise id key, calls = earlier ++ .use (.mask i noise id) :: later →
        (configs i).randomized = false → (s.ring (configs i).ring).active? = some key →
        (∀ c ∈ earlier, (ofKinds s kinds configs).clearedBy c ≠ some (configs i).ring) →
        ((ofKinds s kinds configs).after earlier).mask i noise id =
          ((kinds i).layout.toBytes id).map fun bytes =>
            (configs i).codec.encode (((kinds i).engine (configs i)).envelope key [] bytes) := by
  constructor
  · exact answers_congr bare_noCache (ready_ofKinds calls) (ready_ofKinds calls)
      (fun _ _ => written_of_maskedBy) (collisionless_ofKinds distinct)
      (collisionless_ofKinds distinct)
  · rintro earlier later i noise id key rfl deterministic active kept
    exact mask_answer_of_active distinct deterministic active kept

def sampleKinds (i : Bool) : MaskKind := if i then .int64Siv else .int64

def sampleConfigs (i : Bool) : Config := { ring := if i then 1 else 0 }

def sampleCalls : List (Call fun i => (sampleKinds i).layout) :=
  [.use (.mask false (fun _ => 0) (5 : Int64)), .use (.unmask true "KSncZGHzOQY_ausco4juLbE"),
    .use (.mask false (fun _ => 0) (7 : Int64)), .clear true]

def sampleUse : Use fun i => (sampleKinds i).layout := .mask false (fun _ => 0) (5 : Int64)

theorem distinct_sample (i : Bool) :
    Set.InjOn sha256 (maskedBy (sampleCalls ++ [.use sampleUse]) i) := by
  have known : ∀ bytes ∈ maskedBy (sampleCalls ++ [.use sampleUse]) i,
      bytes = [0, 0, 0, 0, 0, 0, 0, 5] ∨ bytes = [0, 0, 0, 0, 0, 0, 0, 7] := by
    rintro bytes ⟨noise, id, made, written⟩
    simp only [sampleCalls, sampleUse, List.mem_append, List.mem_cons, List.not_mem_nil,
      or_false] at made
    rcases made with (made | made | made | made) | made
    all_goals cases made
    all_goals cases written
    · exact .inl (by decide +kernel)
    · exact .inr (by decide +kernel)
    · exact .inl (by decide +kernel)
  have differ : sha256 [0, 0, 0, 0, 0, 0, 0, 5] ≠ sha256 [0, 0, 0, 0, 0, 0, 0, 7] := by
    decide +kernel
  intro a ha b hb same
  rcases known a ha with rfl | rfl
  · rcases known b hb with rfl | rfl
    · rfl
    · exact absurd same differ
  · rcases known b hb with rfl | rfl
    · exact absurd same.symm differ
    · rfl

theorem answers_noCache_sample :
    (∀ i, Set.InjOn sha256 (maskedBy (sampleCalls ++ [.use sampleUse]) i)) ∧
      (ofKinds sampleStore sampleKinds sampleConfigs).answers (sampleCalls ++ [.use sampleUse]) =
        (ofKinds sampleStore sampleKinds fun i => (sampleConfigs i).noCache).answers
          (sampleCalls ++ [.use sampleUse]) ∧
      ((ofKinds sampleStore sampleKinds sampleConfigs).after sampleCalls).mask false (fun _ => 0)
          (5 : Int64) = .ok (Codec.base64Url.encode
            ((Config.eightByte { ring := 0 }).envelope sampleKey [] [0, 0, 0, 0, 0, 0, 0, 5])) := by
  obtain ⟨same, made⟩ := answers_noCache sampleStore sampleKinds sampleConfigs _ distinct_sample
  refine ⟨distinct_sample, same, ?_⟩
  have answer := made sampleCalls [] false (fun _ => 0) (5 : Int64) sampleKey rfl rfl rfl ?_
  · exact answer
  · intro c member
    simp only [sampleCalls, List.mem_cons, List.not_mem_nil, or_false] at member
    rcases member with rfl | rfl | rfl | rfl
    all_goals decide

end IdVeil.Fleet
