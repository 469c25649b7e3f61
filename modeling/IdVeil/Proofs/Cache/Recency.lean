import Mathlib.Data.Finset.Card
import Mathlib.Data.List.Nodup
import IdVeil.Proofs.Cache

/-!
What a map of recent entries keeps. Were it never full, it would hold the entry of each key stored
since it was cleared, the latest use first; it holds as many of these as its capacity allows
(`entries_after`). So a key is found as long as fewer other keys than that were used since its own
last use, with the value it was last stored with (`find_after`). The keys may stand under digests:
the uses are counted in the keys themselves, and no two keys may then have one digest.
-/
namespace IdVeil

namespace Lru

inductive Access (κ ν : Type) where
  | insert (key : κ) (value : ν)
  | find (key : κ)
  | clear
deriving DecidableEq, Repr

variable {κ δ ν : Type} [DecidableEq δ]

/-- The value that a key was stored with last since the map was cleared. Here and below the latest
access comes first. -/
def latest [DecidableEq κ] (key : κ) : List (Access κ ν) → Option ν
  | [] => none
  | .insert key' value :: earlier => if key' = key then some value else latest key earlier
  | .find _ :: earlier => latest key earlier
  | .clear :: _ => none

def keys : List (Access κ ν) → List κ
  | [] => []
  | .insert key _ :: earlier => key :: keys earlier
  | .find key :: earlier => key :: keys earlier
  | .clear :: earlier => keys earlier

variable (digest : κ → δ) (capacity : Capacity)

/-- A map after a history, its keys under their digests. -/
def after : List (Access κ ν) → Lru δ ν
  | [] => empty capacity
  | .insert key value :: earlier => (after earlier).insert (digest key) value
  | .find key :: earlier => ((after earlier).find (digest key)).2
  | .clear :: earlier => (after earlier).clear

/-- The keys in the order of their uses since the map was cleared, the latest use first. A look-up
is a use when it finds something. -/
def uses : List (Access κ ν) → List κ
  | [] => []
  | .insert key _ :: earlier => key :: uses earlier
  | .find key :: earlier =>
    if (((after digest capacity earlier).find (digest key)).1).isSome then key :: uses earlier
    else uses earlier
  | .clear :: _ => []

/-- The keys that stand before a key. -/
def before [DecidableEq κ] (key : κ) (keys : List κ) : Finset κ :=
  (keys.takeWhile (· ≠ key)).toFinset

/-- The other keys that were used since a key was last used itself. -/
def usedSince [DecidableEq κ] (key : κ) (history : List (Access κ ν)) : Finset κ :=
  before key (uses digest capacity history)

/-- What a map would hold that is never full. -/
def unbounded : List (Access κ ν) → List (δ × ν)
  | [] => []
  | .insert key value :: earlier => front (digest key) value (unbounded earlier)
  | .find key :: earlier =>
    match ((after digest capacity earlier).find (digest key)).1 with
    | none => unbounded earlier
    | some value => front (digest key) value (unbounded earlier)
  | .clear :: _ => []

theorem before_cons [DecidableEq κ] (key key' : κ) (keys : List κ) :
    before key (key' :: keys) = if key' = key then ∅ else {key'} ∪ before key keys := by
  by_cases same : key' = key
  · rw [before, List.takeWhile_cons_of_neg (by simpa using same), if_pos same]
    rfl
  · rw [before, List.takeWhile_cons_of_pos (by simpa using same), if_neg same, List.toFinset_cons]
    rfl

variable {entries : List (δ × ν)} {key : δ} {value : ν}

@[simp] theorem fst_find (m : Lru δ ν) (key : δ) : (m.find key).1 = m.entries.lookup key := by
  unfold find
  split
  · next missing => exact missing.symm
  · next stored => exact stored.symm

theorem find_snd_of_fst_eq_none {m : Lru δ ν} (missing : (m.find key).1 = none) :
    (m.find key).2 = m := by
  unfold find at missing ⊢
  split at missing
  · rfl
  · contradiction

theorem keys_front : (front key value entries).map Prod.fst =
    key :: (entries.map Prod.fst).filter (· ≠ key) := by
  simp [front, List.filter_map, Function.comp_def]

theorem nodup_front (distinct : (entries.map Prod.fst).Nodup) :
    ((front key value entries).map Prod.fst).Nodup := by
  rw [keys_front]
  exact List.nodup_cons.mpr ⟨by simp, distinct.filter _⟩

theorem lookup_filter_of_ne {key' : δ} (other : key' ≠ key) :
    (entries.filter (·.1 ≠ key)).lookup key' = entries.lookup key' := by
  induction entries with
  | nil => rfl
  | cons entry rest ih =>
    by_cases same : entry.1 = key
    · have differs : (key' == entry.1) = false := by simpa [same] using other
      rw [List.filter_cons_of_neg (by simpa using same), ih, List.lookup_cons, differs]
    · rw [List.filter_cons_of_pos (by simpa using same), List.lookup_cons, List.lookup_cons, ih]

theorem lookup_front (key' : δ) : (front key value entries).lookup key' =
    if key = key' then some value else entries.lookup key' := by
  split
  · next same => rw [same, front, List.lookup_cons_self]
  · next other =>
    have differs : (key' == key) = false := by simpa using Ne.symm other
    rw [front, List.lookup_cons, differs]
    exact lookup_filter_of_ne (Ne.symm other)

theorem before_filter {key' : δ} (other : key ≠ key') (keys : List δ) :
    before key' (keys.filter (· ≠ key)) = (before key' keys).erase key := by
  have same : (fun key'' => !decide (key'' ≠ key) || decide (key'' ≠ key')) =
      fun key'' => decide (key'' ≠ key') := by
    funext key''
    by_cases h : key'' = key
    · simp [h, other]
    · simp [h]
  rw [before, List.takeWhile_filter, same, List.toFinset_filter, before]
  ext key''
  simp [and_comm]

theorem before_front (key' : δ) : before key' ((front key value entries).map Prod.fst) =
    if key = key' then ∅ else {key} ∪ before key' (entries.map Prod.fst) := by
  rw [keys_front, before_cons]
  split
  · rfl
  · next other =>
    rw [before_filter other]
    ext key''
    by_cases same : key'' = key
    · simp [same]
    · simp [same]

/-- Putting an entry in front of the others under its own key changes only the order. -/
theorem lookup_front_of_lookup (stored : entries.lookup key = some value) (key' : δ) :
    (front key value entries).lookup key' = entries.lookup key' := by
  rw [lookup_front]
  split
  · next same => rw [← same, stored]
  · rfl

theorem filter_eq_self_of_notMem (fresh : key ∉ entries.map Prod.fst) :
    entries.filter (·.1 ≠ key) = entries := by
  rw [List.filter_eq_self]
  intro entry member
  have other : entry.1 ≠ key := fun same => fresh (same ▸ List.mem_map_of_mem member)
  simpa using other

theorem take_filter_take (distinct : (entries.map Prod.fst).Nodup) (n : Nat) :
    ((entries.take (n + 1)).filter (·.1 ≠ key)).take n = (entries.filter (·.1 ≠ key)).take n := by
  induction entries generalizing n with
  | nil => simp
  | cons entry rest ih =>
    obtain ⟨fresh, distinct⟩ := List.nodup_cons.mp distinct
    by_cases same : entry.1 = key
    · have none : key ∉ rest.map Prod.fst := same ▸ fresh
      have kept : key ∉ (rest.take n).map Prod.fst := fun member =>
        none (List.map_subset Prod.fst (List.take_subset n rest) member)
      rw [List.take_succ_cons, List.filter_cons_of_neg (by simpa using same),
        List.filter_cons_of_neg (by simpa using same), filter_eq_self_of_notMem kept,
        filter_eq_self_of_notMem none, List.take_take, Nat.min_self]
    · rw [List.take_succ_cons, List.filter_cons_of_pos (by simpa using same),
        List.filter_cons_of_pos (by simpa using same)]
      cases n with
      | zero => rfl
      | succ n => rw [List.take_succ_cons, List.take_succ_cons, ih distinct]

/-- What an entry put in front pushes out is the same whether or not the entries were cut before. -/
theorem take_front_take (distinct : (entries.map Prod.fst).Nodup) {n : Nat} (positive : 0 < n) :
    (front key value (entries.take n)).take n = (front key value entries).take n := by
  obtain ⟨m, rfl⟩ := Nat.exists_eq_add_one_of_ne_zero positive.ne'
  rw [front, front, List.take_succ_cons, List.take_succ_cons, take_filter_take distinct]

theorem length_front_le (stored : entries.lookup key = some value) :
    (front key value entries).length ≤ entries.length := by
  have shorter : (entries.filter (·.1 ≠ key)).length < entries.length := by
    rw [List.length_filter_lt_length_iff_exists]
    exact ⟨(key, value), mem_of_lookup stored, by simp⟩
  exact shorter

theorem lookup_take (n : Nat) : (entries.take n).lookup key = some value ↔
    entries.lookup key = some value ∧ ((entries.map Prod.fst).takeWhile (· ≠ key)).length < n := by
  induction entries generalizing n with
  | nil => simp
  | cons entry rest ih =>
    cases n with
    | zero => simp
    | succ n =>
      by_cases same : entry.1 = key
      · have hit : (key == entry.1) = true := by simpa using same.symm
        rw [List.take_succ_cons, List.lookup_cons, List.lookup_cons, hit, List.map_cons,
          List.takeWhile_cons_of_neg (by simpa using same)]
        simp
      · have miss : (key == entry.1) = false := by simpa using Ne.symm same
        rw [List.take_succ_cons, List.lookup_cons, List.lookup_cons, miss, List.map_cons,
          List.takeWhile_cons_of_pos (by simpa using same), List.length_cons,
          Nat.succ_lt_succ_iff]
        exact ih n

variable {digest capacity} (history : List (Access κ ν))

@[simp] theorem capacity_after : (after digest capacity history).capacity = capacity := by
  induction history with
  | nil => rfl
  | cons access earlier ih =>
    cases access with
    | insert key value => exact ih
    | clear => exact ih
    | find key =>
      rw [after, find]
      split
      all_goals exact ih

theorem nodup_unbounded : ((unbounded digest capacity history).map Prod.fst).Nodup := by
  induction history with
  | nil => exact List.nodup_nil
  | cons access earlier ih =>
    cases access with
    | insert key value => exact nodup_front ih
    | clear => exact List.nodup_nil
    | find key =>
      rw [unbounded]
      split
      · exact ih
      · exact nodup_front ih

theorem entries_after : (after digest capacity history).entries =
    (unbounded digest capacity history).take capacity.val := by
  induction history with
  | nil => simp [after, empty, unbounded]
  | cons access earlier ih =>
    have distinct : ((unbounded digest capacity earlier).map Prod.fst).Nodup :=
      nodup_unbounded earlier
    cases access with
    | insert key value =>
      rw [after, insert, capacity_after, ih, unbounded, take_front_take distinct capacity.property]
    | clear => simp [after, clear, unbounded]
    | find key =>
      rw [after, unbounded, fst_find, find]
      cases stored : (after digest capacity earlier).entries.lookup (digest key) with
      | none => exact ih
      | some value =>
        -- an entry that is found is among those it moves in front of, so none is pushed out
        have room : (after digest capacity earlier).entries.length ≤ capacity.val := by
          rw [ih]
          exact List.length_take_le _ _
        rw [← take_front_take distinct capacity.property, ← ih,
          List.take_of_length_le ((length_front_le stored).trans room)]

theorem mem_keys_of_mem_uses {key : κ} (used : key ∈ uses digest capacity history) :
    key ∈ keys history := by
  induction history with
  | nil => contradiction
  | cons access earlier ih =>
    cases access with
    | insert key' value =>
      rcases List.mem_cons.mp used with rfl | used
      · exact List.mem_cons_self
      · exact List.mem_cons_of_mem _ (ih used)
    | clear => contradiction
    | find key' =>
      rw [uses] at used
      split at used
      · rcases List.mem_cons.mp used with rfl | used
        · exact List.mem_cons_self
        · exact List.mem_cons_of_mem _ (ih used)
      · exact List.mem_cons_of_mem _ (ih used)

section

variable [DecidableEq κ] {key : κ}

/-- A key stands in the map that is never full with the value it was last stored with. -/
theorem lookup_unbounded (apart : ∀ key' ∈ keys history, digest key' = digest key → key' = key) :
    (unbounded digest capacity history).lookup (digest key) = latest key history := by
  induction history with
  | nil => rfl
  | cons access earlier ih =>
    cases access with
    | insert key' value =>
      obtain ⟨apart', apart⟩ := List.forall_mem_cons.mp apart
      have same : digest key' = digest key ↔ key' = key := ⟨apart', congrArg digest⟩
      rw [unbounded, latest, lookup_front, ih apart]
      simp only [same]
    | clear => rfl
    | find key' =>
      obtain ⟨_, apart⟩ := List.forall_mem_cons.mp apart
      rw [unbounded, latest, fst_find, ← ih apart]
      split
      · rfl
      · next stored =>
        rw [entries_after, lookup_take] at stored
        exact lookup_front_of_lookup stored.1 _

theorem before_front_digest {key' : κ} {entries : List (δ × ν)} {value : ν} {used : List κ}
    (apart : digest key' = digest key → key' = key)
    (earlier : before (digest key) (entries.map Prod.fst) = (before key used).image digest) :
    before (digest key) ((front (digest key') value entries).map Prod.fst) =
      (before key (key' :: used)).image digest := by
  have same : digest key' = digest key ↔ key' = key := ⟨apart, congrArg digest⟩
  rw [before_front, before_cons, earlier]
  simp only [same, apply_ite (Finset.image digest), Finset.image_union, Finset.image_singleton,
    Finset.image_empty]

theorem before_unbounded (apart : ∀ key' ∈ keys history, digest key' = digest key → key' = key) :
    before (digest key) ((unbounded digest capacity history).map Prod.fst) =
      (usedSince digest capacity key history).image digest := by
  induction history with
  | nil => rfl
  | cons access earlier ih =>
    cases access with
    | insert key' value =>
      obtain ⟨apart', apart⟩ := List.forall_mem_cons.mp apart
      exact before_front_digest apart' (ih apart)
    | clear => rfl
    | find key' =>
      obtain ⟨apart', apart⟩ := List.forall_mem_cons.mp apart
      rw [unbounded, usedSince, uses]
      split
      · next missing =>
        rw [missing]
        exact ih apart
      · next found =>
        rw [found]
        exact before_front_digest apart' (ih apart)

/-- A key is found while fewer others than the capacity were used since its own last use, with the
value it was last stored with. -/
theorem find_after {value : ν} (apart : Set.InjOn digest { key' | key' ∈ key :: keys history }) :
    ((after digest capacity history).find (digest key)).1 = some value ↔
      latest key history = some value ∧
        (usedSince digest capacity key history).card < capacity.val := by
  have distinct : ((unbounded digest capacity history).map Prod.fst).Nodup :=
    nodup_unbounded history
  have own : ∀ key' ∈ keys history, digest key' = digest key → key' = key :=
    fun key' member same => apart (List.mem_cons_of_mem _ member) List.mem_cons_self same
  have used : ∀ key' ∈ usedSince digest capacity key history, key' ∈ key :: keys history := by
    intro key' member
    have member := (List.takeWhile_sublist _).subset (List.mem_toFinset.mp member)
    exact List.mem_cons_of_mem _ (mem_keys_of_mem_uses history member)
  have counted : (usedSince digest capacity key history).card =
      (((unbounded digest capacity history).map Prod.fst).takeWhile (· ≠ digest key)).length := by
    rw [← Finset.card_image_of_injOn (apart.mono used), ← before_unbounded history own]
    exact List.toFinset_card_of_nodup (distinct.sublist (List.takeWhile_sublist _))
  rw [fst_find, entries_after, lookup_take, lookup_unbounded history own, counted]

end

end Lru

end IdVeil
