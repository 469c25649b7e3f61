import Mathlib.Logic.Function.Basic
import IdVeil.Proofs.Key.Integrity
import IdVeil.Proofs.Key.Memo

/-!
Several memos over one ring. Any of them may clear the ring, and so may others, of which a memo
learns nothing. It may then hold values that no key of the ring gives, but they are not found any
more, and each is dropped when it is looked for (`values_follow_ring`).
-/
namespace IdVeil

namespace Memo

variable {δ : Type} {derive : SecretKey → δ} {memo : Memo δ} {ring : KeyRing}

theorem Sound.mem_getByte_iff (h : Sound derive memo ring) {id : UInt8} {value : δ} :
    (∃ entry ∈ (getByte derive memo ring id).2, entry.1.val = id.toNat ∧ entry.2 = value) ↔
      (getByte derive memo ring id).1 = some value := by
  rw [getByte]
  cases named : nibble? id with
  | none =>
    have other (entry : Nibble × δ) : entry.1.val ≠ id.toNat := fun same => by
      have found := nibble?_eq_some_iff.mpr same.symm
      simp [named] at found
    simp [other]
  | some nibble =>
    have byte := nibble?_eq_some_iff.mp named
    rw [← h.mem_get_iff]
    constructor
    · rintro ⟨⟨key, _⟩, kept, same, rfl⟩
      obtain rfl : key = nibble := Fin.ext (same.trans byte)
      exact kept
    · exact fun kept => ⟨_, kept, byte.symm, rfl⟩

end Memo

/-- Memos of values of several kinds, all derived from the keys of one ring. -/
structure MemoFamily {ι : Type} (δ : ι → Type) where
  ring : KeyRing
  memos : (i : ι) → Memo (δ i)

namespace MemoFamily

/-- What is done with a family. Clearing the ring itself goes past the memos. -/
inductive Request (ι : Type) where
  | get (i : ι) (id : UInt8)
  | active (i : ι)
  | clear (i : ι)
  | clearRing

variable {ι : Type} {δ : ι → Type}

def Request.clears : Request ι → Bool
  | get _ _ => false
  | active _ => false
  | clear _ => true
  | clearRing => true

/-- Memos that nothing was looked up in. -/
def ofRing (ring : KeyRing) : MemoFamily δ := ⟨ring, fun _ => []⟩

section

variable (derive : (i : ι) → SecretKey → δ i) (f : MemoFamily δ)

def get (i : ι) (id : UInt8) : Option (δ i) × Memo (δ i) :=
  (f.memos i).getByte (derive i) f.ring id

def active (i : ι) : Except Error (Nibble × δ i) × Memo (δ i) :=
  (f.memos i).active (derive i) f.ring

/-- No memo has anything else for a key than what is derived from it. -/
def Sound : Prop := ∀ i, (f.memos i).Sound (derive i) f.ring

end

variable {derive : (i : ι) → SecretKey → δ i} {f : MemoFamily δ}

theorem sound_ofRing (ring : KeyRing) : (ofRing ring).Sound derive := fun _ => Memo.sound_nil

theorem sound_of_cleared {ring : KeyRing} {memos : (i : ι) → Memo (δ i)} :
    Sound derive ⟨ring.clear, memos⟩ :=
  fun _ => Memo.sound_of_find?_eq_none (KeyRing.find?_clear _)

variable [DecidableEq ι]

def put (f : MemoFamily δ) (i : ι) (memo : Memo (δ i)) : MemoFamily δ :=
  { f with memos := Function.update f.memos i memo }

def perform (derive : (i : ι) → SecretKey → δ i) (f : MemoFamily δ) : Request ι → MemoFamily δ
  | .get i id => f.put i (f.get derive i id).2
  | .active i => f.put i (f.active derive i).2
  | .clear i =>
    let (memo, ring) := (f.memos i).clear f.ring
    { f.put i memo with ring }
  | .clearRing => { f with ring := f.ring.clear }

def after (derive : (i : ι) → SecretKey → δ i) (f : MemoFamily δ)
    (requests : List (Request ι)) : MemoFamily δ := requests.foldl (perform derive) f

theorem Sound.put (h : f.Sound derive) {i : ι} {memo : Memo (δ i)}
    (new : memo.Sound (derive i) f.ring) : (f.put i memo).Sound derive := by
  intro j
  by_cases same : j = i
  · subst same
    simpa [MemoFamily.put] using new
  · simpa [MemoFamily.put, same] using h j

theorem Sound.perform (h : f.Sound derive) (request : Request ι) :
    (f.perform derive request).Sound derive := by
  cases request with
  | get i id => exact h.put ((h i).getByte_snd id)
  | active i => exact h.put (h i).active_snd
  | clear i => exact sound_of_cleared
  | clearRing => exact sound_of_cleared

theorem Sound.after (h : f.Sound derive) (requests : List (Request ι)) :
    (f.after derive requests).Sound derive := by
  induction requests generalizing f with
  | nil => exact h
  | cons request rest ih => exact ih (h.perform request)

theorem ring_perform (request : Request ι) : (f.perform derive request).ring =
    if request.clears then f.ring.clear else f.ring := by
  cases request with
  | get i id => rfl
  | active i => rfl
  | clear i => rfl
  | clearRing => rfl

theorem ring_after (requests : List (Request ι)) : (f.after derive requests).ring =
    if requests.any Request.clears then f.ring.clear else f.ring := by
  induction requests generalizing f with
  | nil => rfl
  | cons request rest ih =>
    have later : (f.after derive (request :: rest)).ring = _ := ih (f := f.perform derive request)
    rw [later, ring_perform, List.any_cons]
    cases request.clears with
    | false => rfl
    | true => split <;> rfl

/-- Whatever was asked of the memos and however the ring was cleared, the ring has all of its keys
or none, and a memo gives what is derived from the key that the ring has now, and nothing for an id
that no key has. After a look-up it has under the id what was found, and nothing else. -/
theorem values_follow_ring (derive : (i : ι) → SecretKey → δ i) (ring : KeyRing)
    (requests : List (Request ι)) (i : ι) :
    let f := (ofRing ring).after derive requests
    f.ring = (if requests.any Request.clears then ring.clear else ring) ∧
    (∀ id, (f.get derive i id).1 = (f.ring.findByte? id).map (derive i) ∧
      ((f.get derive i id).1 = none ↔ ∀ key ∈ f.ring.keys, key.id.val ≠ id.toNat) ∧
      ∀ value, (∃ entry ∈ (f.get derive i id).2, entry.1.val = id.toNat ∧ entry.2 = value) ↔
        (f.get derive i id).1 = some value) ∧
    ((f.active derive i).1 = match f.ring.active? with
      | some key => .ok (key.id, derive i key)
      | none => .error .noActiveKey) ∧
    ∀ value, (f.ring.activeId, value) ∈ (f.active derive i).2 ↔
      (f.active derive i).1 = .ok (f.ring.activeId, value) := by
  intro f
  -- Soundness says nothing of ids without a key, so a cleared ring keeps it whatever memos hold.
  have sound : (f.memos i).Sound (derive i) f.ring := (sound_ofRing ring).after requests i
  refine ⟨ring_after requests, ?_, sound.active_fst, fun _ => sound.mem_active_iff⟩
  intro id
  have value : (f.get derive i id).1 = _ := sound.getByte_fst id
  refine ⟨value, ?_, fun _ => sound.mem_getByte_iff⟩
  rw [value, Option.map_eq_none_iff, KeyRing.findByte?_eq_none_iff]

def legacyKey : SecretKey := ⟨1, [0x12, 0x34, 0x56, 0x78, 0x9a, 0xbc, 0xde, 0xf0]⟩

def sampleRing : KeyRing where
  activeId := 2
  keys := [⟨2, [0xff, 0xee, 0xdd, 0xcc, 0xbb, 0xaa, 0x99, 0x88]⟩, legacyKey]
  distinct := by decide
  active_mem := by decide

/-- One memo keeps the bytes of keys, the other one their numbers. -/
abbrev SampleValue (i : Bool) : Type := cond i Bytes Nat

def sampleDerive : (i : Bool) → SecretKey → SampleValue i
  | true, key => key.bytes
  | false, key => Bytes.toNat key.bytes

def sampleFamily (requests : List (Request Bool)) : MemoFamily SampleValue :=
  (ofRing sampleRing).after sampleDerive requests

theorem values_follow_ring_sample :
    ((sampleFamily [.get true 1]).get sampleDerive true 1).1 = some legacyKey.bytes ∧
    (sampleFamily [.get true 1, .clear false]).memos true = [(1, legacyKey.bytes)] ∧
    ((sampleFamily [.get true 1, .clear false]).get sampleDerive true 1).1 = none ∧
    (∀ entry ∈ ((sampleFamily [.get true 1, .clear false]).get sampleDerive true 1).2,
      entry.1.val ≠ 1) ∧
    ((sampleFamily []).active sampleDerive false).1 = .ok (2, (0xffeeddccbbaa9988 : Nat)) ∧
    ((sampleFamily [.get true 1, .clear false]).active sampleDerive false).1 =
      .error .noActiveKey := by
  have law := values_follow_ring sampleDerive sampleRing
  obtain ⟨_, kept, _⟩ := law [.get true 1] true
  obtain ⟨_, lost, _⟩ := law [.get true 1, .clear false] true
  obtain ⟨_, _, first, _⟩ := law [] false
  obtain ⟨_, _, last, _⟩ := law [.get true 1, .clear false] false
  obtain ⟨_, missing, left⟩ := lost 1
  have none : ((sampleFamily [.get true 1, .clear false]).get sampleDerive true 1).1 = none :=
    missing.mpr nofun
  refine ⟨(kept 1).1, rfl, none, ?_, first, last⟩
  intro entry member named
  cases none.symm.trans ((left entry.2).mp ⟨entry, member, named, rfl⟩)

end MemoFamily

end IdVeil
