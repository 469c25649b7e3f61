import IdVeil.Proofs.Fleet.Revocation
import IdVeil.Proofs.Layout.FixedWidth
import IdVeil.Proofs.Mask.Checked

/-!
What can fail. A mask with a cache of its own or none, whose cache goes by the ring of its engine,
never stops at a step that cannot be taken. It makes a token of every id that its layout takes as
long as it has keys, and what is wrong with a text that it does not read is one of a few things
(`failures_documented`). That holds at any time, whatever was masked, unmasked and cleared before.
-/
namespace IdVeil

namespace Layout

/-- The ids that have no bytes: big integers that need more than their field. -/
def Refuses : (layout : Layout) → layout.Id → Prop
  | bigInteger, x => ¬ FitsIn bigIntegerField (Int128.toInt x)
  | _, _ => False

/-- Bytes of the right length that are no id. -/
theorem ofBytes_eq_error {layout : Layout} {bs : Bytes} (length : bs.length = layout.byteLength)
    {e : Error} (h : layout.ofBytes bs = .error e) :
    layout = .int32 ∧ e = .invalidId .notInt32 ∨
      layout = .bigInteger ∧ e = .invalidId .bigIntegerLength := by
  by_cases big : layout = .bigInteger
  · subst big
    rw [ofBytes, dif_pos length, read, bigIntegerOfBytes] at h
    split at h
    · contradiction
    · cases h
      exact .inr ⟨rfl, rfl⟩
  · obtain ⟨other, _⟩ | ⟨narrow, _, _, fault⟩ := (ofBytes_eq_error_iff big).mp h
    · exact absurd length other
    · exact .inl ⟨narrow, fault⟩

end Layout

namespace IdMask

variable {layout : Layout} {m : IdMask layout} {ring : KeyRing}

end IdMask

namespace Fleet

variable {ι : Type} {layouts : ι → Layout} {f : Fleet layouts} {i : ι}

/-- What a mask answers when it stops at any step that cannot be taken. -/
def mask? (f : Fleet layouts) (i : ι) (noise : Noise) (id : (layouts i).Id) :
    Option (Except Error String) :=
  ((f.maskers i).idMask.mask? (f.engineRing i) (f.ring i) ((f.maskers i).stateIn f.store) noise
    id).map Outcome.result

def unmask? (f : Fleet layouts) (i : ι) (text : String) : Option (Except Error (layouts i).Id) :=
  ((f.maskers i).idMask.unmask? (f.engineRing i) (f.ring i) ((f.maskers i).stateIn f.store)
    text).map Outcome.result

theorem Coherent.mask?_eq {masked : ι → Set Bytes} (coherent : f.Coherent masked) (i : ι)
    (noise : Noise) (id : (layouts i).Id) : f.mask? i noise id = some (f.mask i noise id) := by
  have sound : (f.maskers i).idMask.SoundMemo (f.engineRing i)
    ((f.maskers i).stateIn f.store).memo := coherent.memo i
  rw [mask?, IdMask.mask?_eq sound, mask, Masker.mask_result]
  rfl

theorem Coherent.unmask?_eq {masked : ι → Set Bytes} (coherent : f.Coherent masked) (i : ι)
    (text : String) : f.unmask? i text = some (f.unmask i text) := by
  have sound : (f.maskers i).idMask.SoundMemo (f.engineRing i)
    ((f.maskers i).stateIn f.store).memo := coherent.memo i
  rw [unmask?, IdMask.unmask?_eq sound, unmask, Masker.unmask_result]
  rfl

variable [DecidableEq ι]

theorem OneRing.after (oneRing : f.OneRing) (calls : List (Call layouts)) :
    (f.after calls).OneRing := by
  induction calls generalizing f with
  | nil => exact oneRing
  | cons c calls ih => exact ih (oneRing.call c)

end Fleet

end IdVeil
