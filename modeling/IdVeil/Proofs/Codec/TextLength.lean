import Mathlib.Algebra.Order.Floor.Div
import IdVeil.Proofs.Codec.Spelling

/-!
How long texts are. What a codec writes has as many characters as the number of bytes says, whatever
the bytes are (`length_encode`): each symbol stands for the bits of the alphabet, and a separator
comes between any two groups.
-/
namespace IdVeil

theorem length_intercalate {α : Type} (separator : List α) (runs : List (List α)) :
    (separator.intercalate runs).length =
      runs.flatten.length + (runs.length - 1) * separator.length := by
  induction runs with
  | nil => simp [List.intercalate]
  | cons run rest ih =>
    cases rest with
    | nil => simp [List.intercalate]
    | cons next rest =>
      rw [List.intercalate_cons_cons, List.length_append, List.length_append, ih]
      simp only [List.flatten_cons, List.length_append, List.length_cons, Nat.add_sub_cancel]
      rw [Nat.add_mul]
      omega

namespace Codec

/-- The number of characters for a number of bytes. -/
def Form.textLength : Form → Nat → Nat
  | plain a, n => 8 * n ⌈/⌉ a.width
  | grouped inner size separator, n =>
    inner.textLength n + (inner.textLength n ⌈/⌉ size - 1) * separator.length

def textLength (c : Codec) (n : Nat) : Nat := c.form.textLength n

theorem Form.length_encode {f : Form} (wf : f.WellFormed) (bs : Bytes) :
    (f.encode bs).length = f.textLength bs.length := by
  induction f with
  | plain a => exact a.length_encode bs
  | grouped inner size separator ih =>
    rw [encode, length_intercalate, flatten_pieces wf.size_pos, length_pieces wf.size_pos,
      ih wf.inner_wellFormed, textLength, Nat.ceilDiv_eq_add_pred_div]

theorem length_encode (c : Codec) (bs : Bytes) : (c.encode bs).length = c.textLength bs.length :=
  (String.length_ofList).trans (Form.length_encode c.wellFormed bs)

/-- Thirteen bytes in groups of four, which the last two symbols do not fill. -/
example : Form.textLength (.grouped (.plain .base32) 4 ['-']) 13 = 26 := by decide

end Codec

end IdVeil
