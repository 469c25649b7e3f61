import IdVeil.Error
import IdVeil.Version

/-!
What an operation lets an observer see besides its result, and the form in which operations give
both together with the state they leave.
-/
namespace IdVeil

inductive Event where
  | keysCreated (activeId : Nibble) (count : Nat)
  | keysCleared (activeId : Nibble)
  | envelopeRejected (reason : Rejection)
  | maskCacheHit
  | unmaskCacheHit
deriving DecidableEq, Repr

def Event.message : Event → String
  | .keysCreated activeId count =>
    s!"DEBUG key manager created active_key_id={activeId.val} key_count={count}"
  | .keysCleared activeId => s!"DEBUG key manager cleared active_key_id={activeId.val}"
  | .envelopeRejected reason => s!"DEBUG envelope rejected reason={reason.code}"
  | .maskCacheHit => "TRACE mask cache hit"
  | .unmaskCacheHit => "TRACE unmask cache hit"

/-- A result, the state after it, and the events on the way, in order. -/
structure Outcome (σ α : Type) where
  result : Except Error α
  state : σ
  events : List Event := []

namespace Outcome

variable {σ α : Type}

def fail (e : Error) (state : σ) : Outcome σ α := ⟨.error e, state, []⟩

/-- A rejection is logged once, where it is made. -/
def reject (reason : Rejection) (state : σ) : Outcome σ α :=
  ⟨.error (.authentication reason), state, [.envelopeRejected reason]⟩

end Outcome

end IdVeil
