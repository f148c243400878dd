import StallSim.Failure
import StallSim.Simulation.Basic

/-!
# Outcomes

The answer to an operation on a simulation: what it gave, or why it was refused.

* `Outcome.error?` — the refusal, which an action can end with.
-/

set_option autoImplicit false

namespace StallSim

/-- The answer to an operation. -/
inductive Outcome where
  /-- Done, with nothing to say. -/
  | done
  /-- Accepted under an id. -/
  | accepted (id : EventId)
  /-- The submission behind a handle, and whether it was cancelled before and after. -/
  | handle (id : EventId) (before after : Bool)
  /-- No handle has that name. -/
  | unbound
  /-- The instant asked for is beyond the time line. -/
  | overflow
  /-- How many actions a run started. -/
  | count (started : Nat)
  | status (status : Status)
  /-- The clock read through a view taken at the beginning, and through a new one. -/
  | clock (old new : Instant)
  | active (source : Source) (depth : Nat)
  | flag (value : Bool)
  | sources (sources : List Source)
  | source (view : SourceView)
  | pending (events : List Pending)
  | trace (trace : Option Trace)
  | text (text : String)
  | refused (error : Error)
  | panicked (message : String)

/-- The refusal, if the answer is one. -/
def Outcome.error? : Outcome → Option Error
  | .refused error => some error
  | _ => none

end StallSim
