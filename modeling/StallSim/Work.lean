import StallSim.Identity

/-!
# Work and events

`Work` is a submitted action with its identity.  An `Event` is what waits in the calendar: work
that was handed in directly, work that is routed through its source and so can be held back by a
stall, or the release of a stalled source.
-/

set_option autoImplicit false

namespace StallSim

/-- A submitted action with its identity. -/
structure Work (α : Type) where
  id : EventId
  source : Source
  description : String
  action : α

/-- What waits in the calendar. -/
inductive Event (α : Type) where
  | direct (work : Work α)
  | routed (work : Work α)
  | release (id : EventId) (source : Source)

namespace Event

variable {α : Type}

/-- The id of an event. -/
def id : Event α → EventId
  | .direct work => work.id
  | .routed work => work.id
  | .release id _ => id

/-- The source an event belongs to. -/
def source : Event α → Source
  | .direct work => work.source
  | .routed work => work.source
  | .release _ source => source

/-- The description of an event. -/
def description : Event α → String
  | .direct work => work.description
  | .routed work => work.description
  | .release _ _ => "release paused source"

end Event

end StallSim
