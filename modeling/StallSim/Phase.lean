import StallSim.Calendar

/-!
# Phases of a source

A source runs, is stalled until an instant, or is being replayed after a stall.  While it is
stalled its work is parked: immediate work by id, timers by the instant they were first due.  While
it is replayed the parked immediate work is its backlog, and immediate work it receives joins the
backlog.

* `Stall.park` — hold back work that was immediate or was due at an instant.
* `Phase.deferred` — the work a phase holds back, in the order in which it will be replayed.
-/

set_option autoImplicit false

namespace StallSim

/-- What is held back for a stalled source, until the instant `release`. -/
structure Stall (α : Type) where
  release : Instant
  immediate : Agenda EventId (Work α)
  timers : Agenda Origin (Work α)

namespace Stall

variable {α : Type}

/-- A stall that starts with a backlog and without timers. -/
def starting (release : Instant) (backlog : Agenda EventId (Work α)) : Stall α :=
  ⟨release, backlog, .empty⟩

/-- Hold back work that was due at `due`, or immediate work where there is no such instant. -/
def park (stall : Stall α) (due : Option Instant) (work : Work α) : Stall α :=
  match due with
  | some t => { stall with timers := stall.timers.insert ⟨t, work.id⟩ work }
  | none => { stall with immediate := stall.immediate.insert work.id work }

theorem release_park (stall : Stall α) (due : Option Instant) (work : Work α) :
    (stall.park due work).release = stall.release := by
  cases due <;> rfl

end Stall

/-- What a source is doing. -/
inductive Phase (α : Type) where
  | running
  | stalled (stall : Stall α)
  | replaying (backlog : Agenda EventId (Work α))

namespace Phase

variable {α : Type}

/-- The stall of a stalled source. -/
def stall? : Phase α → Option (Stall α)
  | .stalled stall => some stall
  | _ => none

/-- The source is stalled. -/
def isStalled (phase : Phase α) : Bool := phase.stall?.isSome

/-- The work a phase holds back, with the instant at which it will run where that is known, in the
order in which it will be replayed: immediate work by id, then timers by the instant they were
first due. -/
def held : Phase α → List (Option Instant × Work α)
  | .running => []
  | .stalled stall =>
    stall.immediate.values.map (fun work => (none, work)) ++
      stall.timers.values.map (fun work => (some stall.release, work))
  | .replaying backlog => backlog.values.map (fun work => (none, work))

/-- The work a phase holds back that is not cancelled, as an observer sees it. -/
def deferred (phase : Phase α) (cancelled : List EventId) : List Pending :=
  (phase.held.filter (fun h => h.2.id ∉ cancelled)).map
    (fun h => ⟨h.2.id, h.1, h.2.source, h.2.description⟩)

end Phase

end StallSim
