import StallSim.Config
import StallSim.Phase
import StallSim.Table
import StallSim.Trace

/-!
# Simulations

A simulation is a virtual clock, a calendar of events, the phases of its sources, and the flags and
counters of its run control.  It is a value: every operation gives a new simulation.  Ids and
counters are natural numbers and so never run out; only instants are words.

* `Simulation.create` — a fresh simulation.
* `Simulation.phase`, `Simulation.setPhase` — what a source is doing; a source nobody stalled runs.
* `Simulation.status`, `Simulation.sourceView`, `Simulation.pendingEvents` — what an observer sees.
* `Simulation.cancel`, `Simulation.pause`, `Simulation.halt`, `Simulation.enableTrace` — the
  operations that always succeed.

Principal results: `phase_setPhase` — a source is in the phase it was last put in.
-/

set_option autoImplicit false

namespace StallSim

/-- The state of a simulation whose actions are of type `α`. -/
structure Simulation (α : Type) where
  /-- The configured sources, each once. -/
  sources : List Source
  /-- The reading of the clock. -/
  now : Instant
  calendar : Calendar α
  /-- The number of submissions accepted so far, releases included: the next id. -/
  nextId : Nat
  /-- The phases of the sources that were stalled at some time. -/
  phases : Table Source (Phase α)
  /-- The ids whose handles were cancelled. -/
  cancelled : List EventId
  paused : Bool
  halted : Bool
  /-- A run of this simulation is under way. -/
  running : Bool
  /-- How many actions have started. -/
  processed : Nat
  /-- The actions that started since tracing was turned on. -/
  trace : Option Trace
  /-- The sources of the actions under way, innermost first. -/
  active : List Source

/-- The flags and counters of a simulation, as an observer sees them. -/
structure Status where
  now : Instant
  processed : Nat
  pending : Nat
  idle : Bool
  paused : Bool
  halted : Bool
  running : Bool
  active : Option Source
  pausedSources : List Source

/-- One source of a simulation, as an observer sees it. -/
structure SourceView where
  source : Source
  now : Instant
  paused : Bool
  release : Option Instant
  deferred : List Pending
  active : Option Source
  /-- How many events of the whole simulation wait in its calendar. -/
  pending : Nat

/-- The diagnostic text of a source. -/
def SourceView.text (v : SourceView) : String :=
  "SourceScheduler \x7b source: " ++ v.source.label ++ ", paused: " ++ toString v.paused ++ " \x7d"

namespace Simulation

variable {α : Type}

/-- A fresh simulation. -/
def create (config : Config Source) : Simulation α where
  sources := distinct config.sources
  now := config.initialTime
  calendar := .empty
  nextId := 0
  phases := .empty
  cancelled := []
  paused := config.startPaused
  halted := false
  running := false
  processed := 0
  trace := none
  active := []

/-- The source was configured. -/
def knows (s : Simulation α) (source : Source) : Bool := source ∈ s.sources

/-- What a source is doing. -/
def phase (s : Simulation α) (source : Source) : Phase α :=
  (s.phases.get? source).getD .running

/-- Put a source in a phase. -/
def setPhase (s : Simulation α) (source : Source) (phase : Phase α) : Simulation α :=
  { s with phases := s.phases.set source phase }

/-- A source is in the phase it was last put in. -/
theorem phase_setPhase (s : Simulation α) (source other : Source) (phase : Phase α) :
    (s.setPhase source phase).phase other = if source = other then phase else s.phase other := by
  simp only [Simulation.phase, setPhase, Table.get?_set]
  split <;> rfl

/-! ## Operations that always succeed -/

/-- Stop running actions; submissions are still accepted. -/
def pause (s : Simulation α) : Simulation α := { s with paused := true }

/-- Lift a pause. -/
def unpause (s : Simulation α) : Simulation α := { s with paused := false }

/-- Stop running actions for good. -/
def halt (s : Simulation α) : Simulation α := { s with halted := true }

/-- Record the actions that start from now on; a trace that exists goes on. -/
def enableTrace (s : Simulation α) : Simulation α := { s with trace := some (s.trace.getD []) }

/-- The handle of the submission `id` was cancelled. -/
def isCancelled (s : Simulation α) (id : EventId) : Bool := id ∈ s.cancelled

/-- Cancel the submission `id`: its action will not start any more. -/
def cancel (s : Simulation α) (id : EventId) : Simulation α :=
  { s with cancelled := addNew s.cancelled id }

theorem isCancelled_cancel (s : Simulation α) (id other : EventId) :
    (s.cancel id).isCancelled other = (s.isCancelled other || decide (other = id)) := by
  simp [isCancelled, cancel, mem_addNew, Bool.decide_or]

/-! ## Views -/

/-- The source of the innermost action under way. -/
def active? (s : Simulation α) : Option Source := s.active.head?

/-- How many events wait in the calendar and will still run. -/
def pendingCount (s : Simulation α) : Nat := (s.calendar.live s.cancelled).length

/-- The events that wait in the calendar and will still run. -/
def scheduledEvents (s : Simulation α) : List Pending := s.calendar.pending s.cancelled

/-- The work held back for a source. -/
def deferredEvents (s : Simulation α) (source : Source) : List Pending :=
  (s.phase source).deferred s.cancelled

/-- Everything that waits: the calendar, then the work held back for each source. -/
def pendingEvents (s : Simulation α) : List Pending :=
  s.scheduledEvents ++ s.sources.flatMap s.deferredEvents

/-- The sources that are stalled, in the order of the configuration. -/
def pausedSources (s : Simulation α) : List Source :=
  s.sources.filter (fun source => (s.phase source).isStalled)

/-- The flags and counters. -/
def status (s : Simulation α) : Status where
  now := s.now
  processed := s.processed
  pending := s.pendingCount
  idle := s.calendar.isEmpty
  paused := s.paused
  halted := s.halted
  running := s.running
  active := s.active?
  pausedSources := s.pausedSources

/-- The view of one source. -/
def sourceView (s : Simulation α) (source : Source) : SourceView where
  source := source
  now := s.now
  paused := (s.phase source).isStalled
  release := (s.phase source).stall?.map Stall.release
  deferred := s.deferredEvents source
  active := s.active?
  pending := s.pendingCount

/-- The diagnostic text of a simulation; `queued` counts cancelled events too. -/
def text (s : Simulation α) : String :=
  "Executor \x7b now: VirtualTime(" ++ toString s.now.toNat ++ "), queued: " ++
    toString s.calendar.length ++ ", paused: " ++ toString s.paused ++ ", halted: " ++
    toString s.halted ++ " \x7d"

end Simulation

end StallSim
