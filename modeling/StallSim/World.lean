import StallSim.Outcome
import StallSim.Script
import StallSim.Simulation.Dispatch

/-!
# Worlds

A world is a number of simulations whose actions know each other, with the handles that were
bound, the procedures that scripts can call, and a journal of what the actions did.

* `World.submit` — hand in an action and bind its handle.
* `World.command` — every other operation; one that runs a simulation gives the `Run` to go on
  with, unless the simulation refuses to run or has nothing to do.
* `Record` — an entry of the journal: an action started, performed an operation, or failed.

Principal results: `sim_setSim` — setting one simulation leaves the others as they are.
-/

set_option autoImplicit false

namespace StallSim

/-- The submission that a handle stands for. -/
structure Handle (n : Nat) where
  sim : Fin n
  id : EventId

/-- An entry of the journal. -/
inductive Record (n : Nat) where
  /-- An action started at `time`; `active` and `depth` say who was then at work. -/
  | started (sim : Fin n) (work : Work (Action n)) (time : Instant) (active : Option Source)
      (depth : Nat)
  /-- An action performed an operation. -/
  | performed (operation : Operation n) (outcome : Outcome)
  /-- An action ended with a failure of its own. -/
  | failed (failure : Failure)

/-- Simulations with all that their actions share. -/
structure World (n : Nat) where
  sims : Vector (Simulation (Action n)) n
  handles : Table String (Handle n)
  procedures : Table String (Script n)
  journal : List (Record n)

/-- The replay of a source under way: the stall that ended at `release`, and its timers. -/
structure Replay (n : Nat) where
  source : Source
  release : Instant
  timers : Agenda Origin (Work (Action n))

/-- A run under way: of which simulation, from how many started actions on, until how many more,
and which replay it is in the middle of. -/
structure Run (n : Nat) where
  sim : Fin n
  start : Nat
  limit : Option Nat
  replay : Option (Replay n)

/-- What follows from a command: an answer, or a run whose end is the answer. -/
inductive Reply (n : Nat) where
  | outcome (outcome : Outcome)
  | run (run : Run n)

namespace World

variable {n : Nat}

/-- The world of these simulations, with nothing submitted. -/
def create (configs : Vector (Config Source) n) (procedures : Table String (Script n)) :
    World n where
  sims := configs.map Simulation.create
  handles := .empty
  procedures := procedures
  journal := []

/-- A simulation of the world. -/
def sim (w : World n) (i : Fin n) : Simulation (Action n) := w.sims[i]

/-- Replace a simulation of the world. -/
def setSim (w : World n) (i : Fin n) (s : Simulation (Action n)) : World n :=
  { w with sims := w.sims.set i s }

/-- Setting one simulation leaves the others as they are. -/
theorem sim_setSim (w : World n) (i j : Fin n) (s : Simulation (Action n)) :
    (w.setSim i s).sim j = if i = j then s else w.sim j := by
  simp only [sim, setSim, Fin.getElem_fin, Vector.getElem_set, Fin.ext_iff]

/-- Change a simulation of the world. -/
def update (w : World n) (i : Fin n) (f : Simulation (Action n) → Simulation (Action n)) :
    World n :=
  w.setSim i (f (w.sim i))

/-- Add an entry to the journal. -/
def note (w : World n) (record : Record n) : World n :=
  { w with journal := w.journal ++ [record] }

/-- Bind a handle to a name, if there is one. -/
def bindHandle (w : World n) (name : Option String) (handle : Handle n) : World n :=
  match name with
  | some name => { w with handles := w.handles.set name handle }
  | none => w

/-- The script of a procedure; an unknown one does nothing. -/
def procedure (w : World n) (name : String) : Script n := (w.procedures.get? name).getD .done

/-! ## Submissions -/

/-- The world after a submission was accepted, and its id. -/
def accept (w : World n) (submission : Submission n)
    (accepted : Except Error (EventId × Simulation (Action n))) : World n × Outcome :=
  match accepted with
  | .error e => (w, .refused e)
  | .ok (id, s) =>
    ((w.setSim submission.sim s).bindHandle submission.handle ⟨submission.sim, id⟩, .accepted id)

/-- Hand in an action with the script `body`. -/
def submit (w : World n) (submission : Submission n) (body : Script n) : World n × Outcome :=
  let s := w.sim submission.sim
  let action : Action n := ⟨submission.label, body⟩
  match submission.route with
  | .sourceAt due =>
    match due.resolve s.now with
    | some t => w.accept submission (s.submitAt submission.source t submission.label action)
    | none => (w, .overflow)
  | .sourceIn delay => w.accept submission (s.submitIn submission.source delay action)
  | .sourceNow => w.accept submission (s.submitNow submission.source submission.label action)
  | .directAt due =>
    match due.resolve s.now with
    | some t => w.accept submission (s.submitDirectAt submission.source t submission.label action)
    | none => (w, .overflow)
  | .directNow =>
    w.accept submission (s.submitDirectNow submission.source submission.label action)

/-! ## Commands -/

/-- Run a simulation, up to a number of actions if there is a limit. -/
def beginRun (w : World n) (i : Fin n) (limit : Option Nat) : World n × Reply n :=
  match (w.sim i).startRun with
  | .error e => (w, .outcome (.refused e))
  | .ok none => (w, .outcome (.count 0))
  | .ok (some s) => (w.setSim i s, .run ⟨i, s.processed, limit, none⟩)

/-- Stall a source of a simulation. -/
def stall (w : World n) (i : Fin n) (source : Source) (release : Due) : World n × Outcome :=
  match release.resolve (w.sim i).now with
  | none => (w, .overflow)
  | some t =>
    match (w.sim i).stallUntil source t with
    | .error e => (w, .refused e)
    | .ok s => (w.setSim i s, .done)

/-- Cancel the submission behind a handle. -/
def cancel (w : World n) (name : String) : World n × Outcome :=
  match w.handles.get? name with
  | none => (w, .unbound)
  | some h =>
    (w.update h.sim (·.cancel h.id), .handle h.id ((w.sim h.sim).isCancelled h.id) true)

/-- Look at the submission behind a handle. -/
def inspect (w : World n) (name : String) : Outcome :=
  match w.handles.get? name with
  | none => .unbound
  | some h =>
    let cancelled := (w.sim h.sim).isCancelled h.id
    .handle h.id cancelled cancelled

/-- The source at work in a simulation, with the depth of the call stack. -/
def activeSource (s : Simulation (Action n)) : Outcome :=
  match s.active? with
  | some source => .active source s.active.length
  | none => .refused .noneActive

/-- The view of a configured source. -/
def viewSource (s : Simulation (Action n)) (source : Source) : Outcome :=
  if s.knows source then .source (s.sourceView source)
  else .refused (.unknownSource source.label)

/-- Carry out a command on a simulation. -/
def command (w : World n) (i : Fin n) : Command n → World n × Reply n
  | .cancel name => let r := w.cancel name; (r.1, .outcome r.2)
  | .inspect name => (w, .outcome (w.inspect name))
  | .stall source release => let r := w.stall i source release; (r.1, .outcome r.2)
  | .pause => (w.update i Simulation.pause, .outcome .done)
  | .halt => (w.update i Simulation.halt, .outcome .done)
  | .enableTrace => (w.update i Simulation.enableTrace, .outcome .done)
  | .run => w.beginRun i none
  | .runFor limit => w.beginRun i (some limit)
  | .resume => (w.update i Simulation.unpause).beginRun i none
  | .status => (w, .outcome (.status (w.sim i).status))
  | .clock => (w, .outcome (.clock (w.sim i).now (w.sim i).now))
  | .active => (w, .outcome (activeSource (w.sim i)))
  | .knows source => (w, .outcome (.flag ((w.sim i).knows source)))
  | .sources => (w, .outcome (.sources (w.sim i).sources))
  | .source source => (w, .outcome (viewSource (w.sim i) source))
  | .pending => (w, .outcome (.pending (w.sim i).pendingEvents))
  | .scheduled => (w, .outcome (.pending (w.sim i).scheduledEvents))
  | .trace => (w, .outcome (.trace (w.sim i).trace))
  | .sameTrace other => (w, .outcome (.flag ((w.sim i).trace = (w.sim other).trace)))
  | .describe => (w, .outcome (.text (w.sim i).text))

end World

end StallSim
