import Mathlib.Data.List.Sort
import StallSim.Proofs.Plain

/-!
# The reference simulator

The naive simulator: a clock, a list of immediate work, and a list of timed work in any order, with
the counters and flags that users see.  It knows one way of handing in work, and no stalls.

* `Simulation.dispatch` — the head of the immediate work is taken if there is one, else the timed
  work that is first by time and id; cancelled work is dropped and leaves the clock alone.
* `Simulation.submitAt`, `Simulation.submitNow` — every submission, whichever way it is made.
* `World.stall` — a request to stall is refused on the same grounds as ever; one that would be
  granted is answered, and nothing happens.
* `World.submit`, `World.command`, `Machine.step` — the operations of actions, and the call stack of
  a world in which no source is ever replayed.
* `Reference.run`, `Reference.reach`, `Reference.orderly` — scenarios.
-/

set_option autoImplicit false

namespace StallSim.Reference

/-- The state of the reference simulator. -/
structure Simulation (α : Type) where
  sources : List Source
  now : Instant
  /-- The immediate work, in the order in which it came. -/
  fifo : List (Work α)
  /-- The timed work, in any order. -/
  timed : List (Instant × Work α)
  nextId : Nat
  cancelled : List EventId
  paused : Bool
  halted : Bool
  running : Bool
  processed : Nat
  trace : Option Trace
  active : List Source

section Timed

variable {α : Type}

/-- What decides when timed work is taken: its time, then its id. -/
def place (e : Instant × Work α) : Origin := ⟨e.1, e.2.id⟩

/-- The work that is before all other. -/
def first? (timed : List (Instant × Work α)) : Option (Instant × Work α) :=
  timed.find? (fun e => timed.all (fun other => place e ≤ place other))

/-- All work but that with this id. -/
def without (id : EventId) (timed : List (Instant × Work α)) : List (Instant × Work α) :=
  timed.filter (fun e => e.2.id ≠ id)

/-- The work in the order in which it will be taken. -/
def sorted (timed : List (Instant × Work α)) : List (Instant × Work α) :=
  timed.insertionSort (fun a b => place a ≤ place b)

end Timed

/-- What follows from taking work. -/
inductive Dispatch (α : Type) where
  /-- No work waits. -/
  | exhausted
  /-- The work was cancelled. -/
  | dropped (s : Simulation α)
  /-- The action of this work starts. -/
  | start (work : Work α) (s : Simulation α)

namespace Simulation

variable {α : Type}

/-- A fresh simulation. -/
def create (config : Config Source) : Simulation α where
  sources := distinct config.sources
  now := config.initialTime
  fifo := []
  timed := []
  nextId := 0
  cancelled := []
  paused := config.startPaused
  halted := false
  running := false
  processed := 0
  trace := none
  active := []

/-! ## Taking work -/

/-- The handle of this submission was cancelled. -/
def isCancelled (s : Simulation α) (id : EventId) : Bool := id ∈ s.cancelled

/-- Take the next work and say what follows. -/
def dispatch (s : Simulation α) : Dispatch α :=
  match s.fifo with
  | work :: rest =>
    let taken := { s with fifo := rest }
    if s.isCancelled work.id then .dropped taken else .start work taken
  | [] =>
    match first? s.timed with
    | none => .exhausted
    | some (time, work) =>
      let taken := { s with timed := without work.id s.timed }
      if s.isCancelled work.id then .dropped taken else .start work { taken with now := time }

/-! ## Handing in work -/

/-- The source was configured. -/
def knows (s : Simulation α) (source : Source) : Bool := source ∈ s.sources

/-- The work that is handed in next. -/
def newWork (s : Simulation α) (source : Source) (description : String) (action : α) : Work α :=
  ⟨⟨s.nextId⟩, source, description, action⟩

/-- Hand in work for an instant. -/
def submitAt (s : Simulation α) (source : Source) (time : Instant) (description : String)
    (action : α) : Except Error (EventId × Simulation α) :=
  if time < s.now then .error (.tooEarly time s.now)
  else if s.knows source then
    .ok (⟨s.nextId⟩, { s with
      nextId := s.nextId + 1
      timed := s.timed ++ [(time, s.newWork source description action)] })
  else .error (.unknownSource source.label)

/-- Hand in work for now. -/
def submitNow (s : Simulation α) (source : Source) (description : String) (action : α) :
    Except Error (EventId × Simulation α) :=
  if s.knows source then
    .ok (⟨s.nextId⟩, { s with
      nextId := s.nextId + 1
      fifo := s.fifo ++ [s.newWork source description action] })
  else .error (.unknownSource source.label)

/-! ## Flags and counters -/

def pause (s : Simulation α) : Simulation α := { s with paused := true }

def unpause (s : Simulation α) : Simulation α := { s with paused := false }

def halt (s : Simulation α) : Simulation α := { s with halted := true }

def enableTrace (s : Simulation α) : Simulation α := { s with trace := some (s.trace.getD []) }

def cancel (s : Simulation α) (id : EventId) : Simulation α :=
  { s with cancelled := addNew s.cancelled id }

/-- Start a run, if the simulation is neither halted nor paused nor in a run already. -/
def startRun (s : Simulation α) : Except Error (Option (Simulation α)) :=
  if s.halted then .error .halted
  else if s.running || s.paused then .ok none
  else .ok (some { s with running := true })

def endRun (s : Simulation α) : Simulation α := { s with running := false }

/-- A run must stop before the next work. -/
def isStopped (s : Simulation α) : Bool := s.paused || s.halted

/-- Count and record an action, and make its source the active one. -/
def startAction (s : Simulation α) (work : Work α) : Simulation α :=
  { s with
    processed := s.processed + 1
    trace := s.trace.map (fun t => t ++ [⟨s.now, work.id, work.source, work.description⟩])
    active := work.source :: s.active }

def endAction (s : Simulation α) : Simulation α := { s with active := s.active.tail }

def failAction (s : Simulation α) : Simulation α := s.endAction.halt

/-! ## Views -/

def active? (s : Simulation α) : Option Source := s.active.head?

/-- The work that waits, cancelled or not, in the order in which it will be taken. -/
def waiting (s : Simulation α) : List (Option Instant × Work α) :=
  s.fifo.map (fun work => (none, work)) ++ (sorted s.timed).map (fun e => (some e.1, e.2))

/-- The work that will still run, as an observer sees it. -/
def pendingEvents (s : Simulation α) : List Pending :=
  (s.waiting.filter (fun e => e.2.id ∉ s.cancelled)).map
    (fun e => ⟨e.2.id, e.1, e.2.source, e.2.description⟩)

def status (s : Simulation α) : Status where
  now := s.now
  processed := s.processed
  pending := s.pendingEvents.length
  idle := s.waiting.isEmpty
  paused := s.paused
  halted := s.halted
  running := s.running
  active := s.active?
  pausedSources := []

def sourceView (s : Simulation α) (source : Source) : SourceView where
  source := source
  now := s.now
  paused := false
  release := none
  deferred := []
  active := s.active?
  pending := s.pendingEvents.length

def text (s : Simulation α) : String :=
  "Executor \x7b now: VirtualTime(" ++ toString s.now.toNat ++ "), queued: " ++
    toString s.waiting.length ++ ", paused: " ++ toString s.paused ++ ", halted: " ++
    toString s.halted ++ " \x7d"

def summary (s : Simulation α) : Summary where
  status := s.status
  pending := s.pendingEvents
  trace := s.trace
  text := s.text

end Simulation

/-! ## Worlds -/

/-- Reference simulators with all that their actions share. -/
structure World (n : Nat) where
  sims : Vector (Simulation (Action n)) n
  handles : Table String (Handle n)
  procedures : Table String (Script n)
  journal : List (Record n)

/-- A run under way: of which simulation, from how many started actions on, until how many more. -/
structure Run (n : Nat) where
  sim : Fin n
  start : Nat
  limit : Option Nat

/-- What follows from a command: an answer, or a run whose end is the answer. -/
inductive Reply (n : Nat) where
  | outcome (outcome : Outcome)
  | run (run : Run n)

namespace World

variable {n : Nat}

/-- The world of these simulations, with nothing submitted. -/
def create (configs : Vector (Config Source) n) (procedures : Table String (Script n)) :
    World n where
  sims := configs.map Simulation.create
  handles := .empty
  procedures := procedures
  journal := []

def sim (w : World n) (i : Fin n) : Simulation (Action n) := w.sims.get i

def setSim (w : World n) (i : Fin n) (s : Simulation (Action n)) : World n :=
  { w with sims := w.sims.set i s i.isLt }

/-- Setting one simulation leaves the others as they are. -/
theorem sim_setSim (w : World n) (i j : Fin n) (s : Simulation (Action n)) :
    (w.setSim i s).sim j = if i = j then s else w.sim j := by
  show (w.sims.set i s i.isLt)[j.val] = if i = j then s else w.sims[j.val]
  rw [Vector.getElem_set]
  simp only [Fin.ext_iff]

def update (w : World n) (i : Fin n) (f : Simulation (Action n) → Simulation (Action n)) :
    World n :=
  w.setSim i (f (w.sim i))

def note (w : World n) (record : Record n) : World n :=
  { w with journal := w.journal ++ [record] }

def bindHandle (w : World n) (name : Option String) (handle : Handle n) : World n :=
  match name with
  | some name => { w with handles := w.handles.set name handle }
  | none => w

/-- The script of a procedure; an unknown one does nothing. -/
def procedure (w : World n) (name : String) : Script n := (w.procedures.get? name).getD .done

/-- The world after a submission was accepted, and its id. -/
def accept (w : World n) (submission : Submission n)
    (accepted : Except Error (EventId × Simulation (Action n))) : World n × Outcome :=
  match accepted with
  | .error e => (w, .refused e)
  | .ok (id, s) =>
    ((w.setSim submission.sim s).bindHandle submission.handle ⟨submission.sim, id⟩, .accepted id)

/-- Hand in an action with the script `body`.  The two ways of handing in work are one. -/
def submit (w : World n) (submission : Submission n) (body : Script n) : World n × Outcome :=
  let s := w.sim submission.sim
  let action : Action n := ⟨submission.label, body⟩
  match submission.route with
  | .sourceAt due | .directAt due =>
    match due.resolve s.now with
    | some t => w.accept submission (s.submitAt submission.source t submission.label action)
    | none => (w, .overflow)
  | .sourceIn delay =>
    w.accept submission (s.submitAt submission.source (s.now.plusSaturating delay) "" action)
  | .sourceNow | .directNow =>
    w.accept submission (s.submitNow submission.source submission.label action)

/-- Run a simulation, up to a number of actions if there is a limit. -/
def beginRun (w : World n) (i : Fin n) (limit : Option Nat) : World n × Reply n :=
  match (w.sim i).startRun with
  | .error e => (w, .outcome (.refused e))
  | .ok none => (w, .outcome (.count 0))
  | .ok (some s) => (w.setSim i s, .run ⟨i, s.processed, limit⟩)

/-- The answer to a request to stall a source. -/
def stall (w : World n) (i : Fin n) (source : Source) (release : Due) : Outcome :=
  let s := w.sim i
  match release.resolve s.now with
  | none => .overflow
  | some t =>
    if s.knows source then
      if t < s.now then .refused (.stallRefused source.label (.inPast t s.now))
      else if s.active? = some source then .done
      else .refused (.stallRefused source.label (.notActive (s.active?.map Source.label)))
    else .refused (.unknownSource source.label)

/-- Cancel the submission behind a handle. -/
def cancel (w : World n) (name : String) : World n × Outcome :=
  match w.handles.get? name with
  | none => (w, .unbound)
  | some h =>
    (w.update h.sim (·.cancel h.id), .handle h.id ((w.sim h.sim).isCancelled h.id) true)

/-- Look at the submission behind a handle. -/
def inspect (w : World n) (name : String) : Outcome :=
  match w.handles.get? name with
  | none => .unbound
  | some h =>
    let cancelled := (w.sim h.sim).isCancelled h.id
    .handle h.id cancelled cancelled

/-- The source at work in a simulation, with the depth of the call stack. -/
def activeSource (s : Simulation (Action n)) : Outcome :=
  match s.active? with
  | some source => .active source s.active.length
  | none => .refused .noneActive

/-- The view of a configured source. -/
def viewSource (s : Simulation (Action n)) (source : Source) : Outcome :=
  if s.knows source then .source (s.sourceView source)
  else .refused (.unknownSource source.label)

/-- Carry out a command on a simulation. -/
def command (w : World n) (i : Fin n) : Command n → World n × Reply n
  | .cancel name => let r := w.cancel name; (r.1, .outcome r.2)
  | .inspect name => (w, .outcome (w.inspect name))
  | .stall source release => (w, .outcome (w.stall i source release))
  | .pause => (w.update i Simulation.pause, .outcome .done)
  | .halt => (w.update i Simulation.halt, .outcome .done)
  | .enableTrace => (w.update i Simulation.enableTrace, .outcome .done)
  | .run => w.beginRun i none
  | .runFor limit => w.beginRun i (some limit)
  | .resume => (w.update i Simulation.unpause).beginRun i none
  | .status => (w, .outcome (.status (w.sim i).status))
  | .clock => (w, .outcome (.clock (w.sim i).now (w.sim i).now))
  | .active => (w, .outcome (activeSource (w.sim i)))
  | .knows source => (w, .outcome (.flag ((w.sim i).knows source)))
  | .sources => (w, .outcome (.sources (w.sim i).sources))
  | .source source => (w, .outcome (viewSource (w.sim i) source))
  | .pending => (w, .outcome (.pending (w.sim i).pendingEvents))
  | .scheduled => (w, .outcome (.pending (w.sim i).pendingEvents))
  | .trace => (w, .outcome (.trace (w.sim i).trace))
  | .sameTrace other => (w, .outcome (.flag ((w.sim i).trace = (w.sim other).trace)))
  | .describe => (w, .outcome (.text (w.sim i).text))

/-- The request hands in no work for a source that is not configured, and is refused if it asks for
a stall. -/
def admits (w : World n) : Request n → Bool
  | .submit submission _ => (w.sim submission.sim).knows submission.source
  | .command i (.stall source release) =>
    match w.stall i source release with
    | .done => false
    | _ => true
  | .command _ _ => true

end World

/-! ## The call stack -/

/-- An action that waits for a run it has started by an operation. -/
structure Caller (n : Nat) where
  run : Run n
  work : Work (Action n)
  operation : Operation n
  handling : Handling
  rest : Script n

/-- What the machine is about to do. -/
inductive Control (n : Nat) where
  /-- Go on with a run, between two actions. -/
  | between (run : Run n)
  /-- Go on with an action. -/
  | within (run : Run n) (work : Work (Action n)) (script : Script n)
  /-- Go back to whoever waits, with an answer. -/
  | returned (outcome : Outcome)

/-- A world at work: what comes next, and who waits for it, innermost first. -/
structure Machine (n : Nat) where
  world : World n
  control : Control n
  callers : List (Caller n)

namespace Machine

variable {n : Nat}

/-- Start the action of `work`. -/
def enter (w : World n) (run : Run n) (work : Work (Action n)) (callers : List (Caller n)) :
    Machine n :=
  let s := (w.sim run.sim).startAction work
  ⟨(w.setSim run.sim s).note (.started run.sim work s.now s.active? s.active.length),
    .within run work work.action.script, callers⟩

/-- The action of `work` ends with a failure. -/
def abort (w : World n) (run : Run n) (work : Work (Action n)) (failure : Failure)
    (callers : List (Caller n)) : Machine n :=
  ⟨w.update run.sim (fun s => s.failAction.endRun),
    .returned (.refused (failure.report work.id work.description)), callers⟩

/-- An operation of the action of `work` has an answer. -/
def settle (w : World n) (run : Run n) (work : Work (Action n)) (operation : Operation n)
    (handling : Handling) (rest : Script n) (outcome : Outcome) (callers : List (Caller n)) :
    Machine n :=
  let noted := w.note (.performed operation outcome)
  match outcome.error? with
  | some e =>
    if handling.attempt then
      abort noted run work ((Failure.error e).within handling.context) callers
    else ⟨noted, .within run work rest, callers⟩
  | none => ⟨noted, .within run work rest, callers⟩

/-- The world after a panic has left the action and the run of each of these. -/
def unwind (w : World n) (runs : List (Run n)) : World n :=
  runs.foldl (fun w run => w.update run.sim (fun s => s.endAction.endRun)) w

/-- Go on with a run, between two actions. -/
def stepRun (w : World n) (run : Run n) (callers : List (Caller n)) : Machine n :=
  let s := w.sim run.sim
  let started := s.processed - run.start
  let conclude : Machine n := ⟨w.setSim run.sim s.endRun, .returned (.count started), callers⟩
  if run.limit.any (fun limit => decide (limit ≤ started)) || s.isStopped then conclude
  else
    match s.dispatch with
    | .exhausted => conclude
    | .dropped s => ⟨w.setSim run.sim s, .between run, callers⟩
    | .start work s => enter (w.setSim run.sim s) run work callers

/-- Go on with an action. -/
def stepAction (w : World n) (run : Run n) (work : Work (Action n)) (script : Script n)
    (callers : List (Caller n)) : Machine n :=
  match script with
  | .done => ⟨w.update run.sim Simulation.endAction, .between run, callers⟩
  | .submit submission body handling rest =>
    let r := w.submit submission body
    settle r.1 run work (.submit submission) handling rest r.2 callers
  | .perform i command handling rest =>
    match w.command i command with
    | (w, .outcome outcome) =>
      settle w run work (.command i command) handling rest outcome callers
    | (w, .run inner) =>
      ⟨w, .between inner, ⟨run, work, .command i command, handling, rest⟩ :: callers⟩
  | .call name rest => ⟨w, .within run work (w.procedure name ++ rest), callers⟩
  | .whenBefore i limit body rest =>
    ⟨w, .within run work (if (w.sim i).now < limit then body ++ rest else rest), callers⟩
  | .fail failure context =>
    abort (w.note (.failed failure)) run work (failure.within context) callers
  | .panic message =>
    ⟨unwind w (run :: callers.map Caller.run), .returned (.panicked message), []⟩

/-- One step; a machine that nobody waits for stays as it is. -/
def step (m : Machine n) : Machine n :=
  match m.control with
  | .between run => stepRun m.world run m.callers
  | .within run work script => stepAction m.world run work script m.callers
  | .returned outcome =>
    match m.callers with
    | [] => m
    | c :: callers => settle m.world c.run c.work c.operation c.handling c.rest outcome callers

/-- The answer, once nobody waits for anything. -/
def result? (m : Machine n) : Option Outcome :=
  match m.control, m.callers with
  | .returned outcome, [] => some outcome
  | _, _ => none

/-- Up to `fuel` steps. -/
def run : Nat → Machine n → Machine n
  | 0, m => m
  | fuel + 1, m => if m.result?.isSome then m else run fuel m.step

/-- The machine that begins with a request from outside. -/
def request (w : World n) : Request n → Machine n
  | .submit submission body =>
    let r := w.submit submission body
    ⟨r.1, .returned r.2, []⟩
  | .command i command =>
    match w.command i command with
    | (w, .outcome outcome) => ⟨w, .returned outcome, []⟩
    | (w, .run inner) => ⟨w, .between inner, []⟩

/-- The operation that an action calls in the next step. -/
def call? (m : Machine n) : Option (Request n) :=
  match m.control with
  | .within _ _ (.submit submission body _ _) => some (.submit submission body)
  | .within _ _ (.perform i command _ _) => some (.command i command)
  | _ => none

/-- The operation that an action calls in the next step is admitted, if it calls one. -/
def orderly (m : Machine n) : Bool := m.call?.all m.world.admits

/-- All operations that actions call in a number of steps are admitted. -/
def orderlyFor : Nat → Machine n → Bool
  | 0, _ => true
  | fuel + 1, m => m.orderly && orderlyFor fuel m.step

/-- The machine of a world in which nobody waits for anything. -/
def atRest (w : World n) : Machine n := ⟨w, .returned .done, []⟩

/-- What can be seen of a machine. -/
def sight (m : Machine n) : Sight n :=
  ⟨m.result?, m.world.journal, m.world.sims.map Simulation.summary⟩

end Machine

/-! ## Scenarios -/

/-- The machine that requests, made one after the other, lead to. -/
def Machine.reach {n : Nat} (fuel : Nat) (m : Machine n) : List (Request n) → Machine n
  | [] => m
  | request :: rest =>
    let next := (Machine.request m.world request).run fuel
    if next.result?.isSome then next.reach fuel rest else next

namespace World

variable {n : Nat}

/-- Answer one request in at most `fuel` steps. -/
def perform (fuel : Nat) (w : World n) (request : Request n) : Option (Answer n × World n) :=
  let m := (Machine.request w request).run fuel
  m.result?.map (fun outcome =>
    (⟨outcome, (m.world.sim request.sim).status, m.world.journal.drop w.journal.length⟩, m.world))

/-- Answer requests one after the other. -/
def performAll (fuel : Nat) (w : World n) : List (Request n) → Option (List (Answer n) × World n)
  | [] => some ([], w)
  | request :: rest =>
    match w.perform fuel request with
    | none => none
    | some (answer, w) => (w.performAll fuel rest).map (fun r => (answer :: r.1, r.2))

/-- All requests, and all operations that actions call in `fuel` steps for each of them, are
admitted. -/
def orderly (fuel : Nat) (w : World n) : List (Request n) → Bool
  | [] => true
  | request :: rest =>
    let m := Machine.request w request
    w.admits request && m.orderlyFor fuel &&
      (!(m.run fuel).result?.isSome || (m.run fuel).world.orderly fuel rest)

end World

variable {n : Nat}

/-- The report of a scenario, if `fuel` steps are enough for each request. -/
def run (fuel : Nat) (scenario : Scenario n) : Option (Report n) :=
  ((World.create scenario.configs scenario.procedures).performAll fuel scenario.requests).map
    (fun r => ⟨r.1, r.2.sims.map Simulation.summary⟩)

/-- The machine that a scenario leads to, with `fuel` steps for each request. -/
def reach (fuel : Nat) (scenario : Scenario n) : Machine n :=
  (Machine.atRest (.create scenario.configs scenario.procedures)).reach fuel scenario.requests

/-- In `fuel` steps for each request, the scenario hands in work for configured sources only, and
every stall that it asks for is refused. -/
def orderly (fuel : Nat) (scenario : Scenario n) : Bool :=
  (World.create scenario.configs scenario.procedures).orderly fuel scenario.requests

end StallSim.Reference
