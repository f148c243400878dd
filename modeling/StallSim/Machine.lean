import StallSim.World

/-!
# The call stack of a world

Actions run simulations, whose actions run simulations: the machine keeps the run that is under
way and the actions that wait for it.  It goes on in small steps, so that the world can be looked
at between any two operations.

* `Machine.step` — take an event, perform an operation, or go back to a waiting action.
* `Machine.abort` — an action ends without success: its simulation is halted, a replay it was part
  of is closed, and the run ends with the error that names the action.
* `Machine.unwind` — a panic abandons every action and every run on the stack; a replay is left as
  it stands.
* `Machine.run` — steps up to a number of them.

Principal results: `step_of_result?` — a machine with a result stays as it is; `run_add` — steps
can be made in portions.
-/

set_option autoImplicit false

namespace StallSim

/-- An action that waits for a run it has started by an operation. -/
structure Caller (n : Nat) where
  run : Run n
  work : Work (Action n)
  operation : Operation n
  handling : Handling
  rest : Script n

/-- What the machine is about to do. -/
inductive Control (n : Nat) where
  /-- Go on with a run, between two actions. -/
  | between (run : Run n)
  /-- Go on with an action. -/
  | within (run : Run n) (work : Work (Action n)) (script : Script n)
  /-- Go back to whoever waits, with an answer. -/
  | returned (outcome : Outcome)

/-- A world at work: what comes next, and who waits for it, innermost first. -/
structure Machine (n : Nat) where
  world : World n
  control : Control n
  callers : List (Caller n)

namespace Machine

variable {n : Nat}

/-! ## Around an action -/

/-- Start the action of `work`. -/
def enter (w : World n) (run : Run n) (work : Work (Action n)) (callers : List (Caller n)) :
    Machine n :=
  let s := (w.sim run.sim).startAction work
  ⟨(w.setSim run.sim s).note (.started run.sim work s.now s.active? s.active.length),
    .within run work work.action.script, callers⟩

/-- The action of `work` ends with a failure. -/
def abort (w : World n) (run : Run n) (work : Work (Action n)) (failure : Failure)
    (callers : List (Caller n)) : Machine n :=
  let failed := (w.sim run.sim).failAction
  let closed := match run.replay with
    | some r => failed.closeReplay r.source r.release r.timers
    | none => failed
  ⟨w.setSim run.sim closed.endRun, .returned (.refused (failure.report work.id work.description)),
    callers⟩

/-- An operation of the action of `work` has an answer. -/
def settle (w : World n) (run : Run n) (work : Work (Action n)) (operation : Operation n)
    (handling : Handling) (rest : Script n) (outcome : Outcome) (callers : List (Caller n)) :
    Machine n :=
  let noted := w.note (.performed operation outcome)
  match outcome.error? with
  | some e =>
    if handling.attempt then
      abort noted run work ((Failure.error e).within handling.context) callers
    else ⟨noted, .within run work rest, callers⟩
  | none => ⟨noted, .within run work rest, callers⟩

/-- The world after a panic has left the action and the run of each of these. -/
def unwind (w : World n) (runs : List (Run n)) : World n :=
  runs.foldl (fun w run => w.update run.sim (fun s => s.endAction.endRun)) w

/-! ## Steps -/

/-- Go on with a run, between two actions. -/
def stepRun (w : World n) (run : Run n) (callers : List (Caller n)) : Machine n :=
  let s := w.sim run.sim
  match run.replay with
  | some r =>
    match s.nextReplayed r.source with
    | some (work, taken) =>
      let w := w.setSim run.sim taken
      if s.isCancelled work.id then ⟨w, .between run, callers⟩ else enter w run work callers
    | none =>
      ⟨w.setSim run.sim (s.closeReplay r.source r.release r.timers),
        .between { run with replay := none }, callers⟩
  | none =>
    let started := s.processed - run.start
    let conclude : Machine n :=
      ⟨w.setSim run.sim s.endRun, .returned (.count started), callers⟩
    if run.limit.any (fun limit => decide (limit ≤ started)) || s.isStopped then conclude
    else
      match s.dispatch with
      | .exhausted => conclude
      | .settled s => ⟨w.setSim run.sim s, .between run, callers⟩
      | .start work s => enter (w.setSim run.sim s) run work callers
      | .replay source stall s =>
        ⟨w.setSim run.sim s,
          .between { run with replay := some ⟨source, stall.release, stall.timers⟩ }, callers⟩

/-- Go on with an action. -/
def stepAction (w : World n) (run : Run n) (work : Work (Action n)) (script : Script n)
    (callers : List (Caller n)) : Machine n :=
  match script with
  | .done => ⟨w.update run.sim Simulation.endAction, .between run, callers⟩
  | .submit submission body handling rest =>
    let r := w.submit submission body
    settle r.1 run work (.submit submission) handling rest r.2 callers
  | .perform i command handling rest =>
    match w.command i command with
    | (w, .outcome outcome) =>
      settle w run work (.command i command) handling rest outcome callers
    | (w, .run inner) =>
      ⟨w, .between inner, ⟨run, work, .command i command, handling, rest⟩ :: callers⟩
  | .call name rest => ⟨w, .within run work (w.procedure name ++ rest), callers⟩
  | .whenBefore i limit body rest =>
    ⟨w, .within run work (if (w.sim i).now < limit then body ++ rest else rest), callers⟩
  | .fail failure context =>
    abort (w.note (.failed failure)) run work (failure.within context) callers
  | .panic message =>
    ⟨unwind w (run :: callers.map Caller.run), .returned (.panicked message), []⟩

/-- One step; a machine that nobody waits for stays as it is. -/
def step (m : Machine n) : Machine n :=
  match m.control with
  | .between run => stepRun m.world run m.callers
  | .within run work script => stepAction m.world run work script m.callers
  | .returned outcome =>
    match m.callers with
    | [] => m
    | c :: callers =>
      settle m.world c.run c.work c.operation c.handling c.rest outcome callers

/-- The answer, once nobody waits for anything. -/
def result? (m : Machine n) : Option Outcome :=
  match m.control, m.callers with
  | .returned outcome, [] => some outcome
  | _, _ => none

/-- Up to `fuel` steps. -/
def run : Nat → Machine n → Machine n
  | 0, m => m
  | fuel + 1, m => if m.result?.isSome then m else run fuel m.step

/-- The machine that begins with a request from outside. -/
def request (w : World n) : Request n → Machine n
  | .submit submission body =>
    let r := w.submit submission body
    ⟨r.1, .returned r.2, []⟩
  | .command i command =>
    match w.command i command with
    | (w, .outcome outcome) => ⟨w, .returned outcome, []⟩
    | (w, .run inner) => ⟨w, .between inner, []⟩

/-- A machine with a result stays as it is. -/
theorem step_of_result? {m : Machine n} {outcome : Outcome} (h : m.result? = some outcome) :
    m.step = m := by
  obtain ⟨w, control, callers⟩ := m
  cases control <;> cases callers <;> simp_all [result?, step]

theorem run_of_result? {m : Machine n} {outcome : Outcome} (h : m.result? = some outcome)
    (fuel : Nat) : run fuel m = m := by
  cases fuel <;> simp [run, h]

/-- Steps can be made in portions. -/
theorem run_add (a b : Nat) (m : Machine n) : run (a + b) m = run b (run a m) := by
  induction a generalizing m with
  | zero => rw [Nat.zero_add, run]
  | succ a ih =>
    rw [Nat.succ_add, run, run]
    cases h : m.result? with
    | some outcome => simp [run_of_result? h]
    | none => simp [ih]

end Machine

end StallSim
