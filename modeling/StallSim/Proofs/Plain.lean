import StallSim.Scenario
import StallSim.Proofs.History

/-!
# Plain programs

Work is handed in through its source or straight to the calendar.  The plain form of a program
hands in all its work straight to the calendar; two programs with the same plain form differ in
nothing but the way by which each piece of work is handed in.

* `Script.plain`, `Scenario.plain` — the plain form of a program; submissions after a delay have no
  second way and stay as they are.
* `Record.plain`, `Report.plain`, `Sight.plain` — what was observed, with the programs in it plain.
* `Machine.sight`, `Scenario.reach` — what can be seen of a machine at any moment, and the machine
  that a scenario leads to with a number of steps for each request, finished or not.
* `Scenario.orderly` — work is handed in for configured sources only, and no source is stalled.

Principal results: `Script.plain_append` — the plain form of scripts one behind the other;
`Scenario.plain_plain` — a plain form is its own plain form.
-/

set_option autoImplicit false

namespace StallSim

variable {n : Nat}

/-! ## The plain form of a program -/

/-- The way straight to the calendar, for the same instant. -/
def Route.plain : Route → Route
  | .sourceAt due => .directAt due
  | .sourceNow => .directNow
  | route => route

/-- The submission straight to the calendar. -/
def Submission.plain (submission : Submission n) : Submission n :=
  { submission with route := submission.route.plain }

/-- The script that hands in all its work straight to the calendar, and that work as well. -/
def Script.plain : Script n → Script n
  | .done => .done
  | .submit submission body handling rest =>
    .submit submission.plain body.plain handling rest.plain
  | .perform i command handling rest => .perform i command handling rest.plain
  | .call name rest => .call name rest.plain
  | .whenBefore i limit body rest => .whenBefore i limit body.plain rest.plain
  | .fail failure context => .fail failure context
  | .panic message => .panic message

/-- The plain form of scripts one behind the other. -/
@[simp] theorem Script.plain_append (a b : Script n) : (a ++ b).plain = a.plain ++ b.plain := by
  show (a.append b).plain = a.plain.append b.plain
  induction a with
  | done => rfl
  | submit submission body handling rest _ ih =>
    simp only [Script.append, Script.plain, ih]
  | perform i command handling rest ih => simp only [Script.append, Script.plain, ih]
  | call name rest ih => simp only [Script.append, Script.plain, ih]
  | whenBefore i limit body rest _ ih => simp only [Script.append, Script.plain, ih]
  | fail failure context => rfl
  | panic message => rfl

/-- The action with a plain script. -/
def Action.plain (action : Action n) : Action n := { action with script := action.script.plain }

/-- The work with a plain action. -/
def Work.plain (work : Work (Action n)) : Work (Action n) :=
  { work with action := work.action.plain }

/-- The operation, without the way by which work is handed in. -/
def Operation.plain : Operation n → Operation n
  | .submit submission => .submit submission.plain
  | .command i asked => .command i asked

/-- The request that hands in plain work straight to the calendar. -/
def Request.plain : Request n → Request n
  | .submit submission body => .submit submission.plain body.plain
  | .command i asked => .command i asked

@[simp] theorem Work.id_plain (work : Work (Action n)) : work.plain.id = work.id := rfl

@[simp] theorem Request.sim_plain (request : Request n) : request.plain.sim = request.sim := by
  cases request <;> rfl

/-- The scenario with plain programs. -/
def Scenario.plain (scenario : Scenario n) : Scenario n where
  configs := scenario.configs
  procedures := scenario.procedures.mapValues Script.plain
  requests := scenario.requests.map Request.plain

theorem Submission.plain_plain (submission : Submission n) :
    submission.plain.plain = submission.plain := by
  obtain ⟨i, source, route, label, handle⟩ := submission
  cases route <;> rfl

theorem Script.plain_plain (script : Script n) : script.plain.plain = script.plain := by
  induction script with
  | done => rfl
  | submit submission body handling rest ihBody ihRest =>
    simp only [Script.plain, Submission.plain_plain, ihBody, ihRest]
  | perform i asked handling rest ih => simp only [Script.plain, ih]
  | call name rest ih => simp only [Script.plain, ih]
  | whenBefore i limit body rest ihBody ihRest => simp only [Script.plain, ihBody, ihRest]
  | fail failure context => rfl
  | panic message => rfl

theorem Request.plain_plain (request : Request n) : request.plain.plain = request.plain := by
  cases request with
  | submit submission body =>
    simp only [Request.plain, Submission.plain_plain, Script.plain_plain]
  | command i asked => rfl

/-- Every scenario has the plain form of its plain form. -/
theorem Scenario.plain_plain (scenario : Scenario n) : scenario.plain.plain = scenario.plain := by
  have hprocedures : (scenario.procedures.mapValues Script.plain).mapValues Script.plain =
      scenario.procedures.mapValues Script.plain := by
    simp [Table.mapValues, Script.plain_plain]
  simp [Scenario.plain, hprocedures, Request.plain_plain]

/-! ## What is observed -/

/-- The entry with the programs in it plain. -/
def Record.plain : Record n → Record n
  | .started i work time active depth => .started i work.plain time active depth
  | .performed operation outcome => .performed operation.plain outcome
  | .failed failure => .failed failure

/-- The answer with the programs in it plain. -/
def Answer.plain (answer : Answer n) : Answer n :=
  { answer with journal := answer.journal.map Record.plain }

/-- The report with the programs in it plain. -/
def Report.plain (report : Report n) : Report n :=
  { report with answers := report.answers.map Answer.plain }

/-- What can be seen of a machine at a moment: the answer if there is one, the journal, and every
simulation. -/
structure Sight (n : Nat) where
  outcome : Option Outcome
  journal : List (Record n)
  summaries : Vector Summary n

/-- What was seen, with the programs in it plain. -/
def Sight.plain (sight : Sight n) : Sight n :=
  { sight with journal := sight.journal.map Record.plain }

/-- What can be seen of a machine. -/
def Machine.sight (m : Machine n) : Sight n :=
  ⟨m.result?, m.world.journal, m.world.sims.map Simulation.summary⟩

/-- The machine that requests, made one after the other, lead to: the one that has answered the last
of them, or the one that has made `fuel` steps on the first request that needs more. -/
def Machine.reach (fuel : Nat) (m : Machine n) : List (Request n) → Machine n
  | [] => m
  | request :: rest =>
    let next := (Machine.request m.world request).run fuel
    if next.result?.isSome then next.reach fuel rest else next

/-- The machine that a scenario leads to, with `fuel` steps for each request. -/
def Scenario.reach (fuel : Nat) (scenario : Scenario n) : Machine n :=
  (Machine.atRest (.create scenario.configs scenario.procedures)).reach fuel scenario.requests

/-! ## Orderly programs -/

/-- The request hands in no work for a source that is not configured, and stalls no source. -/
def Request.orderly (w : World n) : Request n → Bool
  | .submit submission _ => (w.sim submission.sim).knows submission.source
  | .command i (.stall source release) =>
    match (w.stall i source release).2 with
    | .done => false
    | _ => true
  | .command _ _ => true

/-- The operation that an action calls in the next step is orderly, if it calls one. -/
def Machine.orderly (m : Machine n) : Bool := m.call?.all (Request.orderly m.world)

/-- All operations that actions call in a number of steps are orderly. -/
def Machine.orderlyFor : Nat → Machine n → Bool
  | 0, _ => true
  | fuel + 1, m => m.orderly && orderlyFor fuel m.step

/-- Requests that are made one after the other are orderly, and so are all operations that actions
call in `fuel` steps for each of them. -/
def World.orderly (fuel : Nat) (w : World n) : List (Request n) → Bool
  | [] => true
  | request :: rest =>
    let m := Machine.request w request
    request.orderly w && m.orderlyFor fuel &&
      (!(m.run fuel).result?.isSome || (m.run fuel).world.orderly fuel rest)

/-- In `fuel` steps for each request, the scenario hands in work for configured sources only, and
stalls no source. -/
def Scenario.orderly (fuel : Nat) (scenario : Scenario n) : Bool :=
  (World.create scenario.configs scenario.procedures).orderly fuel scenario.requests

end StallSim
