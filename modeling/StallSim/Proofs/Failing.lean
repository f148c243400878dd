import StallSim.Proofs.Frames
import StallSim.Proofs.Ledger

/-!
# Actions that fail

An action fails by itself, or with the refusal of an operation that it attempts; the operation may
be a run of another simulation that it has waited for.  Whichever it is, the run of the action ends
with it.

* `Handling.failure?`, `Machine.failing?` — the failure with which an action ends in the next step.
* `RunFails` — a run ends with an error, which goes to whoever waits for the run.
* `Shift` — runs begin, go over to replays and back, and end, one at a time.

Principal results: `step_of_failing` — an action that fails is aborted; `runFails_of_failing` — its
run reports the failure; `Next.shift`; `accepted_of_frame` — the work of an action was accepted
under its id.
-/

set_option autoImplicit false

namespace StallSim

variable {n : Nat}

/-- The failure of an action that attempts an operation with this answer. -/
def Handling.failure? (handling : Handling) (outcome : Outcome) : Option Failure :=
  if handling.attempt then
    outcome.error?.map (fun e => (Failure.error e).within handling.context)
  else none

/-- The action that ends with a failure in the next step, with its run and the failure. -/
def Machine.failing? (m : Machine n) : Option (Run n × Work (Action n) × Failure) :=
  match m.control with
  | .within run work (.fail failure context) => some (run, work, failure.within context)
  | .within run work (.submit submission body handling _) =>
    (handling.failure? (m.world.submit submission body).2).map (fun f => (run, work, f))
  | .within run work (.perform i command handling _) =>
    match (m.world.command i command).2 with
    | .outcome outcome => (handling.failure? outcome).map (fun f => (run, work, f))
    | .run _ => none
  | .returned outcome =>
    match m.callers with
    | c :: _ => (c.handling.failure? outcome).map (fun f => (c.run, c.work, f))
    | [] => none
  | _ => none

section Refusals

variable {w : World n} {i : Fin n} {outcome : Outcome} {error : Error}

/-- A submission that is refused leaves the world as it is. -/
theorem submit_of_refused {submission : Submission n} {body : Script n}
    (refused : (w.submit submission body).2.error? = some error) :
    (w.submit submission body).1 = w := by
  rcases w.submit_eq submission body with hsubmit | ⟨answer, hsubmit, -⟩
  · rw [hsubmit]
  · rw [hsubmit] at refused ⊢
    cases answer with
    | error e => rfl
    | ok accepted => cases refused

theorem beginRun_of_refused {limit : Option Nat} {reply : Reply n}
    (answer : (w.beginRun i limit).2 = reply) (refused : reply = .outcome outcome) :
    (w.beginRun i limit).1 = w := by
  subst refused
  unfold World.beginRun at answer ⊢
  split
  · rfl
  · rfl
  · rename_i hstart
    rw [hstart] at answer
    cases answer

/-- A command that is refused can only have lifted a pause. -/
theorem sim_command_of_refused {command : Command n}
    (answer : (w.command i command).2 = .outcome outcome) (refused : outcome.error? = some error)
    (j : Fin n) : ∃ paused, (w.command i command).1.sim j = { w.sim j with paused := paused } := by
  cases command with
  | stall source release =>
    refine ⟨_, congrArg (fun w => World.sim w j) (?_ : (w.stall i source release).1 = w)⟩
    rcases w.stall_cases i source release with ⟨hw, -⟩ | ⟨t, s', -, -, hw⟩
    · exact hw
    · dsimp only [World.command] at answer
      rw [hw] at answer
      cases answer
      cases refused
  | cancel name =>
    dsimp only [World.command, World.cancel] at answer
    split at answer <;> cases answer <;> cases refused
  | pause =>
    cases answer
    cases refused
  | halt =>
    cases answer
    cases refused
  | enableTrace =>
    cases answer
    cases refused
  | run => exact ⟨_, congrArg (fun w => World.sim w j) (beginRun_of_refused answer rfl)⟩
  | runFor limit => exact ⟨_, congrArg (fun w => World.sim w j) (beginRun_of_refused answer rfl)⟩
  | resume =>
    have hbegin : (w.command i .resume).1 = w.update i Simulation.unpause :=
      beginRun_of_refused answer rfl
    rw [hbegin, World.update, World.sim_setSim]
    split
    · rename_i hij
      exact ⟨false, hij ▸ rfl⟩
    · exact ⟨_, rfl⟩
  | _ => exact ⟨_, rfl⟩

end Refusals

/-! ## The step of a failure -/

section Step

variable {m : Machine n} {run : Run n} {work : Work (Action n)} {failure : Failure}

/-- An action that fails over an answer is left. -/
theorem settle_of_failure {w : World n} {operation : Operation n} {handling : Handling}
    {outcome : Outcome} (failed : handling.failure? outcome = some failure) (rest : Script n)
    (callers : List (Caller n)) :
    Machine.settle w run work operation handling rest outcome callers =
      Machine.abort (w.note (.performed operation outcome)) run work failure callers := by
  unfold Handling.failure? at failed
  unfold Machine.settle
  split at failed
  · rename_i hattempt
    obtain ⟨e, he, rfl⟩ := Option.map_eq_some_iff.1 failed
    simp only [he, hattempt, if_true]
  · cases failed

/-- An action that does not fail over the answer goes on. -/
theorem settle_of_success {operation : Operation n} {w : World n} {handling : Handling}
    {outcome : Outcome} (success : handling.failure? outcome = none) (rest : Script n)
    (callers : List (Caller n)) :
    Machine.settle w run work operation handling rest outcome callers =
      ⟨w.note (.performed operation outcome), .within run work rest, callers⟩ := by
  unfold Handling.failure? at success
  unfold Machine.settle
  cases herror : outcome.error? with
  | none => rfl
  | some e =>
    rw [herror] at success
    split at success
    · cases success
    · rename_i hattempt
      simp only [if_neg hattempt]

/-- Only the error of the answer counts. -/
theorem failure?_congr {handling : Handling} {outcome outcome' : Outcome}
    (error : outcome'.error? = outcome.error?) :
    handling.failure? outcome' = handling.failure? outcome := by
  rw [Handling.failure?, Handling.failure?, error]

theorem error_of_failure {handling : Handling} {outcome : Outcome}
    (failed : handling.failure? outcome = some failure) : ∃ e, outcome.error? = some e := by
  unfold Handling.failure? at failed
  split at failed
  · obtain ⟨e, he, -⟩ := Option.map_eq_some_iff.1 failed
    exact ⟨e, he⟩
  · cases failed

/-- What is left of a machine whose action fails: the action is aborted in a world whose
simulations are as before, but for a pause that was lifted. -/
structure Aborts (m : Machine n) (run : Run n) (work : Work (Action n)) (failure : Failure)
    (w : World n) (callers : List (Caller n)) : Prop where
  step : m.step = Machine.abort w run work failure callers
  frames : m.frames = (run, work) :: callers.map Caller.frame
  runs : m.runs = run :: callers.map Caller.run
  sims : ∀ i, ∃ paused, w.sim i = { m.world.sim i with paused := paused }

/-- **An action that fails is aborted.** -/
theorem step_of_failing (failing : m.failing? = some (run, work, failure)) :
    ∃ w callers, Aborts m run work failure w callers := by
  obtain ⟨w, control, callers⟩ := m
  cases control with
  | between run' => cases failing
  | returned outcome =>
    cases callers with
    | nil => cases failing
    | cons c callers =>
      obtain ⟨f, hfailed, heq⟩ := Option.map_eq_some_iff.1 failing
      cases heq
      exact ⟨_, callers, settle_of_failure hfailed c.rest callers, rfl, rfl, fun i => ⟨_, rfl⟩⟩
  | within run' work' script =>
    cases script with
    | fail failure' context =>
      cases failing
      exact ⟨_, callers, rfl, rfl, rfl, fun i => ⟨_, rfl⟩⟩
    | submit submission body handling rest =>
      obtain ⟨f, hfailed, heq⟩ := Option.map_eq_some_iff.1 failing
      cases heq
      obtain ⟨e, he⟩ := error_of_failure hfailed
      refine ⟨_, callers, settle_of_failure hfailed rest callers, rfl, rfl,
        fun i => ⟨(w.sim i).paused, ?_⟩⟩
      have hsim : (w.submit submission body).1.sim i = w.sim i :=
        congrArg (fun w : World n => w.sim i) (submit_of_refused he)
      exact hsim
    | perform j command handling rest =>
      unfold Machine.failing? at failing
      dsimp only at failing
      split at failing
      · rename_i outcome hanswer
        obtain ⟨f, hfailed, heq⟩ := Option.map_eq_some_iff.1 failing
        cases heq
        obtain ⟨e, he⟩ := error_of_failure hfailed
        have hsims : ∀ i, ∃ paused,
            ((w.command j command).1.note (.performed (.command j command) outcome)).sim i =
              { w.sim i with paused := paused } := sim_command_of_refused hanswer he
        have hstep : Machine.step ⟨w, .within run work (.perform j command handling rest),
            callers⟩ = Machine.settle (w.command j command).1 run work (.command j command)
              handling rest outcome callers := by
          dsimp only [Machine.step, Machine.stepAction]
          split
          · rename_i hcommand
            rw [hcommand] at hanswer ⊢
            cases hanswer
            rfl
          · rename_i hcommand
            rw [hcommand] at hanswer
            cases hanswer
        refine ⟨_, callers, hstep.trans (settle_of_failure hfailed rest callers), rfl, rfl, hsims⟩
      · cases failing
    | _ => cases failing

/-- The innermost run ends with an error: the answer to whoever waits for it, and the answer to the
request from outside where nobody else does. -/
structure RunFails (m : Machine n) (run : Run n) (error : Error) : Prop where
  innermost : m.runs = run :: m.step.runs
  ended : (m.step.world.sim run.sim).running = false
  answer : m.step.control = .returned (.refused error)
  outermost : m.step.runs = [] → m.step.result? = some (.refused error)

/-- **The run of an action that fails reports the failure.** -/
theorem runFails_of_failing (failing : m.failing? = some (run, work, failure)) :
    RunFails m run (failure.report work.id work.description) := by
  obtain ⟨w, callers, hstep, -, hruns, -⟩ := step_of_failing failing
  refine ⟨?_, ?_, ?_, ?_⟩
  · rw [hruns, hstep]
    rfl
  · rw [hstep]
    exact congrArg Simulation.running (sim_setSim_self _ _ _)
  · rw [hstep]
    rfl
  · rw [hstep]
    intro hnone
    have hcallers : callers = [] := List.map_eq_nil_iff.1 hnone
    rw [hcallers]
    rfl

end Step

/-! ## The runs under way -/

section Shift

/-- What a step or a request does to the runs under way. -/
inductive Shift (m m' : Machine n) : Prop where
  | stays (runs : m'.runs = m.runs)
  | begins (run : Run n) (runs : m'.runs = run :: m.runs) (idle : run.replay = none)
      (going : (m.world.sim run.sim).halted = false)
  /-- A replay begins. -/
  | replays (run run' : Run n) (rest : List (Run n)) (before : m.runs = run :: rest)
      (after : m'.runs = run' :: rest) (same : run'.sim = run.sim) (idle : run.replay = none)
  /-- A replay has nothing more to start. -/
  | closes (run : Run n) (rest : List (Run n)) (r : Replay n) (before : m.runs = run :: rest)
      (after : m'.runs = { run with replay := none } :: rest) (replay : run.replay = some r)
      (exhausted : (m.world.sim run.sim).nextReplayed r.source = none)
      (sim : m'.world.sim run.sim =
        (m.world.sim run.sim).closeReplay r.source r.release r.timers)
  | concludes (run : Run n) (runs : m.runs = run :: m'.runs) (idle : run.replay = none)
  | fails (run : Run n) (work : Work (Action n)) (failure : Failure)
      (failing : m.failing? = some (run, work, failure)) (runs : m.runs = run :: m'.runs)
      (step : m' = m.step)
  | panics (panics : m.Panics) (runs : m'.runs = [])

/-- An operation is answered: the action goes on, or fails. -/
theorem runs_settle (w : World n) (run : Run n) (work : Work (Action n)) (operation : Operation n)
    (handling : Handling) (rest : Script n) (outcome : Outcome) (callers : List (Caller n)) :
    (Machine.settle w run work operation handling rest outcome callers).runs =
        run :: callers.map Caller.run ∨
      ∃ failure, handling.failure? outcome = some failure ∧
        (Machine.settle w run work operation handling rest outcome callers).runs =
          callers.map Caller.run := by
  cases hfailed : handling.failure? outcome with
  | some failure =>
    rw [settle_of_failure hfailed]
    exact .inr ⟨failure, rfl, rfl⟩
  | none =>
    apply Or.inl
    unfold Handling.failure? at hfailed
    unfold Machine.settle
    dsimp only
    split
    · rename_i e he
      split
      · rename_i hattempt
        rw [if_pos hattempt, he] at hfailed
        cases hfailed
      · rfl
    · rfl

theorem shift_stepRun (w : World n) (run : Run n) (callers : List (Caller n)) :
    Shift ⟨w, .between run, callers⟩ (Machine.stepRun w run callers) := by
  have hstep := runStep_stepRun w run callers
  generalize Machine.stepRun w run callers = m' at hstep
  cases hstep with
  | skip r work s replay next cancelled => exact .stays rfl
  | drain r work s replay next live => exact .stays rfl
  | close r replay exhausted =>
    exact .closes run (callers.map Caller.run) r rfl rfl replay exhausted (sim_setSim_self _ _ _)
  | conclude outcome idle => exact .concludes run rfl idle
  | settle s idle going dispatch => exact .stays rfl
  | start work s idle going dispatch => exact .stays rfl
  | replay source stall s idle going dispatch =>
    exact .replays run { run with replay := some ⟨source, stall.release, stall.timers⟩ }
      (callers.map Caller.run) rfl rfl rfl idle

theorem shift_within (w : World n) (run : Run n) (work : Work (Action n)) (script : Script n)
    (callers : List (Caller n)) :
    Shift ⟨w, .within run work script, callers⟩
      (Machine.step ⟨w, .within run work script, callers⟩) := by
  cases script with
  | submit submission body handling rest =>
    rcases runs_settle (w.submit submission body).1 run work (.submit submission) handling rest
      (w.submit submission body).2 callers with hsame | ⟨failure, hfailed, hruns⟩
    · exact .stays hsame
    · refine .fails run work failure ?_ (congrArg (run :: ·) hruns.symm) rfl
      simp only [Machine.failing?, hfailed, Option.map_some]
  | perform i command handling rest =>
    generalize hm : Machine.step _ = m'
    have hstep := hm
    dsimp only [Machine.step, Machine.stepAction] at hstep
    split at hstep
    · rename_i w' outcome hcommand
      rcases runs_settle w' run work (.command i command) handling rest outcome callers with
        hsame | ⟨failure, hfailed, hruns⟩
      · exact .stays (hstep ▸ hsame)
      · refine .fails run work failure ?_ ?_ hm.symm
        · simp only [Machine.failing?, hcommand, hfailed, Option.map_some]
        · exact congrArg (run :: ·) (hstep ▸ hruns.symm)
    · rename_i w' inner hcommand
      obtain ⟨-, hidle, hgoing⟩ := run_of_command hcommand
      exact .begins inner (hstep ▸ rfl) hidle hgoing
  | fail failure context => exact .fails run work (failure.within context) rfl rfl rfl
  | panic message => exact .panics ⟨run, work, message, rfl⟩ rfl
  | _ => exact .stays rfl

/-- **What a step or a request does to the runs under way.** -/
theorem Next.shift {new : List (Fin n × Happening n)} {m m' : Machine n} (next : Next m new m') :
    Shift m m' := by
  cases next with
  | request outcome request rested =>
    have hnone : m.runs = [] := runs_of_result? rested
    cases request with
    | submit submission body => exact .stays hnone.symm
    | command i command =>
      unfold Machine.request
      dsimp only
      split
      · exact .stays hnone.symm
      · rename_i w' inner hcommand
        obtain ⟨-, hidle, hgoing⟩ := run_of_command hcommand
        exact .begins inner (by rw [hnone]; rfl) hidle hgoing
  | step =>
    obtain ⟨w, control, callers⟩ := m
    cases control with
    | between run => exact shift_stepRun w run callers
    | within run work script => exact shift_within w run work script callers
    | returned outcome =>
      cases callers with
      | nil => exact .stays rfl
      | cons c callers =>
        rcases runs_settle w c.run c.work c.operation c.handling c.rest outcome callers with
          hsame | ⟨failure, hfailed, hruns⟩
        · exact .stays hsame
        · refine .fails c.run c.work failure ?_ (congrArg (c.run :: ·) hruns.symm) rfl
          simp only [Machine.failing?, hfailed, Option.map_some]

end Shift

/-! ## Actions at work were accepted -/

section Accepted

variable {h new : List (Fin n × Happening n)} {m m' : Machine n}

/-- An action at work was at work before, or has just started. -/
theorem frame_of_next (next : Next m new m') {f : Run n × Work (Action n)} (mem : f ∈ m'.frames) :
    f ∈ m.frames ∨ ∃ time, (f.1.sim, .started f.2 time) ∈ new := by
  cases next with
  | request outcome request rested =>
    rw [(request_shape m.world request).1] at mem
    cases mem
  | step =>
    obtain ⟨w, control, callers⟩ := m
    cases control with
    | within run work script => exact .inl ((within_shape w run work script callers).1 f mem)
    | returned outcome =>
      cases callers with
      | nil => exact .inl mem
      | cons c callers =>
        exact .inl ((settle_shape w c.run c.work c.operation c.handling c.rest outcome
          callers).1 f mem)
    | between run =>
      have hentered : ∀ (s : Simulation (Action n)) (work : Work (Action n)),
          Machine.stepRun w run callers = Machine.enter (w.setSim run.sim s) run work callers →
          f ∈ Machine.frames ⟨w, .between run, callers⟩ ∨
            ∃ time, (f.1.sim, .started f.2 time) ∈
              Machine.happenings ⟨w, .between run, callers⟩ := by
        intro s work hstep
        have hmem : f ∈ (Machine.stepRun w run callers).frames := mem
        rw [hstep] at hmem
        rcases List.mem_cons.1 hmem with rfl | hmem
        · obtain ⟨-, active, depth, hjournal⟩ := enter_setSim w run s work callers
          refine .inr ⟨s.now, ?_⟩
          rw [happenings_between (hstep ▸ hjournal)]
          exact List.mem_singleton.2 rfl
        · exact .inl hmem
      have hstep := runStep_stepRun w run callers
      have hmem : f ∈ (Machine.stepRun w run callers).frames := mem
      generalize hm : Machine.stepRun w run callers = m' at hstep hmem
      cases hstep with
      | drain r work s replay next live => exact hentered s work hm
      | start work s idle going dispatch => exact hentered s work hm
      | _ => exact .inl hmem

/-- An action at work has started. -/
theorem started_of_frame (hist : History h m) {f : Run n × Work (Action n)} (mem : f ∈ m.frames) :
    f.2 ∈ (logOf f.1.sim h).started := by
  induction hist with
  | create configs procedures => cases mem
  | next hist next ih =>
    rw [logOf_append, Log.started_append, List.mem_append]
    rcases frame_of_next next mem with hmem | ⟨time, hstart⟩
    · exact .inl (ih hmem)
    · exact .inr (List.mem_filterMap.2 ⟨_, mem_logOf.2 hstart, rfl⟩)

/-- **The work of an action at work was accepted**, and so it goes by the id of its handle. -/
theorem accepted_of_frame (hist : History h m) {f : Run n × Work (Action n)} (mem : f ∈ m.frames) :
    ∃ ticket ∈ (logOf f.1.sim h).accepted, ticket.work = f.2 :=
  (hist.course f.1.sim).ledger.accepted_of_started (started_of_frame hist mem)

end Accepted

/-! ## The second of three actions fails -/

/-- An action that fails by itself. -/
def failingScript : Script 1 := .fail (.plain "") none

/-- The run that replays the second of three actions, the first of which has stalled their source
until five. -/
def secondReplayed : Run 1 := ⟨lone, 0, none, some ⟨.index 0, ⟨5⟩, .empty⟩⟩

/-- The work of that second action. -/
def secondWork (script : Script 1) : Work (Action 1) := ⟨⟨1⟩, .index 0, "", ⟨"", script⟩⟩

theorem failing_secondReplayed :
    (threeWorld stallUntilFive failingScript .sourceNow 7).failing? =
      some (secondReplayed, secondWork failingScript, .plain "") := rfl

end StallSim
