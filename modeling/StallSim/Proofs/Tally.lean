import StallSim.Proofs.Steps

/-!
# The tally of a simulation

A simulation counts the actions that start, and writes them down once its trace was enabled.  Work
that is parked, taken back from a source, or dropped because it was cancelled, and the releases of
stalled sources, leave no mark in either.

* `Log.recorded` — the starts of a log, as a trace has them.
* `Simulation.tally` — the count and the trace of a simulation.
* `Simulation.tallied` — the tally after further starts.

Principal results: `tally_step`, `tally_request` — what a step and a request do to the tally.
-/

set_option autoImplicit false

namespace StallSim

variable {n : Nat} {i j : Fin n} {w : World n} {m : Machine n} {s s' : Simulation (Action n)}

/-! ## The starts of a log -/

/-- The start that a happening is, as a trace has it. -/
def Happening.entry? : Happening n → Option (TraceEntry Source)
  | .started work time => some ⟨time, work.id, work.source, work.description⟩
  | _ => none

/-- The starts, as a trace has them. -/
def Log.recorded (log : Log n) : Trace := log.filterMap Happening.entry?

@[simp] theorem Log.recorded_nil : Log.recorded ([] : Log n) = [] := rfl

@[simp] theorem Log.recorded_append (a b : Log n) :
    Log.recorded (a ++ b) = a.recorded ++ b.recorded := List.filterMap_append

theorem Log.length_recorded (log : Log n) : log.recorded.length = log.started.length := by
  induction log with
  | nil => rfl
  | cons x log ih =>
    cases x <;> simpa [Log.recorded, Log.started, Happening.entry?, List.filterMap_cons] using ih

/-- Only starts are recorded. -/
theorem Log.recorded_eq_nil {log : Log n} (none : ∀ work time, .started work time ∉ log) :
    log.recorded = [] := by
  refine List.filterMap_eq_nil_iff.2 fun x hx => ?_
  cases x with
  | started work time => exact absurd hx (none work time)
  | _ => rfl

/-- By itself a request starts nothing. -/
theorem recorded_request (w : World n) (request : Request n) (i : Fin n) :
    (logOf i (request.happenings w)).recorded = [] := by
  refine Log.recorded_eq_nil fun work time hmem => ?_
  rcases mem_happenings_request (mem_logOf.1 hmem) with ⟨_, hx⟩ | ⟨_, _, _, _, _, -, -, hx, -⟩ <;>
    cases hx

/-- Nothing starts in a step that the journal tells no start of. -/
theorem recorded_hushed (hushed : Hushed m) (i : Fin n) : (logOf i m.happenings).recorded = [] := by
  refine Log.recorded_eq_nil fun work time hmem => ?_
  have hall := mem_logOf.1 hmem
  rw [Machine.happenings, hushed.starts, List.append_nil, List.mem_append] at hall
  rcases hall with hcall | hunwind
  · cases hrequest : m.call? with
    | none => simp [hrequest] at hcall
    | some request =>
      have hnone := recorded_request m.world request i
      rw [hrequest] at hcall
      have hentry : (⟨time, work.id, work.source, work.description⟩ : TraceEntry Source) ∈
          (logOf i (request.happenings m.world)).recorded :=
        List.mem_filterMap.2 ⟨_, mem_logOf.2 hcall, rfl⟩
      simp [hnone] at hentry
  · cases (mem_unwinds hunwind).1

/-! ## What operations leave alone -/

/-- The simulation after an event was taken. -/
def Simulation.Dispatch.sim? : Dispatch (Action n) → Option (Simulation (Action n))
  | .exhausted => none
  | .settled s => some s
  | .start _ s => some s
  | .replay _ _ s => some s

/-- Taking an event changes the calendar, the clock and the phases, and nothing else. -/
theorem dispatch_frame (taken : s.dispatch.sim? = some s') : ∃ e calendar now phases,
    s.calendar.next? = some (e, calendar) ∧
      s' = { s with calendar := calendar, now := now, phases := phases } := by
  cases hnext : s.calendar.next? with
  | none =>
    unfold Simulation.dispatch at taken
    rw [hnext] at taken
    cases taken
  | some found =>
    obtain ⟨⟨turn, event⟩, rest⟩ := found
    refine ⟨(turn, event), rest, s'.now, s'.phases, rfl, ?_⟩
    rw [dispatch_eq hnext] at taken
    split at taken
    · cases taken
      rfl
    · cases event with
      | direct work =>
        cases taken
        rfl
      | routed work =>
        dsimp only at taken
        split at taken <;> cases taken <;> rfl
      | release id source =>
        dsimp only at taken
        split at taken <;> cases taken <;> rfl

/-- Taking work from a backlog changes the phases only. -/
theorem nextReplayed_frame {source : Source} {work : Work (Action n)}
    (next : s.nextReplayed source = some (work, s')) : ∃ phases, s' = { s with phases := phases } := by
  unfold Simulation.nextReplayed at next
  split at next
  · simp only [Option.map_eq_some_iff, Prod.mk.injEq] at next
    obtain ⟨_, _, _, rfl⟩ := next
    exact ⟨_, rfl⟩
  · cases next

/-- Letting work wait changes the calendar, the phases and the next id. -/
theorem lodge_frame (s : Simulation (Action n)) (ticket : Ticket n) : ∃ calendar nextId phases,
    s.issue.lodge ticket =
      { s with calendar := calendar, nextId := nextId, phases := phases } := by
  have hplaced := placed_lodge s ticket
  generalize s.issue.lodge ticket = s' at hplaced
  cases hplaced <;> exact ⟨_, _, _, rfl⟩

/-! ## The tally of a simulation -/

/-- What a simulation says of the actions that have started: how many, and which. -/
def Simulation.tally (s : Simulation (Action n)) : Nat × Option Trace := (s.processed, s.trace)

/-- The tally after these starts, if the trace was enabled before them or not. -/
def Simulation.tallied (s : Simulation (Action n)) (enabled : Bool) (log : Log n) :
    Nat × Option Trace :=
  (s.processed + log.recorded.length,
    (if enabled then some (s.trace.getD []) else s.trace).map (· ++ log.recorded))

@[simp] theorem tallied_nil (s : Simulation (Action n)) : s.tallied false [] = s.tally := by
  simp [Simulation.tallied, Simulation.tally]

/-- Where nothing starts, the tally stays as it is. -/
theorem tallied_of_recorded {log : Log n} (enabled : Bool) (none : log.recorded = []) :
    s.tallied enabled log = s.tallied enabled [] := by
  simp [Simulation.tallied, none]

theorem tally_lodge (s : Simulation (Action n)) (ticket : Ticket n) :
    (s.issue.lodge ticket).tally = s.tally := by
  obtain ⟨_, _, _, hlodge⟩ := lodge_frame s ticket
  rw [hlodge]
  rfl

theorem tally_nextReplayed {source : Source} {work : Work (Action n)}
    (next : s.nextReplayed source = some (work, s')) : s'.tally = s.tally := by
  obtain ⟨_, rfl⟩ := nextReplayed_frame next
  rfl

theorem tally_startAction (s : Simulation (Action n)) (work : Work (Action n)) :
    (s.startAction work).tally = s.tallied false [.started work s.now] := rfl

/-- Taking an event does not touch the tally. -/
theorem tally_dispatch (taken : s.dispatch.sim? = some s') : s'.tally = s.tally := by
  obtain ⟨_, _, _, _, -, rfl⟩ := dispatch_frame taken
  rfl

/-! ### Operations on worlds -/

theorem tally_setSim (same : s.tally = (w.sim j).tally) (i : Fin n) :
    ((w.setSim j s).sim i).tally = (w.sim i).tally := by
  rw [World.sim_setSim]
  split
  · rename_i hij
    rw [same, hij]
  · rfl

theorem tally_submit (w : World n) (submission : Submission n) (body : Script n) (i : Fin n) :
    ((w.submit submission body).1.sim i).tally = (w.sim i).tally := by
  rcases w.submit_cases submission body with ⟨hw, -⟩ | ⟨ticket, s', hadmits, -, hw⟩
  · rw [hw]
  · rw [hw]
    have hset := tally_setSim (hadmits.eq ▸ tally_lodge (w.sim submission.sim) ticket) i
    cases submission.handle <;> exact hset

theorem tally_beginRun (w : World n) (j : Fin n) (limit : Option Nat) (i : Fin n) :
    ((w.beginRun j limit).1.sim i).tally = (w.sim i).tally := by
  unfold World.beginRun
  cases hstart : (w.sim j).startRun with
  | error e => rfl
  | ok started =>
    cases started with
    | none => rfl
    | some s =>
      unfold Simulation.startRun at hstart
      split at hstart
      · cases hstart
      · split at hstart <;> cases hstart
        exact tally_setSim (by rfl) i

/-- The request enables the trace of the simulation `i`. -/
def Request.enables (i : Fin n) : Request n → Bool
  | .command j .enableTrace => decide (j = i)
  | _ => false

/-- A command enables a trace, or does not touch the tally. -/
theorem tally_command (w : World n) (j : Fin n) (command : Command n) (i : Fin n) :
    ((w.command j command).1.sim i).tally =
      (w.sim i).tallied ((Request.command j command).enables i) [] := by
  cases command with
  | stall source release =>
    refine Eq.trans ?_ (tallied_nil _).symm
    show ((w.stall j source release).1.sim i).tally = _
    rcases w.stall_cases j source release with ⟨hw, -⟩ | ⟨t, s', hs, -, hw⟩
    · rw [hw]
    · obtain ⟨backlog, -, -, -, -, rfl⟩ := stallUntil_eq_ok hs
      rw [hw]
      exact tally_setSim (by rfl) i
  | cancel name =>
    refine Eq.trans ?_ (tallied_nil _).symm
    show ((w.cancel name).1.sim i).tally = _
    unfold World.cancel
    split
    · rfl
    · exact tally_setSim (by rfl) i
  | pause => exact (tally_setSim (by rfl) i).trans (tallied_nil _).symm
  | halt => exact (tally_setSim (by rfl) i).trans (tallied_nil _).symm
  | enableTrace =>
    show ((w.setSim j (w.sim j).enableTrace).sim i).tally = (w.sim i).tallied (decide (j = i)) []
    rw [World.sim_setSim]
    split
    · rename_i hij
      subst hij
      simp [Simulation.tallied, Simulation.tally, Simulation.enableTrace]
    · rename_i hij
      simp [hij]
  | run => exact (tally_beginRun w j none i).trans (tallied_nil _).symm
  | runFor limit => exact (tally_beginRun w j (some limit) i).trans (tallied_nil _).symm
  | resume =>
    refine ((tally_beginRun _ j none i).trans ?_).trans (tallied_nil _).symm
    exact tally_setSim (by rfl) i
  | _ => exact (tallied_nil _).symm

theorem tally_abort (w : World n) (run : Run n) (work : Work (Action n)) (failure : Failure)
    (callers : List (Caller n)) (i : Fin n) :
    ((Machine.abort w run work failure callers).world.sim i).tally = (w.sim i).tally := by
  refine tally_setSim ?_ i
  cases run.replay with
  | none => rfl
  | some r =>
    dsimp only
    rw [closeReplay_eq]
    rfl

theorem tally_settle (w : World n) (run : Run n) (work : Work (Action n))
    (operation : Operation n) (handling : Handling) (rest : Script n) (outcome : Outcome)
    (callers : List (Caller n)) (i : Fin n) :
    ((Machine.settle w run work operation handling rest outcome callers).world.sim i).tally =
      (w.sim i).tally := by
  unfold Machine.settle
  dsimp only
  split
  · split
    · exact tally_abort (w.note _) run work _ callers i
    · rfl
  · rfl

theorem tally_unwind (w : World n) (runs : List (Run n)) (i : Fin n) :
    ((Machine.unwind w runs).sim i).tally = (w.sim i).tally := by
  unfold Machine.unwind
  induction runs generalizing w with
  | nil => rfl
  | cons run runs ih =>
    rw [List.foldl_cons, ih]
    exact tally_setSim (by rfl) i

/-! ### Steps and requests -/

/-- An action of the innermost run starts. -/
theorem tally_enter (w : World n) (run : Run n) (s : Simulation (Action n))
    (work : Work (Action n)) (callers : List (Caller n)) (same : s.tally = (w.sim run.sim).tally)
    (i : Fin n) :
    ((Machine.enter (w.setSim run.sim s) run work callers).world.sim i).tally =
      (w.sim i).tallied false (logOf i (tag run.sim [.started work s.now])) := by
  rw [enter_eq, logOf_tag]
  show ((w.setSim run.sim (s.startAction work)).sim i).tally = _
  rw [World.sim_setSim]
  split
  · rename_i hi
    subst hi
    rw [tally_startAction]
    simp only [Simulation.tally, Prod.mk.injEq] at same
    simp [Simulation.tallied, same.1, same.2]
  · exact (tallied_nil _).symm

theorem tally_stepRun (w : World n) (run : Run n) (callers : List (Caller n)) (i : Fin n) :
    ((Machine.stepRun w run callers).world.sim i).tally =
      (w.sim i).tallied false (logOf i (Machine.happenings ⟨w, .between run, callers⟩)) := by
  have hquiet : ∀ {m : Machine n}, Machine.stepRun w run callers = m →
      m.world.journal = w.journal →
      logOf i (Machine.happenings ⟨w, .between run, callers⟩) = [] := by
    intro m hm hjournal
    have hextra : (Machine.stepRun w run callers).world.journal = w.journal ++ [] := by
      rw [hm, hjournal, List.append_nil]
    rw [happenings_between hextra]
    rfl
  have hsame : ∀ {s : Simulation (Action n)} {control : Control n},
      Machine.stepRun w run callers = ⟨w.setSim run.sim s, control, callers⟩ →
      s.tally = (w.sim run.sim).tally → ((w.setSim run.sim s).sim i).tally =
        (w.sim i).tallied false (logOf i (Machine.happenings ⟨w, .between run, callers⟩)) := by
    intro s control hm same
    rw [hquiet hm rfl, tallied_nil]
    exact tally_setSim same i
  have hstarts : ∀ {s : Simulation (Action n)} {work : Work (Action n)},
      Machine.stepRun w run callers = Machine.enter (w.setSim run.sim s) run work callers →
      s.tally = (w.sim run.sim).tally →
      ((Machine.enter (w.setSim run.sim s) run work callers).world.sim i).tally =
        (w.sim i).tallied false (logOf i (Machine.happenings ⟨w, .between run, callers⟩)) := by
    intro s work hm same
    obtain ⟨-, active, depth, hjournal⟩ := enter_setSim w run s work callers
    rw [happenings_between (hm ▸ hjournal)]
    exact tally_enter w run s work callers same i
  have hstep := runStep_stepRun w run callers
  generalize hm : Machine.stepRun w run callers = m' at hstep
  cases hstep with
  | skip r work s replay next cancelled => exact hsame hm (tally_nextReplayed next)
  | drain r work s replay next live => exact hstarts hm (tally_nextReplayed next)
  | close r replay exhausted =>
    refine hsame hm ?_
    rw [closeReplay_eq]
    rfl
  | conclude outcome idle => exact hsame hm rfl
  | settle s idle going dispatch => exact hsame hm (tally_dispatch (by rw [dispatch]; rfl))
  | start work s idle going dispatch => exact hstarts hm (tally_dispatch (by rw [dispatch]; rfl))
  | replay source stall s idle going dispatch =>
    exact hsame hm (tally_dispatch (by rw [dispatch]; rfl))

theorem tally_stepAction (w : World n) (run : Run n) (work : Work (Action n)) (script : Script n)
    (callers : List (Caller n)) (i : Fin n) :
    ((Machine.stepAction w run work script callers).world.sim i).tally =
      (w.sim i).tallied
        ((Machine.call? ⟨w, .within run work script, callers⟩).any (Request.enables i)) [] := by
  cases script with
  | done => exact (tally_setSim (by rfl) i).trans (tallied_nil _).symm
  | submit submission body handling rest =>
    refine ((tally_settle _ _ _ _ _ _ _ _ i).trans ?_).trans (tallied_nil _).symm
    exact tally_submit w submission body i
  | perform j command handling rest =>
    have hcommand := tally_command w j command i
    unfold Machine.stepAction
    dsimp only
    split
    · rename_i w' outcome heq
      rw [heq] at hcommand
      exact (tally_settle _ _ _ _ _ _ _ _ i).trans hcommand
    · rename_i w' inner heq
      rw [heq] at hcommand
      exact hcommand
  | call name rest => exact (tallied_nil _).symm
  | whenBefore j limit body rest => exact (tallied_nil _).symm
  | fail failure context =>
    exact (tally_abort (w.note _) run work _ callers i).trans (tallied_nil _).symm
  | panic message => exact (tally_unwind w _ i).trans (tallied_nil _).symm

/-- **A step counts and records the actions that it starts**, and nothing else. -/
theorem tally_step (m : Machine n) (i : Fin n) :
    (m.step.world.sim i).tally =
      (m.world.sim i).tallied (m.call?.any (Request.enables i)) (logOf i m.happenings) := by
  obtain ⟨w, control, callers⟩ := m
  cases control with
  | between run => exact tally_stepRun w run callers i
  | within run work script =>
    rw [tallied_of_recorded _ (recorded_hushed (hushed_within w run work script callers) i)]
    exact tally_stepAction w run work script callers i
  | returned outcome =>
    rw [tallied_of_recorded _ (recorded_hushed (hushed_returned w outcome callers) i)]
    refine Eq.trans ?_ (tallied_nil _).symm
    cases callers with
    | nil => rfl
    | cons c callers => exact tally_settle _ _ _ _ _ _ _ _ i

/-- A request from outside starts nothing by itself. -/
theorem tally_request (w : World n) (request : Request n) (i : Fin n) :
    ((Machine.request w request).world.sim i).tally =
      (w.sim i).tallied (request.enables i) (logOf i (request.happenings w)) := by
  rw [tallied_of_recorded _ (recorded_request w request i)]
  cases request with
  | submit submission body => exact (tally_submit w submission body i).trans (tallied_nil _).symm
  | command j command =>
    have hcommand := tally_command w j command i
    dsimp only [Machine.request]
    split
    · rename_i w' outcome heq
      rw [heq] at hcommand
      exact hcommand
    · rename_i w' inner heq
      rw [heq] at hcommand
      exact hcommand

end StallSim
