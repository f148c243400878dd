import StallSim.Proofs.Counting

/-!
# The bounds of the outermost run

From how many actions on a run counts, and after how many more it stops, is looked at in one place
only: by the outermost run, between two actions, outside of a replay.  Everywhere else two machines
that differ in these bounds do the same.

* `Machine.reset` — a machine with other bounds for its outermost run.
* `Run.isOver`, `Machine.goOn` — a run ends between two actions, or takes an event and goes on.
* `Machine.AtTop` — the outermost run is about to look at its bounds.
* `Simulation.Spent` — to ask for a run of the simulation changes nothing.

Principal results: `step_reset` — the bounds matter at the top only; `step_at_top` — what they do
there; `steps_reset` — a run with a limit goes along with one without, until the limit stops it.
-/

set_option autoImplicit false

namespace StallSim

variable {n : Nat} {w : World n} {run : Run n} {callers : List (Caller n)} {m : Machine n}

/-! ## Other bounds -/

/-- The run with other bounds. -/
def Run.reset (start : Nat) (limit : Option Nat) (run : Run n) : Run n :=
  { run with start := start, limit := limit }

/-- What is about to be done, with other bounds for the run it belongs to. -/
def Control.reset (start : Nat) (limit : Option Nat) : Control n → Control n
  | .between run => .between (run.reset start limit)
  | .within run work script => .within (run.reset start limit) work script
  | .returned outcome => .returned outcome

/-- The waiting actions, with other bounds for the run of the outermost. -/
def resetLast (start : Nat) (limit : Option Nat) : List (Caller n) → List (Caller n)
  | [] => []
  | [c] => [{ c with run := c.run.reset start limit }]
  | c :: d :: callers => c :: resetLast start limit (d :: callers)

/-- The machine with other bounds for its outermost run. -/
def Machine.reset (start : Nat) (limit : Option Nat) (m : Machine n) : Machine n :=
  match m.callers with
  | [] => { m with control := m.control.reset start limit }
  | c :: callers => { m with callers := resetLast start limit (c :: callers) }

section Reset

variable {start : Nat} {limit : Option Nat}

theorem result?_reset (m : Machine n) : (m.reset start limit).result? = m.result? := by
  obtain ⟨w, control, _ | ⟨c, _ | ⟨d, callers⟩⟩⟩ := m <;> cases control <;> rfl

theorem reset_of_result? {outcome : Outcome} (result : m.result? = some outcome) :
    m.reset start limit = m := by
  obtain ⟨w, control, callers⟩ := m
  cases control <;> cases callers <;> first | rfl | cases result

/-! ### The bounds do not matter to an action -/

theorem settle_reset (w : World n) (run : Run n) (work : Work (Action n))
    (operation : Operation n) (handling : Handling) (rest : Script n) (outcome : Outcome) :
    Machine.settle w (run.reset start limit) work operation handling rest outcome [] =
      (Machine.settle w run work operation handling rest outcome []).reset start limit := by
  unfold Machine.settle
  dsimp only
  split
  · split <;> rfl
  · rfl

theorem settle_resetLast (w : World n) (run : Run n) (work : Work (Action n))
    (operation : Operation n) (handling : Handling) (rest : Script n) (outcome : Outcome)
    (c : Caller n) (callers : List (Caller n)) :
    Machine.settle w run work operation handling rest outcome
        (resetLast start limit (c :: callers)) =
      (Machine.settle w run work operation handling rest outcome (c :: callers)).reset start
        limit := by
  unfold Machine.settle
  dsimp only
  split
  · split <;> rfl
  · rfl

theorem stepAction_reset (w : World n) (run : Run n) (work : Work (Action n))
    (script : Script n) :
    Machine.stepAction w (run.reset start limit) work script [] =
      (Machine.stepAction w run work script []).reset start limit := by
  cases script with
  | submit submission body handling rest => exact settle_reset _ _ _ _ _ _ _
  | perform i command handling rest =>
    unfold Machine.stepAction
    dsimp only
    split
    · exact settle_reset _ _ _ _ _ _ _
    · rfl
  | _ => rfl

theorem stepAction_resetLast (w : World n) (run : Run n) (work : Work (Action n))
    (script : Script n) (c : Caller n) (callers : List (Caller n)) :
    Machine.stepAction w run work script (resetLast start limit (c :: callers)) =
      (Machine.stepAction w run work script (c :: callers)).reset start limit := by
  have hsims : ∀ (c : Caller n), (resetLast start limit (c :: callers)).map (fun c => c.run.sim) =
      (c :: callers).map (fun c => c.run.sim) := by
    induction callers with
    | nil => exact fun c => rfl
    | cons d callers ih => exact fun c => congrArg (List.cons c.run.sim) (ih d)
  cases script with
  | submit submission body handling rest => exact settle_resetLast _ _ _ _ _ _ _ _ _
  | perform i command handling rest =>
    unfold Machine.stepAction
    dsimp only
    split
    · exact settle_resetLast _ _ _ _ _ _ _ _ _
    · rfl
  | panic message =>
    -- a panic looks at the simulations of the runs only
    have hunwind : ∀ (w : World n) (runs runs' : List (Run n)),
        runs.map Run.sim = runs'.map Run.sim → Machine.unwind w runs = Machine.unwind w runs' := by
      intro w runs runs' hsame
      have hfold : ∀ (w : World n) (runs : List (Run n)), Machine.unwind w runs =
          (runs.map Run.sim).foldl (fun w i => w.update i (fun s => s.endAction.endRun)) w := by
        intro w runs
        rw [List.foldl_map]
        rfl
      rw [hfold, hfold, hsame]
    refine congrArg (fun w => (⟨w, .returned (.panicked message), []⟩ : Machine n)) ?_
    refine hunwind w _ _ (congrArg (List.cons run.sim) ?_)
    rw [List.map_map, List.map_map]
    exact hsims c
  | _ => rfl

theorem stepRun_resetLast (w : World n) (run : Run n) (c : Caller n)
    (callers : List (Caller n)) :
    Machine.stepRun w run (resetLast start limit (c :: callers)) =
      (Machine.stepRun w run (c :: callers)).reset start limit := by
  unfold Machine.stepRun
  dsimp only
  split
  · split
    · split <;> rfl
    · rfl
  · split
    · rfl
    · split <;> rfl

theorem stepRun_reset {r : Replay n} (replaying : run.replay = some r) :
    Machine.stepRun w (run.reset start limit) [] =
      (Machine.stepRun w run []).reset start limit := by
  have hreplaying : (run.reset start limit).replay = some r := replaying
  unfold Machine.stepRun
  rw [hreplaying, replaying]
  dsimp only
  have hsim : (run.reset start limit).sim = run.sim := rfl
  rw [hsim]
  cases hnext : (w.sim run.sim).nextReplayed r.source with
  | none => rfl
  | some taken =>
    dsimp only
    split <;> rfl

/-- The outermost run is between two actions, outside of a replay. -/
def Machine.AtTop (m : Machine n) : Prop :=
  ∃ w run, m = ⟨w, .between run, []⟩ ∧ run.replay = none

/-- **The bounds of the outermost run matter at the top only.** -/
theorem step_reset (start : Nat) (limit : Option Nat) (below : ¬ m.AtTop) :
    (m.reset start limit).step = m.step.reset start limit := by
  obtain ⟨w, control, callers⟩ := m
  cases callers with
  | nil =>
    cases control with
    | between run =>
      cases hreplay : run.replay with
      | none => exact absurd ⟨w, run, rfl, hreplay⟩ below
      | some r => exact stepRun_reset hreplay
    | within run work script => exact stepAction_reset w run work script
    | returned outcome => rfl
  | cons c callers =>
    cases control with
    | between run => exact stepRun_resetLast w run c callers
    | within run work script => exact stepAction_resetLast w run work script c callers
    | returned outcome =>
      cases callers with
      | nil => exact settle_reset _ _ _ _ _ _ _
      | cons d callers => exact settle_resetLast _ _ _ _ _ _ _ _ _

end Reset

/-! ## Between two actions -/

/-- The run ends before the next event: its limit is reached, or the simulation is stopped. -/
def Run.isOver (run : Run n) (s : Simulation (Action n)) : Bool :=
  run.limit.any (fun limit => decide (limit ≤ s.processed - run.start)) || s.isStopped

/-- The run goes on after what taking an event comes to. -/
def Machine.goOn (w : World n) (run : Run n) (callers : List (Caller n)) :
    Simulation.Dispatch (Action n) → Machine n
  | .exhausted =>
    ⟨w.setSim run.sim (w.sim run.sim).endRun,
      .returned (.count ((w.sim run.sim).processed - run.start)), callers⟩
  | .settled s => ⟨w.setSim run.sim s, .between run, callers⟩
  | .start work s => enter (w.setSim run.sim s) run work callers
  | .replay source stall s =>
    ⟨w.setSim run.sim s,
      .between { run with replay := some ⟨source, stall.release, stall.timers⟩ }, callers⟩

/-- The step of a run that is not in the middle of a replay. -/
theorem stepRun_idle (idle : run.replay = none) :
    Machine.stepRun w run callers =
      .goOn w run callers
        (if run.isOver (w.sim run.sim) then .exhausted else (w.sim run.sim).dispatch) := by
  unfold Machine.stepRun
  rw [idle]
  show (if run.isOver (w.sim run.sim) = true then _ else _) = _
  split
  · rfl
  · cases (w.sim run.sim).dispatch <;> rfl

/-! ## At the top -/

/-- To ask for a run changes nothing: the simulation is stopped or has a run under way, or no event
waits. -/
def Simulation.Spent (s : Simulation (Action n)) : Prop :=
  s.isStopped = true ∨ s.running = true ∨ s.calendar.next? = none

/-- The machine whose outermost run, counted from `start` on, ends between two actions. -/
def Machine.ended (w : World n) (i : Fin n) (start : Nat) : Machine n :=
  ⟨w.setSim i (w.sim i).endRun, .returned (.count ((w.sim i).processed - start)), []⟩

theorem exhausted_iff {s : Simulation (Action n)} :
    s.dispatch = .exhausted ↔ s.calendar.next? = none := by
  cases hnext : s.calendar.next? with
  | none => simp [Simulation.dispatch, hnext]
  | some taken =>
    obtain ⟨⟨turn, event⟩, rest⟩ := taken
    rw [dispatch_eq hnext]
    cases event <;> dsimp only <;> repeat' split
    all_goals simp

/-- **What the bounds do at the top.**  Where the simulation is stopped or no event waits, the run
ends with them or without; where it can go on, it ends if its limit is reached. -/
theorem step_at_top (w : World n) {run : Run n} (idle : run.replay = none) :
    ((w.sim run.sim).endRun.Spent ∧ ∀ start limit,
      ((⟨w, .between run, []⟩ : Machine n).reset start limit).step = .ended w run.sim start) ∨
    ((w.sim run.sim).isStopped = false ∧ (w.sim run.sim).calendar.next? ≠ none) ∧
      ∃ m' : Machine n, m'.result? = none ∧ ∀ start limit,
      ((⟨w, .between run, []⟩ : Machine n).reset start limit).step =
        if limit.any (fun limit => decide (limit ≤ (w.sim run.sim).processed - start)) then
          .ended w run.sim start
        else m'.reset start limit := by
  have hstep : ∀ start limit, ((⟨w, .between run, []⟩ : Machine n).reset start limit).step =
      .goOn w (run.reset start limit) []
        (if limit.any (fun limit => decide (limit ≤ (w.sim run.sim).processed - start)) ||
          (w.sim run.sim).isStopped then .exhausted else (w.sim run.sim).dispatch) :=
    fun start limit => stepRun_idle (show (run.reset start limit).replay = none from idle)
  cases hstopped : (w.sim run.sim).isStopped with
  | true =>
    refine .inl ⟨.inl hstopped, fun start limit => ?_⟩
    rw [hstep, hstopped, Bool.or_true, if_pos rfl]
    rfl
  | false =>
    simp only [hstep, hstopped, Bool.or_false]
    cases hdispatch : (w.sim run.sim).dispatch with
    | exhausted =>
      have hempty : (w.sim run.sim).calendar.next? = none := exhausted_iff.1 hdispatch
      refine .inl ⟨.inr (.inr hempty), fun start limit => ?_⟩
      rw [ite_self]
      rfl
    | settled s =>
      have hsome : (w.sim run.sim).calendar.next? ≠ none := by simp [← exhausted_iff, hdispatch]
      refine .inr ⟨⟨trivial, hsome⟩, ⟨w.setSim run.sim s, .between run, []⟩, rfl,
        fun start limit => ?_⟩
      split <;> rfl
    | start work s =>
      have hsome : (w.sim run.sim).calendar.next? ≠ none := by simp [← exhausted_iff, hdispatch]
      refine .inr ⟨⟨trivial, hsome⟩, .enter (w.setSim run.sim s) run work [], rfl,
        fun start limit => ?_⟩
      split <;> rfl
    | replay source stall s =>
      have hsome : (w.sim run.sim).calendar.next? ≠ none := by simp [← exhausted_iff, hdispatch]
      refine .inr ⟨⟨trivial, hsome⟩, ⟨w.setSim run.sim s,
        .between { run with replay := some ⟨source, stall.release, stall.timers⟩ }, []⟩, rfl,
        fun start limit => ?_⟩
      split <;> rfl

/-! ## Side by side -/

/-- A run that ends below the top ends with a failure or a panic. -/
theorem refused_of_step (below : ¬ m.AtTop) (going : m.result? = none) {outcome : Outcome}
    (result : m.step.result? = some outcome) :
    (∃ e, outcome = .refused e) ∨ ∃ message, outcome = .panicked message := by
  have hsettle : ∀ (w : World n) (run : Run n) (work : Work (Action n)) (operation : Operation n)
      (handling : Handling) (rest : Script n) (answer : Outcome) (callers : List (Caller n)),
      (Machine.settle w run work operation handling rest answer callers).result? = some outcome →
      ∃ e, outcome = .refused e := by
    intro w run work operation handling rest answer callers hresult
    unfold Machine.settle at hresult
    dsimp only at hresult
    split at hresult
    · split at hresult
      · cases callers <;> cases hresult
        exact ⟨_, rfl⟩
      · cases hresult
    · cases hresult
  obtain ⟨w, control, callers⟩ := m
  cases control with
  | between run =>
    change (Machine.stepRun w run callers).result? = some outcome at result
    have hstep := runStep_stepRun w run callers
    generalize Machine.stepRun w run callers = m' at hstep result
    cases hstep with
    | conclude answer idle =>
      cases callers with
      | nil => exact absurd ⟨w, run, rfl, idle⟩ below
      | cons c callers => cases result
    | _ => cases result
  | within run work script =>
    cases script with
    | submit submission body handling rest => exact .inl (hsettle _ _ _ _ _ _ _ _ result)
    | perform i command handling rest =>
      change (Machine.stepAction w run work (.perform i command handling rest) callers).result? =
        some outcome at result
      unfold Machine.stepAction at result
      dsimp only at result
      split at result
      · exact .inl (hsettle _ _ _ _ _ _ _ _ result)
      · cases result
    | fail failure context =>
      cases callers <;> cases result
      exact .inl ⟨_, rfl⟩
    | panic message =>
      cases result
      exact .inr ⟨message, rfl⟩
    | _ => cases result
  | returned answer =>
    cases callers with
    | nil => cases going
    | cons c callers => exact .inl (hsettle _ _ _ _ _ _ _ _ result)

/-- What becomes of a run with a limit, while the same run without one comes to an end in `k`
steps. -/
inductive GoesAlong (m : Machine n) (start : Nat) (start' : Nat) (limit : Option Nat) (k : Nat)
    (outcome : Outcome) : Prop where
  /-- The limit stops it on the way. -/
  | stopped (j : Nat) (earlier : j < k) (w : World n) (run : Run n) (idle : run.replay = none)
      (limited : limit ≠ none) (going : (w.sim run.sim).isStopped = false)
      (here : (m.reset start none).steps j = (⟨w, .between run, []⟩ : Machine n).reset start none)
      (ends : (m.reset start' limit).steps (j + 1) = .ended w run.sim start')
  /-- Both end in the same way, between two actions. -/
  | ended (j : Nat) (earlier : j < k) (w : World n) (run : Run n) (idle : run.replay = none)
      (spent : (w.sim run.sim).endRun.Spent)
      (here : (m.reset start none).steps j = (⟨w, .between run, []⟩ : Machine n).reset start none)
      (free : (m.reset start none).steps k = .ended w run.sim start)
      (ends : (m.reset start' limit).steps k = .ended w run.sim start')
  /-- Both end with the same error. -/
  | failed (e : Error) (error : outcome = .refused e)
      (ends : (m.reset start' limit).steps k = (m.reset start none).steps k)

/-- **A run with a limit goes along with one without**, until the limit stops it. -/
theorem steps_reset (start start' : Nat) (limit : Option Nat) {k : Nat} {outcome : Outcome}
    (going : m.result? = none) (result : ((m.reset start none).steps k).result? = some outcome)
    (calm : ∀ message, outcome ≠ .panicked message) :
    GoesAlong m start start' limit k outcome := by
  induction k generalizing m with
  | zero =>
    rw [Machine.steps, result?_reset, going] at result
    cases result
  | succ k ih =>
    have honward : ∀ {m' : Machine n}, m'.result? = none →
        (m.reset start none).step = m'.reset start none →
        (m.reset start' limit).step = m'.reset start' limit →
        GoesAlong m start start' limit (k + 1) outcome := by
      intro m' hgoing hfree hlimited
      rw [Machine.steps, hfree] at result
      cases ih hgoing result with
      | stopped j earlier w run idle limited going here ends =>
        refine .stopped (j + 1) (Nat.succ_lt_succ earlier) w run idle limited going ?_ ?_
        · rw [Machine.steps, hfree, here]
        · rw [Machine.steps, hlimited, ends]
      | ended j earlier w run idle spent here free ends =>
        refine .ended (j + 1) (Nat.succ_lt_succ earlier) w run idle spent ?_ ?_ ?_
        · rw [Machine.steps, hfree, here]
        · rw [Machine.steps, hfree, free]
        · rw [Machine.steps, hlimited, ends]
      | failed e error ends =>
        refine .failed e error ?_
        rw [Machine.steps, Machine.steps, hfree, hlimited, ends]
    by_cases htop : m.AtTop
    · obtain ⟨w, run, rfl, hidle⟩ := htop
      rcases step_at_top w hidle with ⟨hspent, hended⟩ | ⟨⟨hstopped, -⟩, m', hgoing, hstep⟩
      · have hsteps : ∀ start limit, ((⟨w, .between run, []⟩ : Machine n).reset start limit).steps
            (k + 1) = .ended w run.sim start := by
          intro start limit
          rw [Machine.steps, hended]
          exact Machine.steps_of_result? rfl k
        exact .ended 0 (Nat.succ_pos k) w run hidle hspent rfl (hsteps start none)
          (hsteps start' limit)
      · by_cases hlimit : limit.any
            (fun limit => decide (limit ≤ (w.sim run.sim).processed - start')) = true
        · refine .stopped 0 (Nat.succ_pos k) w run hidle ?_ hstopped rfl ?_
          · rintro rfl
            cases hlimit
          · rw [Machine.steps, hstep, if_pos hlimit]
            rfl
        · refine honward hgoing ?_ ?_
          · rw [hstep]
            rfl
          · rw [hstep, if_neg hlimit]
    · have hfree := step_reset start none htop
      have hlimited := step_reset start' limit htop
      cases hnext : m.step.result? with
      | none => exact honward hnext hfree hlimited
      | some answer =>
        rw [reset_of_result? hnext] at hfree hlimited
        rw [Machine.steps, hfree, Machine.steps_of_result? hnext, hnext] at result
        cases result
        rcases refused_of_step htop going hnext with ⟨e, he⟩ | ⟨message, hpanic⟩
        · refine .failed e he ?_
          rw [Machine.steps, Machine.steps, hfree, hlimited]
        · exact absurd hpanic (calm message)

end StallSim
