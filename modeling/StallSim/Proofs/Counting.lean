import StallSim.Proofs.Finality
import StallSim.Proofs.Tally

/-!
# What is counted and what is traced

The count of a simulation is the number of its actions that have started, and its trace is the list
of those that have started since the trace was first enabled, whatever else was done in between:
stalls, cancellations, failures, panics, and runs inside of runs.

* `Traced` — a history, with what has happened since the trace of a simulation was first enabled.
* `Bottom` — what a run that was asked for from outside will answer.
* `Accounts` — what the count, the trace and the answers of a simulation say.

Principal results: `Course.clocked` — actions start in the order of the clock; `count_of_request` —
a run answers how many actions it has started; `counts_and_trace_exact` — in every history.
-/

set_option autoImplicit false

namespace StallSim

variable {n : Nat} {i : Fin n} {w : World n} {m m' : Machine n}
  {h new later : List (Fin n × Happening n)}

/-! ## Since the trace was enabled -/

/-- What has happened since the trace was first enabled, after more has happened.  To enable it
again changes nothing. -/
def sinceEnabled (enabled : Bool) (new : List (Fin n × Happening n))
    (before : Option (List (Fin n × Happening n))) : Option (List (Fin n × Happening n)) :=
  (if enabled then some (before.getD []) else before).map (· ++ new)

/-- A history, with what has happened since the trace of the simulation `i` was first enabled, by
an action or from outside. -/
inductive Traced (i : Fin n) : List (Fin n × Happening n) →
    Option (List (Fin n × Happening n)) → Machine n → Prop where
  | create (configs : Vector (Config Source) n) (procedures : Table String (Script n)) :
      Traced i [] none (Machine.atRest (World.create configs procedures))
  | step {h : List (Fin n × Happening n)} {enabled : Option (List (Fin n × Happening n))}
      {m : Machine n} (traced : Traced i h enabled m) :
      Traced i (h ++ m.happenings)
        (sinceEnabled (m.call?.any (Request.enables i)) m.happenings enabled) m.step
  | request {h : List (Fin n × Happening n)} {enabled : Option (List (Fin n × Happening n))}
      {m : Machine n} (traced : Traced i h enabled m) (outcome : Outcome) (request : Request n)
      (rested : m.result? = some outcome) :
      Traced i (h ++ request.happenings m.world)
        (sinceEnabled (request.enables i) (request.happenings m.world) enabled)
        (Machine.request m.world request)

section Traced

variable {enabled : Option (List (Fin n × Happening n))}

theorem Traced.history (traced : Traced i h enabled m) : History h m := by
  induction traced with
  | create configs procedures => exact .create configs procedures
  | step traced ih => exact .next ih (.step _)
  | request traced outcome request rested ih => exact .next ih (.request _ outcome request rested)

/-- Every history can be followed in this way. -/
theorem History.traced (hist : History h m) (i : Fin n) : ∃ enabled, Traced i h enabled m := by
  induction hist with
  | create configs procedures => exact ⟨none, .create configs procedures⟩
  | next _ next ih =>
    obtain ⟨enabled, htraced⟩ := ih
    cases next with
    | step => exact ⟨_, htraced.step⟩
    | request outcome request rested => exact ⟨_, htraced.request outcome request rested⟩

/-- A trace that was enabled goes on. -/
theorem sinceEnabled_some (again : Bool) (new passed : List (Fin n × Happening n)) :
    sinceEnabled again new (some passed) = some (passed ++ new) := by
  cases again <;> rfl

theorem Traced.onward {passed : List (Fin n × Happening n)} (traced : Traced i h (some passed) m)
    (onward : Later m later m') : Traced i (h ++ later) (some (passed ++ later)) m' := by
  induction onward generalizing h passed with
  | refl m =>
    rw [List.append_nil, List.append_nil]
    exact traced
  | next next _ ih =>
    rw [← List.append_assoc, ← List.append_assoc]
    refine ih ?_
    cases next with
    | step => exact sinceEnabled_some _ _ passed ▸ traced.step
    | request outcome request rested =>
      exact sinceEnabled_some _ _ passed ▸ traced.request outcome request rested

theorem isSuffix_sinceEnabled {again : Bool} {passed : List (Fin n × Happening n)}
    (ends : ∀ {passed}, enabled = some passed → passed <:+ h)
    (isSome : sinceEnabled again new enabled = some passed) : passed <:+ h ++ new := by
  cases enabled with
  | none =>
    cases again <;> cases isSome
    exact List.suffix_append h new
  | some passed' =>
    rw [sinceEnabled_some] at isSome
    cases isSome
    obtain ⟨first, rfl⟩ := ends rfl
    exact ⟨first, (List.append_assoc first passed' new).symm⟩

/-- What has happened since then is the end of all that has happened. -/
theorem Traced.isSuffix {passed : List (Fin n × Happening n)} (traced : Traced i h enabled m)
    (isSome : enabled = some passed) : passed <:+ h := by
  induction traced generalizing passed with
  | create configs procedures => cases isSome
  | step _ ih => exact isSuffix_sinceEnabled ih isSome
  | request _ outcome request rested ih => exact isSuffix_sinceEnabled ih isSome

/-- **The tally of a simulation is that of the actions that have started**, and that of those that
have started since its trace was first enabled. -/
theorem Traced.tally (traced : Traced i h enabled m) :
    (m.world.sim i).processed = (logOf i h).recorded.length ∧
      (m.world.sim i).trace = enabled.map (fun passed => (logOf i passed).recorded) := by
  have hsince : ∀ {s s' : Simulation (Action n)} {h new : List (Fin n × Happening n)} {before}
      {again : Bool}, s'.tally = s.tallied again (logOf i new) →
      s.processed = (logOf i h).recorded.length ∧
        s.trace = before.map (fun passed => (logOf i passed).recorded) →
      s'.processed = (logOf i (h ++ new)).recorded.length ∧
        s'.trace =
          (sinceEnabled again new before).map (fun passed => (logOf i passed).recorded) := by
    intro s s' h new before again htally ih
    simp only [Simulation.tally, Simulation.tallied, Prod.mk.injEq, ih.1, ih.2] at htally
    rw [htally.1, htally.2]
    cases before <;> cases again <;> simp [sinceEnabled, logOf_append]
  induction traced with
  | create configs procedures =>
    simp [Machine.atRest, World.create, World.sim, Simulation.create, logOf]
  | @step _ _ m _ ih => exact hsince (tally_step m i) ih
  | @request _ _ m _ outcome request rested ih => exact hsince (tally_request m.world request i) ih

end Traced

/-! ## The instants of the starts -/

/-- A move takes the clock on, and what starts in it starts when the clock stands there. -/
theorem now_of_move {log new : Log n} {st st' : Standing n} (move : Move log st new st') :
    st.sim.now ≤ st'.sim.now ∧ ∀ e ∈ new.recorded, e.time = st'.sim.now := by
  have htake : ∀ (s : Simulation (Action n)) (turn : Option Turn) (rest : Calendar (Action n)),
      s.now ≤ (s.take turn rest).now := by
    intro s turn rest
    cases turn with
    | none => exact Nat.le_refl _
    | some k => exact Instant.le_advance s.now k.time
  cases move with
  | accept s s' r ticket admits =>
    refine ⟨?_, fun e he => by cases he⟩
    rw [admits.eq, now_lodge]
    exact Nat.le_refl _
  | intercept s turn work rest stall taken live stalled =>
    exact ⟨htake s turn rest, fun e he => by cases he⟩
  | start s turn event work rest taken isWork live free =>
    refine ⟨htake s turn rest, fun e he => ?_⟩
    cases List.mem_singleton.1 he
    rfl
  | release s turn id source rest stall taken live stalled =>
    exact ⟨htake s turn rest, fun e he => by cases he⟩
  | stale s turn id source rest taken live free =>
    exact ⟨htake s turn rest, fun e he => by cases he⟩
  | drain s r key work backlog rest replaying taken live =>
    refine ⟨Nat.le_refl _, fun e he => ?_⟩
    cases List.mem_singleton.1 he
    rfl
  | close s r =>
    refine ⟨?_, fun e he => by cases he⟩
    rw [closeReplay_eq]
    exact Nat.le_refl _
  | _ => exact ⟨Nat.le_refl _, fun e he => by cases he⟩

/-- **Actions start in the order of the clock.** -/
theorem Course.clocked {log : Log n} {st : Standing n} (course : Course log st) :
    log.recorded.Pairwise (fun a b => a.time ≤ b.time) ∧
      ∀ e ∈ log.recorded, e.time ≤ st.sim.now := by
  induction course with
  | create config => exact ⟨List.Pairwise.nil, fun e he => by cases he⟩
  | @move log new st st' _ move ih =>
    obtain ⟨hsorted, hpast⟩ := ih
    obtain ⟨hnow, hnew⟩ := now_of_move move
    have hlater : ∀ e ∈ log.recorded, e.time ≤ st'.sim.now :=
      fun e he => Nat.le_trans (hpast e he) hnow
    rw [Log.recorded_append]
    constructor
    · refine List.pairwise_append.2 ⟨hsorted, ?_, fun a ha b hb => hnew b hb ▸ hlater a ha⟩
      refine List.pairwise_iff_forall_sublist.2 fun {a b} hab => ?_
      have hboth : a.time = b.time :=
        (hnew a (hab.subset (by simp))).trans (hnew b (hab.subset (by simp))).symm
      exact hboth ▸ Nat.le_refl _
    · intro e he
      rcases List.mem_append.1 he with he | he
      · exact hlater e he
      · exact hnew e he ▸ Nat.le_refl _

/-! ## What a run answers -/

/-- A run that is under way, or has been answered: of the simulation `i`, begun when `start` actions
had started.  If the answer is a count, it is the number of those that have started since; if it is
an error, the simulation is halted. -/
inductive Bottom (i : Fin n) (start : Nat) (m : Machine n) : Prop where
  | underWay (run : Run n) (last : m.runs.getLast? = some run) (sim : run.sim = i)
      (begun : run.start = start)
  | answered (outcome : Outcome) (result : m.result? = some outcome)
      (count : ∀ c, outcome = .count c → c = (m.world.sim i).processed - start)
      (failed : ∀ e, outcome = .refused e → (m.world.sim i).halted = true ∧ e ≠ .halted)

/-- A run that ends between two actions answers how many actions it has started. -/
theorem outcome_of_stepRun {run : Run n} {callers : List (Caller n)} {outcome : Outcome}
    (ended : (Machine.stepRun w run callers).control = .returned outcome) :
    outcome = .count ((w.sim run.sim).processed - run.start) := by
  unfold Machine.stepRun at ended
  dsimp only at ended
  split at ended
  · split at ended
    · split at ended <;> cases ended
    · cases ended
  · split at ended
    · cases ended
      rfl
    · split at ended <;> cases ended
      rfl

section Bottom

variable {start : Nat} {run : Run n} {callers : List (Caller n)}

/-- The innermost run goes on above the others. -/
theorem Bottom.inner {run' : Run n} {control : Control n} {w' : World n}
    (last : (run :: callers.map Caller.run).getLast? = some run') (sim : run'.sim = i)
    (begun : run'.start = start) {goes : Run n}
    (runs : (⟨w', control, callers⟩ : Machine n).runs = goes :: callers.map Caller.run)
    (same : goes.sim = run.sim ∧ goes.start = run.start) :
    Bottom i start ⟨w', control, callers⟩ := by
  cases callers with
  | nil =>
    cases last
    exact .underWay goes (by rw [runs]; rfl) (same.1.trans sim) (same.2.trans begun)
  | cons c callers =>
    refine .underWay run' ?_ sim begun
    rw [runs, List.map_cons, List.getLast?_cons_cons]
    rwa [List.map_cons, List.getLast?_cons_cons] at last

/-- The innermost run has been answered. -/
theorem Bottom.popped {run' : Run n} {outcome : Outcome} {w' : World n}
    (last : (run :: callers.map Caller.run).getLast? = some run') (sim : run'.sim = i)
    (begun : run'.start = start)
    (count : ∀ c, outcome = .count c → c = (w'.sim run.sim).processed - run.start)
    (failed : ∀ e, outcome = .refused e → (w'.sim run.sim).halted = true ∧ e ≠ .halted) :
    Bottom i start ⟨w', .returned outcome, callers⟩ := by
  cases callers with
  | nil =>
    cases last
    subst sim begun
    exact .answered outcome rfl count failed
  | cons c callers =>
    refine .underWay run' ?_ sim begun
    rwa [List.map_cons, List.getLast?_cons_cons] at last

/-- An action that fails halts the simulation of its run, and ends the run. -/
theorem Bottom.aborted {run' : Run n} (work : Work (Action n))
    (last : (run :: callers.map Caller.run).getLast? = some run') (sim : run'.sim = i)
    (begun : run'.start = start) (failure : Failure) :
    Bottom i start (Machine.abort w run work failure callers) := by
  refine .popped last sim begun (fun c hc => by cases hc) fun e he => ⟨?_, ?_⟩
  · rw [sim_setSim_self]
    cases run.replay with
    | none => rfl
    | some r =>
      dsimp only
      rw [closeReplay_eq]
      rfl
  · obtain ⟨inner, text, cause, hreport⟩ := failure.report_eq_actionFailed work.id work.description
    rw [← Outcome.refused.inj he, hreport]
    exact Error.noConfusion

theorem Bottom.settle {run' : Run n} {work : Work (Action n)}
    (last : (run :: callers.map Caller.run).getLast? = some run') (sim : run'.sim = i)
    (begun : run'.start = start) (operation : Operation n) (handling : Handling) (rest : Script n)
    (outcome : Outcome) :
    Bottom i start (Machine.settle w run work operation handling rest outcome callers) := by
  unfold Machine.settle
  dsimp only
  split
  · split
    · exact .aborted work last sim begun _
    · exact .inner last sim begun rfl ⟨rfl, rfl⟩
  · exact .inner last sim begun rfl ⟨rfl, rfl⟩

/-- **A step keeps the run that is outermost, or answers it.** -/
theorem Bottom.step (bottom : Bottom i start m) : Bottom i start m.step := by
  cases bottom with
  | answered outcome result count failed =>
    rw [Machine.step_of_result? result]
    exact .answered outcome result count failed
  | underWay run' last sim begun =>
    obtain ⟨w, control, callers⟩ := m
    cases control with
    | between run =>
      show Bottom i start (Machine.stepRun w run callers)
      have hcount := @outcome_of_stepRun n w run callers
      have hstep := runStep_stepRun w run callers
      generalize Machine.stepRun w run callers = m' at hstep hcount
      cases hstep with
      | skip r work s replay next cancelled => exact .inner last sim begun rfl ⟨rfl, rfl⟩
      | drain r work s replay next live => exact .inner last sim begun rfl ⟨rfl, rfl⟩
      | close r replay exhausted => exact .inner last sim begun rfl ⟨rfl, rfl⟩
      | conclude outcome idle =>
        have houtcome := hcount rfl
        refine .popped last sim begun (fun c hc => ?_) fun e he => ?_
        · rw [sim_setSim_self]
          exact Outcome.count.inj (hc.symm.trans houtcome)
        · cases houtcome.symm.trans he
      | settle s idle going dispatch => exact .inner last sim begun rfl ⟨rfl, rfl⟩
      | start work s idle going dispatch => exact .inner last sim begun rfl ⟨rfl, rfl⟩
      | replay source stall s idle going dispatch => exact .inner last sim begun rfl ⟨rfl, rfl⟩
    | within run work script =>
      show Bottom i start (Machine.stepAction w run work script callers)
      cases script with
      | submit submission body handling rest => exact .settle last sim begun _ _ _ _
      | perform j command handling rest =>
        unfold Machine.stepAction
        dsimp only
        split
        · exact .settle last sim begun _ _ _ _
        · refine .underWay run' ?_ sim begun
          show (_ :: run :: callers.map Caller.run).getLast? = some run'
          rw [List.getLast?_cons_cons]
          exact last
      | fail failure context => exact .aborted work last sim begun _
      | panic message => exact .answered _ rfl (fun c hc => by cases hc) fun e he => by cases he
      | _ => exact .inner last sim begun rfl ⟨rfl, rfl⟩
    | returned outcome =>
      cases callers with
      | nil => cases last
      | cons c callers => exact .settle last sim begun _ _ _ _

theorem Bottom.steps (bottom : Bottom i start m) (k : Nat) : Bottom i start (m.steps k) := by
  induction k generalizing m with
  | zero => exact bottom
  | succ k ih => exact ih bottom.step

/-- A run that is asked for from outside is at the bottom, unless it is answered at once. -/
theorem bottom_of_request {command : Command n} (asks : command.AsksForRun)
    (going : (w.sim i).halted = false) :
    Bottom i (w.sim i).processed (Machine.request w (.command i command)) := by
  have hbegin : ∀ (w' : World n) (limit : Option Nat), (w'.sim i).halted = false →
      (w'.sim i).processed = (w.sim i).processed → w.command i command = w'.beginRun i limit →
      Bottom i (w.sim i).processed (Machine.request w (.command i command)) := by
    intro w' limit hgoing hprocessed hcommand
    unfold Machine.request
    dsimp only
    rw [hcommand]
    unfold World.beginRun Simulation.startRun
    rw [hgoing, if_neg Bool.false_ne_true]
    by_cases hidle : ((w'.sim i).running || (w'.sim i).paused) = true
    · rw [if_pos hidle]
      refine .answered _ rfl (fun c hc => ?_) fun e he => by cases he
      cases hc
      exact (Nat.sub_eq_zero_of_le (Nat.le_of_eq hprocessed)).symm
    · rw [if_neg hidle]
      exact .underWay _ rfl rfl hprocessed
  cases asks with
  | run => exact hbegin w none going rfl rfl
  | runFor limit => exact hbegin w (some limit) going rfl rfl
  | resume =>
    have hsim : (w.update i Simulation.unpause).sim i = (w.sim i).unpause := sim_setSim_self _ _ _
    exact hbegin (w.update i Simulation.unpause) none (by rw [hsim]; exact going)
      (by rw [hsim]; rfl) rfl

end Bottom

/-- The number of the actions that have started. -/
theorem History.processed (hist : History h m) (i : Fin n) :
    (m.world.sim i).processed = (logOf i h).started.length := by
  obtain ⟨enabled, htraced⟩ := hist.traced i
  rw [htraced.tally.1, Log.length_recorded]

/-- **A run that is asked for from outside answers how many actions it has started.** -/
theorem count_of_request (hist : History h m) {outcome : Outcome}
    (rested : m.result? = some outcome) {command : Command n} (asks : command.AsksForRun)
    {k c : Nat}
    (answer : ((Machine.request m.world (.command i command)).steps k).result? = some (.count c)) :
    c = (logOf i ((Machine.request m.world (.command i command)).story k)).started.length := by
  have hasked := hist.next (.request m outcome (.command i command) rested)
  have hbefore := hist.processed i
  have hafter := (hasked.steps k).processed i
  have hquiet := congrArg List.length (recorded_request m.world (.command i command) i)
  rw [Log.length_recorded] at hquiet
  simp only [logOf_append, Log.started_append, List.length_append, hquiet, List.length_nil,
    ← hbefore, Nat.add_zero] at hafter
  cases hgoing : (m.world.sim i).halted with
  | true =>
    have hrefused := refused_of_halted hgoing asks
    rw [Machine.steps_of_result? hrefused, hrefused] at answer
    cases answer
  | false =>
    cases (bottom_of_request asks hgoing).steps k with
    | underWay run last sim begun =>
      rw [runs_of_result? answer] at last
      cases last
    | answered outcome result count failed =>
      rw [count c (Option.some.inj (result.symm.trans answer)), hafter]
      omega

/-! ## Every history -/

/-- What the count, the trace and the answers of the simulation `i` say after a history.  The trace
was first enabled before what `enabled` tells of, if it was enabled. -/
structure Accounts (i : Fin n) (h : List (Fin n × Happening n))
    (enabled : Option (List (Fin n × Happening n))) (m : Machine n) : Prop where
  processed : (m.world.sim i).processed = (logOf i h).started.length
  trace : (m.world.sim i).trace = enabled.map (fun passed => (logOf i passed).recorded)
  ordered : ∀ trace, (m.world.sim i).trace = some trace →
    trace.Pairwise (fun a b => a.time ≤ b.time)
  once : (logOf i h).startedIds.Nodup
  /-- What has started is what was handed in: the id, the source and the description are those of
  the submission. -/
  accepted : ∀ work ∈ (logOf i h).started, ∃ ticket ∈ (logOf i h).accepted, ticket.work = work
  clock : ∀ new m', Next m new m' → ∀ work time, (i, .started work time) ∈ new →
    (m'.world.sim i).now = time
  counts : ∀ outcome command, m.result? = some outcome → command.AsksForRun → ∀ k c,
    ((Machine.request m.world (.command i command)).steps k).result? = some (.count c) →
    c = (logOf i ((Machine.request m.world (.command i command)).story k)).started.length

/-- **The count and the trace cover exactly the actions that started.**  In every history, with
failures and panics, the number of processed events is the number of actions that have started; the
trace has those that have started since it was first enabled, each with the clock at its start and
with the id, the source and the description it was handed in with, in the order of the clock; no
action is in it twice.  A run that is asked for from outside and ends well answers how many actions
have started meanwhile. -/
theorem counts_and_trace_exact {enabled : Option (List (Fin n × Happening n))}
    (traced : Traced i h enabled m) : Accounts i h enabled m := by
  have hist := traced.history
  have hcourse := hist.course i
  obtain ⟨-, htrace⟩ := traced.tally
  refine ⟨hist.processed i, htrace, ?_, hcourse.ledger.nodup_startedIds,
    fun work hwork => hcourse.ledger.accepted_of_started hwork, ?_,
    fun outcome command rested asks k c answer => count_of_request hist rested asks answer⟩
  · intro trace hsome
    rw [htrace, Option.map_eq_some_iff] at hsome
    obtain ⟨passed, henabled, rfl⟩ := hsome
    obtain ⟨first, hfirst⟩ := traced.isSuffix henabled
    have hsorted := hcourse.clocked.1
    rw [← hfirst, logOf_append, Log.recorded_append] at hsorted
    exact (List.pairwise_append.1 hsorted).2.1
  · intro new m' next work time hstart
    obtain ⟨-, hnow⟩ := now_of_move (move_of_started hist next hstart)
    exact (hnow ⟨time, work.id, work.source, work.description⟩
      (List.mem_filterMap.2 ⟨_, mem_logOf.2 hstart, rfl⟩)).symm

/-- The trace of the small world is enabled, and three actions of its source are handed in.  The
first enables the trace once more, asks for a run of its own, and stalls the source beyond the
second; the third is cancelled. -/
def tracedRequests : List (Request 1) :=
  [.command lone .enableTrace,
    .submit ⟨lone, .index 0, .sourceNow, "stall", none⟩
      (.perform lone .enableTrace ⟨true, none⟩
        (.perform lone .run ⟨true, none⟩
          (.perform lone (.stall (.index 0) (.at ⟨10⟩)) ⟨true, none⟩ .done))),
    .submit ⟨lone, .index 0, .sourceAt (.at ⟨5⟩), "timer", none⟩ .done,
    .submit ⟨lone, .index 0, .sourceAt (.at ⟨6⟩), "gone", some "gone"⟩ .done,
    .command lone (.cancel "gone")]

/-- The small world after these requests. -/
def tracedWorld : Machine 1 := (Machine.atRest smallWorld).ask tracedRequests

/-- The small world after it has been told to run as well. -/
def tracedRun (k : Nat) : Machine 1 :=
  (Machine.request tracedWorld.world (.command lone .run)).steps k

theorem traced_tracedRequests :
    ∃ passed, Traced lone passed (some passed) tracedWorld := by
  have hcreate := Traced.create (i := lone) #v[⟨.zero, false, [.index 0]⟩] .empty
  rw [create_small] at hcreate
  have henabled := hcreate.request .done (.command lone .enableTrace) rfl
  exact ⟨_, henabled.onward (.ask _ tracedRequests.tail rfl)⟩

/-- The first action is traced at zero and the second at ten, and the run answers two. -/
theorem counts_and_trace_exact_of_three :
    ∃ passed, Traced lone passed (some passed) tracedWorld ∧
      tracedWorld.result?.isSome = true ∧
      (tracedRun 12).result? = some (.count 2) ∧
      (logOf lone
        ((Machine.request tracedWorld.world (.command lone .run)).story 12)).started.length = 2 ∧
      ((tracedRun 12).world.sim lone).trace =
        some [⟨⟨0⟩, ⟨0⟩, .index 0, "stall"⟩, ⟨⟨10⟩, ⟨1⟩, .index 0, "timer"⟩] := by
  obtain ⟨passed, htraced⟩ := traced_tracedRequests
  have hresult : (tracedRun 12).result? = some (.count 2) := rfl
  have hcounts := (counts_and_trace_exact htraced).counts _ .run rfl .run 12 2 hresult
  exact ⟨passed, htraced, rfl, hresult, hcounts.symm, rfl⟩

end StallSim
