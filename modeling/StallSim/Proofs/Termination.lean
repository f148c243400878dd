import Mathlib.Algebra.BigOperators.Group.Finset.Piecewise
import StallSim.Proofs.Clock
import StallSim.Proofs.Descent
import StallSim.Proofs.Presence

/-!
# Runs of finite programs return

A run goes on while there is something due and nothing stops it.  If all that waits is finite, the
rank of the machine goes down with every step until the run returns, whatever the actions do with
pauses: a source may be stalled until the present instant, again from an action that its own release
replays, and together with others.

* `Machine.Finite` — what waits in these simulations is finite.
* `Busy`, `Ended` — a run is under way above the callers `base`, or it has returned to them.
* `Replaying`, `Replayed` — a run is in the middle of a replay, or is not any more.
* `Resumed` — an action that has called a run goes on with its answer.

Principal results: `Bounded.step` — a step ends the run or brings the rank down; `Bounded.ends` —
the run returns; `finite_programs_return` — every run, every replay, and every call of a run.
-/

set_option autoImplicit false

namespace StallSim

variable {n : Nat}

/-! ## Procedures -/

section Procedures

theorem procedures_submit (w : World n) (submission : Submission n) (body : Script n) :
    (w.submit submission body).1.procedures = w.procedures := by
  rcases w.submit_cases submission body with ⟨hw, -⟩ | ⟨ticket, s', -, -, hw⟩
  · rw [hw]
  · rw [hw]
    cases submission.handle <;> rfl

theorem procedures_beginRun (w : World n) (i : Fin n) (limit : Option Nat) :
    (w.beginRun i limit).1.procedures = w.procedures := by
  unfold World.beginRun
  split <;> rfl

theorem procedures_command (w : World n) (i : Fin n) (command : Command n) :
    (w.command i command).1.procedures = w.procedures := by
  cases command with
  | stall source release =>
    rcases w.stall_cases i source release with ⟨hw, -⟩ | ⟨t, s', -, -, hw⟩
    · exact congrArg World.procedures hw
    · exact congrArg (fun r => World.procedures r.1) hw
  | cancel name =>
    show (w.cancel name).1.procedures = _
    unfold World.cancel
    split <;> rfl
  | run => exact procedures_beginRun w i none
  | runFor limit => exact procedures_beginRun w i (some limit)
  | resume => exact procedures_beginRun (w.update i Simulation.unpause) i none
  | _ => rfl

theorem procedures_settle (w : World n) (run : Run n) (work : Work (Action n))
    (operation : Operation n) (handling : Handling) (rest : Script n) (outcome : Outcome)
    (callers : List (Caller n)) :
    (Machine.settle w run work operation handling rest outcome callers).world.procedures =
      w.procedures := by
  cases hfailed : handling.failure? outcome with
  | some failure =>
    rw [settle_of_failure hfailed]
    rfl
  | none =>
    rw [settle_of_success hfailed]
    rfl

theorem procedures_unwind (w : World n) (runs : List (Run n)) :
    (Machine.unwind w runs).procedures = w.procedures := by
  unfold Machine.unwind
  induction runs generalizing w with
  | nil => rfl
  | cons run runs ih => exact ih _

/-- Procedures stay as they were given. -/
theorem procedures_step (m : Machine n) : m.step.world.procedures = m.world.procedures := by
  obtain ⟨w, control, callers⟩ := m
  cases control with
  | between run =>
    show (Machine.stepRun w run callers).world.procedures = w.procedures
    have hstep := runStep_stepRun w run callers
    generalize Machine.stepRun w run callers = m' at hstep
    cases hstep <;> rfl
  | within run work script =>
    show (Machine.stepAction w run work script callers).world.procedures = w.procedures
    cases script with
    | submit submission body handling rest =>
      exact (procedures_settle _ _ _ _ _ _ _ _).trans (procedures_submit w submission body)
    | perform i command handling rest =>
      have hcommand := procedures_command w i command
      unfold Machine.stepAction
      dsimp only
      split
      · rename_i w' outcome heq
        rw [heq] at hcommand
        exact (procedures_settle _ _ _ _ _ _ _ _).trans hcommand
      · rename_i w' inner heq
        rw [heq] at hcommand
        exact hcommand
    | panic message => exact procedures_unwind w _
    | _ => rfl
  | returned outcome =>
    cases callers with
    | nil => rfl
    | cons c callers => exact procedures_settle _ _ _ _ _ _ _ _

end Procedures

/-! ## What is handed in -/

section HandedIn

variable {m m' : Machine n} {h new : List (Fin n × Happening n)} {i : Fin n}
  {cost : Script n → Nat} {among : Finset (Fin n)}

theorem accepted_eq_nil (silent : ∀ x ∈ new, ∀ ticket, x.2 ≠ .accepted ticket) (i : Fin n) :
    (logOf i new).accepted = [] := by
  apply List.filterMap_eq_nil_iff.2
  intro x hx
  have hsilent := silent (i, x) (mem_logOf.1 hx)
  cases x with
  | accepted ticket => exact absurd rfl (hsilent ticket)
  | _ => rfl

/-- In a step only the operation that an action calls hands something in. -/
theorem accepted_happenings (m : Machine n) (i : Fin n) :
    (logOf i m.happenings).accepted =
      (logOf i ((m.call?.map (Request.happenings m.world)).getD [])).accepted := by
  have hstarts : (logOf i m.starts).accepted = [] := by
    apply accepted_eq_nil
    intro x hx ticket
    obtain ⟨record, -, hstart⟩ := List.mem_filterMap.1 hx
    cases record <;> cases hstart
    exact fun heq => by cases heq
  have hunwinds : (logOf i m.unwinds).accepted = [] := by
    apply accepted_eq_nil
    intro x hx ticket
    rw [(mem_unwinds hx).1]
    exact fun heq => by cases heq
  simp only [Machine.happenings, logOf_append, Log.accepted_append, hstarts, hunwinds,
    List.append_nil]

/-- A command hands nothing in. -/
theorem accepted_of_command (w : World n) (j : Fin n) (command : Command n) (i : Fin n) :
    (logOf i ((Request.command j command).happenings w)).accepted = [] := by
  apply accepted_eq_nil
  intro x hx ticket
  cases command with
  | stall source release =>
    dsimp only [Request.happenings] at hx
    rcases w.stall_cases j source release with ⟨-, hnew⟩ | ⟨_, _, -, hnew, -⟩
    · rw [hnew] at hx
      cases hx
    · rw [hnew] at hx
      cases List.mem_singleton.1 hx
      exact fun heq => by cases heq
  | _ => cases hx

/-- A submission hands in its own action, in its own simulation. -/
theorem accepted_of_submit (w : World n) (submission : Submission n) (body : Script n)
    (i : Fin n) :
    (logOf i ((Request.submit submission body).happenings w)).accepted = [] ∨
      submission.sim = i ∧ ∃ ticket, ticket.work.action.script = body ∧
        (logOf i ((Request.submit submission body).happenings w)).accepted = [ticket] := by
  dsimp only [Request.happenings, World.acceptance]
  split
  · rename_i id _
    by_cases hsim : submission.sim = i
    · exact .inr ⟨hsim, submission.ticket body (w.sim submission.sim).now id, rfl,
        by simp [logOf, Log.accepted, hsim]⟩
    · exact .inl (by simp [logOf, Log.accepted, hsim])
  · exact .inl rfl

/-- The worth of what the next step hands in. -/
def Machine.supply (cost : Script n → Nat) (among : Finset (Fin n)) (m : Machine n) : Nat :=
  ∑ i ∈ among, worth cost (logOf i m.happenings).handedIn

theorem supply_of_submit (cost : Script n → Nat) (among : Finset (Fin n)) {submission : Submission n} {body : Script n}
    (called : m.call? = some (.submit submission body)) :
    m.supply cost among ≤ if submission.sim ∈ among then cost body + 1 else 0 := by
  have hbound : ∀ i, worth cost (logOf i m.happenings).handedIn ≤
      if submission.sim = i then cost body + 1 else 0 := by
    intro i
    rw [Log.handedIn, accepted_happenings, called]
    rcases accepted_of_submit m.world submission body i with hnone | ⟨hsim, ticket, rfl, hone⟩
    · simp only [Option.map_some, Option.getD_some, hnone, List.map_nil, worth_nil]
      exact Nat.zero_le _
    · simp [hone, hsim]
  calc m.supply cost among
      ≤ ∑ i ∈ among, (if submission.sim = i then cost body + 1 else 0) :=
        Finset.sum_le_sum (fun i _ => hbound i)
    _ = if submission.sim ∈ among then cost body + 1 else 0 :=
        Finset.sum_ite_eq among submission.sim _

theorem supply_eq_zero (cost : Script n → Nat) (among : Finset (Fin n))
    (silent : ∀ submission body, m.call? ≠ some (.submit submission body)) :
    m.supply cost among = 0 := by
  apply Finset.sum_eq_zero
  intro i _
  rw [Log.handedIn, accepted_happenings]
  cases hcall : m.call? with
  | none => rfl
  | some request =>
    cases request with
    | submit submission body => exact absurd hcall (silent submission body)
    | command j command =>
      simp only [Option.map_some, Option.getD_some, accepted_of_command, List.map_nil, worth_nil]

/-- Where the call stack loses more than is handed in, less is left to do. -/
theorem descends_of_supply (hist : History h m)
    (less : m.step.stackCost cost + m.supply cost among < m.stackCost cost) :
    (m.step.rank cost among).Less (m.rank cost among) := by
  left
  have hworth : ∑ i ∈ among, worth cost (m.step.standing i).works ≤
      ∑ i ∈ among, worth cost (m.standing i).works + m.supply cost among := by
    rw [Machine.supply, ← Finset.sum_add_distrib]
    exact Finset.sum_le_sum (fun i _ => Next.worth_le cost hist (.step m) i)
  dsimp only [Machine.rank]
  omega

end HandedIn

/-! ## Finite programs -/

/-- What waits in these simulations is finite, as far as it is not cancelled. -/
def Machine.Finite (procedures : Table String (Script n)) (among : Finset (Fin n))
    (m : Machine n) : Prop :=
  ∀ i ∈ among, ∀ ticket ∈ (m.standing i).tickets,
    (m.world.sim i).isCancelled ticket.work.id = false →
      ticket.work.action.script.Ends procedures among

section Finite

variable {m m' : Machine n} {h new : List (Fin n × Happening n)} {i : Fin n}
  {procedures : Table String (Script n)} {among : Finset (Fin n)}

/-- What calls no procedure is finite. -/
theorem finite_of_callFree
    (free : ∀ i, (m.standing i).tickets.all (fun t => t.work.action.script.callFree) = true) :
    m.Finite procedures Finset.univ :=
  fun i _ ticket mem _ => ends_of_callFree (List.all_eq_true.1 (free i) ticket mem)

/-- **What waits stays finite** if what is handed in is. -/
theorem Machine.Finite.next (finite : m.Finite procedures among) (hist : History h m)
    (next : Next m new m')
    (accepted : ∀ i ∈ among, ∀ ticket ∈ (logOf i new).accepted,
      ticket.work.action.script.Ends procedures among) : m'.Finite procedures among := by
  intro i hi ticket hticket hlive
  have halong := next.along hist i
  obtain ⟨begun, dropped, hconserves⟩ := (hist.course i).conserves halong
  have hmem : ticket ∈ (m.standing i).tickets ++ (logOf i new).accepted :=
    hconserves.balance.mem_iff.2 (List.mem_append_left _ (List.mem_append_left _ hticket))
  rcases List.mem_append.1 hmem with hbefore | hnew
  · apply finite i hi ticket hbefore
    cases hcancelled : (m.world.sim i).isCancelled ticket.work.id with
    | false => rfl
    | true => exact (isCancelled_of_along halong hcancelled).symm.trans hlive
  · exact accepted i hi ticket hnew

/-- Work begins that waits, and that is not cancelled. -/
theorem ticket_of_begins {st st' : Standing n} {work : Work (Action n)} {time : Instant}
    (begins : Begins st work time st') (rostered : Rostered st.sim) :
    ∃ ticket ∈ st.tickets, ticket.work = work ∧ st.sim.isCancelled work.id = false := by
  cases begins with
  | start s turn event work rest taken isWork live free =>
    obtain ⟨ticket, hentry, hwork⟩ := Event.ticket?_of_work? isWork turn
    exact ⟨ticket, mem_tickets_of_taken taken hentry, hwork, live⟩
  | drain s r key work backlog rest replaying taken live =>
    exact ⟨_, mem_tickets_of_replayed rostered.distinct rostered.known replaying taken _, rfl, live⟩

/-- An action that starts is finite. -/
theorem Machine.Finite.of_started (finite : m.Finite procedures among) (hist : History h m)
    (next : Next m new m') {work : Work (Action n)} {time : Instant} (mem : i ∈ among)
    (started : (i, .started work time) ∈ new) : work.action.script.Ends procedures among := by
  have hbegins := (move_of_started hist next started).begins (mem_logOf.2 started)
  obtain ⟨ticket, hticket, rfl, hlive⟩ :=
    ticket_of_begins hbegins (hist.course i).ledger.rostered
  exact finite i mem ticket hticket hlive

/-- An action that the run has just entered has started in that step. -/
theorem started_of_entered {w : World n} {run : Run n} {callers : List (Caller n)}
    {work : Work (Action n)} (hist : History h ⟨w, .between run, callers⟩)
    (entered : (run, work) ∈ (Machine.stepRun w run callers).frames) :
    ∃ time, (run.sim, .started work time) ∈ Machine.happenings ⟨w, .between run, callers⟩ := by
  rcases frame_of_next (.step ⟨w, .between run, callers⟩) entered with hbefore | hstarted
  · have habsent : run.sim ∉ (callers.map Caller.run).map Run.sim :=
      (List.nodup_cons.1 hist.grounded.distinct).1
    obtain ⟨c, hc, hframe⟩ := List.mem_map.1 hbefore
    have hsame : c.run = run := congrArg Prod.fst hframe
    exact absurd (List.mem_map_of_mem (List.mem_map_of_mem hc)) (hsame ▸ habsent)
  · exact hstarted

end Finite

/-! ## Runs under way and runs that have returned -/

/-- The answers of a run: how many actions it has started, or an error. -/
inductive Outcome.OfRun : Outcome → Prop where
  | count (started : Nat) : OfRun (.count started)
  | refused (error : Error) : OfRun (.refused error)

/-- The run above the callers `base` has returned to them, or a panic has abandoned all. -/
inductive Ended (base : List (Caller n)) : Machine n → Prop where
  | answered (w : World n) (outcome : Outcome) (answer : outcome.OfRun) :
      Ended base ⟨w, .returned outcome, base⟩
  | panicked (w : World n) (message : String) :
      Ended base ⟨w, .returned (.panicked message), []⟩

section Busy

variable (procedures : Table String (Script n)) (among : Finset (Fin n)) (base : List (Caller n))

/-- The actions that wait above `base` are of these simulations and go on with finite scripts. -/
inductive Waits : List (Caller n) → Prop where
  | base : Waits base
  | wait (c : Caller n) (callers : List (Caller n)) (mem : c.run.sim ∈ among)
      (finite : c.rest.Ends procedures among) (below : Waits callers) : Waits (c :: callers)

/-- A run above `base` is under way, and its actions are finite. -/
inductive Busy : Machine n → Prop where
  | between (w : World n) (run : Run n) (callers : List (Caller n)) (mem : run.sim ∈ among)
      (below : Waits procedures among base callers) : Busy ⟨w, .between run, callers⟩
  | within (w : World n) (run : Run n) (work : Work (Action n)) (script : Script n)
      (callers : List (Caller n)) (mem : run.sim ∈ among)
      (finite : script.Ends procedures among) (below : Waits procedures among base callers) :
      Busy ⟨w, .within run work script, callers⟩
  | answered (w : World n) (outcome : Outcome) (c : Caller n) (callers : List (Caller n))
      (mem : c.run.sim ∈ among) (finite : c.rest.Ends procedures among)
      (below : Waits procedures among base callers) : Busy ⟨w, .returned outcome, c :: callers⟩

/-- An action pays for its next operation: the run is over, or less of the cost is left, even with
what was handed in. -/
inductive Pays (m : Machine n) : Prop where
  | ended (ended : Ended base m.step)
  | goesOn (busy : Busy procedures among base m.step)
      (less : m.step.stackCost (Script.cost procedures among) +
        m.supply (Script.cost procedures among) among <
          m.stackCost (Script.cost procedures among))

/-- A machine at work on a finite program, above the callers `base`. -/
structure Bounded (m : Machine n) : Prop where
  fixed : m.world.procedures = procedures
  finite : m.Finite procedures among
  busy : Busy procedures among base m

end Busy

section Steps

variable {procedures : Table String (Script n)} {among : Finset (Fin n)} {base : List (Caller n)}
  {w : World n} {run : Run n} {work : Work (Action n)} {callers : List (Caller n)}
  {m : Machine n} {h : List (Fin n × Happening n)}

/-- A run that has an answer gives it to the action that waits for it, or to `base`. -/
theorem Waits.answered (below : Waits procedures among base callers) (w : World n)
    {outcome : Outcome} (answer : outcome.OfRun) :
    Ended base ⟨w, .returned outcome, callers⟩ ∨
      Busy procedures among base ⟨w, .returned outcome, callers⟩ := by
  cases below with
  | base => exact .inl (.answered w outcome answer)
  | wait c callers mem finite below => exact .inr (.answered w outcome c callers mem finite below)

/-- An action that fails ends its run with an error. -/
theorem Waits.abort (below : Waits procedures among base callers) (w : World n) (run : Run n)
    (work : Work (Action n)) (failure : Failure) :
    Ended base (Machine.abort w run work failure callers) ∨
      Busy procedures among base (Machine.abort w run work failure callers) := by
  obtain ⟨inner, text, cause, hreport⟩ := failure.report_eq_actionFailed work.id work.description
  apply below.answered
  rw [hreport]
  exact .refused _

/-- An operation is answered: the action goes on with the rest, or fails. -/
theorem Waits.settle (below : Waits procedures among base callers) (mem : run.sim ∈ among)
    {rest : Script n} (finite : rest.Ends procedures among) (cost : Script n → Nat) (w : World n)
    (work : Work (Action n)) (operation : Operation n) (handling : Handling) (outcome : Outcome) :
    (Ended base (Machine.settle w run work operation handling rest outcome callers) ∨
      Busy procedures among base
        (Machine.settle w run work operation handling rest outcome callers)) ∧
    (Machine.settle w run work operation handling rest outcome callers).stackCost cost ≤
      cost rest + costs cost callers := by
  cases hfailed : handling.failure? outcome with
  | some failure =>
    rw [settle_of_failure hfailed]
    refine ⟨below.abort _ run work failure, ?_⟩
    simp only [Machine.abort, stackCost_returned]
    omega
  | none =>
    rw [settle_of_success hfailed]
    exact ⟨.inr (.within _ run work rest callers mem finite below), Nat.le_refl _⟩

/-- What a busy machine hands in is finite. -/
theorem Busy.submitted (busy : Busy procedures among base m) {submission : Submission n}
    {body : Script n} (called : m.call? = some (.submit submission body))
    (mem : submission.sim ∈ among) : body.Ends procedures among := by
  cases busy with
  | between w run callers inside below => cases called
  | answered w outcome c callers inside finite below => cases called
  | within w run work script callers inside finite below =>
    cases finite with
    | submit submitted later =>
      cases called
      exact submitted mem
    | _ => cases called

/-- A command that begins a run asks for one. -/
theorem asks_of_command {w w' : World n} {i : Fin n} {command : Command n} {inner : Run n}
    (begins : w.command i command = (w', .run inner)) : command.AsksForRun := by
  cases command with
  | run => exact .run
  | runFor limit => exact .runFor limit
  | resume => exact .resume
  | _ => cases begins

/-- **Between two actions** a run goes on, or is over. -/
theorem Machine.Finite.stepRun (hist : History h ⟨w, .between run, callers⟩)
    (finite : Machine.Finite procedures among ⟨w, .between run, callers⟩) (mem : run.sim ∈ among)
    (below : Waits procedures among base callers) :
    Ended base (Machine.stepRun w run callers) ∨
      Busy procedures among base (Machine.stepRun w run callers) := by
  have hentered : ∀ (s : Simulation (Action n)) (work : Work (Action n)),
      Machine.stepRun w run callers = Machine.enter (w.setSim run.sim s) run work callers →
      Busy procedures among base (Machine.enter (w.setSim run.sim s) run work callers) := by
    intro s work hstep
    have hframes : (run, work) ∈ (Machine.stepRun w run callers).frames := by
      rw [hstep]
      exact List.mem_cons_self
    obtain ⟨time, hstarted⟩ := started_of_entered hist hframes
    have hends := finite.of_started hist (.step _) mem hstarted
    exact .within _ run work _ callers mem hends below
  have hanswer := @outcome_of_stepRun n w run callers
  have hstep := runStep_stepRun w run callers
  generalize hm : Machine.stepRun w run callers = m' at hstep hanswer
  cases hstep with
  | drain r work s replay next live => exact .inr (hentered s work hm)
  | start work s idle going dispatch => exact .inr (hentered s work hm)
  | conclude outcome idle =>
    apply below.answered
    rw [hanswer rfl]
    exact .count _
  | skip r work s replay next cancelled => exact .inr (.between _ run callers mem below)
  | settle s idle going dispatch => exact .inr (.between _ run callers mem below)
  | close r replay exhausted =>
    exact .inr (.between _ { run with replay := none } callers mem below)
  | replay source stall s idle going dispatch =>
    exact .inr (.between _ { run with replay := some ⟨source, stall.release, stall.timers⟩ }
      callers mem below)

/-- An operation that is answered is paid for by what the rest of the script costs less. -/
theorem Waits.pays_settle (below : Waits procedures among base callers) (mem : run.sim ∈ among)
    {script rest : Script n} (finite : rest.Ends procedures among) {w' : World n}
    {operation : Operation n} {handling : Handling} {outcome : Outcome}
    (step : Machine.step ⟨w, .within run work script, callers⟩ =
      Machine.settle w' run work operation handling rest outcome callers)
    (less : rest.cost procedures among +
        Machine.supply (Script.cost procedures among) among ⟨w, .within run work script, callers⟩ <
      script.cost procedures among) :
    Pays procedures among base ⟨w, .within run work script, callers⟩ := by
  obtain ⟨hbusy, hcost⟩ := below.settle mem finite (Script.cost procedures among) w' work operation
    handling outcome
  rw [← step] at hbusy hcost
  rcases hbusy with hended | hbusy
  · exact .ended hended
  · apply Pays.goesOn hbusy
    rw [stackCost_within]
    omega

/-- **Within an action** every operation uses up its share of the cost, or the run is over. -/
theorem Waits.pays (below : Waits procedures among base callers)
    (fixed : w.procedures = procedures) (mem : run.sim ∈ among) (work : Work (Action n))
    {script : Script n} (finite : script.Ends procedures among) :
    Pays procedures among base ⟨w, .within run work script, callers⟩ := by
  -- only a submission hands something in
  have hsilent : (∀ submission body,
      Machine.call? ⟨w, .within run work script, callers⟩ ≠ some (.submit submission body)) →
      Machine.supply (Script.cost procedures among) among ⟨w, .within run work script, callers⟩ =
        0 := supply_eq_zero _ among
  cases finite with
  | done =>
    have hcost := cost_pos (.done : Script.done.Ends procedures among)
    apply Pays.goesOn (.between _ run callers mem below)
    rw [hsilent (fun _ _ heq => by cases heq)]
    simp only [Machine.step, Machine.stepAction, stackCost_between, stackCost_within]
    omega
  | @submit submission body rest handling submitted later =>
    have hcost := cost_submit (.submit submitted later :
      (Script.submit submission body handling rest).Ends procedures among)
    have hsupply := supply_of_submit (Script.cost procedures among) among
      (m := ⟨w, .within run work (.submit submission body handling rest), callers⟩) rfl
    exact below.pays_settle mem later rfl (by omega)
  | @perform i command handling rest closed later =>
    have hcost := cost_perform (.perform closed later :
      (Script.perform i command handling rest).Ends procedures among)
    have hnone := hsilent (fun _ _ heq => by cases heq)
    rcases hcommand : w.command i command with ⟨w', outcome | inner⟩
    · have hstep : Machine.step ⟨w, .within run work (.perform i command handling rest), callers⟩ =
          Machine.settle w' run work (.command i command) handling rest outcome callers := by
        simp only [Machine.step, Machine.stepAction, hcommand]
      exact below.pays_settle mem later hstep (by omega)
    · have hstep : Machine.step ⟨w, .within run work (.perform i command handling rest), callers⟩ =
          ⟨w', .between inner, ⟨run, work, .command i command, handling, rest⟩ :: callers⟩ := by
        simp only [Machine.step, Machine.stepAction, hcommand]
      have hasks := asks_of_command hcommand
      obtain ⟨rfl, -, -⟩ := run_of_command hcommand
      have hwaits : Waits procedures among base
          (⟨run, work, .command inner.sim command, handling, rest⟩ :: callers) :=
        .wait _ callers mem later below
      apply Pays.goesOn
      · rw [hstep]
        exact .between w' inner _ (closed hasks) hwaits
      · rw [hstep, hnone]
        simp only [stackCost_between, stackCost_within, costs_cons]
        omega
  | @call name rest expanded =>
    have hcost := cost_call (.call expanded : (Script.call name rest).Ends procedures among)
    have hprocedure : w.procedure name = (procedures.get? name).getD .done := by
      rw [World.procedure, fixed]
    rw [← hprocedure] at expanded hcost
    apply Pays.goesOn (.within w run work _ callers mem expanded below)
    rw [hsilent (fun _ _ heq => by cases heq)]
    simp only [Machine.step, Machine.stepAction, stackCost_within]
    omega
  | @whenBefore i limit body rest inTime tooLate =>
    obtain ⟨htaken, hpassed⟩ := cost_whenBefore (.whenBefore inTime tooLate :
      (Script.whenBefore i limit body rest).Ends procedures among)
    have hnone := hsilent (fun _ _ heq => by cases heq)
    by_cases htime : (w.sim i).now < limit
    · have hstep : Machine.step ⟨w, .within run work (.whenBefore i limit body rest), callers⟩ =
          ⟨w, .within run work (body ++ rest), callers⟩ := by
        simp only [Machine.step, Machine.stepAction, if_pos htime]
      apply Pays.goesOn <;> rw [hstep]
      · exact .within w run work _ callers mem inTime below
      · simp only [stackCost_within]
        omega
    · have hstep : Machine.step ⟨w, .within run work (.whenBefore i limit body rest), callers⟩ =
          ⟨w, .within run work rest, callers⟩ := by
        simp only [Machine.step, Machine.stepAction, if_neg htime]
      apply Pays.goesOn <;> rw [hstep]
      · exact .within w run work _ callers mem tooLate below
      · simp only [stackCost_within]
        omega
  | @fail failure context =>
    have hcost := cost_pos (.fail : (Script.fail failure context).Ends procedures among)
    rcases below.abort (w.note (.failed failure)) run work (failure.within context) with
      hended | hbusy
    · exact .ended hended
    · apply Pays.goesOn hbusy
      rw [hsilent (fun _ _ heq => by cases heq)]
      simp only [Machine.step, Machine.stepAction, Machine.abort, stackCost_returned,
        stackCost_within]
      omega
  | panic => exact .ended (.panicked _ _)

/-- **An action that waited goes on**, and it is its turn, or it fails. -/
theorem Waits.resume (below : Waits procedures among base callers) {c : Caller n}
    (mem : c.run.sim ∈ among) (finite : c.rest.Ends procedures among) (outcome : Outcome)
    (hist : History h ⟨w, .returned outcome, c :: callers⟩) :
    Ended base (Machine.step ⟨w, .returned outcome, c :: callers⟩) ∨
      Busy procedures among base (Machine.step ⟨w, .returned outcome, c :: callers⟩) ∧
        ((Machine.step ⟨w, .returned outcome, c :: callers⟩).rank (Script.cost procedures among)
          among).Less
          (Machine.rank (Script.cost procedures among) among ⟨w, .returned outcome, c :: callers⟩)
    := by
  obtain ⟨hended | hbusy, -⟩ := below.settle mem finite (Script.cost procedures among) w c.work
    c.operation c.handling outcome
  · exact .inl hended
  · refine .inr ⟨hbusy, ?_⟩
    cases hfailed : c.handling.failure? outcome with
    | some failure =>
      have hpos := cost_pos finite
      have hnone := supply_eq_zero (Script.cost procedures among) among
        (m := ⟨w, .returned outcome, c :: callers⟩) (fun _ _ heq => by cases heq)
      have hstep : Machine.step ⟨w, .returned outcome, c :: callers⟩ =
          Machine.abort (w.note (.performed c.operation outcome)) c.run c.work failure callers :=
        settle_of_failure hfailed c.rest callers
      apply descends_of_supply hist
      rw [hnone, hstep]
      simp only [Machine.abort, stackCost_returned, costs_cons]
      omega
    | none =>
      have hstep : Machine.step ⟨w, .returned outcome, c :: callers⟩ =
          ⟨w.note (.performed c.operation outcome), .within c.run c.work c.rest, callers⟩ :=
        settle_of_success hfailed c.rest callers
      rw [hstep]
      have hwork : Machine.stackCost (Script.cost procedures among)
          ⟨w.note (.performed c.operation outcome), .within c.run c.work c.rest, callers⟩ =
            Machine.stackCost (Script.cost procedures among)
              ⟨w, .returned outcome, c :: callers⟩ := by
        simp only [stackCost_within, stackCost_returned, costs_cons]
      -- nothing changes but whose turn it is
      refine .inr ⟨(congrArg (_ + ·) hwork).le, .inr ⟨Nat.le_refl _, .inr ⟨Nat.le_refl _, ?_⟩⟩⟩
      exact Nat.zero_lt_one

/-- **A step ends the run or brings the rank down.** -/
theorem Bounded.step (bounded : Bounded procedures among base m) (hist : History h m) :
    Ended base m.step ∨ Bounded procedures among base m.step ∧
      (m.step.rank (Script.cost procedures among) among).Less
        (m.rank (Script.cost procedures among) among) := by
  have hfinite : m.step.Finite procedures among := by
    apply bounded.finite.next hist (.step m)
    intro i hi ticket hticket
    rw [accepted_happenings] at hticket
    cases hcall : m.call? with
    | none =>
      rw [hcall] at hticket
      cases hticket
    | some request =>
      rw [hcall, Option.map_some, Option.getD_some] at hticket
      cases request with
      | command j command =>
        rw [accepted_of_command] at hticket
        cases hticket
      | submit submission body =>
        rcases accepted_of_submit m.world submission body i with hnone | ⟨rfl, _, rfl, hone⟩
        · rw [hnone] at hticket
          cases hticket
        · rw [hone] at hticket
          cases List.mem_singleton.1 hticket
          exact bounded.busy.submitted hcall hi
  have hfixed : m.step.world.procedures = procedures :=
    (procedures_step m).trans bounded.fixed
  have hstep : Ended base m.step ∨ Busy procedures among base m.step ∧
      (m.step.rank (Script.cost procedures among) among).Less
        (m.rank (Script.cost procedures among) among) := by
    have hfixed := bounded.fixed
    have hfinite := bounded.finite
    cases bounded.busy with
    | between w run callers mem below =>
      exact (hfinite.stepRun hist mem below).imp_right
        (fun hbusy => ⟨hbusy, stepRun_descends hist mem⟩)
    | within w run work script callers mem finite below =>
      cases below.pays hfixed mem work finite with
      | ended ended => exact .inl ended
      | goesOn busy less => exact .inr ⟨busy, descends_of_supply hist less⟩
    | answered w outcome c callers mem finite below => exact below.resume mem finite outcome hist
  exact hstep.imp_right (fun hbusy => ⟨⟨hfixed, hfinite, hbusy.1⟩, hbusy.2⟩)

/-- **The run returns.** -/
theorem Bounded.ends (bounded : Bounded procedures among base m) (hist : History h m) :
    ∃ k, Ended base (m.steps k) := by
  generalize hrank : m.rank (Script.cost procedures among) among = rank
  induction rank using Rank.less_wf.induction generalizing h m with
  | _ rank ih =>
    rcases bounded.step hist with hended | ⟨hbounded, hless⟩
    · exact ⟨1, hended⟩
    · rw [hrank] at hless
      obtain ⟨k, hended⟩ := ih _ hless hbounded (hist.next (.step m)) rfl
      exact ⟨k + 1, hended⟩

end Steps

/-! ## Replays -/

section Replays

variable (run : Run n) (base : List (Caller n))

/-- The run is in the middle of its replay: between two actions of it, within one, or waiting for
what one of them runs. -/
inductive Replaying : Machine n → Prop where
  | between (w : World n) : Replaying ⟨w, .between run, base⟩
  | within (w : World n) (work : Work (Action n)) (script : Script n) :
      Replaying ⟨w, .within run work script, base⟩
  | waits (w : World n) (control : Control n) (above : List (Caller n)) (c : Caller n)
      (own : c.run = run) : Replaying ⟨w, control, above ++ c :: base⟩

/-- The replay of the run is over: the run goes on without it, one of the actions has failed, or a
panic has abandoned all. -/
inductive Replayed : Machine n → Prop where
  | closed (w : World n) : Replayed ⟨w, .between { run with replay := none }, base⟩
  | failed (w : World n) (error : Error) : Replayed ⟨w, .returned (.refused error), base⟩
  | panicked (w : World n) (message : String) : Replayed ⟨w, .returned (.panicked message), []⟩

end Replays

section Replayed

variable {run : Run n} {base : List (Caller n)} {m : Machine n}

theorem callers_stepRun (w : World n) (run : Run n) (callers : List (Caller n)) :
    (Machine.stepRun w run callers).callers = callers := by
  have hstep := runStep_stepRun w run callers
  generalize Machine.stepRun w run callers = m' at hstep
  cases hstep <;> rfl

theorem callers_settle (w : World n) (run : Run n) (work : Work (Action n))
    (operation : Operation n) (handling : Handling) (rest : Script n) (outcome : Outcome)
    (callers : List (Caller n)) :
    (Machine.settle w run work operation handling rest outcome callers).callers = callers := by
  cases hfailed : handling.failure? outcome with
  | some failure =>
    rw [settle_of_failure hfailed]
    rfl
  | none =>
    rw [settle_of_success hfailed]

theorem Replaying.of_callers {above : List (Caller n)} {c : Caller n}
    (callers : m.callers = above ++ c :: base) (own : c.run = run) : Replaying run base m := by
  obtain ⟨w, control, _⟩ := m
  dsimp only at callers
  subst callers
  exact .waits w control above c own

/-- An action of the replay goes on, or fails. -/
theorem replaying_settle (w : World n) (run : Run n) (work : Work (Action n))
    (operation : Operation n) (handling : Handling) (rest : Script n) (outcome : Outcome)
    (base : List (Caller n)) :
    Replaying run base (Machine.settle w run work operation handling rest outcome base) ∨
      Replayed run base (Machine.settle w run work operation handling rest outcome base) := by
  cases hfailed : handling.failure? outcome with
  | some failure =>
    rw [settle_of_failure hfailed]
    exact .inr (.failed _ _)
  | none =>
    rw [settle_of_success hfailed]
    exact .inl (.within _ work rest)

theorem replaying_stepRun {r : Replay n} (replay : run.replay = some r) (w : World n)
    (base : List (Caller n)) :
    Replaying run base (Machine.stepRun w run base) ∨
      Replayed run base (Machine.stepRun w run base) := by
  have hstep := runStep_stepRun w run base
  generalize Machine.stepRun w run base = m' at hstep
  cases hstep with
  | skip r work s replay next cancelled => exact .inl (.between _)
  | drain r work s replay next live => exact .inl (.within _ work _)
  | close r replay exhausted => exact .inr (.closed _)
  | conclude outcome idle => cases replay.symm.trans idle
  | settle s idle going dispatch => cases replay.symm.trans idle
  | start work s idle going dispatch => cases replay.symm.trans idle
  | replay source stall s idle going dispatch => cases replay.symm.trans idle

theorem replaying_stepAction (w : World n) (run : Run n) (work : Work (Action n)) (script : Script n)
    (base : List (Caller n)) :
    Replaying run base (Machine.stepAction w run work script base) ∨
      Replayed run base (Machine.stepAction w run work script base) := by
  cases script with
  | done => exact .inl (.between _)
  | submit submission body handling rest => exact replaying_settle _ _ _ _ _ _ _ _
  | perform i command handling rest =>
    unfold Machine.stepAction
    dsimp only
    split
    · exact replaying_settle _ _ _ _ _ _ _ _
    · exact .inl (.waits _ _ [] _ rfl)
  | call name rest => exact .inl (.within _ work _)
  | whenBefore i limit body rest => exact .inl (.within _ work _)
  | fail failure context => exact .inr (.failed _ _)
  | panic message => exact .inr (.panicked _ message)

/-- What runs above an action of the replay stays above it. -/
theorem replaying_stepAction_above {above : List (Caller n)} {c : Caller n} (own : c.run = run)
    (w : World n) (inner : Run n) (work : Work (Action n)) (script : Script n) :
    Replaying run base (Machine.stepAction w inner work script (above ++ c :: base)) ∨
      Replayed run base (Machine.stepAction w inner work script (above ++ c :: base)) := by
  cases script with
  | submit submission body handling rest =>
    exact .inl (.of_callers (callers_settle _ _ _ _ _ _ _ _) own)
  | perform i command handling rest =>
    unfold Machine.stepAction
    dsimp only
    split
    · exact .inl (.of_callers (callers_settle _ _ _ _ _ _ _ _) own)
    · exact .inl (.waits _ _ (_ :: above) c own)
  | panic message => exact .inr (.panicked _ message)
  | _ => exact .inl (.waits _ _ above c own)

/-- **A step stays within the replay, or the replay is over.** -/
theorem Replaying.step (replaying : Replaying run base m) {r : Replay n} (replay : run.replay = some r) :
    Replaying run base m.step ∨ Replayed run base m.step := by
  cases replaying with
  | between w => exact replaying_stepRun replay w base
  | within w work script => exact replaying_stepAction w run work script base
  | waits w control above c own =>
    cases control with
    | between inner => exact .inl (.of_callers (callers_stepRun w inner _) own)
    | within inner work script => exact replaying_stepAction_above own w inner work script
    | returned outcome =>
      cases above with
      | nil =>
        subst own
        exact replaying_settle _ _ _ _ _ _ _ _
      | cons d above => exact .inl (.of_callers (callers_settle _ _ _ _ _ _ _ _) own)

/-- A run that has returned is in no replay. -/
theorem Replaying.not_ended (replaying : Replaying run base m) : ¬ Ended base m := by
  intro ended
  cases replaying with
  | between w => cases ended
  | within w work script => cases ended
  | waits w control above c own =>
    generalize hcallers : above ++ c :: base = callers at ended
    cases ended with
    | answered outcome answer =>
      have hlength := congrArg List.length hcallers
      simp only [List.length_append, List.length_cons] at hlength
      omega
    | panicked message => simp at hcallers

/-- **A replay is over before its run returns.** -/
theorem Replaying.replayed (replaying : Replaying run base m) {r : Replay n} (replay : run.replay = some r)
    (ends : ∃ k, Ended base (m.steps k)) : ∃ k, Replayed run base (m.steps k) := by
  by_contra hnever
  have hreplaying : ∀ k, Replaying run base (m.steps k) := by
    intro k
    induction k with
    | zero => exact replaying
    | succ k ih =>
      have hstep : m.steps (k + 1) = (m.steps k).step := m.steps_add k 1
      rw [hstep]
      rcases ih.step replay with hreplaying | hreplayed
      · exact hreplaying
      · exact absurd ⟨k + 1, hstep ▸ hreplayed⟩ hnever
  obtain ⟨k, hended⟩ := ends
  exact (hreplaying k).not_ended hended

end Replayed

/-! ## Every run -/

/-- An action that has called a run goes on with the answer of the run, or ends with it; or a panic
has abandoned all. -/
inductive Resumed (m : Machine n) : Machine n → Prop where
  | answered (w : World n) (outcome : Outcome) (answer : outcome.OfRun) :
      Resumed m (m.answered w outcome)
  | panicked (w : World n) (message : String) :
      Resumed m ⟨w, .returned (.panicked message), []⟩

section Runs

variable {m : Machine n} {h : List (Fin n × Happening n)} {i : Fin n} {command : Command n}
  {procedures : Table String (Script n)} {among : Finset (Fin n)}

/-- A run that is asked for and answered at once has the answer of a run. -/
theorem ofRun_of_command {w w' : World n} {outcome : Outcome} (asks : command.AsksForRun)
    (answer : w.command i command = (w', .outcome outcome)) : outcome.OfRun := by
  have hbegin : ∀ (w : World n) limit, (w.beginRun i limit).2 = .outcome outcome →
      outcome.OfRun := by
    intro w limit hrun
    unfold World.beginRun at hrun
    split at hrun
    · cases hrun
      exact .refused _
    · cases hrun
      exact .count 0
    · cases hrun
  cases asks with
  | run => exact hbegin w none (congrArg Prod.snd answer)
  | runFor limit => exact hbegin w (some limit) (congrArg Prod.snd answer)
  | resume => exact hbegin (w.update i Simulation.unpause) none (congrArg Prod.snd answer)

/-- A run that an action calls returns to it. -/
theorem Machine.Finite.called (finite : m.Finite m.world.procedures among) (hist : History h m)
    (mem : i ∈ among) (asks : command.AsksForRun) (called : m.call? = some (.command i command)) :
    ∃ k, Resumed m (m.steps (k + 1)) := by
  rcases hcommand : m.world.command i command with ⟨w', outcome | inner⟩
  · have hstep : m.steps 1 = m.answered w' outcome := step_of_answer called hcommand
    exact ⟨0, hstep ▸ .answered w' outcome (ofRun_of_command asks hcommand)⟩
  · have hfinite : m.step.Finite m.world.procedures among := by
      apply finite.next hist (.step m)
      intro i _ ticket hticket
      rw [accepted_happenings, called, Option.map_some, Option.getD_some,
        accepted_of_command] at hticket
      cases hticket
    have hfixed := procedures_step m
    have hnext := hist.next (.step m)
    obtain ⟨run, work, handling, rest, hcontrol⟩ := control_of_call called
    obtain ⟨hsim, -, -⟩ := run_of_command hcommand
    have hstep : m.step = ⟨w', .between inner,
        ⟨run, work, .command i command, handling, rest⟩ :: m.callers⟩ := by
      simp only [Machine.step, Machine.stepAction, hcontrol, hcommand]
    have hbusy : Busy m.world.procedures among
        (⟨run, work, .command i command, handling, rest⟩ :: m.callers) m.step :=
      hstep ▸ .between w' inner _ (hsim ▸ mem) .base
    have hbounded : Bounded m.world.procedures among
        (⟨run, work, .command i command, handling, rest⟩ :: m.callers) m.step :=
      ⟨hfixed, hfinite, hbusy⟩
    obtain ⟨k, hended⟩ := hbounded.ends hnext
    generalize hm : m.step.steps k = m' at hended
    cases hended with
    | answered w outcome answer =>
      have hanswered : m.steps (k + 1 + 1) = m.answered w outcome := by
        have hlast : m.step.steps (k + 1) = (m.step.steps k).step := m.step.steps_add k 1
        rw [Machine.steps, hlast, hm, Machine.answered, hcontrol]
        rfl
      exact ⟨k + 1, hanswered ▸ .answered w outcome answer⟩
    | panicked w message => exact ⟨k, hm ▸ .panicked w message⟩

/-- A run that is asked for from outside returns. -/
theorem Machine.Finite.requested (finite : m.Finite m.world.procedures among) (hist : History h m)
    (mem : i ∈ among) (asks : command.AsksForRun) {outcome : Outcome}
    (rested : m.result? = some outcome) :
    ∃ k, Ended [] ((Machine.request m.world (.command i command)).steps k) := by
  have hnext := Next.request m outcome (.command i command) rested
  have hfinite : (Machine.request m.world (.command i command)).Finite m.world.procedures among :=
    by
      apply finite.next hist hnext
      intro i _ ticket hticket
      rw [accepted_of_command] at hticket
      cases hticket
  have hprocedures := procedures_command m.world i command
  have hlater := hist.next hnext
  rcases hcommand : m.world.command i command with ⟨w', answer | inner⟩
  · have hreply : m.world.reply (.command i command) = (w', .outcome answer) := hcommand
    have hrequest := request_of_answer hreply
    exact ⟨0, hrequest ▸ .answered w' answer (ofRun_of_command asks hcommand)⟩
  · have hrequest : Machine.request m.world (.command i command) = ⟨w', .between inner, []⟩ := by
      simp only [Machine.request, hcommand]
    obtain ⟨rfl, -, -⟩ := run_of_command hcommand
    rw [hcommand] at hprocedures
    rw [hrequest] at hfinite hlater ⊢
    have hbounded : Bounded m.world.procedures among [] ⟨w', .between inner, []⟩ :=
      ⟨hprocedures, hfinite, .between w' inner [] mem .base⟩
    exact hbounded.ends hlater

/-- **Runs of finite programs return.**  Let all that waits in the simulations `among` be finite
after some history, and let their actions run no others.  Then every run of them that is under way
returns, with a count, an error or a panic, and if it is in the middle of a replay, the replay comes
to an end; so does every run that is asked for from outside, and every run that an action calls. -/
theorem finite_programs_return (hist : History h m) (among : Finset (Fin n))
    (finite : m.Finite m.world.procedures among) :
    (∀ run, m.control = .between run → run.sim ∈ among →
      (∃ k, Ended m.callers (m.steps k)) ∧
        ∀ r, run.replay = some r → ∃ k, Replayed run m.callers (m.steps k)) ∧
    ∀ i ∈ among, ∀ command : Command n, command.AsksForRun →
      (∀ outcome, m.result? = some outcome →
        ∃ k, Ended [] ((Machine.request m.world (.command i command)).steps k)) ∧
      (m.call? = some (.command i command) → ∃ k, Resumed m (m.steps (k + 1))) := by
  constructor
  · intro run hcontrol hmem
    obtain ⟨w, control, callers⟩ := m
    dsimp only at hcontrol
    subst hcontrol
    have hbounded : Bounded w.procedures among callers ⟨w, .between run, callers⟩ :=
      ⟨rfl, finite, .between w run callers hmem .base⟩
    have hends := hbounded.ends hist
    exact ⟨hends, fun r hreplay => (Replaying.between w).replayed hreplay hends⟩
  · intro i hi command hasks
    exact ⟨fun outcome hrested => finite.requested hist hi hasks hrested,
      fun hcalled => finite.called hist hi hasks hcalled⟩

/-- The second of three actions is replayed at five, and stalls the source until five once more;
before that, a run was asked for; in another world an action runs another simulation. -/
theorem finite_programs_return_of_restalled :
    let rested := (Machine.atRest smallWorld).ask
      (threeActions stallUntilFive stallUntilFive .sourceNow).dropLast
    let m := threeWorld stallUntilFive stallUntilFive .sourceNow 6
    let calling := ((Machine.atRest twoSmallWorlds).ask (mutualRuns 0 1)).steps 1
    (∃ k, Ended [] ((Machine.request rested.world (.command lone .run)).steps k)) ∧
      (∃ run r, m.control = .between run ∧ run.replay = some r ∧
        (∃ k, Ended m.callers (m.steps k)) ∧ ∃ k, Replayed run m.callers (m.steps k)) ∧
      calling.call? = some (.command 1 .run) ∧ ∃ k, Resumed calling (calling.steps (k + 1)) := by
  intro rested m calling
  have hrested := finite_programs_return (m := rested)
    (History.small.ask (threeActions stallUntilFive stallUntilFive .sourceNow).dropLast rfl)
    Finset.univ (finite_of_callFree (Fin.forall_fin_one.2 rfl))
  have hreplay := finite_programs_return (m := m) (.three stallUntilFive stallUntilFive .sourceNow 6)
    Finset.univ (finite_of_callFree (Fin.forall_fin_one.2 rfl))
  have hcalling := finite_programs_return (m := calling)
    ((History.twoSmall.ask (mutualRuns 0 1) rfl).steps 1)
    Finset.univ (finite_of_callFree (Fin.forall_fin_two.2 ⟨rfl, rfl⟩))
  obtain ⟨hends, hreplayed⟩ := hreplay.1 _ rfl (Finset.mem_univ _)
  exact ⟨(hrested.2 lone (Finset.mem_univ _) .run .run).1 _ rfl,
    ⟨_, _, rfl, rfl, hends, hreplayed _ rfl⟩,
    rfl, (hcalling.2 1 (Finset.mem_univ _) .run .run).2 rfl⟩

end Runs

end StallSim
