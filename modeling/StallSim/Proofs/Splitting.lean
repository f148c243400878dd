import Mathlib.Algebra.GroupWithZero.Nat
import StallSim.Proofs.Resets
import StallSim.Scenario

/-!
# A run in portions

A run can be had in portions: asked to run up to some number of actions, then up to some other
number, and at last without a limit, a simulation does what it does when it is asked once.

* `Machine.going` — a run from outside that is under way, between two actions.
* `AddUp` — what the portions of a run answer, by what the run as a whole answers.

Principal results: `perform_portion` — the first portion is the whole run, or stops where the others
can go on; `split_run_eq` — for every world that histories lead to and every list of limits.
-/

set_option autoImplicit false

namespace StallSim

variable {n : Nat} {i : Fin n} {w : World n} {m : Machine n} {h : List (Fin n × Happening n)}

/-- The command to run a simulation, with a limit or without. -/
def Command.toRun : Option Nat → Command n
  | none => .run
  | some limit => .runFor limit

theorem command_toRun (w : World n) (i : Fin n) (limit : Option Nat) :
    w.command i (.toRun limit) = w.beginRun i limit := by
  cases limit <;> rfl

/-- A run of the simulation `i` from outside, between two actions. -/
def Machine.going (w : World n) (i : Fin n) (start : Nat) (limit : Option Nat) : Machine n :=
  ⟨w, .between ⟨i, start, limit, none⟩, []⟩

theorem setSim_sim (w : World n) (i : Fin n) : w.setSim i (w.sim i) = w := by
  simp [World.setSim, World.sim]

theorem endRun_of_idle {s : Simulation (Action n)} (idle : s.running = false) : s.endRun = s := by
  unfold Simulation.endRun
  rw [← idle]

/-! ## One call -/

theorem perform_eq_steps (request : Request n) {k fuel : Nat} {outcome : Outcome}
    (result : ((Machine.request w request).steps k).result? = some outcome) (enough : k ≤ fuel) :
    w.perform fuel request =
      some (⟨outcome, (((Machine.request w request).steps k).world.sim request.sim).status,
        ((Machine.request w request).steps k).world.journal.drop w.journal.length⟩,
        ((Machine.request w request).steps k).world) := by
  obtain ⟨d, rfl⟩ := Nat.exists_eq_add_of_le enough
  unfold World.perform
  rw [Machine.run_eq_steps, Machine.steps_add, Machine.steps_of_result? result]
  dsimp only
  rw [result]
  rfl

/-- A simulation that is neither halted nor paused nor in a run begins one. -/
theorem request_toRun (stopped : (w.sim i).isStopped = false) (idle : (w.sim i).running = false)
    (limit : Option Nat) :
    Machine.request w (.command i (.toRun limit)) =
      .going (w.setSim i { w.sim i with running := true }) i (w.sim i).processed limit := by
  simp only [Simulation.isStopped, Bool.or_eq_false_iff] at stopped
  simp only [Machine.request, command_toRun, World.beginRun, Simulation.startRun, stopped.1,
    stopped.2, idle]
  rfl

/-- Where the outermost run was ended, another goes on. -/
theorem request_after_ended (stopped : (w.sim i).isStopped = false)
    (running : (w.sim i).running = true) (limit : Option Nat) :
    Machine.request (w.setSim i (w.sim i).endRun) (.command i (.toRun limit)) =
      .going w i (w.sim i).processed limit := by
  have hself := sim_setSim_self w i (w.sim i).endRun
  rw [request_toRun (by rw [hself]; exact stopped) (by rw [hself]; rfl), hself, setSim_setSim]
  have hback : { (w.sim i).endRun with running := true } = w.sim i := by
    rw [← running]
    rfl
  rw [hback, setSim_sim]
  rfl

/-- To ask for a run that changes nothing. -/
theorem perform_spent (spent : (w.sim i).Spent) (limit : Option Nat) {fuel : Nat}
    (enough : (w.sim i).running = true ∨ 0 < fuel) :
    ∃ answer, w.perform fuel (.command i (.toRun limit)) = some (answer, w) ∧
      answer.journal = [] ∧
      answer.outcome = if (w.sim i).halted then .refused .halted else .count 0 := by
  have hat_once : ∀ {outcome}, w.beginRun i limit = (w, .outcome outcome) →
      ∃ answer, w.perform fuel (.command i (.toRun limit)) = some (answer, w) ∧
        answer.journal = [] ∧ answer.outcome = outcome := by
    intro outcome hbegin
    have hrequest : Machine.request w (.command i (.toRun limit)) = ⟨w, .returned outcome, []⟩ := by
      simp only [Machine.request, command_toRun, hbegin]
    have hresult : ((Machine.request w (.command i (.toRun limit))).steps 0).result? =
        some outcome := by
      rw [hrequest]
      rfl
    have hperform := perform_eq_steps _ hresult (Nat.zero_le fuel)
    rw [hrequest] at hperform
    exact ⟨_, hperform, List.drop_length, rfl⟩
  by_cases hhalted : (w.sim i).halted = true
  · rw [if_pos hhalted]
    exact hat_once (by simp [World.beginRun, Simulation.startRun, hhalted])
  rw [if_neg hhalted]
  by_cases hbusy : ((w.sim i).running || (w.sim i).paused) = true
  · exact hat_once (by simp [World.beginRun, Simulation.startRun, hhalted, hbusy])
  -- a run begins, finds no event, and ends
  simp only [Bool.or_eq_true, not_or, Bool.not_eq_true] at hhalted hbusy
  have hstopped : (w.sim i).isStopped = false := by simp [Simulation.isStopped, hbusy.2, hhalted]
  have hempty : (w.sim i).calendar.next? = none := by
    rcases spent with hstop | hrunning | hempty
    · rw [hstopped] at hstop
      cases hstop
    · rw [hbusy.1] at hrunning
      cases hrunning
    · exact hempty
  have hrequest := request_toRun hstopped hbusy.1 limit
  generalize hw : w.setSim i { w.sim i with running := true } = w' at hrequest
  have hsim : w'.sim i = { w.sim i with running := true } := hw ▸ sim_setSim_self w i _
  have hended : Machine.ended w' i (w.sim i).processed = ⟨w, .returned (.count 0), []⟩ := by
    have hback : (w'.sim i).endRun = w.sim i := by
      rw [hsim]
      exact endRun_of_idle hbusy.1
    rw [Machine.ended, hback, hsim, Nat.sub_self, ← hw, setSim_setSim, setSim_sim]
  have hstep : (Machine.request w (.command i (.toRun limit))).steps 1 =
      ⟨w, .returned (.count 0), []⟩ := by
    rw [hrequest, ← hended]
    rcases @step_at_top n w' ⟨i, 0, none, none⟩ rfl with ⟨-, hends⟩ | ⟨⟨-, hsome⟩, -⟩
    · exact hends _ limit
    · refine absurd ?_ hsome
      show (w'.sim i).calendar.next? = none
      rw [hsim]
      exact hempty
  have hpos : 0 < fuel := enough.resolve_left (by simp [hbusy.1])
  have hperform := perform_eq_steps _ (by rw [hstep]; rfl) hpos
  rw [hstep] at hperform
  exact ⟨_, hperform, List.drop_length, rfl⟩

/-- Calls that change nothing. -/
theorem performAll_spent (spent : (w.sim i).Spent) {fuel : Nat}
    (enough : (w.sim i).running = true ∨ 0 < fuel) (limits : List (Option Nat)) :
    ∃ answers, w.performAll fuel (limits.map (fun limit => .command i (.toRun limit))) =
        some (answers, w) ∧
      answers.flatMap Answer.journal = [] ∧
      answers.map Answer.outcome =
        limits.map (fun _ => if (w.sim i).halted then .refused .halted else .count 0) := by
  induction limits with
  | nil => exact ⟨[], rfl, rfl, rfl⟩
  | cons limit limits ih =>
    obtain ⟨answer, hperform, hjournal, houtcome⟩ := perform_spent spent limit enough
    obtain ⟨answers, hall, hjournals, houtcomes⟩ := ih
    refine ⟨answer :: answers, ?_, ?_, ?_⟩
    · rw [List.map_cons, World.performAll, hperform]
      dsimp only
      rw [hall]
      rfl
    · rw [List.flatMap_cons, hjournal, hjournals]
      rfl
    · rw [List.map_cons, List.map_cons, houtcome, houtcomes]

/-! ## What steps add -/

/-- A step adds to the journal. -/
theorem journal_step (m : Machine n) : m.world.journal <+: m.step.world.journal := by
  obtain ⟨w, control, callers⟩ := m
  cases control with
  | between run =>
    obtain ⟨extra, hjournal, -⟩ := journal_stepRun w run callers
    exact ⟨extra, hjournal.symm⟩
  | within run work script =>
    obtain ⟨extra, hjournal, -⟩ := hushed_within w run work script callers
    exact ⟨extra, hjournal.symm⟩
  | returned outcome =>
    obtain ⟨extra, hjournal, -⟩ := hushed_returned w outcome callers
    exact ⟨extra, hjournal.symm⟩

theorem journal_steps (m : Machine n) (k : Nat) :
    m.world.journal <+: (m.steps k).world.journal := by
  induction k generalizing m with
  | zero => exact List.prefix_refl _
  | succ k ih => exact (journal_step m).trans (ih m.step)

theorem processed_steps (m : Machine n) (k : Nat) (i : Fin n) :
    (m.world.sim i).processed ≤ ((m.steps k).world.sim i).processed := by
  induction k generalizing m with
  | zero => exact Nat.le_refl _
  | succ k ih =>
    have hmore : (m.step.world.sim i).processed =
        (m.world.sim i).processed + (logOf i m.happenings).recorded.length :=
      congrArg Prod.fst (tally_step m i)
    exact Nat.le_trans (hmore ▸ Nat.le_add_right _ _) (ih m.step)

/-! ## The portions of a run -/

/-- What a call answers that ends the run: the actions it has started itself, where the whole run
counts all of them, or the error of the run. -/
inductive Ends (i : Fin n) (w : World n) (start : Nat) (outcome : Outcome) (w' : World n) :
    Outcome → Prop where
  | counted (spent : (w'.sim i).Spent) (whole : outcome = .count ((w'.sim i).processed - start)) :
      Ends i w start outcome w' (.count ((w'.sim i).processed - (w.sim i).processed))
  | failed (e : Error) (whole : outcome = .refused e) (other : e ≠ .halted)
      (halted : (w'.sim i).halted = true) : Ends i w start outcome w' (.refused e)

/-- What a call comes to that is a portion of a run: the run can go on where the limit of the call
has stopped it, or it is done. -/
inductive Portion (i : Fin n) (h : List (Fin n × Happening n)) (w : World n) (start : Nat)
    (limit : Option Nat) (k : Nat) (outcome : Outcome) : World n → Outcome → Prop where
  | stopped (j : Nat) (earlier : j < k) (w' : World n) (limited : limit ≠ none)
      (hist : History (h ++ (Machine.going w i start none).story j) (.going w' i start none))
      (here : (Machine.going w i start none).steps j = .going w' i start none)
      (going : (w'.sim i).isStopped = false) :
      Portion i h w start limit k outcome (w'.setSim i (w'.sim i).endRun)
        (.count ((w'.sim i).processed - (w.sim i).processed))
  | last (w' : World n) (answer : Outcome)
      (done : ((Machine.going w i start none).steps k).world = w')
      (ends : Ends i w start outcome w' answer) : Portion i h w start limit k outcome w' answer

/-- **The first portion is the whole run, or stops where the others can go on.** -/
theorem perform_portion {start k : Nat} {outcome : Outcome} {fuel : Nat}
    (hist : History h (.going w i start none)) (stopped : (w.sim i).isStopped = false)
    (result : ((Machine.going w i start none).steps k).result? = some outcome)
    (calm : ∀ message, outcome ≠ .panicked message) (enough : k ≤ fuel) (limit : Option Nat) :
    ∃ answer w', (w.setSim i (w.sim i).endRun).perform fuel (.command i (.toRun limit)) =
        some (answer, w') ∧
      answer.journal = w'.journal.drop w.journal.length ∧
      Portion i h w start limit k outcome w' answer.outcome := by
  have hrunning : (w.sim i).running = true :=
    hist.grounded.running ⟨i, start, none, none⟩ List.mem_cons_self
  have hrequest := request_after_ended stopped hrunning limit
  have hbottom : ∀ j, Bottom i start ((Machine.going w i start none).steps j) :=
    fun j => Bottom.steps (.underWay ⟨i, start, none, none⟩ rfl rfl rfl) j
  have hsim : ∀ {j w'} {run : Run n}, (Machine.going w i start none).steps j =
      (⟨w', .between run, []⟩ : Machine n).reset start none → run.sim = i := by
    intro j w' run here
    have hat := hbottom j
    rw [here] at hat
    cases hat with
    | underWay run' last sim begun =>
      cases last
      exact sim
    | answered answer hanswer => cases hanswer
  -- what a call comes to that has the result of some number of steps
  have hcall : ∀ {j : Nat} {answer : Outcome} {w' : World n}, j ≤ fuel →
      (Machine.going w i (w.sim i).processed limit).steps j = ⟨w', .returned answer, []⟩ →
      Portion i h w start limit k outcome w' answer →
      ∃ answer w', (w.setSim i (w.sim i).endRun).perform fuel (.command i (.toRun limit)) =
          some (answer, w') ∧
        answer.journal = w'.journal.drop w.journal.length ∧
        Portion i h w start limit k outcome w' answer.outcome := by
    intro j answer w' hj hsteps hportion
    rw [← hrequest] at hsteps
    have hperform := perform_eq_steps _ (by rw [hsteps]; rfl) hj
    rw [hsteps] at hperform
    exact ⟨_, w', hperform, rfl, hportion⟩
  have halong := steps_reset (m := .going w i start none) start (w.sim i).processed limit rfl
    result calm
  cases halong with
  | stopped j earlier w' run idle limited going here ends =>
    obtain rfl := hsim here
    have hgoing : (Machine.going w run.sim start none).steps j = .going w' run.sim start none := by
      refine here.trans ?_
      simp [Machine.reset, Control.reset, Run.reset, Machine.going, idle]
    exact hcall (Nat.le_trans earlier enough) ends
      (.stopped j earlier w' limited (hgoing ▸ hist.steps j) hgoing going)
  | ended j earlier w' run idle spent here free ends =>
    obtain rfl := hsim here
    have hself := sim_setSim_self w' run.sim (w'.sim run.sim).endRun
    have hprocessed : (w'.sim run.sim).processed =
        ((w'.setSim run.sim (w'.sim run.sim).endRun).sim run.sim).processed := by
      rw [hself]
      rfl
    have hfree := free
    rw [show Machine.reset start none (Machine.going w run.sim start none) =
      Machine.going w run.sim start none from rfl] at hfree
    refine hcall enough ends ?_
    rw [hprocessed]
    refine .last _ _ (by rw [hfree]; rfl) (.counted (hself.symm ▸ spent) ?_)
    rw [hfree] at result
    exact (Option.some.inj result).symm.trans (by rw [← hprocessed])
  | failed e error ends =>
    have hend := hbottom k
    obtain ⟨w', hw'⟩ : ∃ w', (Machine.going w i start none).steps k =
        ⟨w', .returned (.refused e), []⟩ := by
      rw [error] at result
      generalize (Machine.going w i start none).steps k = m' at result
      obtain ⟨w', control, callers⟩ := m'
      cases control <;> cases callers <;> cases result
      exact ⟨w', rfl⟩
    have hfailed : (w'.sim i).halted = true ∧ e ≠ .halted := by
      rw [hw'] at hend
      cases hend with
      | underWay run last => cases last
      | answered answer hanswer count failed => exact failed e (Option.some.inj hanswer).symm
    exact hcall enough (ends.trans hw')
      (.last w' _ (by rw [hw']) (.failed e error hfailed.2 hfailed.1))

/-- What the portions of a run answer, after `before` actions: first they count what they start,
and together they count what the run as a whole does.  One of them may fail, with the error of the
run as a whole.  The simulation may be halted in the course of the run; then the calls that are left
are refused. -/
inductive AddUp (before : Nat) : Outcome → List Outcome → Prop where
  | counted (total : Nat) (counts : List Nat) (refusals : List Outcome)
      (sum : before + counts.sum = total) (all : ∀ o ∈ refusals, o = .refused .halted) :
      AddUp before (.count total) (counts.map .count ++ refusals)
  | failed (e : Error) (other : e ≠ .halted) (counts : List Nat) (refusals : List Outcome)
      (all : ∀ o ∈ refusals, o = .refused .halted) :
      AddUp before (.refused e) (counts.map .count ++ .refused e :: refusals)

theorem AddUp.cons {before count : Nat} {outcome : Outcome} {outcomes : List Outcome}
    (addUp : AddUp (before + count) outcome outcomes) :
    AddUp before outcome (.count count :: outcomes) := by
  cases addUp with
  | counted total counts refusals sum all =>
    refine .counted total (count :: counts) refusals ?_ all
    rw [List.sum_cons, ← sum]
    omega
  | failed e other counts refusals all => exact .failed e other (count :: counts) refusals all

/-- The last portion that does something, and the calls after it. -/
theorem AddUp.last {before total count : Nat} (sum : before + count = total) (halted : Bool)
    {α : Type} (limits : List α) :
    AddUp before (.count total)
      (.count count :: limits.map (fun _ => if halted then .refused .halted else .count 0)) := by
  cases halted with
  | true =>
    refine .counted total [count] _ (by simpa using sum) fun o ho => ?_
    obtain ⟨-, -, rfl⟩ := List.mem_map.1 ho
    rfl
  | false =>
    have hzeros : limits.map (fun _ => Outcome.count 0) =
        (limits.map (fun _ => 0)).map Outcome.count := by
      rw [List.map_map]
      rfl
    have hsum : (limits.map (fun _ => 0)).sum = 0 := by simp
    have haddUp := AddUp.counted total (count :: limits.map (fun _ => 0)) []
      (by rw [List.sum_cons, hsum, Nat.add_zero, sum]) (fun o ho => by cases ho)
    simpa [hzeros] using haddUp

/-- The calls that a run is made of: what they do, and what they answer. -/
structure Portions (i : Fin n) (w : World n) (start fuel : Nat) (limits : List (Option Nat))
    (final : World n) (outcome : Outcome) (answers : List (Answer n)) : Prop where
  performs : (w.setSim i (w.sim i).endRun).performAll fuel
    (limits.map (fun limit => .command i (.toRun limit))) = some (answers, final)
  journal : w.journal ++ answers.flatMap Answer.journal = final.journal
  addUp : AddUp ((w.sim i).processed - start) outcome (answers.map Answer.outcome)

section Portions

variable {start fuel : Nat} {outcome : Outcome} {final : World n}

/-- After the call that ends the run, nothing is left to do. -/
theorem portions_of_ends {limit : Option Nat} {answer : Answer n}
    (performs : (w.setSim i (w.sim i).endRun).perform fuel (.command i (.toRun limit)) =
      some (answer, final)) (ends : Ends i w start outcome final answer.outcome)
    (journal : w.journal ++ answer.journal = final.journal) (enough : 0 < fuel)
    (counted : start ≤ (w.sim i).processed)
    (more : (w.sim i).processed ≤ (final.sim i).processed) (later : List (Option Nat)) :
    ∃ answers, Portions i w start fuel (limit :: later) final outcome answers := by
  have hspent : (final.sim i).Spent := by
    generalize answer.outcome = first at ends
    cases ends with
    | counted spent whole => exact spent
    | failed e whole other halted =>
      exact .inl (by simp [Simulation.isStopped, halted])
  obtain ⟨answers, hall, hjournals, houtcomes⟩ := performAll_spent hspent (.inr enough) later
  refine ⟨answer :: answers, ?_, ?_, ?_⟩
  · rw [List.map_cons, World.performAll, performs]
    dsimp only
    rw [hall]
    rfl
  · rw [List.flatMap_cons, hjournals, List.append_nil, journal]
  · rw [List.map_cons, houtcomes]
    generalize answer.outcome = first at ends ⊢
    cases ends with
    | counted spent whole =>
      rw [whole]
      exact .last (by omega) _ later
    | failed e whole other halted =>
      rw [whole, if_pos halted]
      refine .failed e other [] _ fun o ho => ?_
      obtain ⟨-, -, rfl⟩ := List.mem_map.1 ho
      rfl

/-- After a call that its limit has stopped, the others go on. -/
theorem Portions.cons {w' : World n} {limit : Option Nat} {limits : List (Option Nat)}
    {answer : Answer n} {answers : List (Answer n)}
    (performs : (w.setSim i (w.sim i).endRun).perform fuel (.command i (.toRun limit)) =
      some (answer, w'.setSim i (w'.sim i).endRun))
    (count : answer.outcome = .count ((w'.sim i).processed - (w.sim i).processed))
    (journal : w.journal ++ answer.journal = w'.journal)
    (counted : start ≤ (w.sim i).processed)
    (more : (w.sim i).processed ≤ (w'.sim i).processed)
    (rest : Portions i w' start fuel limits final outcome answers) :
    Portions i w start fuel (limit :: limits) final outcome (answer :: answers) where
  performs := by
    rw [List.map_cons, World.performAll, performs]
    dsimp only
    rw [rest.performs]
    rfl
  journal := by rw [List.flatMap_cons, ← List.append_assoc, journal, rest.journal]
  addUp := by
    rw [List.map_cons, count]
    refine AddUp.cons ?_
    have hsum : (w.sim i).processed - start + ((w'.sim i).processed - (w.sim i).processed) =
        (w'.sim i).processed - start := by omega
    rw [hsum]
    exact rest.addUp

/-- A call adds to the journal what it answers. -/
theorem journal_portion {j : Nat} {w' : World n} {answer : Answer n}
    (same : ((Machine.going w i start none).steps j).world.journal = w'.journal)
    (dropped : answer.journal = w'.journal.drop w.journal.length) :
    w.journal ++ answer.journal = w'.journal := by
  obtain ⟨extra, hextra⟩ := journal_steps (Machine.going w i start none) j
  have hsplit : w.journal ++ extra = w'.journal := hextra.trans same
  rw [dropped, ← hsplit, List.drop_left]

/-- **The portions do what the whole run does.** -/
theorem portions {k : Nat} (hist : History h (.going w i start none))
    (stopped : (w.sim i).isStopped = false) (counted : start ≤ (w.sim i).processed)
    (result : ((Machine.going w i start none).steps k).result? = some outcome)
    (calm : ∀ message, outcome ≠ .panicked message) (enough : k ≤ fuel) (limits : List Nat) :
    ∃ answers, Portions i w start fuel (limits.map some ++ [none])
      ((Machine.going w i start none).steps k).world outcome answers := by
  have hlast : ∀ {w : World n} {k : Nat} {limit : Option Nat} {answer : Answer n}
      (later : List (Option Nat)), start ≤ (w.sim i).processed →
      ((Machine.going w i start none).steps k).result? = some outcome → k ≤ fuel →
      (w.setSim i (w.sim i).endRun).perform fuel (.command i (.toRun limit)) =
        some (answer, ((Machine.going w i start none).steps k).world) →
      answer.journal =
        ((Machine.going w i start none).steps k).world.journal.drop w.journal.length →
      Ends i w start outcome ((Machine.going w i start none).steps k).world answer.outcome →
      ∃ answers, Portions i w start fuel (limit :: later)
        ((Machine.going w i start none).steps k).world outcome answers := by
    intro w k limit answer later hcounted hresult henough hperforms hdropped hends
    have hpos : 0 < k := Nat.pos_of_ne_zero fun hzero => by
      subst hzero
      cases hresult
    exact portions_of_ends hperforms hends (journal_portion rfl hdropped)
      (Nat.lt_of_lt_of_le hpos henough) hcounted (processed_steps (.going w i start none) k i) later
  induction limits generalizing h w k with
  | nil =>
    obtain ⟨answer, w', hperforms, hdropped, hportion⟩ :=
      perform_portion hist stopped result calm enough none
    generalize hanswer : answer.outcome = first at hportion
    cases hportion with
    | stopped j earlier w' limited hist here going => exact absurd rfl limited
    | last w' _ done ends =>
      subst hanswer done
      exact hlast [] counted result enough hperforms hdropped ends
  | cons limit limits ih =>
    obtain ⟨answer, w', hperforms, hdropped, hportion⟩ :=
      perform_portion hist stopped result calm enough (some limit)
    generalize hanswer : answer.outcome = first at hportion
    cases hportion with
    | stopped j earlier w' limited hist' here going =>
      obtain ⟨d, rfl⟩ := Nat.exists_eq_add_of_le (Nat.le_of_lt earlier)
      have hmore := processed_steps (Machine.going w i start none) j i
      rw [Machine.steps_add, here] at result ⊢
      rw [here] at hmore
      obtain ⟨answers, hrest⟩ := ih hist' going (Nat.le_trans counted hmore) result
        (Nat.le_trans (Nat.le_add_left d j) enough)
      exact ⟨answer :: answers, .cons hperforms hanswer
        (journal_portion (j := j) (by rw [here]; rfl) hdropped) counted hmore hrest⟩
    | last w' _ done ends =>
      subst hanswer done
      exact hlast _ counted result enough hperforms hdropped ends

end Portions

/-! ## Every history -/

/-- **Splitting a run changes nothing.**  A simulation that is neither paused nor halted is told to
run, and the run ends without a panic.  If it is told instead to run up to so many actions, any
number of times, and then to run, the world is the same in the end, and the same entries are added
to the journal: the same actions have started under the same ids, in the same order and at the same
instants.  The calls count together what the one call counts; or one of them fails with the error of
the one call, and those after it are refused. -/
theorem split_run_eq (hist : History h m) {outcome : Outcome} (rested : m.result? = some outcome)
    (going : (m.world.sim i).isStopped = false) {fuel : Nat} {answer : Answer n} {w' : World n}
    (ran : m.world.perform fuel (.command i .run) = some (answer, w'))
    (calm : ∀ message, answer.outcome ≠ .panicked message) (limits : List Nat) :
    ∃ answers, m.world.performAll fuel
        (limits.map (fun limit => .command i (.runFor limit)) ++ [.command i .run]) =
          some (answers, w') ∧
      answers.flatMap Answer.journal = answer.journal ∧
      AddUp 0 answer.outcome (answers.map Answer.outcome) := by
  have hcalls : limits.map (fun limit => Request.command i (.runFor limit)) ++ [.command i .run] =
      (limits.map some ++ [none]).map (fun limit => .command i (.toRun limit)) := by
    rw [List.map_append, List.map_map]
    rfl
  rw [hcalls]
  cases hrunning : (m.world.sim i).running with
  | true =>
    have hhalted : (m.world.sim i).halted = false := by
      simp only [Simulation.isStopped, Bool.or_eq_false_iff] at going
      exact going.2
    have hspent : (m.world.sim i).Spent := .inr (.inl hrunning)
    obtain ⟨answer', hperform, hjournal, houtcome⟩ := perform_spent hspent none (.inl hrunning)
    obtain ⟨rfl, rfl⟩ := Prod.mk.inj (Option.some.inj (hperform.symm.trans ran))
    obtain ⟨answers, hall, hjournals, houtcomes⟩ :=
      performAll_spent hspent (.inl hrunning) (limits.map some ++ [none])
    refine ⟨answers, hall, hjournals.trans hjournal.symm, ?_⟩
    rw [houtcome, houtcomes, hhalted, List.map_append]
    have hzeros : (limits.map some).map (fun _ => Outcome.count 0) ++ [Outcome.count 0] =
        (limits.map (fun _ => 0) ++ [0]).map Outcome.count ++ [] := by simp [Function.comp_def]
    have haddUp := @AddUp.counted 0 0 (limits.map (fun _ => 0) ++ [0]) [] (by simp)
      (fun o ho => by cases ho)
    exact hzeros ▸ haddUp
  | false =>
    unfold World.perform at ran
    simp only [Machine.run_eq_steps, Option.map_eq_some_iff] at ran
    obtain ⟨result, hresult, heq⟩ := ran
    obtain ⟨rfl, rfl⟩ := Prod.mk.inj heq
    have hrequest := request_toRun going hrunning none
    rw [show (Command.toRun none : Command n) = .run from rfl] at hrequest
    have hist' := hist.next (.request m outcome (.command i .run) rested)
    have hsim := sim_setSim_self m.world i { m.world.sim i with running := true }
    rw [hrequest] at hist' hresult ⊢
    obtain ⟨answers, hportions⟩ := portions hist' (by rw [hsim]; exact going)
      (Nat.le_of_eq (congrArg Simulation.processed hsim).symm) hresult calm (Nat.le_refl fuel)
      limits
    obtain ⟨hperforms, hjournal, haddUp⟩ := hportions
    rw [hsim, setSim_setSim, show Simulation.endRun { m.world.sim i with running := true } =
      m.world.sim i from endRun_of_idle hrunning, setSim_sim] at hperforms
    refine ⟨answers, hperforms, ?_, ?_⟩
    · dsimp only
      rw [← hjournal]
      exact List.drop_left.symm
    · rw [hsim] at haddUp
      simpa using haddUp

/-- The small world after three actions of its source were handed in for now, the first of which
stalls it. -/
def threeHandedIn : Machine 1 :=
  (Machine.atRest smallWorld).ask ((threeActions stallUntilFive .done .sourceNow).take 3)

/-- The second call starts both actions of the backlog, though it was to start one; the world is the
same as after one call. -/
theorem split_run_eq_of_backlog :
    ∃ answer w' answers,
      threeHandedIn.world.perform 20 (.command lone .run) = some (answer, w') ∧
      answer.outcome = .count 3 ∧
      threeHandedIn.world.performAll 20 ([1, 1].map (fun limit => .command lone (.runFor limit)) ++
        [.command lone .run]) = some (answers, w') ∧
      answers.map Answer.outcome = [.count 1, .count 2, .count 0] ∧
      answers.flatMap Answer.journal = answer.journal := by
  have hist : History _ threeHandedIn := History.small.ask _ rfl
  have hwhole : (threeHandedIn.world.perform 20 (.command lone .run)).map (fun r => r.1.outcome) =
      some (.count 3) := rfl
  obtain ⟨⟨answer, w'⟩, ran, hcount⟩ := Option.map_eq_some_iff.1 hwhole
  have hcalm : ∀ message, answer.outcome ≠ .panicked message := by
    intro message hpanic
    cases hpanic.symm.trans hcount
  obtain ⟨answers, hall, hjournal, -⟩ := split_run_eq hist rfl rfl ran hcalm [1, 1]
  have hparts : (threeHandedIn.world.performAll 20
      ([1, 1].map (fun limit => .command lone (.runFor limit)) ++ [.command lone .run])).map
        (fun r => r.1.map Answer.outcome) = some [.count 1, .count 2, .count 0] := rfl
  rw [hall] at hparts
  exact ⟨answer, w', answers, ran, hcount, hall, Option.some.inj hparts, hjournal⟩

end StallSim
