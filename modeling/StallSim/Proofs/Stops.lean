import StallSim.Proofs.Steps

/-!
# Pausing and halting

A pause stops a simulation until a resume; a halt stops it for good.  Nothing else in the world
lifts a stop: submissions, cancellations, stalls, runs of other simulations, failures and panics
leave it alone.

* `Stop` — the two ways to stop a simulation, with what asks for them and what lifts them.
* `Go`, `Onward` — steps and requests that do not lift the stop.

Principal result: `Go.holds` — a stop holds until it is lifted.
-/

set_option autoImplicit false

namespace StallSim

variable {n : Nat}

/-- How a simulation is stopped: by a pause, or for good. -/
inductive Stop where
  | paused
  | halted

namespace Stop

/-- The simulation is stopped in this way. -/
def Holds (stop : Stop) (s : Simulation (Action n)) : Prop :=
  match stop with
  | .paused => s.paused = true
  | .halted => s.halted = true

/-- The request that stops the simulation `i` in this way. -/
def request (stop : Stop) (i : Fin n) : Request n :=
  match stop with
  | .paused => .command i .pause
  | .halted => .command i .halt

/-- The request lifts the stop of the simulation `i`. -/
def LiftedBy (stop : Stop) (i : Fin n) (request : Request n) : Prop :=
  match stop with
  | .paused => request = .command i .resume
  | .halted => False

end Stop

/-- The world goes on by a step or a request that does not lift the stop of the simulation `i`. -/
inductive Go (stop : Stop) (i : Fin n) :
    Machine n → List (Fin n × Happening n) → Machine n → Prop where
  | step (m : Machine n) (kept : ∀ request, m.call? = some request → ¬ stop.LiftedBy i request) :
      Go stop i m m.happenings m.step
  | request (m : Machine n) (outcome : Outcome) (request : Request n)
      (rested : m.result? = some outcome) (kept : ¬ stop.LiftedBy i request) :
      Go stop i m (request.happenings m.world) (Machine.request m.world request)

/-- The world goes on, however long, without lifting the stop of the simulation `i`. -/
inductive Onward (stop : Stop) (i : Fin n) :
    Machine n → List (Fin n × Happening n) → Machine n → Prop where
  | refl (m : Machine n) : Onward stop i m [] m
  | go {m m' m'' : Machine n} {new later : List (Fin n × Happening n)} :
      Go stop i m new m' → Onward stop i m' later m'' → Onward stop i m (new ++ later) m''

theorem Go.next {stop : Stop} {i : Fin n} {m m' : Machine n}
    {new : List (Fin n × Happening n)} (go : Go stop i m new m') : Next m new m' := by
  cases go with
  | step kept => exact .step m
  | request outcome request rested kept => exact .request m outcome request rested

/-! ## A stop holds until it is lifted -/

section Kept

variable {stop : Stop} {w : World n} {i j : Fin n} {s s' : Simulation (Action n)}

theorem Stop.holds_congr (paused : s'.paused = s.paused) (halted : s'.halted = s.halted)
    (holds : stop.Holds s) : stop.Holds s' := by
  cases stop with
  | paused => exact paused.trans holds
  | halted => exact halted.trans holds

/-- The flags are the same, but for the one that tells of a run. -/
theorem Stop.holds_of_flags (flags : s'.flags = s.flags) (holds : stop.Holds s) : stop.Holds s' :=
  holds_congr (congrArg (fun f => f.1) flags) (congrArg (fun f => f.2.1) flags) holds

theorem Stop.isStopped (holds : stop.Holds s) : s.isStopped = true := by
  unfold Simulation.isStopped
  cases stop with
  | paused =>
    rw [show s.paused = true from holds]
    rfl
  | halted =>
    rw [show s.halted = true from holds]
    exact Bool.or_true _

theorem Stop.holds_setSim (kept : stop.Holds (w.sim j) → stop.Holds s)
    (holds : stop.Holds (w.sim i)) : stop.Holds ((w.setSim j s).sim i) := by
  rw [World.sim_setSim]
  split
  · rename_i hij
    exact kept (hij ▸ holds)
  · exact holds

theorem Stop.holds_submit (submission : Submission n) (body : Script n)
    (holds : stop.Holds (w.sim i)) : stop.Holds ((w.submit submission body).1.sim i) := by
  rcases w.submit_cases submission body with ⟨hw, -⟩ | ⟨ticket, s', hadmits, -, hw⟩
  · rw [hw]
    exact holds
  · rw [hw]
    have hset : stop.Holds ((w.setSim submission.sim s').sim i) :=
      holds_setSim (holds_of_flags (hadmits.eq ▸ flags_lodge _ ticket)) holds
    cases submission.handle <;> exact hset

theorem Stop.holds_beginRun (limit : Option Nat) (holds : stop.Holds (w.sim i)) :
    stop.Holds ((w.beginRun j limit).1.sim i) := by
  unfold World.beginRun
  cases hstart : (w.sim j).startRun with
  | error e => exact holds
  | ok started =>
    cases started with
    | none => exact holds
    | some s =>
      unfold Simulation.startRun at hstart
      split at hstart
      · cases hstart
      · split at hstart <;> cases hstart
        exact holds_setSim (holds_congr rfl rfl) holds

/-- A command keeps the stop, unless it lifts it. -/
theorem Stop.holds_command (command : Command n) (kept : ¬ stop.LiftedBy i (.command j command))
    (holds : stop.Holds (w.sim i)) : stop.Holds ((w.command j command).1.sim i) := by
  cases command with
  | stall source release =>
    rcases w.stall_cases j source release with ⟨hw, -⟩ | ⟨t, s', hs, -, hw⟩
    · show stop.Holds ((w.stall j source release).1.sim i)
      rw [hw]
      exact holds
    · obtain ⟨backlog, -, -, -, -, rfl⟩ := stallUntil_eq_ok hs
      show stop.Holds ((w.stall j source release).1.sim i)
      rw [hw]
      exact holds_setSim (holds_congr rfl rfl) holds
  | cancel name =>
    show stop.Holds ((w.cancel name).1.sim i)
    unfold World.cancel
    split
    · exact holds
    · exact holds_setSim (holds_congr rfl rfl) holds
  | pause =>
    refine holds_setSim (fun h => ?_) holds
    cases stop with
    | paused => rfl
    | halted => exact h
  | halt =>
    refine holds_setSim (fun h => ?_) holds
    cases stop with
    | paused => exact h
    | halted => rfl
  | enableTrace => exact holds_setSim (holds_congr rfl rfl) holds
  | run => exact holds_beginRun none holds
  | runFor limit => exact holds_beginRun (some limit) holds
  | resume =>
    refine holds_beginRun none ?_
    cases stop with
    | paused =>
      have hne : j ≠ i := fun h => kept (h ▸ rfl)
      show (((w.setSim j _).sim i)).paused = true
      rw [World.sim_setSim, if_neg hne]
      exact holds
    | halted =>
      have hset : ((w.setSim j (w.sim j).unpause).sim i).halted = true := by
        rw [World.sim_setSim]
        split
        · rename_i hij
          exact hij ▸ holds
        · exact holds
      exact hset
  | _ => exact holds

theorem Stop.holds_abort (run : Run n) (work : Work (Action n)) (failure : Failure)
    (callers : List (Caller n)) (holds : stop.Holds (w.sim i)) :
    stop.Holds ((Machine.abort w run work failure callers).world.sim i) := by
  refine holds_setSim (fun h => ?_) holds
  have hfailed : stop.Holds (w.sim run.sim).failAction := by
    cases stop with
    | paused => exact h
    | halted => rfl
  cases run.replay with
  | none => exact holds_congr rfl rfl hfailed
  | some r =>
    dsimp only
    rw [closeReplay_eq]
    exact holds_congr rfl rfl hfailed

theorem Stop.holds_settle (run : Run n) (work : Work (Action n)) (operation : Operation n)
    (handling : Handling) (rest : Script n) (outcome : Outcome) (callers : List (Caller n))
    (holds : stop.Holds (w.sim i)) : stop.Holds
      ((Machine.settle w run work operation handling rest outcome callers).world.sim i) := by
  unfold Machine.settle
  dsimp only
  split
  · split
    · exact holds_abort run work _ callers (w := w.note _) holds
    · exact holds
  · exact holds

theorem Stop.holds_unwind (runs : List (Run n)) (holds : stop.Holds (w.sim i)) :
    stop.Holds ((Machine.unwind w runs).sim i) := by
  unfold Machine.unwind
  induction runs generalizing w with
  | nil => exact holds
  | cons run runs ih =>
    rw [List.foldl_cons]
    exact ih (holds_setSim (holds_congr rfl rfl) holds)

theorem Stop.holds_enter (run : Run n) (work : Work (Action n)) (callers : List (Caller n))
    (holds : stop.Holds (w.sim i)) :
    stop.Holds ((Machine.enter w run work callers).world.sim i) :=
  holds_setSim (holds_congr rfl rfl) holds

theorem Stop.holds_stepRun (run : Run n) (callers : List (Caller n))
    (holds : stop.Holds (w.sim i)) :
    stop.Holds ((Machine.stepRun w run callers).world.sim i) := by
  have hafter : ∀ {new} st, (w.sim run.sim).dispatch.after = some (new, st) →
      stop.Holds (w.sim run.sim) → stop.Holds st.sim :=
    fun _ h => holds_of_flags (flags_dispatch h)
  have hstep := runStep_stepRun w run callers
  generalize Machine.stepRun w run callers = m' at hstep
  cases hstep with
  | skip r work s replay next cancelled =>
    exact holds_setSim (holds_of_flags (flags_nextReplayed next)) holds
  | drain r work s replay next live =>
    exact holds_enter _ _ _ (holds_setSim (holds_of_flags (flags_nextReplayed next)) holds)
  | close r replay exhausted =>
    refine holds_setSim ?_ holds
    rw [closeReplay_eq]
    exact holds_congr rfl rfl
  | conclude outcome idle => exact holds_setSim (holds_congr rfl rfl) holds
  | settle s idle going dispatch =>
    exact holds_setSim (hafter ⟨s, none⟩ (by rw [dispatch]; rfl)) holds
  | start work s idle going dispatch =>
    refine holds_enter _ _ _ (holds_setSim (fun h => ?_) holds)
    have hstarted := hafter ⟨s.startAction work, none⟩ (by rw [dispatch]; rfl) h
    exact holds_congr (s := s.startAction work) rfl rfl hstarted
  | replay source stall s idle going dispatch =>
    exact holds_setSim (hafter ⟨s, _⟩ (by rw [dispatch]; rfl)) holds

/-- **A stop holds until it is lifted.** -/
theorem Go.holds {m m' : Machine n} {new : List (Fin n × Happening n)} (go : Go stop i m new m')
    (holds : stop.Holds (m.world.sim i)) : stop.Holds (m'.world.sim i) := by
  cases go with
  | step kept =>
    obtain ⟨w, control, callers⟩ := m
    cases control with
    | between run => exact Stop.holds_stepRun run callers holds
    | within run work script =>
      cases script with
      | done => exact Stop.holds_setSim (Stop.holds_congr rfl rfl) holds
      | submit submission body handling rest =>
        exact Stop.holds_settle _ _ _ _ _ _ _ (Stop.holds_submit submission body holds)
      | perform j command handling rest =>
        have hcommand := Stop.holds_command command (kept _ rfl) holds
        show stop.Holds ((Machine.stepAction w run work (.perform j command handling rest)
          callers).world.sim i)
        unfold Machine.stepAction
        dsimp only at hcommand ⊢
        split
        · rename_i w' outcome heq
          rw [heq] at hcommand
          exact Stop.holds_settle _ _ _ _ _ _ _ hcommand
        · rename_i w' inner heq
          rw [heq] at hcommand
          exact hcommand
      | call name rest => exact holds
      | whenBefore j limit body rest => exact holds
      | fail failure context => exact Stop.holds_abort (w := w.note _) run work _ callers holds
      | panic message => exact Stop.holds_unwind _ holds
    | returned outcome =>
      cases callers with
      | nil => exact holds
      | cons c callers => exact Stop.holds_settle _ _ _ _ _ _ _ holds
  | request outcome request rested kept =>
    cases request with
    | submit submission body => exact Stop.holds_submit submission body holds
    | command j command =>
      have hcommand := Stop.holds_command command kept holds
      dsimp only [Machine.request]
      split
      · rename_i w' outcome heq
        rw [heq] at hcommand
        exact hcommand
      · rename_i w' inner heq
        rw [heq] at hcommand
        exact hcommand

end Kept

end StallSim
