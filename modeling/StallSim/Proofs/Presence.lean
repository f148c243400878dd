import Mathlib.Order.Fin.Basic
import StallSim.Proofs.Attribution
import StallSim.Proofs.Finality
import StallSim.Proofs.Tally

/-!
# The call stack, as each simulation keeps it

A simulation does not see the call stack of its world.  It keeps two things about it: whether a run
of it is under way, and the sources of its actions at work.  Both are exact after every step, also
after an action has failed and after a panic; that runs of one simulation do not nest follows.

* `sourcesAt` — the sources of one simulation on the call stack.
* `Keeps` — every simulation of a world keeps the runs and the actions at work as they are.
* `Machine.Observable` — an action or a caller from outside has its turn.
* `Declined` — a run that is asked for does not begin, and nothing else happens.

Principal results: `Next.keeps` — a step keeps the books exact; `History.keeps`;
`call_stack_exact` — one action at work at most, with its source, and a run within a run of the
same simulation declined.
-/

set_option autoImplicit false

namespace StallSim

variable {n : Nat}

/-! ## What a simulation keeps -/

/-- What a simulation keeps of the call stack: whether it is in a run, and its sources at work. -/
def Simulation.stack {α : Type} (s : Simulation α) : Bool × List Source := (s.running, s.active)

section Stack

variable {s s' : Simulation (Action n)}

theorem stack_dispatch (taken : s.dispatch.sim? = some s') : s'.stack = s.stack := by
  obtain ⟨_, _, _, _, -, rfl⟩ := dispatch_frame taken
  rfl

theorem stack_nextReplayed {source : Source} {work : Work (Action n)}
    (next : s.nextReplayed source = some (work, s')) : s'.stack = s.stack := by
  obtain ⟨_, rfl⟩ := nextReplayed_frame next
  rfl

theorem stack_closeReplay (s : Simulation (Action n)) (r : Replay n) :
    (s.closeReplay r.source r.release r.timers).stack = s.stack := by
  rw [closeReplay_eq]
  rfl

theorem stack_lodge (s : Simulation (Action n)) (ticket : Ticket n) :
    (s.issue.lodge ticket).stack = s.stack := by
  obtain ⟨_, _, _, hlodge⟩ := lodge_frame s ticket
  rw [hlodge]
  rfl

theorem stack_stallUntil {source : Source} {release : Instant}
    (stalled : s.stallUntil source release = .ok s') : s'.stack = s.stack := by
  obtain ⟨backlog, -, -, -, -, rfl⟩ := stallUntil_eq_ok stalled
  rfl

end Stack

/-! ## What the simulations of a world keep -/

/-- The sources of the actions of the simulation `i` among these, in their order. -/
def sourcesAt (i : Fin n) : List (Run n × Work (Action n)) → List Source
  | [] => []
  | f :: frames => if f.1.sim = i then f.2.source :: sourcesAt i frames else sourcesAt i frames

@[simp] theorem sourcesAt_cons_self (run : Run n) (work : Work (Action n))
    (frames : List (Run n × Work (Action n))) :
    sourcesAt run.sim ((run, work) :: frames) = work.source :: sourcesAt run.sim frames := by
  simp [sourcesAt]

theorem sourcesAt_cons_of_ne {i : Fin n} {run : Run n} (ne : i ≠ run.sim)
    (work : Work (Action n)) (frames : List (Run n × Work (Action n))) :
    sourcesAt i ((run, work) :: frames) = sourcesAt i frames := by
  simp [sourcesAt, Ne.symm ne]

theorem sourcesAt_eq_nil {i : Fin n} {frames : List (Run n × Work (Action n))}
    (absent : i ∉ frames.map (fun f => f.1.sim)) : sourcesAt i frames = [] := by
  induction frames with
  | nil => rfl
  | cons f frames ih =>
    simp only [List.map_cons, List.mem_cons, not_or] at absent
    simp [sourcesAt, Ne.symm absent.1, ih absent.2]

/-- Where the actions are of different simulations, each is alone in its own. -/
theorem sourcesAt_of_mem {frames : List (Run n × Work (Action n))}
    (distinct : (frames.map (fun f => f.1.sim)).Nodup) {f : Run n × Work (Action n)}
    (mem : f ∈ frames) : sourcesAt f.1.sim frames = [f.2.source] := by
  induction frames with
  | nil => cases mem
  | cons g frames ih =>
    obtain ⟨habsent, hdistinct⟩ := List.nodup_cons.1 distinct
    rcases List.mem_cons.1 mem with rfl | hmem
    · simp [sourcesAt, sourcesAt_eq_nil habsent]
    · have hne : g.1.sim ≠ f.1.sim := by
        intro heq
        exact habsent (List.mem_map.2 ⟨f, hmem, heq.symm⟩)
      simp [sourcesAt, hne, ih hdistinct hmem]

/-- Every simulation of a world keeps the runs under way and the actions at work as they are. -/
structure Keeps (w : World n) (runs : List (Run n)) (frames : List (Run n × Work (Action n))) :
    Prop where
  active : ∀ i, (w.sim i).active = sourcesAt i frames
  running : ∀ i, (w.sim i).running = true ↔ i ∈ runs.map Run.sim

namespace Keeps

variable {w : World n} {runs : List (Run n)} {frames : List (Run n × Work (Action n))}
  {run : Run n} {work : Work (Action n)}

/-- The runs and the actions of one simulation change, and its books with them. -/
theorem change (keeps : Keeps w runs frames) {i : Fin n} {s : Simulation (Action n)}
    {runs' : List (Run n)} {frames' : List (Run n × Work (Action n))}
    (active : s.active = sourcesAt i frames')
    (running : s.running = true ↔ i ∈ runs'.map Run.sim)
    (others : ∀ j, j ≠ i → sourcesAt j frames' = sourcesAt j frames ∧
      (j ∈ runs'.map Run.sim ↔ j ∈ runs.map Run.sim)) :
    Keeps (w.setSim i s) runs' frames' := by
  constructor
  · intro j
    rw [World.sim_setSim]
    split
    · rename_i hij
      exact hij ▸ active
    · rename_i hij
      rw [(others j (Ne.symm hij)).1]
      exact keeps.active j
  · intro j
    rw [World.sim_setSim]
    split
    · rename_i hij
      exact hij ▸ running
    · rename_i hij
      rw [(others j (Ne.symm hij)).2]
      exact keeps.running j

/-- A simulation changes in other respects. -/
theorem setSim (keeps : Keeps w runs frames) {i : Fin n} {s : Simulation (Action n)}
    (stack : s.stack = (w.sim i).stack) : Keeps (w.setSim i s) runs frames := by
  simp only [Simulation.stack, Prod.mk.injEq] at stack
  apply keeps.change
  · rw [stack.2]
    exact keeps.active i
  · rw [stack.1]
    exact keeps.running i
  · intro j _
    exact ⟨rfl, Iff.rfl⟩

theorem note (keeps : Keeps w runs frames) (record : Record n) :
    Keeps (w.note record) runs frames := ⟨keeps.active, keeps.running⟩

/-- A run begins. -/
theorem push (keeps : Keeps w runs frames) (run : Run n) {s : Simulation (Action n)}
    (active : s.active = (w.sim run.sim).active) (running : s.running = true) :
    Keeps (w.setSim run.sim s) (run :: runs) frames := by
  apply keeps.change
  · rw [active]
    exact keeps.active run.sim
  · simp [running]
  · intro j hj
    simp [hj]

/-- A run ends. -/
theorem pop (keeps : Keeps w (run :: runs) frames) {s : Simulation (Action n)}
    (absent : run.sim ∉ runs.map Run.sim) (active : s.active = (w.sim run.sim).active)
    (running : s.running = false) : Keeps (w.setSim run.sim s) runs frames := by
  apply keeps.change
  · rw [active]
    exact keeps.active run.sim
  · simp only [running, Bool.false_eq_true, false_iff]
    exact absent
  · intro j hj
    simp [hj]

/-- An action starts. -/
theorem enter (keeps : Keeps w runs frames) {s : Simulation (Action n)}
    (stack : s.stack = (w.sim run.sim).stack) (work : Work (Action n)) :
    Keeps (w.setSim run.sim (s.startAction work)) runs ((run, work) :: frames) := by
  simp only [Simulation.stack, Prod.mk.injEq] at stack
  apply keeps.change
  · show work.source :: s.active = _
    rw [sourcesAt_cons_self, stack.2, keeps.active]
  · show s.running = true ↔ _
    rw [stack.1]
    exact keeps.running run.sim
  · intro j hj
    simp [sourcesAt_cons_of_ne hj]

/-- An action ends. -/
theorem leave (keeps : Keeps w runs ((run, work) :: frames)) :
    Keeps (w.setSim run.sim (w.sim run.sim).endAction) runs frames := by
  apply keeps.change
  · show (w.sim run.sim).active.tail = _
    rw [keeps.active, sourcesAt_cons_self]
    rfl
  · exact keeps.running run.sim
  · intro j hj
    simp [sourcesAt_cons_of_ne hj]

/-- An action ends, and its run with it. -/
theorem quit (keeps : Keeps w (run :: runs) ((run, work) :: frames))
    (absent : run.sim ∉ runs.map Run.sim) {s : Simulation (Action n)}
    (active : s.active = (w.sim run.sim).active.tail) (running : s.running = false) :
    Keeps (w.setSim run.sim s) runs frames := by
  have hquit := keeps.leave.pop (s := s) absent
    (by rw [sim_setSim_self]; exact active) running
  rwa [setSim_setSim] at hquit

end Keeps

/-! ## Operations -/

namespace Keeps

variable {w : World n} {runs : List (Run n)} {frames : List (Run n × Work (Action n))}

theorem submit (keeps : Keeps w runs frames) (submission : Submission n) (body : Script n) :
    Keeps (w.submit submission body).1 runs frames := by
  rcases w.submit_cases submission body with ⟨hw, -⟩ | ⟨ticket, s', hadmits, -, hw⟩
  · rw [hw]
    exact keeps
  · rw [hw]
    have hset : Keeps (w.setSim submission.sim s') runs frames := by
      apply keeps.setSim
      rw [hadmits.eq]
      exact stack_lodge _ ticket
    cases submission.handle with
    | none => exact hset
    | some name => exact ⟨hset.active, hset.running⟩

theorem beginRun (keeps : Keeps w runs frames) (i : Fin n) (limit : Option Nat) :
    match w.beginRun i limit with
    | (w', .outcome _) => Keeps w' runs frames
    | (w', .run run) => Keeps w' (run :: runs) frames := by
  unfold World.beginRun Simulation.startRun
  by_cases hhalted : (w.sim i).halted
  · simp only [hhalted, if_true]
    exact keeps
  · by_cases hbusy : (w.sim i).running || (w.sim i).paused
    · simp only [hhalted, hbusy, if_true]
      exact keeps
    · simp only [hhalted, hbusy]
      exact keeps.push ⟨i, _, limit, none⟩ rfl rfl

/-- A command is carried out at once, or a run begins. -/
theorem command (keeps : Keeps w runs frames) (i : Fin n) (command : Command n) :
    match w.command i command with
    | (w', .outcome _) => Keeps w' runs frames
    | (w', .run run) => Keeps w' (run :: runs) frames := by
  cases command with
  | stall source release =>
    show Keeps (w.stall i source release).1 runs frames
    rcases w.stall_cases i source release with ⟨hw, -⟩ | ⟨t, s', hs, -, hw⟩
    · rw [hw]
      exact keeps
    · rw [hw]
      exact keeps.setSim (stack_stallUntil hs)
  | cancel name =>
    show Keeps (w.cancel name).1 runs frames
    unfold World.cancel
    split
    · exact keeps
    · apply keeps.setSim
      rfl
  | pause => exact keeps.setSim (s := (w.sim i).pause) rfl
  | halt => exact keeps.setSim (s := (w.sim i).halt) rfl
  | enableTrace => exact keeps.setSim (s := (w.sim i).enableTrace) rfl
  | run => exact keeps.beginRun i none
  | runFor limit => exact keeps.beginRun i (some limit)
  | resume => exact (keeps.setSim (s := (w.sim i).unpause) rfl).beginRun i none
  | _ => exact keeps

section Steps

variable {run : Run n} {work : Work (Action n)} {callers : List (Caller n)}

/-- An action that fails ends with its run. -/
theorem abort (keeps : Keeps w (run :: callers.map Caller.run)
      ((run, work) :: callers.map Caller.frame))
    (absent : run.sim ∉ (callers.map Caller.run).map Run.sim) (failure : Failure) :
    Keeps (Machine.abort w run work failure callers).world
      (Machine.abort w run work failure callers).runs
      (Machine.abort w run work failure callers).frames := by
  unfold Machine.abort
  dsimp only [Machine.runs, Machine.frames]
  apply keeps.quit absent
  · cases run.replay with
    | none => rfl
    | some r => exact congrArg Prod.snd (stack_closeReplay (w.sim run.sim).failAction r)
  · rfl

/-- An operation is answered: the action goes on, or ends with its run. -/
theorem settle (keeps : Keeps w (run :: callers.map Caller.run)
      ((run, work) :: callers.map Caller.frame))
    (absent : run.sim ∉ (callers.map Caller.run).map Run.sim) (operation : Operation n)
    (handling : Handling) (rest : Script n) (outcome : Outcome) :
    Keeps (Machine.settle w run work operation handling rest outcome callers).world
      (Machine.settle w run work operation handling rest outcome callers).runs
      (Machine.settle w run work operation handling rest outcome callers).frames := by
  cases hfailed : handling.failure? outcome with
  | some failure =>
    rw [settle_of_failure hfailed]
    exact (keeps.note _).abort absent failure
  | none =>
    rw [settle_of_success hfailed]
    exact keeps.note _

/-- A panic leaves no action at work and no run under way. -/
theorem unwind (keeps : Keeps w (frames.map Prod.fst) frames)
    (distinct : ((frames.map Prod.fst).map Run.sim).Nodup) :
    Keeps (Machine.unwind w (frames.map Prod.fst)) [] [] := by
  unfold Machine.unwind
  induction frames generalizing w with
  | nil => exact keeps
  | cons f frames ih =>
    obtain ⟨run, work⟩ := f
    simp only [List.map_cons, List.nodup_cons] at distinct
    rw [List.map_cons, List.foldl_cons]
    apply ih ?_ distinct.2
    exact keeps.quit distinct.1 rfl rfl

theorem stepRun (keeps : Keeps w (run :: callers.map Caller.run) (callers.map Caller.frame))
    (absent : run.sim ∉ (callers.map Caller.run).map Run.sim) :
    Keeps (Machine.stepRun w run callers).world (Machine.stepRun w run callers).runs
      (Machine.stepRun w run callers).frames := by
  have hentered : ∀ {s : Simulation (Action n)} (work : Work (Action n)),
      s.stack = (w.sim run.sim).stack →
      Keeps (Machine.enter (w.setSim run.sim s) run work callers).world
        (Machine.enter (w.setSim run.sim s) run work callers).runs
        (Machine.enter (w.setSim run.sim s) run work callers).frames := by
    intro s work hstack
    rw [enter_eq]
    exact (keeps.enter hstack work).note _
  have hstep := runStep_stepRun w run callers
  generalize Machine.stepRun w run callers = m' at hstep
  cases hstep with
  | skip r work s replay next cancelled => exact keeps.setSim (stack_nextReplayed next)
  | drain r work s replay next live => exact hentered work (stack_nextReplayed next)
  | close r replay exhausted =>
    have hset := keeps.setSim (stack_closeReplay (w.sim run.sim) r)
    exact ⟨hset.active, hset.running⟩
  | conclude outcome idle =>
    apply keeps.pop absent
    · rfl
    · rfl
  | settle s idle going dispatch => exact keeps.setSim (stack_dispatch (by rw [dispatch]; rfl))
  | start work s idle going dispatch =>
    exact hentered work (stack_dispatch (by rw [dispatch]; rfl))
  | replay source stall s idle going dispatch =>
    have htaken : (w.sim run.sim).dispatch.sim? = some s := by
      rw [dispatch]
      rfl
    have hset := keeps.setSim (stack_dispatch htaken)
    exact ⟨hset.active, hset.running⟩

theorem stepAction (keeps : Keeps w (run :: callers.map Caller.run)
      ((run, work) :: callers.map Caller.frame))
    (distinct : ((run :: callers.map Caller.run).map Run.sim).Nodup) (script : Script n) :
    Keeps (Machine.stepAction w run work script callers).world
      (Machine.stepAction w run work script callers).runs
      (Machine.stepAction w run work script callers).frames := by
  have habsent : run.sim ∉ (callers.map Caller.run).map Run.sim := (List.nodup_cons.1 distinct).1
  cases script with
  | done => exact keeps.leave
  | submit submission body handling rest =>
    exact (keeps.submit submission body).settle habsent _ handling rest _
  | perform i command handling rest =>
    have hcommand := keeps.command i command
    unfold Machine.stepAction
    dsimp only
    split
    · rename_i w' outcome heq
      rw [heq] at hcommand
      exact hcommand.settle habsent _ handling rest outcome
    · rename_i w' inner heq
      rw [heq] at hcommand
      exact hcommand
  | call name rest => exact keeps
  | whenBefore i limit body rest => exact keeps
  | fail failure context => exact (keeps.note _).abort habsent _
  | panic message =>
    have hruns : run :: callers.map Caller.run =
        ((run, work) :: callers.map Caller.frame).map Prod.fst := by
      simp [Caller.frame, Function.comp_def]
    show Keeps (Machine.unwind w (run :: callers.map Caller.run)) [] []
    rw [hruns] at keeps distinct ⊢
    exact keeps.unwind distinct

end Steps

end Keeps

/-! ## Histories -/

section Histories

variable {h new : List (Fin n × Happening n)} {m m' : Machine n}

/-- The simulations of the world keep its call stack. -/
def Machine.Keeps (m : Machine n) : Prop := StallSim.Keeps m.world m.runs m.frames

/-- **A step, or a request, keeps the books exact.** -/
theorem Next.keeps (next : Next m new m') (distinct : (m.runs.map Run.sim).Nodup)
    (keeps : m.Keeps) : m'.Keeps := by
  cases next with
  | request outcome request rested =>
    rw [Machine.Keeps, runs_of_result? rested, frames_of_result? rested] at keeps
    cases request with
    | submit submission body => exact keeps.submit submission body
    | command i command =>
      have hcommand := keeps.command i command
      unfold Machine.request
      dsimp only
      split
      · rename_i w' outcome heq
        rw [heq] at hcommand
        exact hcommand
      · rename_i w' run heq
        rw [heq] at hcommand
        exact hcommand
  | step =>
    obtain ⟨w, control, callers⟩ := m
    cases control with
    | between run => exact Keeps.stepRun keeps (List.nodup_cons.1 distinct).1
    | within run work script => exact Keeps.stepAction keeps distinct script
    | returned outcome =>
      cases callers with
      | nil => exact keeps
      | cons c callers =>
        exact Keeps.settle keeps (List.nodup_cons.1 distinct).1 c.operation c.handling c.rest
          outcome

/-- **The simulations of a history keep its call stack.** -/
theorem History.keeps (hist : History h m) : m.Keeps := by
  induction hist with
  | create configs procedures =>
    have hsim : ∀ i, (World.create configs procedures).sim i = Simulation.create configs[i] := by
      intro i
      simp [World.create, World.sim]
    constructor
    · intro i
      dsimp only [Machine.atRest]
      rw [hsim]
      rfl
    · intro i
      dsimp only [Machine.atRest]
      rw [hsim]
      simp [Simulation.create, Machine.runs]
  | next hist next ih => exact next.keeps hist.grounded.distinct ih

/-- Actions at work are of different simulations. -/
theorem History.frames_nodup (hist : History h m) :
    (m.frames.map (fun f => f.1.sim)).Nodup :=
  (map_frames_sublist m).nodup hist.grounded.distinct

/-- The simulation of an action at work has its source alone. -/
theorem History.active_of_frame (hist : History h m) {f : Run n × Work (Action n)}
    (mem : f ∈ m.frames) : (m.world.sim f.1.sim).active = [f.2.source] := by
  rw [hist.keeps.active]
  exact sourcesAt_of_mem hist.frames_nodup mem

/-- A simulation none of whose actions is at work has no source. -/
theorem History.active_of_absent (hist : History h m) {i : Fin n}
    (absent : i ∉ m.frames.map (fun f => f.1.sim)) : (m.world.sim i).active = [] := by
  rw [hist.keeps.active]
  exact sourcesAt_eq_nil absent

end Histories

/-! ## Operations that are answered at once -/

/-- Carry out a request, whoever makes it. -/
def World.reply (w : World n) : Request n → World n × Reply n
  | .submit submission body => let r := w.submit submission body; (r.1, .outcome r.2)
  | .command i command => w.command i command

/-- The machine after the operation that an action calls was answered, in the world `w`. -/
def Machine.answered (m : Machine n) (w : World n) (outcome : Outcome) : Machine n :=
  match m.control with
  | .within run work (.submit submission _ handling rest) =>
    settle w run work (.submit submission) handling rest outcome m.callers
  | .within run work (.perform i command handling rest) =>
    settle w run work (.command i command) handling rest outcome m.callers
  | _ => m

section Answers

variable {m : Machine n} {w : World n} {request : Request n} {outcome : Outcome}

/-- An action that calls an operation gets its answer in the next step. -/
theorem step_of_answer (called : m.call? = some request)
    (answer : m.world.reply request = (w, .outcome outcome)) :
    m.step = m.answered w outcome := by
  obtain ⟨w₀, control, callers⟩ := m
  unfold Machine.call? at called
  split at called
  · rename_i run work submission body handling rest hcontrol
    cases called
    dsimp only at hcontrol
    subst hcontrol
    cases answer
    rfl
  · rename_i run work i command handling rest hcontrol
    cases called
    dsimp only at hcontrol
    subst hcontrol
    have hcommand : w₀.command i command = (w, .outcome outcome) := answer
    simp only [Machine.step, Machine.stepAction, Machine.answered, hcommand]
  · cases called

/-- A caller from outside gets the answer at once. -/
theorem request_of_answer {w' : World n} (answer : w.reply request = (w', .outcome outcome)) :
    Machine.request w request = ⟨w', .returned outcome, []⟩ := by
  cases request with
  | submit submission body =>
    cases answer
    rfl
  | command i command =>
    have hcommand : w.command i command = (w', .outcome outcome) := answer
    simp only [Machine.request, hcommand]

end Answers

/-! ## What can be observed -/

/-- An action has its turn, or a caller from outside: the world can be looked at. -/
def Machine.Observable (m : Machine n) : Prop := ∀ run, m.control ≠ .between run

/-- A run that is asked for does not begin: it is answered at once, nothing starts, and if anything
changes it is a pause that is lifted. -/
structure Declined (m : Machine n) (i : Fin n) (command : Command n) (outcome : Outcome) :
    Prop where
  reply : (m.world.command i command).2 = .outcome outcome
  world : (m.world.command i command).1 = m.world ∨
    command = .resume ∧ (m.world.command i command).1 = m.world.update i Simulation.unpause
  happenings : m.call? = some (.command i command) → m.happenings = []
  journal : m.call? = some (.command i command) → m.step.world.journal =
    m.world.journal ++ [.performed (.command i command) outcome]

section Observations

variable {h : List (Fin n × Happening n)} {m : Machine n} {i : Fin n}

/-- Where the world can be looked at, every run is that of an action at work. -/
theorem runs_of_observable (observable : m.Observable) :
    m.runs.map Run.sim = m.frames.map (fun f => f.1.sim) := by
  obtain ⟨w, control, callers⟩ := m
  cases control with
  | between run => exact absurd rfl (observable run)
  | within run work script => simp [Machine.runs, Machine.frames, Caller.frame, Function.comp_def]
  | returned outcome => simp [Machine.runs, Machine.frames, Caller.frame, Function.comp_def]

/-- A run of a simulation that is in a run already is declined. -/
theorem beginRun_of_running {w : World n} (running : (w.sim i).running = true)
    (limit : Option Nat) : w.beginRun i limit =
      (w, .outcome (if (w.sim i).halted then .refused .halted else .count 0)) := by
  unfold World.beginRun Simulation.startRun
  cases (w.sim i).halted <;> simp [running]

theorem command_of_running {w : World n} (running : (w.sim i).running = true)
    {command : Command n} (asks : command.AsksForRun) :
    (w.command i command).2 =
        .outcome (if (w.sim i).halted then .refused .halted else .count 0) ∧
      ((w.command i command).1 = w ∨
        command = .resume ∧ (w.command i command).1 = w.update i Simulation.unpause) := by
  cases asks with
  | run =>
    have hbegin := beginRun_of_running running none
    exact ⟨congrArg Prod.snd hbegin, .inl (congrArg Prod.fst hbegin)⟩
  | runFor limit =>
    have hbegin := beginRun_of_running running (some limit)
    exact ⟨congrArg Prod.snd hbegin, .inl (congrArg Prod.fst hbegin)⟩
  | resume =>
    have hsame : (w.update i Simulation.unpause).sim i = (w.sim i).unpause := sim_setSim_self _ _ _
    have hbegin := beginRun_of_running (w := w.update i Simulation.unpause) (i := i)
      (by rw [hsame]; exact running) none
    rw [hsame] at hbegin
    exact ⟨congrArg Prod.snd hbegin, .inr ⟨rfl, congrArg Prod.fst hbegin⟩⟩

/-- A command that is answered at once leaves one line in the journal. -/
theorem journal_of_reply {command : Command n} {outcome : Outcome}
    (called : m.call? = some (.command i command))
    (reply : (m.world.command i command).2 = .outcome outcome) :
    m.step.world.journal = m.world.journal ++ [.performed (.command i command) outcome] := by
  obtain ⟨run, work, handling, rest, hcontrol⟩ := control_of_call called
  have hreply : m.world.reply (.command i command) =
      ((m.world.command i command).1, .outcome outcome) := Prod.ext rfl reply
  rw [step_of_answer called hreply, Machine.answered, hcontrol]
  simp only [journal_settle, journal_command]

/-- By itself a command that asks for a run makes nothing happen. -/
theorem happenings_of_asks {command : Command n} (asks : command.AsksForRun)
    (called : m.call? = some (.command i command)) : m.happenings = [] := by
  obtain ⟨run, work, handling, rest, hcontrol⟩ := control_of_call called
  obtain ⟨w, control, callers⟩ := m
  dsimp only at hcontrol
  subst hcontrol
  have hstarts := (hushed_within w run work (.perform i command handling rest) callers).starts
  rw [Machine.happenings, hstarts]
  cases asks <;> rfl

/-- **A simulation in a run declines another.** -/
theorem declined_of_running (running : (m.world.sim i).running = true) {command : Command n}
    (asks : command.AsksForRun) :
    Declined m i command (if (m.world.sim i).halted then .refused .halted else .count 0) := by
  obtain ⟨hreply, hworld⟩ := command_of_running running asks
  exact ⟨hreply, hworld, happenings_of_asks asks, fun called => journal_of_reply called hreply⟩

/-- **The call stack is exact in every simulation.**  At any moment a simulation has one source at
work if one of its actions is on the call stack, and none if not; the source is the one that the
action was submitted for, from its start to its end, whatever it waits for in between.  Where the
world can be looked at, a simulation is in a run exactly while it has an action at work; a run that
is asked for meanwhile is declined.  Between requests from outside no simulation is at work. -/
theorem call_stack_exact (hist : History h m) (i : Fin n) :
    (m.world.sim i).active.length =
        (if i ∈ m.frames.map (fun f => f.1.sim) then 1 else 0) ∧
      (∀ f ∈ m.frames, f.1.sim = i →
        World.activeSource (m.world.sim i) = .active f.2.source 1 ∧
        ∃ ticket ∈ (logOf i h).accepted, ticket.work = f.2) ∧
      (m.Observable →
        ((m.world.sim i).running = true ↔ (m.world.sim i).active.length = 1)) ∧
      (i ∈ m.frames.map (fun f => f.1.sim) → ∀ command : Command n, command.AsksForRun →
        Declined m i command (if (m.world.sim i).halted then .refused .halted else .count 0)) ∧
      (∀ outcome, m.result? = some outcome →
        (m.world.sim i).active = [] ∧ (m.world.sim i).running = false) := by
  have hlength : (m.world.sim i).active.length =
      (if i ∈ m.frames.map (fun f => f.1.sim) then 1 else 0) := by
    split
    · rename_i hmem
      obtain ⟨f, hf, rfl⟩ := List.mem_map.1 hmem
      simp [hist.active_of_frame hf]
    · rename_i habsent
      simp [hist.active_of_absent habsent]
  refine ⟨hlength, ?_, ?_, ?_, ?_⟩
  · rintro f hf rfl
    refine ⟨?_, accepted_of_frame hist hf⟩
    simp [World.activeSource, Simulation.active?, hist.active_of_frame hf]
  · intro hobservable
    rw [hist.keeps.running, runs_of_observable hobservable, hlength]
    simp
  · intro hmem command hasks
    have hrunning : (m.world.sim i).running = true := by
      rw [hist.keeps.running]
      exact (map_frames_sublist m).subset hmem
    exact declined_of_running hrunning hasks
  · intro outcome hrested
    constructor
    · apply hist.active_of_absent
      simp [frames_of_result? hrested]
    · have hidle : ¬ (m.world.sim i).running = true := by
        rw [hist.keeps.running, runs_of_result? hrested]
        exact List.not_mem_nil
      simpa using hidle

/-- An action of one simulation runs another, an action of which asks for a run of the one. -/
def mutualRuns (one other : Fin 2) : List (Request 2) :=
  [.submit ⟨other, .index 0, .sourceNow, "inner", none⟩ (.perform one .run ⟨true, none⟩ .done),
    .submit ⟨one, .index 0, .sourceNow, "outer", none⟩ (.perform other .run ⟨true, none⟩ .done),
    .command one .run]

/-- The simulation that waits keeps its source, and declines the run. -/
theorem call_stack_of_mutual :
    let m := ((Machine.atRest twoSmallWorlds).ask (mutualRuns 0 1)).steps 3
    World.activeSource (m.world.sim 0) = .active (.index 0) 1 ∧
      (m.world.sim 0).running = true ∧ Declined m 0 .run (.count 0) ∧
      (m.steps 6).result? = some (.count 1) ∧ ((m.steps 6).world.sim 0).active = [] := by
  intro m
  have hist := (History.twoSmall.ask (mutualRuns 0 1) rfl).steps 3
  have hlater : m.steps 6 = ((Machine.atRest twoSmallWorlds).ask (mutualRuns 0 1)).steps 9 :=
    (Machine.steps_add _ 3 6).symm
  have hresult : (m.steps 6).result? = some (.count 1) := by
    rw [hlater]
    rfl
  obtain ⟨hlength, hframes, hrunning, hdeclined, -⟩ := call_stack_exact hist 0
  have hmem : (0 : Fin 2) ∈ m.frames.map (fun f => f.1.sim) := by decide
  refine ⟨(hframes _ (List.mem_cons_of_mem _ List.mem_cons_self) rfl).1, ?_,
    hdeclined hmem .run .run, hresult, ?_⟩
  · apply (hrunning (fun run hbetween => by cases hbetween)).2
    rw [hlength, if_pos hmem]
  · exact ((call_stack_exact (hist.steps 6) 0).2.2.2.2 _ hresult).1

end Observations

end StallSim
