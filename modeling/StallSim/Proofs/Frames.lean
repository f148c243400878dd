import StallSim.Proofs.Steps

/-!
# Actions at work

An action is at work from its start until it ends, also while it waits for a run of another
simulation.

* `Machine.frames` — the actions at work, innermost first, each with its run.
* `settle_shape`, `within_shape`, `request_shape` — what a step or a request does to them.

Principal results: `frame_of_started` — an action that starts is then at work; `frames_of_ended` —
when an action has ended, its run goes on or has ended too.
-/

set_option autoImplicit false

namespace StallSim

variable {n : Nat}

/-- The action that waits, with its run. -/
def Caller.frame (c : Caller n) : Run n × Work (Action n) := (c.run, c.work)

/-- The actions at work with their runs, innermost first. -/
def Machine.frames (m : Machine n) : List (Run n × Work (Action n)) :=
  match m.control with
  | .within run work _ => (run, work) :: m.callers.map Caller.frame
  | _ => m.callers.map Caller.frame

section Frames

variable {m m' : Machine n} {new : List (Fin n × Happening n)}

/-- Actions at work belong to runs under way. -/
theorem map_frames_sublist (m : Machine n) :
    (m.frames.map (fun f => f.1.sim)).Sublist (m.runs.map Run.sim) := by
  obtain ⟨w, control, callers⟩ := m
  have hcallers : (callers.map Caller.frame).map (fun f => f.1.sim) =
      (callers.map Caller.run).map Run.sim := by
    rw [List.map_map, List.map_map]
    rfl
  cases control with
  | between run =>
    show (((callers.map Caller.frame).map (fun f => f.1.sim))).Sublist _
    rw [hcallers]
    exact List.sublist_cons_self _ _
  | within run work script =>
    show ((run.sim :: (callers.map Caller.frame).map (fun f => f.1.sim))).Sublist _
    rw [hcallers]
    exact List.Sublist.refl _
  | returned outcome =>
    show (((callers.map Caller.frame).map (fun f => f.1.sim))).Sublist _
    rw [hcallers]
    exact List.Sublist.refl _

end Frames

/-! ## Which actions are at work -/

section Shape

variable {m m' : Machine n} {new : List (Fin n × Happening n)} {i : Fin n}

/-- An action that gets an answer goes on, or ends. -/
theorem settle_shape (w : World n) (run : Run n) (work : Work (Action n)) (operation : Operation n)
    (handling : Handling) (rest : Script n) (outcome : Outcome) (callers : List (Caller n)) :
    (∀ f ∈ (Machine.settle w run work operation handling rest outcome callers).frames,
      f ∈ (run, work) :: callers.map Caller.frame) ∧
    ∀ run', (Machine.settle w run work operation handling rest outcome callers).control ≠
      .between run' := by
  unfold Machine.settle
  dsimp only
  split
  · split
    · exact ⟨fun f hf => List.mem_cons_of_mem _ hf, fun _ h => by cases h⟩
    · exact ⟨fun f hf => hf, fun _ h => by cases h⟩
  · exact ⟨fun f hf => hf, fun _ h => by cases h⟩

/-- A run that begins is one of the simulation that was asked for, which is not halted, and it is in
no replay. -/
theorem run_of_command {w w' : World n} {command : Command n} {run : Run n}
    (h : w.command i command = (w', .run run)) :
    run.sim = i ∧ run.replay = none ∧ (w.sim run.sim).halted = false := by
  have hbegin : ∀ (w : World n) limit, (w.beginRun i limit).2 = .run run →
      run.sim = i ∧ run.replay = none ∧ (w.sim run.sim).halted = false := by
    intro w limit hrun
    unfold World.beginRun Simulation.startRun at hrun
    split at hrun
    · cases hrun
    · cases hrun
    · rename_i hstart
      cases hrun
      cases hhalted : (w.sim i).halted with
      | false => exact ⟨rfl, rfl, rfl⟩
      | true =>
        rw [hhalted] at hstart
        cases hstart
  cases command with
  | run => exact hbegin w none (congrArg Prod.snd h)
  | runFor limit => exact hbegin w (some limit) (congrArg Prod.snd h)
  | resume =>
    obtain ⟨hsim, hreplay, hgoing⟩ :=
      hbegin (w.update i Simulation.unpause) none (congrArg Prod.snd h)
    rw [hsim, World.update, sim_setSim_self] at hgoing
    exact ⟨hsim, hreplay, hsim ▸ hgoing⟩
  | _ => cases h

/-- Within an action no other action gets to work; when it ends, its run goes on. -/
theorem within_shape (w : World n) (run : Run n) (work : Work (Action n)) (script : Script n)
    (callers : List (Caller n)) :
    (∀ f ∈ (Machine.stepAction w run work script callers).frames,
      f ∈ (run, work) :: callers.map Caller.frame) ∧
    ∀ run', (Machine.stepAction w run work script callers).control = .between run' →
      run' = run ∧ (Machine.stepAction w run work script callers).frames =
        callers.map Caller.frame ∨
      run'.replay = none ∧ (Machine.stepAction w run work script callers).frames =
        (run, work) :: callers.map Caller.frame := by
  cases script with
  | done =>
    refine ⟨fun f hf => List.mem_cons_of_mem _ hf, fun run' h => .inl ⟨?_, rfl⟩⟩
    cases h
    rfl
  | submit submission body handling rest =>
    have hshape := settle_shape (w.submit submission body).1 run work (.submit submission) handling
      rest (w.submit submission body).2 callers
    exact ⟨hshape.1, fun run' h => absurd h (hshape.2 run')⟩
  | perform i command handling rest =>
    unfold Machine.stepAction
    dsimp only
    split
    · rename_i w' outcome heq
      have hshape := settle_shape w' run work (.command i command) handling rest outcome callers
      exact ⟨hshape.1, fun run' h => absurd h (hshape.2 run')⟩
    · rename_i w' inner heq
      refine ⟨fun f hf => hf, fun run' h => .inr ⟨?_, rfl⟩⟩
      cases h
      exact (run_of_command heq).2.1
  | call name rest => exact ⟨fun f hf => hf, fun run' h => by cases h⟩
  | whenBefore j limit body rest => exact ⟨fun f hf => hf, fun run' h => by cases h⟩
  | fail failure context =>
    exact ⟨fun f hf => List.mem_cons_of_mem _ hf, fun run' h => by cases h⟩
  | panic message => exact ⟨fun f hf => (by cases hf), fun run' h => by cases h⟩

/-- Between two actions, an action gets to work if the journal tells of its start. -/
theorem journal_stepRun (w : World n) (run : Run n) (callers : List (Caller n)) :
    ∃ extra, (Machine.stepRun w run callers).world.journal = w.journal ++ extra ∧
      (extra = [] ∨ ∃ work time active depth,
        extra = [.started run.sim work time active depth] ∧
        (Machine.stepRun w run callers).frames = (run, work) :: callers.map Caller.frame) := by
  have hstep := runStep_stepRun w run callers
  generalize Machine.stepRun w run callers = m' at hstep
  have henter : ∀ (s : Simulation (Action n)) (work : Work (Action n)), ∃ extra,
      (Machine.enter (w.setSim run.sim s) run work callers).world.journal = w.journal ++ extra ∧
      (extra = [] ∨ ∃ work' time active depth,
        extra = [.started run.sim work' time active depth] ∧
        (Machine.enter (w.setSim run.sim s) run work callers).frames =
          (run, work') :: callers.map Caller.frame) := by
    intro s work
    obtain ⟨-, active, depth, hjournal⟩ := enter_setSim w run s work callers
    exact ⟨_, hjournal, .inr ⟨work, s.now, active, depth, rfl, rfl⟩⟩
  cases hstep with
  | drain r work s replay next live => exact henter s work
  | start work s idle going dispatch => exact henter s work
  | _ => exact ⟨[], (List.append_nil w.journal).symm, .inl rfl⟩

theorem frames_of_result? {outcome : Outcome} (rested : m.result? = some outcome) :
    m.frames = [] := by
  obtain ⟨w, control, callers⟩ := m
  cases control <;> cases callers <;> simp_all [Machine.result?, Machine.frames]

/-- Between two requests no action gets to work; a run that starts is in no replay. -/
theorem request_shape (w : World n) (request : Request n) :
    (Machine.request w request).frames = [] ∧
    ∀ run, (Machine.request w request).control = .between run → run.replay = none := by
  cases request with
  | submit submission body => exact ⟨rfl, fun run h => by cases h⟩
  | command j command =>
    unfold Machine.request
    dsimp only
    split
    · exact ⟨rfl, fun run h => by cases h⟩
    · rename_i w' inner heq
      refine ⟨rfl, ?_⟩
      intro run h
      cases h
      exact (run_of_command heq).2.1

/-- An action that starts is then at work. -/
theorem frame_of_started (next : Next m new m') {work : Work (Action n)} {time : Instant}
    (start : (i, .started work time) ∈ new) : ∃ f ∈ m'.frames, f.1.sim = i := by
  have hquiet : ∀ {request : Request n} {w : World n},
      (i, .started work time) ∉ request.happenings w := by
    intro request w hmem
    rcases mem_happenings_request hmem with ⟨ticket, hx⟩ | ⟨_, _, _, _, _, -, -, hx, -⟩ <;> cases hx
  have hhushed : ∀ {m : Machine n}, Hushed m → (i, .started work time) ∉ m.happenings := by
    intro m hushed hmem
    rw [Machine.happenings, hushed.starts, List.append_nil, List.mem_append] at hmem
    rcases hmem with hcall | hunwind
    · cases hrequest : m.call? with
      | none =>
        rw [hrequest] at hcall
        cases hcall
      | some request =>
        rw [hrequest] at hcall
        exact hquiet hcall
    · cases (mem_unwinds hunwind).1
  cases next with
  | request outcome request rested => exact absurd start hquiet
  | step =>
    obtain ⟨w, control, callers⟩ := m
    cases control with
    | within run work' script =>
      exact absurd start (hhushed (hushed_within w run work' script callers))
    | returned outcome => exact absurd start (hhushed (hushed_returned w outcome callers))
    | between run =>
      obtain ⟨extra, hjournal, hextra⟩ := journal_stepRun w run callers
      rw [happenings_between hjournal] at start
      rcases hextra with rfl | ⟨work', time', active, depth, rfl, hframes⟩
      · cases start
      · cases List.mem_singleton.1 start
        refine ⟨(run, work), ?_, rfl⟩
        show (run, work) ∈ (Machine.stepRun w run callers).frames
        rw [hframes]
        exact List.mem_cons_self

/-- An action that ends leaves the others at work as they are; its run goes on, if any does. -/
theorem frames_of_ended (next : Next m new m') {f : Run n × Work (Action n)} (mem : f ∈ m.frames)
    (ended : f ∉ m'.frames) :
    (∀ g ∈ m'.frames, g ∈ m.frames) ∧ ∀ run, m'.control = .between run → run = f.1 := by
  cases next with
  | request outcome request rested =>
    rw [frames_of_result? rested] at mem
    cases mem
  | step =>
    obtain ⟨w, control, callers⟩ := m
    cases control with
    | between run =>
      refine absurd ?_ ended
      show f ∈ (Machine.stepRun w run callers).frames
      have hstep := runStep_stepRun w run callers
      generalize Machine.stepRun w run callers = m' at hstep
      cases hstep with
      | drain r work s replay next live => exact List.mem_cons_of_mem _ mem
      | start work s idle going dispatch => exact List.mem_cons_of_mem _ mem
      | _ => exact mem
    | within run work script =>
      obtain ⟨hframes, hcontrol⟩ := within_shape w run work script callers
      refine ⟨hframes, ?_⟩
      intro run' hbetween
      rcases hcontrol run' hbetween with ⟨rfl, hrest⟩ | ⟨-, hall⟩
      · rcases List.mem_cons.1 mem with rfl | hmem
        · rfl
        · refine absurd ?_ ended
          show f ∈ (Machine.stepAction w run' work script callers).frames
          rw [hrest]
          exact hmem
      · refine absurd ?_ ended
        show f ∈ (Machine.stepAction w run work script callers).frames
        rw [hall]
        exact mem
    | returned outcome =>
      cases callers with
      | nil => cases mem
      | cons c callers =>
        obtain ⟨hframes, hcontrol⟩ := settle_shape w c.run c.work c.operation c.handling c.rest
          outcome callers
        exact ⟨hframes, fun run' hbetween => absurd hbetween (hcontrol run')⟩

end Shape

end StallSim
