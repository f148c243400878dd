import StallSim.Proofs.Projection

/-!
# Steps of a world, simulation by simulation

* `Stride` — what one step or request is for the simulations: the world stays grounded, and for
  each simulation the way is a single move or a row of lulls.

Principal results: `Next.stride` — every step and every request is a stride; `History.course` —
every simulation of a history is on a course; `move_of_started`, `move_of_now_ne` — an action
starts, and a clock moves, by a single move.
-/

set_option autoImplicit false

namespace StallSim

variable {n : Nat} {h new : List (Fin n × Happening n)} {m m' : Machine n}

/-- What one step or request is for the simulations of a world.  Those that are in no run go
through lulls only. -/
structure Stride (h : List (Fin n × Happening n)) (m : Machine n)
    (new : List (Fin n × Happening n)) (m' : Machine n) : Prop where
  grounded : Grounded .courses (h ++ new) m'.world m'.runs
  moves : ∀ i, Move (logOf i h) (m.standing i) (logOf i new) (m'.standing i) ∨
    Along Lull (logOf i h) (m.standing i) (logOf i new) (m'.standing i)
  idle : ∀ i, i ∉ m.runs.map Run.sim →
    Along Lull (logOf i h) (m.standing i) (logOf i new) (m'.standing i)

theorem Grounded.congr {known : Kept n} {w w' : World n} {runs : List (Run n)}
    (g : Grounded known h w runs) (sims : w'.sims = w.sims) (handles : w'.handles = w.handles) :
    Grounded known h w' runs := by
  have hsim : w'.sim = w.sim := by
    funext i
    simp only [World.sim, sims]
  exact ⟨g.distinct, hsim ▸ g.running, handles ▸ g.handles, hsim ▸ g.course⟩

/-- From here on, every simulation goes through lulls only. -/
theorem Grounded.fresh {known : Kept n} (g : Grounded known h m.world m.runs) :
    Grounded (.lullsFrom (fun i => logOf i h) m.standing) h m.world m.runs :=
  ⟨g.distinct, g.running, g.handles, fun _ => ⟨[], (List.append_nil _).symm, .refl⟩⟩

/-- What keeps the world grounded whatever is known that outlasts lulls, is a row of lulls for each
simulation. -/
theorem stride_of_lulls (g : Grounded .courses h m.world m.runs)
    (keeps : ∀ known : Kept n, Grounded known h m.world m.runs →
      Grounded known (h ++ new) m'.world m'.runs) : Stride h m new m' := by
  have hlulls : ∀ i, Along Lull (logOf i h) (m.standing i) (logOf i new) (m'.standing i) := by
    intro i
    obtain ⟨later, hlog, along⟩ := (keeps _ g.fresh).course i
    rw [logOf_append, List.append_cancel_left_eq] at hlog
    rw [hlog]
    exact along
  exact ⟨keeps _ g, fun i => .inr (hlulls i), fun i _ => hlulls i⟩

/-! ## Between two actions -/

/-- What a step between two actions can come to. -/
inductive RunStep (w : World n) (run : Run n) (callers : List (Caller n)) : Machine n → Prop where
  /-- Cancelled work of the backlog is dropped. -/
  | skip (r : Replay n) (work : Work (Action n)) (s : Simulation (Action n))
      (replay : run.replay = some r)
      (next : (w.sim run.sim).nextReplayed r.source = some (work, s))
      (cancelled : (w.sim run.sim).isCancelled work.id = true) :
      RunStep w run callers ⟨w.setSim run.sim s, .between run, callers⟩
  /-- The next action of the backlog starts. -/
  | drain (r : Replay n) (work : Work (Action n)) (s : Simulation (Action n))
      (replay : run.replay = some r)
      (next : (w.sim run.sim).nextReplayed r.source = some (work, s))
      (live : (w.sim run.sim).isCancelled work.id = false) :
      RunStep w run callers (Machine.enter (w.setSim run.sim s) run work callers)
  /-- The replay ends. -/
  | close (r : Replay n) (replay : run.replay = some r)
      (exhausted : (w.sim run.sim).nextReplayed r.source = none) :
      RunStep w run callers
        ⟨w.setSim run.sim ((w.sim run.sim).closeReplay r.source r.release r.timers),
          .between { run with replay := none }, callers⟩
  /-- The run ends. -/
  | conclude (outcome : Outcome) (idle : run.replay = none) :
      RunStep w run callers
        ⟨w.setSim run.sim (w.sim run.sim).endRun, .returned outcome, callers⟩
  /-- An event is dropped, or held back, or has nothing to release. -/
  | settle (s : Simulation (Action n)) (idle : run.replay = none)
      (going : (w.sim run.sim).isStopped = false)
      (dispatch : (w.sim run.sim).dispatch = .settled s) :
      RunStep w run callers ⟨w.setSim run.sim s, .between run, callers⟩
  /-- The action of an event starts. -/
  | start (work : Work (Action n)) (s : Simulation (Action n)) (idle : run.replay = none)
      (going : (w.sim run.sim).isStopped = false)
      (dispatch : (w.sim run.sim).dispatch = .start work s) :
      RunStep w run callers (Machine.enter (w.setSim run.sim s) run work callers)
  /-- A replay starts. -/
  | replay (source : Source) (stall : Stall (Action n)) (s : Simulation (Action n))
      (idle : run.replay = none) (going : (w.sim run.sim).isStopped = false)
      (dispatch : (w.sim run.sim).dispatch = .replay source stall s) :
      RunStep w run callers
        ⟨w.setSim run.sim s,
          .between { run with replay := some ⟨source, stall.release, stall.timers⟩ }, callers⟩

theorem runStep_stepRun (w : World n) (run : Run n) (callers : List (Caller n)) :
    RunStep w run callers (Machine.stepRun w run callers) := by
  unfold Machine.stepRun
  dsimp only
  split
  · rename_i r hreplay
    split
    · rename_i work s hnext
      split
      · rename_i hcancelled
        exact .skip r work s hreplay hnext hcancelled
      · rename_i hlive
        exact .drain r work s hreplay hnext (by simpa using hlive)
    · rename_i hnext
      exact .close r hreplay hnext
  · rename_i hidle
    split
    · exact .conclude _ hidle
    · rename_i hgoing
      have hfree : (w.sim run.sim).isStopped = false := by
        cases h : (w.sim run.sim).isStopped with
        | false => rfl
        | true => simp [h] at hgoing
      split
      · exact .conclude _ hidle
      · rename_i s hdispatch
        exact .settle s hidle hfree hdispatch
      · rename_i work s hdispatch
        exact .start work s hidle hfree hdispatch
      · rename_i source stall s hdispatch
        exact .replay source stall s hidle hfree hdispatch

section Between

variable {w : World n} {run : Run n} {callers : List (Caller n)}

/-- The simulation of the innermost run goes on by one move, and the run goes on. -/
theorem stride_of_move (g : Grounded .courses h w (run :: callers.map Caller.run)) {run' : Run n}
    {s : Simulation (Action n)} {new : Log n} (sim : run'.sim = run.sim)
    (running : s.running = (w.sim run.sim).running)
    (move : Move (logOf run.sim h) ⟨w.sim run.sim, run.replay⟩ new ⟨s, run'.replay⟩)
    (sims : m'.world.sims = (w.setSim run.sim s).sims) (handles : m'.world.handles = w.handles)
    (runs : m'.runs = run' :: callers.map Caller.run) :
    Stride h ⟨w, .between run, callers⟩ (tag run.sim new) m' := by
  have hself : replayIn run.sim (run' :: callers.map Caller.run) = run'.replay := by
    rw [replayIn, if_pos sim]
  have hothers : ∀ j, j ≠ run.sim → replayIn j (run' :: callers.map Caller.run) =
      replayIn j (run :: callers.map Caller.run) := by
    intro j hj
    rw [replayIn, replayIn, if_neg (sim ▸ hj.symm), if_neg hj.symm]
  have hcourse : Course _ _ := Course.move g.course_head move
  have haway : ∀ i, run.sim ≠ i → Along Lull (logOf i h)
      (Machine.standing ⟨w, .between run, callers⟩ i) (logOf i (tag run.sim new))
      (m'.standing i) := by
    intro i hi
    have hsim : m'.world.sim i = (w.setSim run.sim s).sim i := by
      simp only [World.sim, sims]
    have hsame : m'.standing i = Machine.standing ⟨w, .between run, callers⟩ i := by
      unfold Machine.standing
      rw [hsim, World.sim_setSim, if_neg hi, runs, hothers i (Ne.symm hi)]
      rfl
    rw [logOf_tag, if_neg hi, hsame]
    exact .refl
  refine ⟨?_, ?_, fun i idle => haway i (fun hi => idle (hi ▸ List.mem_cons_self))⟩
  · rw [runs]
    refine Grounded.congr ?_ sims handles
    exact g.update (by simp [sim]) running hothers (hself.symm ▸ hcourse)
  · intro i
    by_cases hi : run.sim = i
    · apply Or.inl
      subst hi
      have hsim : m'.world.sim run.sim = (w.setSim run.sim s).sim run.sim := by
        simp only [World.sim, sims]
      rw [logOf_tag, if_pos rfl]
      unfold Machine.standing
      rw [hsim, World.sim_setSim, if_pos rfl, runs, hself]
      simpa only [Machine.runs, replayIn, if_true] using move
    · exact .inr (haway i hi)

/-- The innermost run ends between two actions. -/
theorem stride_of_finish (g : Grounded .courses h w (run :: callers.map Caller.run))
    (idle : run.replay = none) (outcome : Outcome) :
    Stride h ⟨w, .between run, callers⟩ []
      ⟨w.setSim run.sim (w.sim run.sim).endRun, .returned outcome, callers⟩ := by
  refine stride_of_lulls g (fun known g => ?_)
  have hcourse := Grounded.course_head g
  rw [idle] at hcourse
  rw [List.append_nil]
  exact Grounded.finish g (known.silent hcourse (.control _ _ false _))

/-- The happenings of a step between two actions are the starts that the journal tells of. -/
theorem happenings_between {extra : List (Record n)}
    (journal : (Machine.stepRun w run callers).world.journal = w.journal ++ extra) :
    Machine.happenings ⟨w, .between run, callers⟩ = extra.filterMap Record.start? := by
  simp [Machine.happenings, Machine.call?, Machine.unwinds, Machine.starts, Machine.step, journal]

theorem setSim_setSim (w : World n) (i : Fin n) (s s' : Simulation (Action n)) :
    (w.setSim i s).setSim i s' = w.setSim i s' := by
  simp [World.setSim]

theorem sim_setSim_self (w : World n) (i : Fin n) (s : Simulation (Action n)) :
    (w.setSim i s).sim i = s := by
  rw [World.sim_setSim, if_pos rfl]

/-- The machine after an action was entered, whose work was taken before. -/
theorem enter_eq (w : World n) (run : Run n) (s : Simulation (Action n)) (work : Work (Action n))
    (callers : List (Caller n)) :
    Machine.enter (w.setSim run.sim s) run work callers =
      ⟨(w.setSim run.sim (s.startAction work)).note (.started run.sim work s.now
          (s.startAction work).active? (s.startAction work).active.length),
        .within run work work.action.script, callers⟩ := by
  simp only [Machine.enter, sim_setSim_self, setSim_setSim]
  rfl

/-- Its simulations and its journal. -/
theorem enter_setSim (w : World n) (run : Run n) (s : Simulation (Action n))
    (work : Work (Action n)) (callers : List (Caller n)) :
    (Machine.enter (w.setSim run.sim s) run work callers).world.sims =
        (w.setSim run.sim (s.startAction work)).sims ∧
      ∃ active depth, (Machine.enter (w.setSim run.sim s) run work callers).world.journal =
        w.journal ++ [.started run.sim work s.now active depth] := by
  rw [enter_eq]
  exact ⟨rfl, _, _, rfl⟩

/-- An action is entered whose work was taken before: its start is the one happening. -/
theorem stride_enter (g : Grounded .courses h w (run :: callers.map Caller.run))
    (s : Simulation (Action n)) (work : Work (Action n))
    (step : Machine.stepRun w run callers =
      Machine.enter (w.setSim run.sim s) run work callers)
    (running : s.running = (w.sim run.sim).running)
    (move : Move (logOf run.sim h) ⟨w.sim run.sim, run.replay⟩ [.started work s.now]
      ⟨s.startAction work, run.replay⟩) :
    Stride h ⟨w, .between run, callers⟩ (Machine.happenings ⟨w, .between run, callers⟩)
      (Machine.stepRun w run callers) := by
  obtain ⟨hsims, active, depth, hjournal⟩ := enter_setSim w run s work callers
  rw [happenings_between (step ▸ hjournal), step]
  refine stride_of_move g (s := s.startAction work) rfl running move ?_ ?_ ?_
  · exact hsims
  · rfl
  · rfl

/-- The simulation goes on without a start, and the journal stays as it is. -/
theorem stride_silent (g : Grounded .courses h w (run :: callers.map Caller.run)) (run' : Run n)
    (s : Simulation (Action n))
    (step : Machine.stepRun w run callers = ⟨w.setSim run.sim s, .between run', callers⟩)
    (sim : run'.sim = run.sim) (running : s.running = (w.sim run.sim).running)
    (move : Move (logOf run.sim h) ⟨w.sim run.sim, run.replay⟩ [] ⟨s, run'.replay⟩) :
    Stride h ⟨w, .between run, callers⟩ (Machine.happenings ⟨w, .between run, callers⟩)
      (Machine.stepRun w run callers) := by
  have hjournal : (Machine.stepRun w run callers).world.journal = w.journal ++ [] := by
    rw [step, List.append_nil]
    rfl
  rw [happenings_between hjournal, step]
  refine stride_of_move g sim running move ?_ ?_ ?_ <;> rfl

theorem stride_stepRun (g : Grounded .courses h w (run :: callers.map Caller.run)) :
    Stride h ⟨w, .between run, callers⟩ (Machine.happenings ⟨w, .between run, callers⟩)
      (Machine.stepRun w run callers) := by
  have hstep := runStep_stepRun w run callers
  generalize hm : Machine.stepRun w run callers = m' at hstep
  rw [← hm]
  cases hstep with
  | skip r work s replay next cancelled =>
    have hmove := move_nextReplayed (logOf run.sim h) next
    rw [if_pos cancelled, ← replay] at hmove
    exact stride_silent g run s hm rfl (congrArg (fun f => f.2.2) (flags_nextReplayed next)) hmove
  | drain r work s replay next live =>
    have hmove := move_nextReplayed (logOf run.sim h) next
    rw [live, if_neg Bool.false_ne_true, ← replay] at hmove
    exact stride_enter g s work hm (congrArg (fun f => f.2.2) (flags_nextReplayed next)) hmove
  | close r replay exhausted =>
    refine stride_silent g { run with replay := none } _ hm rfl ?_ ?_
    · rw [closeReplay_eq]
    · rw [replay]
      exact .close _ r
  | conclude outcome idle =>
    have hjournal : (Machine.stepRun w run callers).world.journal = w.journal ++ [] := by
      rw [hm, List.append_nil]
      rfl
    rw [happenings_between hjournal, hm]
    exact stride_of_finish g idle outcome
  | settle s idle going dispatch =>
    have hafter : (w.sim run.sim).dispatch.after = some ([], ⟨s, none⟩) := by
      rw [dispatch]
      rfl
    refine stride_silent g run s hm rfl (congrArg (fun f => f.2.2) (flags_dispatch hafter)) ?_
    rw [idle]
    exact move_dispatch _ hafter
  | start work s idle going dispatch =>
    have hafter : (w.sim run.sim).dispatch.after =
        some ([.started work s.now], ⟨s.startAction work, none⟩) := by
      rw [dispatch]
      rfl
    refine stride_enter g s work hm (congrArg (fun f => f.2.2) (flags_dispatch hafter)) ?_
    rw [idle]
    exact move_dispatch _ hafter
  | replay source stall s idle going dispatch =>
    have hafter : (w.sim run.sim).dispatch.after =
        some ([], ⟨s, some ⟨source, stall.release, stall.timers⟩⟩) := by
      rw [dispatch]
      rfl
    refine stride_silent g { run with replay := some ⟨source, stall.release, stall.timers⟩ } s hm
      rfl (congrArg (fun f => f.2.2) (flags_dispatch hafter)) ?_
    rw [idle]
    exact move_dispatch _ hafter

end Between

/-! ## Within an action, and between requests -/

section Within

variable {w : World n} {run : Run n} {callers : List (Caller n)}

/-- By itself a request makes submissions accepted and sources stalled, and nothing else. -/
theorem mem_happenings_request {request : Request n} {x : Fin n × Happening n}
    (mem : x ∈ request.happenings w) :
    (∃ ticket, x.2 = .accepted ticket) ∨
      ∃ i source release t s', request = .command i (.stall source release) ∧
        (w.sim i).stallUntil source t = .ok s' ∧ x = (i, .stalled ⟨source, (w.sim i).now, t⟩) ∧
        w.stall i source release = (w.setSim i s', .done) := by
  cases request with
  | submit submission body =>
    dsimp only [Request.happenings] at mem
    rcases w.submit_cases submission body with ⟨-, hnew⟩ | ⟨ticket, s', -, hnew, -⟩
    · rw [hnew] at mem
      cases mem
    · rw [hnew] at mem
      cases List.mem_singleton.1 mem
      exact .inl ⟨ticket, rfl⟩
  | command i command =>
    cases command with
    | stall source release =>
      dsimp only [Request.happenings] at mem
      rcases w.stall_cases i source release with ⟨-, hnew⟩ | ⟨t, s', hs, hnew, hw⟩
      · rw [hnew] at mem
        cases mem
      · rw [hnew] at mem
        cases List.mem_singleton.1 mem
        exact .inr ⟨i, source, release, t, s', rfl, hs, rfl, hw⟩
    | _ => cases mem

/-- A panic leaves runs, and nothing else does. -/
theorem mem_unwinds {x : Fin n × Happening n} (mem : x ∈ m.unwinds) :
    x.2 = .unwound ∧ m.Panics := by
  unfold Machine.unwinds at mem
  split at mem
  · rename_i run work message hcontrol
    obtain ⟨_, -, rfl⟩ := List.mem_map.1 mem
    exact ⟨rfl, run, work, message, hcontrol⟩
  · cases mem

/-- What happens in a step comes of the operation that an action calls, is the start of an action,
or comes of a panic. -/
theorem mem_happenings {x : Fin n × Happening n} (mem : x ∈ m.happenings) :
    (∃ request, m.call? = some request ∧ x ∈ request.happenings m.world) ∨
      (∃ work time, x.2 = .started work time) ∨ x.2 = .unwound ∧ m.Panics := by
  rcases List.mem_append.1 mem with hmem | hmem
  · rcases List.mem_append.1 hmem with hmem | hmem
    · cases hcall : m.call? with
      | none =>
        rw [hcall] at hmem
        cases hmem
      | some request =>
        rw [hcall] at hmem
        exact .inl ⟨request, rfl, hmem⟩
    · obtain ⟨record, -, hstart⟩ := List.mem_filterMap.1 hmem
      cases record with
      | started sim work time active depth =>
        cases hstart
        exact .inr (.inl ⟨work, time, rfl⟩)
      | performed operation outcome => cases hstart
      | failed failure => cases hstart
  · exact .inr (.inr (mem_unwinds hmem))

/-- The action that calls a command. -/
theorem control_of_call {i : Fin n} {command : Command n}
    (called : m.call? = some (.command i command)) :
    ∃ run work handling rest, m.control = .within run work (.perform i command handling rest) := by
  unfold Machine.call? at called
  split at called
  · cases called
  · rename_i run work j command' handling rest hcontrol
    cases called
    exact ⟨run, work, handling, rest, hcontrol⟩
  · cases called

/-- The next step starts no action. -/
def Hushed (m : Machine n) : Prop :=
  ∃ extra, m.step.world.journal = m.world.journal ++ extra ∧ extra.filterMap Record.start? = []

theorem Hushed.starts (hushed : Hushed m) : m.starts = [] := by
  obtain ⟨extra, hjournal, hquiet⟩ := hushed
  simp [Machine.starts, hjournal, hquiet]

theorem hushed_within (w : World n) (run : Run n) (work : Work (Action n)) (script : Script n)
    (callers : List (Caller n)) : Hushed ⟨w, .within run work script, callers⟩ := by
  cases script with
  | submit submission body handling rest =>
    have hjournal := journal_settle (w.submit submission body).1 run work (.submit submission)
      handling rest (w.submit submission body).2 callers
    rw [journal_submit] at hjournal
    exact ⟨_, hjournal, rfl⟩
  | perform i command handling rest =>
    have hjournal := journal_command w i command
    have hstep : Machine.step ⟨w, .within run work (.perform i command handling rest), callers⟩ =
        Machine.stepAction w run work (.perform i command handling rest) callers := rfl
    dsimp only [Machine.stepAction] at hstep
    split at hstep
    · rename_i w' outcome heq
      rw [heq] at hjournal
      refine ⟨[.performed (.command i command) outcome], ?_, rfl⟩
      rw [hstep, journal_settle, hjournal]
    · rename_i w' inner heq
      rw [heq] at hjournal
      refine ⟨[], ?_, rfl⟩
      rw [hstep, List.append_nil]
      exact hjournal
  | fail failure context => exact ⟨[.failed failure], rfl, rfl⟩
  | panic message =>
    exact ⟨[], (journal_unwind w _).trans (List.append_nil _).symm, rfl⟩
  | _ => exact ⟨[], (List.append_nil w.journal).symm, rfl⟩

theorem hushed_returned (w : World n) (outcome : Outcome) (callers : List (Caller n)) :
    Hushed ⟨w, .returned outcome, callers⟩ := by
  cases callers with
  | nil => exact ⟨[], (List.append_nil w.journal).symm, rfl⟩
  | cons c callers =>
    exact ⟨_, journal_settle w c.run c.work c.operation c.handling c.rest outcome callers, rfl⟩

/-- A step that starts no action is a row of lulls for each simulation. -/
theorem stride_of_hushed (g : Grounded .courses h m.world m.runs) (hushed : Hushed m)
    (keeps : ∀ known : Kept n, Grounded known h m.world m.runs →
      Grounded known (h ++ ((m.call?.map (Request.happenings m.world)).getD [] ++ m.unwinds))
        m.step.world m.step.runs) : Stride h m m.happenings m.step := by
  have hnew : m.happenings =
      (m.call?.map (Request.happenings m.world)).getD [] ++ m.unwinds := by
    rw [Machine.happenings, hushed.starts, List.append_nil]
  rw [hnew]
  exact stride_of_lulls g keeps

/-- Going on with an action keeps the world grounded. -/
theorem grounded_within {known : Kept n} (work : Work (Action n)) (script : Script n)
    (g : Grounded known h w (run :: callers.map Caller.run)) :
    Grounded known
      (h ++ (((Machine.call? ⟨w, .within run work script, callers⟩).map
        (Request.happenings w)).getD [] ++
          Machine.unwinds ⟨w, .within run work script, callers⟩))
      (Machine.step ⟨w, .within run work script, callers⟩).world
      (Machine.step ⟨w, .within run work script, callers⟩).runs := by
  have hrest : Grounded known (h ++ ([] ++ [])) w (run :: callers.map Caller.run) :=
    g.cast_log (List.append_nil h).symm
  cases script with
  | done => exact hrest.silent (s := (w.sim run.sim).endAction) rfl (.control _ _ _ _)
  | submit submission body handling rest =>
    have hsubmit := g.submit submission body
    exact (hsubmit.cast_log (congrArg (h ++ ·) (List.append_nil _).symm)).settle _ _ _ _
  | perform i command handling rest =>
    have hcommand := g.command i command
    have hstep : Machine.step ⟨w, .within run work (.perform i command handling rest), callers⟩ =
        Machine.stepAction w run work (.perform i command handling rest) callers := rfl
    dsimp only [Machine.stepAction] at hstep
    split at hstep
    · rename_i w' outcome heq
      rw [heq] at hcommand
      rw [hstep]
      exact (hcommand.cast_log (congrArg (h ++ ·) (List.append_nil _).symm)).settle _ _ _ _
    · rename_i w' inner heq
      rw [heq] at hcommand
      rw [hstep]
      exact hcommand.cast_log (congrArg (h ++ ·) (List.append_nil _).symm)
  | call name rest => exact hrest
  | whenBefore i limit body rest => exact hrest
  | fail failure context => exact (hrest.note _).abort work _
  | panic message => exact g.unwind

/-- A waiting action gets its answer; a machine that nobody waits for stays as it is. -/
theorem grounded_returned {known : Kept n} (outcome : Outcome)
    (g : Grounded known h w (callers.map Caller.run)) :
    Grounded known (h ++ ([] ++ [])) (Machine.step ⟨w, .returned outcome, callers⟩).world
      (Machine.step ⟨w, .returned outcome, callers⟩).runs := by
  have hrest : Grounded known (h ++ ([] ++ [])) w (callers.map Caller.run) :=
    g.cast_log (List.append_nil h).symm
  cases callers with
  | nil => exact hrest
  | cons c callers => exact hrest.settle _ _ _ _

end Within

/-! ## Histories -/

theorem runs_of_result? {outcome : Outcome} (rested : m.result? = some outcome) : m.runs = [] := by
  obtain ⟨w, control, callers⟩ := m
  cases control <;> cases callers <;> simp_all [Machine.result?, Machine.runs]

/-- A request from outside keeps the world grounded. -/
theorem grounded_request {known : Kept n} {outcome : Outcome} (g : Grounded known h m.world m.runs)
    (rested : m.result? = some outcome) (request : Request n) :
    Grounded known (h ++ request.happenings m.world) (Machine.request m.world request).world
      (Machine.request m.world request).runs := by
  rw [runs_of_result? rested] at g
  cases request with
  | submit submission body => exact g.submit submission body
  | command i command =>
    have hcommand := g.command i command
    dsimp only [Machine.request]
    split
    · rename_i w' outcome heq
      rw [heq] at hcommand
      exact hcommand
    · rename_i w' run heq
      rw [heq] at hcommand
      exact hcommand

/-- **Whatever happens next is a stride.** -/
theorem Next.stride (g : Grounded .courses h m.world m.runs) (next : Next m new m') :
    Stride h m new m' := by
  cases next with
  | step =>
    obtain ⟨w, control, callers⟩ := m
    cases control with
    | between run => exact stride_stepRun g
    | within run work script =>
      exact stride_of_hushed g (hushed_within w run work script callers)
        (fun known g => grounded_within work script g)
    | returned outcome =>
      exact stride_of_hushed g (hushed_returned w outcome callers)
        (fun known g => grounded_returned outcome g)
  | request outcome request rested =>
    exact stride_of_lulls g (fun known g => grounded_request g rested request)

/-- **A world stays grounded.** -/
theorem History.grounded (hist : History h m) : Grounded .courses h m.world m.runs := by
  induction hist with
  | create configs procedures =>
    refine ⟨List.nodup_nil, fun _ hrun => (by cases hrun), fun _ _ hget => (by cases hget), ?_⟩
    intro i
    have hsim : (World.create configs procedures).sim i = Simulation.create configs[i] := by
      simp [World.create, World.sim]
    dsimp only [Machine.atRest]
    rw [hsim]
    exact .create configs[i]
  | next _ next ih => exact (next.stride ih).grounded

/-- **Every simulation of a history is on a course.** -/
theorem History.course (hist : History h m) (i : Fin n) : Course (logOf i h) (m.standing i) :=
  hist.grounded.course i

/-- What happens next takes every simulation along a row of moves. -/
theorem Next.along (hist : History h m) (next : Next m new m') (i : Fin n) :
    Along Move (logOf i h) (m.standing i) (logOf i new) (m'.standing i) := by
  rcases (next.stride hist.grounded).moves i with hmove | along
  · exact .single hmove
  · exact along.mono Lull.move

/-- A simulation that is in no run goes through lulls only. -/
theorem Next.lulls (hist : History h m) (next : Next m new m') {i : Fin n}
    (idle : i ∉ m.runs.map Run.sim) :
    Along Lull (logOf i h) (m.standing i) (logOf i new) (m'.standing i) :=
  (next.stride hist.grounded).idle i idle

theorem Later.along {later : List (Fin n × Happening n)} (onward : Later m later m')
    (hist : History h m) (i : Fin n) :
    Along Move (logOf i h) (m.standing i) (logOf i later) (m'.standing i) := by
  induction onward generalizing h with
  | refl m => exact .refl
  | next next _ ih =>
    have hrest := ih (hist.next next)
    rw [logOf_append] at hrest ⊢
    exact (next.along hist i).append hrest

/-- An action starts by a single move. -/
theorem move_of_started (hist : History h m) (next : Next m new m') {i : Fin n}
    {work : Work (Action n)} {time : Instant} (start : (i, .started work time) ∈ new) :
    Move (logOf i h) (m.standing i) (logOf i new) (m'.standing i) := by
  rcases (next.stride hist.grounded).moves i with hmove | along
  · exact hmove
  · obtain ⟨-, hquiet, -⟩ := along.kept
    have hmem : work ∈ (logOf i new).started :=
      List.mem_filterMap.2 ⟨_, mem_logOf.2 start, rfl⟩
    rw [hquiet] at hmem
    cases hmem

/-- A clock moves by a single move. -/
theorem move_of_now_ne (hist : History h m) (next : Next m new m') {i : Fin n}
    (moved : (m'.world.sim i).now ≠ (m.world.sim i).now) :
    Move (logOf i h) (m.standing i) (logOf i new) (m'.standing i) :=
  ((next.stride hist.grounded).moves i).resolve_right (fun along => moved along.kept.1)

end StallSim
