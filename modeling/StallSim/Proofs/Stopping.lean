import Mathlib.Data.List.Nodup
import StallSim.Proofs.Frames
import StallSim.Proofs.Stops

/-!
# What a stop stops

An action can pause or halt the simulation that runs it.  The loop over the calendar looks at the
flags before every event, but the replay of a source does not: it goes on to the end of the backlog.
So the stop takes hold as soon as the action ends, unless the action is one of a backlog that has
more to run.

* `LiveBacklog` — a run is between two actions of a backlog, and one of the rest is not cancelled.
* `Quiet` — a stopped simulation, none of whose actions is at work, and no such backlog.

Principal results: `Quiet.onward` — nothing starts; `starts_of_backlog` — something starts;
`starts_after_stop_iff` — after an action whose simulation was stopped has ended, another action of
the simulation starts before the stop is lifted if and only if such a backlog is left.
-/

set_option autoImplicit false

namespace StallSim

variable {n : Nat}

/-- The innermost run is one of the simulation `i`, between two actions of a backlog, and an action
that is left of the backlog is not cancelled. -/
structure LiveBacklog (m : Machine n) (i : Fin n) (run : Run n) (replay : Replay n)
    (backlog : Agenda EventId (Work (Action n))) : Prop where
  control : m.control = .between run
  sim : run.sim = i
  underWay : run.replay = some replay
  replaying : (m.world.sim i).phase replay.source = .replaying backlog
  live : ∃ work ∈ backlog.values, (m.world.sim i).isCancelled work.id = false

/-! ## What is left of a backlog -/

section Backlog

variable {w : World n} {run : Run n} {callers : List (Caller n)} {r : Replay n}
  {work : Work (Action n)}

/-- What comes next in a replay is the first of the backlog. -/
theorem nextReplayed_cases {s s' : Simulation (Action n)} {source : Source}
    (next : s.nextReplayed source = some (work, s')) :
    ∃ backlog rest, s.phase source = .replaying backlog ∧
      backlog.values = work :: rest.values ∧ s' = s.setPhase source (.replaying rest) := by
  unfold Simulation.nextReplayed at next
  split at next
  · rename_i backlog hphase
    simp only [Option.map_eq_some_iff, Prod.mk.injEq] at next
    obtain ⟨⟨⟨key, v⟩, rest⟩, hnext, rfl, rfl⟩ := next
    refine ⟨backlog, rest, hphase, ?_, rfl⟩
    rw [Agenda.values, Agenda.next?_eq_some_iff.1 hnext]
    rfl
  · cases next

/-- An action that comes next and is not cancelled makes the backlog live. -/
theorem liveBacklog_of_next {s : Simulation (Action n)} (underWay : run.replay = some r)
    (next : (w.sim run.sim).nextReplayed r.source = some (work, s))
    (live : (w.sim run.sim).isCancelled work.id = false) :
    ∃ backlog, LiveBacklog ⟨w, .between run, callers⟩ run.sim run r backlog := by
  obtain ⟨backlog, rest, hphase, hvalues, -⟩ := nextReplayed_cases next
  refine ⟨backlog, rfl, rfl, underWay, hphase, work, ?_, live⟩
  rw [hvalues]
  exact List.mem_cons_self

/-- A backlog that is live without its first action was live with it. -/
theorem LiveBacklog.of_rest {s : Simulation (Action n)} {i : Fin n} {run' : Run n} {r' : Replay n}
    {rest : Agenda EventId (Work (Action n))} (underWay : run.replay = some r)
    (next : (w.sim run.sim).nextReplayed r.source = some (work, s))
    (live : LiveBacklog ⟨w.setSim run.sim s, .between run, callers⟩ i run' r' rest) :
    ∃ backlog, LiveBacklog ⟨w, .between run, callers⟩ i run r backlog := by
  obtain ⟨hcontrol, rfl, hreplay, hphase, other, hother, hlive⟩ := live
  cases hcontrol
  rw [underWay] at hreplay
  cases hreplay
  obtain ⟨backlog, rest, hbefore, hvalues, rfl⟩ := nextReplayed_cases next
  rw [sim_setSim_self] at hphase hlive
  rw [Simulation.phase_setPhase, if_pos rfl] at hphase
  cases hphase
  refine ⟨backlog, rfl, rfl, underWay, hbefore, other, ?_, hlive⟩
  rw [hvalues]
  exact List.mem_cons_of_mem _ hother

/-- A run that is in no replay has no backlog. -/
theorem not_liveBacklog_of_idle {i : Fin n} {run' : Run n}
    {backlog : Agenda EventId (Work (Action n))} (idle : run.replay = none) :
    ¬ LiveBacklog ⟨w, .between run, callers⟩ i run' r backlog := by
  intro live
  have hreplay := live.underWay
  cases live.control
  rw [idle] at hreplay
  cases hreplay

end Backlog

/-! ## A stopped simulation stays quiet -/

/-- The simulation `i` is stopped, none of its actions is at work, and no replay has more to run. -/
structure Quiet (stop : Stop) (i : Fin n) (m : Machine n) : Prop where
  holds : stop.Holds (m.world.sim i)
  away : ∀ f ∈ m.frames, f.1.sim ≠ i
  drained : ∀ run replay backlog, ¬ LiveBacklog m i run replay backlog

section Quiet

variable {stop : Stop} {i : Fin n} {m m' : Machine n} {new : List (Fin n × Happening n)}

/-- A run of a stopped simulation, between two actions, comes to no further action. -/
theorem Quiet.stepRun {w : World n} {run : Run n} {callers : List (Caller n)}
    (quiet : Quiet stop i ⟨w, .between run, callers⟩)
    (holds : stop.Holds ((Machine.stepRun w run callers).world.sim i)) :
    Quiet stop i (Machine.stepRun w run callers) := by
  have hgoing : (w.sim run.sim).isStopped = false → run.sim ≠ i := by
    rintro hfree rfl
    rw [Stop.isStopped quiet.holds] at hfree
    cases hfree
  have henter : ∀ (w' : World n) (work : Work (Action n)), run.sim ≠ i →
      (∀ f ∈ (Machine.enter w' run work callers).frames, f.1.sim ≠ i) := by
    intro w' work hne f hf
    rcases List.mem_cons.1 hf with rfl | hf
    · exact hne
    · exact quiet.away f hf
  have hstep := runStep_stepRun w run callers
  generalize Machine.stepRun w run callers = m' at hstep holds
  cases hstep with
  | skip r work s underWay next cancelled =>
    refine ⟨holds, quiet.away, ?_⟩
    intro run' r' rest hlive
    obtain ⟨backlog, hbefore⟩ := hlive.of_rest underWay next
    exact quiet.drained run r backlog hbefore
  | drain r work s underWay next live =>
    refine ⟨holds, henter _ work ?_, fun run' r' backlog hlive => (by cases hlive.control)⟩
    rintro rfl
    obtain ⟨backlog, hlive⟩ := liveBacklog_of_next underWay next live
    exact quiet.drained run r backlog hlive
  | close r underWay exhausted =>
    exact ⟨holds, quiet.away, fun run' r' backlog => not_liveBacklog_of_idle rfl⟩
  | conclude outcome idle =>
    exact ⟨holds, quiet.away, fun run' r' backlog hlive => (by cases hlive.control)⟩
  | settle s idle going dispatch =>
    exact ⟨holds, quiet.away, fun run' r' backlog => not_liveBacklog_of_idle idle⟩
  | start work s idle going dispatch =>
    exact ⟨holds, henter _ work (hgoing going),
      fun run' r' backlog hlive => (by cases hlive.control)⟩
  | replay source stall s idle going dispatch =>
    refine ⟨holds, quiet.away, ?_⟩
    intro run' r' backlog hlive
    obtain ⟨hcontrol, hsim, -⟩ := hlive
    cases hcontrol
    exact hgoing going hsim

/-- **A stopped simulation stays quiet.** -/
theorem Quiet.go (quiet : Quiet stop i m) (go : Go stop i m new m') : Quiet stop i m' := by
  have hholds := go.holds quiet.holds
  cases go with
  | request outcome request rested kept =>
    obtain ⟨hframes, hcontrol⟩ := request_shape m.world request
    refine ⟨hholds, ?_, ?_⟩
    · intro f hf
      rw [hframes] at hf
      cases hf
    · intro run r backlog hlive
      have hreplay := hlive.underWay
      rw [hcontrol run hlive.control] at hreplay
      cases hreplay
  | step kept =>
    obtain ⟨w, control, callers⟩ := m
    cases control with
    | between run => exact quiet.stepRun hholds
    | within run work script =>
      obtain ⟨hframes, hcontrol⟩ := within_shape w run work script callers
      refine ⟨hholds, fun f hf => quiet.away f (hframes f hf), ?_⟩
      intro run' r backlog hlive
      rcases hcontrol run' hlive.control with ⟨rfl, -⟩ | ⟨hnone, -⟩
      · exact quiet.away (run', work) List.mem_cons_self hlive.sim
      · have hreplay := hlive.underWay
        rw [hnone] at hreplay
        cases hreplay
    | returned outcome =>
      cases callers with
      | nil => exact ⟨hholds, quiet.away, fun run r backlog hlive => by cases hlive.control⟩
      | cons c callers =>
        obtain ⟨hframes, hcontrol⟩ := settle_shape w c.run c.work c.operation c.handling c.rest
          outcome callers
        exact ⟨hholds, fun f hf => quiet.away f (hframes f hf),
          fun run r backlog hlive => absurd hlive.control (hcontrol run)⟩

/-- In all that follows, until the stop is lifted, no action starts. -/
theorem Quiet.onward (quiet : Quiet stop i m) (onward : Onward stop i m new m')
    (work : Work (Action n)) (time : Instant) : (i, .started work time) ∉ new := by
  induction onward with
  | refl m => exact List.not_mem_nil
  | go go onward ih =>
    intro hmem
    have hquiet := quiet.go go
    rcases List.mem_append.1 hmem with hmem | hmem
    · obtain ⟨f, hf, hsim⟩ := frame_of_started go.next hmem
      exact hquiet.away f hf hsim
    · exact ih hquiet hmem

end Quiet

/-! ## A backlog runs to its end -/

section Drain

variable {stop : Stop} {run : Run n} {r : Replay n}

theorem Onward.of_step {i : Fin n} {w : World n} {callers : List (Caller n)} {m' : Machine n}
    {later : List (Fin n × Happening n)}
    (onward : Onward stop i (Machine.stepRun w run callers) later m') :
    Onward stop i ⟨w, .between run, callers⟩
      (Machine.happenings ⟨w, .between run, callers⟩ ++ later) m' :=
  .go (.step ⟨w, .between run, callers⟩ (fun _ h => by cases h)) onward

theorem nextReplayed_of_values {s : Simulation (Action n)} {source : Source}
    {backlog : Agenda EventId (Work (Action n))} {first : Work (Action n)}
    {works : List (Work (Action n))} (replaying : s.phase source = .replaying backlog)
    (values : backlog.values = first :: works) : ∃ rest : Agenda EventId (Work (Action n)),
      s.nextReplayed source = some (first, s.setPhase source (.replaying rest)) ∧
        rest.values = works := by
  unfold Simulation.nextReplayed
  rw [replaying]
  cases hnext : backlog.next? with
  | none =>
    rw [Agenda.values, Agenda.next?_eq_none_iff.1 hnext] at values
    cases values
  | some taken =>
    obtain ⟨e, rest⟩ := taken
    rw [Agenda.values, Agenda.next?_eq_some_iff.1 hnext, List.map_cons] at values
    injection values with hfirst hworks
    refine ⟨rest, ?_, hworks⟩
    dsimp only
    rw [hnext, ← hfirst]
    rfl

/-- In the middle of a replay, the next step is to the next action of the backlog, whatever the
flags say. -/
theorem stepRun_of_next {w : World n} {work : Work (Action n)} {s : Simulation (Action n)}
    (underWay : run.replay = some r) (callers : List (Caller n))
    (next : (w.sim run.sim).nextReplayed r.source = some (work, s)) :
    Machine.stepRun w run callers =
      if (w.sim run.sim).isCancelled work.id then ⟨w.setSim run.sim s, .between run, callers⟩
      else Machine.enter (w.setSim run.sim s) run work callers := by
  unfold Machine.stepRun
  simp only [underWay, next]

/-- **A backlog runs to its end.**  As long as something of it is not cancelled, another action
starts. -/
theorem starts_of_backlog (underWay : run.replay = some r) (callers : List (Caller n))
    (works : List (Work (Action n))) (w : World n)
    (backlog : Agenda EventId (Work (Action n))) (values : backlog.values = works)
    (replaying : (w.sim run.sim).phase r.source = .replaying backlog)
    (live : ∃ work ∈ works, (w.sim run.sim).isCancelled work.id = false) :
    ∃ later m' work time, Onward stop run.sim ⟨w, .between run, callers⟩ later m' ∧
      (run.sim, .started work time) ∈ later := by
  induction works generalizing w backlog with
  | nil =>
    obtain ⟨work, hmem, -⟩ := live
    cases hmem
  | cons first works ih =>
    obtain ⟨rest, hnext, hrest⟩ := nextReplayed_of_values replaying values
    have hstep := stepRun_of_next underWay callers hnext
    by_cases hcancelled : (w.sim run.sim).isCancelled first.id = true
    · -- the first is skipped, so it is another one that is not cancelled
      rw [if_pos hcancelled] at hstep
      have hlive : ∃ work ∈ works, (w.sim run.sim).isCancelled work.id = false := by
        obtain ⟨work, hmem, hlive⟩ := live
        rcases List.mem_cons.1 hmem with rfl | hmem
        · rw [hcancelled] at hlive
          cases hlive
        · exact ⟨work, hmem, hlive⟩
      obtain ⟨later, m', work, time, honward, hstart⟩ :=
        ih (w.setSim run.sim ((w.sim run.sim).setPhase r.source (.replaying rest))) rest hrest
          (by rw [sim_setSim_self, Simulation.phase_setPhase, if_pos rfl])
          (by rw [sim_setSim_self]; exact hlive)
      rw [← hstep] at honward
      exact ⟨_, m', work, time, honward.of_step, List.mem_append_right _ hstart⟩
    · rw [if_neg hcancelled] at hstep
      obtain ⟨-, active, depth, hjournal⟩ := enter_setSim w run
        ((w.sim run.sim).setPhase r.source (.replaying rest)) first callers
      refine ⟨_, _, first, (w.sim run.sim).now, Onward.of_step (.refl _),
        List.mem_append_left _ ?_⟩
      rw [happenings_between (hstep ▸ hjournal)]
      exact List.mem_singleton.2 rfl

end Drain

/-! ## After an action whose run was stopped -/

section Returned

variable {stop : Stop} {i : Fin n} {m m' : Machine n} {h new : List (Fin n × Happening n)}

theorem History.onward (hist : History h m) (onward : Onward stop i m new m') :
    History (h ++ new) m' := by
  induction onward generalizing h with
  | refl m =>
    rw [List.append_nil]
    exact hist
  | go go _ ih =>
    rw [← List.append_assoc]
    exact ih (.next hist go.next)

theorem Onward.holds (onward : Onward stop i m new m') (holds : stop.Holds (m.world.sim i)) :
    stop.Holds (m'.world.sim i) := by
  induction onward with
  | refl m => exact holds
  | go go _ ih => exact ih (go.holds holds)

/-- A simulation that is asked to stop is stopped. -/
theorem Stop.holds_of_call (called : m.call? = some (stop.request i)) :
    stop.Holds (m.step.world.sim i) := by
  obtain ⟨w, control, callers⟩ := m
  have hmine : ∀ s : Simulation (Action n), stop.Holds s → stop.Holds ((w.setSim i s).sim i) := by
    intro s hs
    rw [sim_setSim_self]
    exact hs
  cases control with
  | between run => cases called
  | returned outcome => cases called
  | within run work script =>
    cases script with
    | perform j command handling rest =>
      cases stop with
      | paused =>
        cases called
        exact Stop.holds_settle _ _ _ _ _ _ _ (hmine (w.sim i).pause rfl)
      | halted =>
        cases called
        exact Stop.holds_settle _ _ _ _ _ _ _ (hmine (w.sim i).halt rfl)
    | submit submission body handling rest => cases stop <;> cases called
    | _ => cases called

/-- **What starts after an action that stopped its run.**  While an action of a simulation is at
work, the simulation is paused or halted; the world goes on without lifting this, until the action
has ended.  Then another action of the simulation starts before the stop is lifted, if and only if
the action that ended was one of a backlog of which something is left that is not cancelled. -/
theorem starts_after_stop_iff (hist : History h m) {run : Run n} {work : Work (Action n)}
    (called : m.call? = some (stop.request run.sim))
    {m₁ m₂ : Machine n} {new new' : List (Fin n × Happening n)}
    (onward : Onward stop run.sim m.step new m₁) (still : (run, work) ∈ m₁.frames)
    (go : Go stop run.sim m₁ new' m₂) (ended : (run, work) ∉ m₂.frames) :
    (∃ later m₃ other time, Onward stop run.sim m₂ later m₃ ∧
      (run.sim, .started other time) ∈ later) ↔
    ∃ replay backlog, LiveBacklog m₂ run.sim run replay backlog := by
  have hist₁ : History (h ++ m.happenings ++ new) m₁ := (hist.next (.step m)).onward onward
  obtain ⟨hframes, hcontrol⟩ := frames_of_ended go.next still ended
  constructor
  · rintro ⟨later, m₃, other, time, hlater, hstart⟩
    apply Classical.byContradiction
    intro hnone
    have hquiet : Quiet stop run.sim m₂ := by
      refine ⟨go.holds (onward.holds (Stop.holds_of_call called)), ?_,
        fun run' replay backlog hlive => hnone ⟨replay, backlog, ?_⟩⟩
      · intro f hf hsim
        -- no two actions of one simulation are at work
        have hnodup := hist₁.grounded.distinct.sublist (map_frames_sublist m₁)
        have heq := List.inj_on_of_nodup_map hnodup (hframes f hf) still hsim
        exact ended (heq ▸ hf)
      · have heq : run' = run := hcontrol run' hlive.control
        exact heq ▸ hlive
    exact hquiet.onward hlater other time hstart
  · rintro ⟨replay, backlog, hlive⟩
    obtain ⟨hcontrol, -, hreplay, hphase, hworks⟩ := hlive
    obtain ⟨w, control, callers⟩ := m₂
    cases hcontrol
    exact starts_of_backlog hreplay callers backlog.values w backlog rfl hphase hworks

end Returned

/-! ## The second of three actions pauses its run -/

/-- Three actions of the source of the small world are submitted, the second of which pauses the
simulation; then the simulation is told to run. -/
def pauseInTheMiddle (first : Script 1) : List (Request 1) :=
  [.submit ⟨lone, .index 0, .sourceNow, "", none⟩ first,
    .submit ⟨lone, .index 0, .sourceNow, "", none⟩ (.perform lone .pause ⟨true, none⟩ .done),
    .submit ⟨lone, .index 0, .sourceNow, "", none⟩ .done,
    .command lone .run]

/-- The small world after these requests and a number of steps. -/
def pausedWorld (first : Script 1) (k : Nat) : Machine 1 :=
  ((Machine.atRest smallWorld).ask (pauseInTheMiddle first)).steps k

/-- The work of the action that pauses. -/
def pausingWork : Work (Action 1) :=
  ⟨⟨1⟩, .index 0, "", ⟨"", .perform lone .pause ⟨true, none⟩ .done⟩⟩

/-- The run in which it starts, if nothing stalls the source. -/
def plainRun : Run 1 := ⟨lone, 0, none, none⟩

/-- The run in which it starts, if this is the first action. -/
def replayingRun : Run 1 := ⟨lone, 0, none, some ⟨.index 0, ⟨5⟩, .empty⟩⟩

theorem History.paused (first : Script 1) (k : Nat) : ∃ h, History h (pausedWorld first k) :=
  ⟨_, (History.small.ask (pauseInTheMiddle first) rfl).steps k⟩

/-- An action that was dispatched and pauses its run is the last to start. -/
theorem last_start_of_dispatched_pause :
    (pausedWorld .done 3).call? = some (.command 0 .pause) ∧
    ¬ ∃ later m₃ other time, Onward .paused 0 (pausedWorld .done 5) later m₃ ∧
      (0, .started other time) ∈ later := by
  obtain ⟨h, hist⟩ := History.paused .done 3
  have hcalled : (pausedWorld .done 3).call? = some (Stop.paused.request plainRun.sim) := rfl
  have hstill : (plainRun, pausingWork) ∈ (pausedWorld .done 4).frames := by
    rw [show (pausedWorld .done 4).frames = [(plainRun, pausingWork)] from rfl]
    exact List.mem_singleton.2 rfl
  have hended : (plainRun, pausingWork) ∉ (pausedWorld .done 5).frames := by
    rw [show (pausedWorld .done 5).frames = [] from rfl]
    exact List.not_mem_nil
  refine ⟨hcalled, ?_⟩
  intro hstarts
  have hgo : Go .paused plainRun.sim (pausedWorld .done 4) (pausedWorld .done 4).happenings
      (pausedWorld .done 4).step := .step _ (fun _ hcall => by cases hcall)
  obtain ⟨replay, backlog, hlive⟩ :=
    (starts_after_stop_iff hist hcalled (.refl _) hstill hgo hended).1 hstarts
  cases hlive.underWay

/-- A replay goes on after an action of its backlog has paused the run. -/
theorem backlog_outruns_pause :
    ¬ ∀ (h : List (Fin 1 × Happening 1)) (m : Machine 1) (run : Run 1) (work : Work (Action 1)),
      History h m → m.call? = some (.command run.sim .pause) →
      ∀ new m₁, Onward .paused run.sim m.step new m₁ → (run, work) ∈ m₁.frames →
      ∀ new' m₂, Go .paused run.sim m₁ new' m₂ → (run, work) ∉ m₂.frames →
      ∀ later m₃, Onward .paused run.sim m₂ later m₃ →
      ∀ other time, (run.sim, .started other time) ∉ later := by
  intro hall
  obtain ⟨h, hist⟩ := History.paused stallUntilFive 7
  have hstill : (replayingRun, pausingWork) ∈ (pausedWorld stallUntilFive 8).frames := by
    rw [show (pausedWorld stallUntilFive 8).frames = [(replayingRun, pausingWork)] from rfl]
    exact List.mem_singleton.2 rfl
  have hended : (replayingRun, pausingWork) ∉ (pausedWorld stallUntilFive 9).frames := by
    rw [show (pausedWorld stallUntilFive 9).frames = [] from rfl]
    exact List.not_mem_nil
  have hgo : ∀ k, (pausedWorld stallUntilFive k).call? = none →
      Go .paused 0 (pausedWorld stallUntilFive k) (pausedWorld stallUntilFive k).happenings
        (pausedWorld stallUntilFive k).step := by
    intro k hnone
    refine .step _ (fun request hcall => ?_)
    rw [hnone] at hcall
    cases hcall
  refine hall h _ replayingRun pausingWork hist rfl _ _ (.refl _) hstill _ _ (hgo 8 rfl) hended
    _ _ (.go (hgo 9 rfl) (.refl _)) ⟨⟨2⟩, .index 0, "", ⟨"", .done⟩⟩ ⟨5⟩
    (List.mem_append_left _ ?_)
  rw [show (pausedWorld stallUntilFive 9).happenings =
    [(0, .started ⟨⟨2⟩, .index 0, "", ⟨"", .done⟩⟩ ⟨5⟩)] from rfl]
  exact List.mem_singleton.2 rfl

end StallSim
