import StallSim.Proofs.Presence
import StallSim.Proofs.Splitting
import StallSim.Proofs.Takings

/-!
# Where a run with a limit stops

A run with a limit looks at it between two actions, but not in the middle of a replay.  So it stops
short of the limit only where it cannot go on, and beyond it only after a replay: the last event it
took was the release of a source, it was below the limit then, and the replay started all the
rest.

* `LastIsRelease` — the last event that a simulation takes in a number of steps is the release of a
  source, and what starts from there on is replayed.
* `StopsThere` — what a run says that answers a count.
* `Stage` — how far a run with a limit has come: below the limit, in a replay, beyond the limit
  after a replay, or at its end.

Principal results: `step_below` — only at the bottom of the stack does the outermost run go on;
`Stage.step`; `limited_run_stops` — in every history.
-/

set_option autoImplicit false

namespace StallSim

variable {n : Nat} {i : Fin n} {w : World n} {m m' : Machine n} {run : Run n}
  {callers : List (Caller n)} {h new : List (Fin n × Happening n)}

/-! ## The outermost run -/

/-- What is below the innermost run is outermost without it, too. -/
theorem getLast?_callers {outer : Run n}
    (last : (run :: callers.map Caller.run).getLast? = some outer) (some_caller : callers ≠ []) :
    (callers.map Caller.run).getLast? = some outer := by
  cases callers with
  | nil => exact absurd rfl some_caller
  | cons c callers => rwa [List.map_cons, List.getLast?_cons_cons, ← List.map_cons] at last

/-- The innermost run of a stack takes another form. -/
theorem getLast?_above {outer : Run n}
    (last : (run :: callers.map Caller.run).getLast? = some outer) (some_caller : callers ≠ [])
    (run' : Run n) : (run' :: callers.map Caller.run).getLast? = some outer := by
  have hrest := getLast?_callers last some_caller
  cases callers with
  | nil => exact absurd rfl some_caller
  | cons c callers => rwa [List.map_cons, List.getLast?_cons_cons, ← List.map_cons]

/-- What has become of the outermost run: it is as it was, or it was answered by an error or by a
panic. -/
def Persists (outer : Run n) (m : Machine n) : Prop :=
  m.runs.getLast? = some outer ∨
    ∃ outcome, m.result? = some outcome ∧ ∀ c, outcome ≠ .count c

theorem persists_abort {outer : Run n}
    (last : (run :: callers.map Caller.run).getLast? = some outer) (w : World n)
    (work : Work (Action n)) (failure : Failure) :
    Persists outer (Machine.abort w run work failure callers) := by
  cases callers with
  | nil => exact .inr ⟨_, rfl, fun c hc => by cases hc⟩
  | cons c callers => exact .inl (getLast?_callers last (List.cons_ne_nil c callers))

theorem persists_settle {outer : Run n}
    (last : (run :: callers.map Caller.run).getLast? = some outer) (w : World n)
    (work : Work (Action n)) (operation : Operation n) (handling : Handling) (rest : Script n)
    (outcome : Outcome) :
    Persists outer (Machine.settle w run work operation handling rest outcome callers) := by
  unfold Machine.settle
  dsimp only
  split
  · split
    · exact persists_abort last _ work _
    · exact .inl last
  · exact .inl last

/-- **Only at the bottom of the stack does the outermost run go on.** -/
theorem step_below {outer : Run n} (last : m.runs.getLast? = some outer)
    (below : ∀ w, m ≠ ⟨w, .between outer, []⟩) : Persists outer m.step := by
  obtain ⟨w, control, callers⟩ := m
  cases control with
  | between run =>
    have hcallers : callers ≠ [] := by
      rintro rfl
      cases last
      exact below w rfl
    show Persists outer (Machine.stepRun w run callers)
    have hstep := runStep_stepRun w run callers
    generalize Machine.stepRun w run callers = m' at hstep
    cases hstep with
    | conclude outcome idle => exact .inl (getLast?_callers last hcallers)
    | _ => exact .inl (getLast?_above last hcallers _)
  | within run work script =>
    show Persists outer (Machine.stepAction w run work script callers)
    cases script with
    | submit submission body handling rest => exact persists_settle last _ _ _ _ _ _
    | perform j command handling rest =>
      unfold Machine.stepAction
      dsimp only
      split
      · exact persists_settle last _ _ _ _ _ _
      · refine .inl ?_
        show (_ :: run :: callers.map Caller.run).getLast? = some outer
        rw [List.getLast?_cons_cons]
        exact last
    | fail failure context => exact persists_abort last _ work _
    | panic message => exact .inr ⟨_, rfl, fun c hc => by cases hc⟩
    | _ => exact .inl last
  | returned outcome =>
    cases callers with
    | nil => cases last
    | cons c callers => exact persists_settle last _ _ _ _ _ _

/-- The replay of the outermost run is that of its simulation. -/
theorem replayIn_of_last : ∀ {runs : List (Run n)}, (runs.map Run.sim).Nodup → ∀ {outer : Run n},
    runs.getLast? = some outer → replayIn outer.sim runs = outer.replay
  | [], _, _, last => by cases last
  | [run], _, _, last => by
    cases last
    exact if_pos rfl
  | run :: next :: runs, distinct, outer, last => by
    rw [List.getLast?_cons_cons] at last
    rw [List.map_cons, List.nodup_cons] at distinct
    have hmem : outer.sim ∈ (next :: runs).map Run.sim :=
      List.mem_map_of_mem (List.mem_of_getLast? last)
    have hne : run.sim ≠ outer.sim := fun hsame => distinct.1 (hsame ▸ hmem)
    rw [replayIn, if_neg hne]
    exact replayIn_of_last distinct.2 last

/-! ## What is counted -/

/-- A step counts the actions that it starts. -/
theorem processed_step (m : Machine n) (i : Fin n) :
    (m.step.world.sim i).processed =
      (m.world.sim i).processed + (logOf i m.happenings).started.length := by
  rw [← Log.length_recorded]
  exact congrArg Prod.fst (tally_step m i)

/-- A run between two actions touches its own simulation only. -/
theorem sim_stepRun_of_ne (other : run.sim ≠ i) :
    (Machine.stepRun w run callers).world.sim i = w.sim i := by
  have hset : ∀ s, (w.setSim run.sim s).sim i = w.sim i := fun s => by
    rw [World.sim_setSim, if_neg other]
  have henter : ∀ (s : Simulation (Action n)) (work : Work (Action n)),
      (Machine.enter (w.setSim run.sim s) run work callers).world.sim i = w.sim i := by
    intro s work
    rw [enter_eq]
    exact hset _
  have hstep := runStep_stepRun w run callers
  generalize Machine.stepRun w run callers = m' at hstep
  cases hstep with
  | drain r work s replay next live => exact henter s work
  | start work s idle going dispatch => exact henter s work
  | _ => exact hset _

/-- While the outermost run waits, its simulation starts nothing. -/
theorem processed_below (hist : History h m) {outer : Run n}
    (last : m.runs.getLast? = some outer) (below : ∀ w, m ≠ ⟨w, .between outer, []⟩) :
    (m.step.world.sim outer.sim).processed = (m.world.sim outer.sim).processed := by
  have hushed : Hushed m →
      (m.step.world.sim outer.sim).processed = (m.world.sim outer.sim).processed := by
    intro hushed
    have hnone := congrArg List.length (recorded_hushed hushed outer.sim)
    rw [Log.length_recorded] at hnone
    rw [processed_step, hnone]
    rfl
  have hdistinct := hist.grounded.distinct
  obtain ⟨w, control, callers⟩ := m
  cases control with
  | within run work script => exact hushed (hushed_within w run work script callers)
  | returned outcome => exact hushed (hushed_returned w outcome callers)
  | between run =>
    have hcallers : callers ≠ [] := by
      rintro rfl
      cases last
      exact below w rfl
    have hmem : outer.sim ∈ (callers.map Caller.run).map Run.sim :=
      List.mem_map_of_mem (List.mem_of_getLast? (getLast?_callers last hcallers))
    have hne : run.sim ≠ outer.sim := fun hsame => (List.nodup_cons.1 hdistinct).1 (hsame ▸ hmem)
    exact congrArg Simulation.processed (sim_stepRun_of_ne hne)

/-- What has started in a number of steps, told from the counter. -/
theorem started_story (m : Machine n) (k : Nat) (i : Fin n) :
    ((m.steps k).world.sim i).processed =
      (m.world.sim i).processed + (logOf i (m.story k)).started.length := by
  induction k generalizing m with
  | zero => rfl
  | succ k ih =>
    rw [Machine.steps, Machine.story, ih, processed_step, logOf_append, Log.started_append,
      List.length_append]
    omega

/-! ## The last event -/

/-- In the first `k` steps of a machine the simulation `i` takes its last event in the step `j`, and
it is the release of a source: fewer than `limit` actions have started by then, the replay `r` of
the source begins, and whatever starts from there on starts in the middle of this replay. -/
structure LastIsRelease (i : Fin n) (limit : Nat) (m : Machine n) (k j : Nat) (r : Replay n) :
    Prop where
  earlier : j < k
  taken : ∃ turn id, Takes i (m.steps j) (m.steps (j + 1)) (turn, .release id r.source)
  begun : ((m.steps (j + 1)).standing i).replay = some r
  short : (logOf i (m.story j)).started.length < limit
  last : ∀ l, j < l → l < k → ∀ e, ¬ Takes i (m.steps l) (m.steps (l + 1)) e
  replays : ∀ l, j ≤ l → l < k → ∀ work time, (i, .started work time) ∈ (m.steps l).happenings →
    ((m.steps l).standing i).replay = some r

/-- What it means that a run with a limit has answered the count `c` after `k` steps. -/
structure StopsThere (i : Fin n) (limit : Nat) (m : Machine n) (k c : Nat) : Prop where
  count : c = (logOf i (m.story k)).started.length
  under : c < limit → ((m.steps k).world.sim i).calendar.isEmpty = true ∨
    ((m.steps k).world.sim i).paused = true ∨ ((m.steps k).world.sim i).halted = true
  beyond : limit < c → ∃ j r, LastIsRelease i limit m k j r

section LastEvent

variable {limit k j : Nat} {r : Replay n}

theorem steps_succ (m : Machine n) (k : Nat) : m.steps (k + 1) = (m.steps k).step := m.steps_add k 1

/-- No event is taken in the middle of a replay. -/
theorem not_takes_of_replay (hist : History h m) (next : Next m new m')
    (replaying : (m.standing i).replay = some r) (e : Option Turn × Event (Action n)) :
    ¬ Takes i m m' e := by
  intro takes
  have hidle : ∀ {st : Standing n} {new st'}, Taking e st new st' → st.replay = none := by
    intro st new st' taking
    cases taking <;> rfl
  cases replaying.symm.trans (hidle (takes.taking hist next).2)

/-- A machine at rest takes no event. -/
theorem not_takes_of_same {e : Option Turn × Event (Action n)}
    (same : (m'.world.sim i).calendar = (m.world.sim i).calendar) : ¬ Takes i m m' e := by
  intro takes
  exact not_sublist_of_next? takes (same ▸ .refl _)

/-- The step that takes a release starts nothing. -/
theorem not_started_of_release (hist : History h m) (next : Next m new m') {turn : Option Turn}
    {id : EventId} {source : Source} (takes : Takes i m m' (turn, .release id source))
    (work : Work (Action n)) (time : Instant) : (i, .started work time) ∉ new := by
  intro start
  have htaking := (takes.taking hist next).2
  have hmem := mem_logOf.2 start
  generalize m.standing i = st, logOf i new = log, m'.standing i = st' at htaking hmem
  cases htaking with
  | start s turn event work rest taken isWork => cases isWork
  | _ => cases hmem

/-- A release is taken, and the replay of its source begins. -/
theorem LastIsRelease.begin (hist : History h (m.steps k))
    (taken : ∃ turn id, Takes i (m.steps k) (m.steps (k + 1)) (turn, .release id r.source))
    (begun : ((m.steps (k + 1)).standing i).replay = some r)
    (short : (logOf i (m.story k)).started.length < limit) :
    LastIsRelease i limit m (k + 1) k r where
  earlier := Nat.lt_succ_self k
  taken := taken
  begun := begun
  short := short
  last l hj hl := absurd hl (Nat.not_lt.2 hj)
  replays l hj hl work time start := by
    obtain rfl : l = k := by omega
    obtain ⟨turn, id, htakes⟩ := taken
    rw [steps_succ] at htakes
    exact absurd start (not_started_of_release hist (.step _) htakes work time)

/-- One more step in which no event is taken, and nothing starts but in the replay. -/
theorem LastIsRelease.next (since : LastIsRelease i limit m k j r)
    (quiet : ∀ e, ¬ Takes i (m.steps k) (m.steps (k + 1)) e)
    (replays : ∀ work time, (i, .started work time) ∈ (m.steps k).happenings →
      ((m.steps k).standing i).replay = some r) : LastIsRelease i limit m (k + 1) j r where
  earlier := Nat.lt_succ_of_lt since.earlier
  taken := since.taken
  begun := since.begun
  short := since.short
  last l hj hl := by
    rcases Nat.lt_succ_iff_lt_or_eq.1 hl with hlt | rfl
    · exact since.last l hj hlt
    · exact quiet
  replays l hj hl := by
    rcases Nat.lt_succ_iff_lt_or_eq.1 hl with hlt | rfl
    · exact since.replays l hj hlt
    · exact replays

/-- A step in the middle of the replay. -/
theorem LastIsRelease.step (since : LastIsRelease i limit m k j r)
    (hist : History h (m.steps k)) (replaying : ((m.steps k).standing i).replay = some r) :
    LastIsRelease i limit m (k + 1) j r := by
  refine since.next ?_ fun _ _ _ => replaying
  rw [steps_succ]
  exact not_takes_of_replay hist (.step _) replaying

/-- A step that leaves the calendar and the counter as they are. -/
theorem LastIsRelease.still (since : LastIsRelease i limit m k j r)
    (calendar : ((m.steps (k + 1)).world.sim i).calendar = ((m.steps k).world.sim i).calendar)
    (processed : ((m.steps (k + 1)).world.sim i).processed =
      ((m.steps k).world.sim i).processed) : LastIsRelease i limit m (k + 1) j r := by
  refine since.next (fun e => not_takes_of_same calendar) fun work time start => ?_
  rw [steps_succ, processed_step] at processed
  have hmem : work ∈ (logOf i (m.steps k).happenings).started :=
    List.mem_filterMap.2 ⟨_, mem_logOf.2 start, rfl⟩
  have hpos := List.length_pos_of_mem hmem
  omega

/-- A replay begins by the release of its source. -/
theorem release_of_dispatch {s s' : Simulation (Action n)} {source : Source}
    {stall : Stall (Action n)} (dispatch : s.dispatch = .replay source stall s') :
    ∃ turn id, s.calendar.next? = some ((turn, .release id source), s'.calendar) := by
  cases hnext : s.calendar.next? with
  | none => simp [Simulation.dispatch, hnext] at dispatch
  | some taken =>
    obtain ⟨⟨turn, event⟩, rest⟩ := taken
    rw [dispatch_eq hnext] at dispatch
    split at dispatch
    · cases dispatch
    · cases event with
      | direct work => cases dispatch
      | routed work =>
        dsimp only at dispatch
        split at dispatch <;> cases dispatch
      | release id released =>
        dsimp only at dispatch
        split at dispatch
        · cases dispatch
          exact ⟨turn, id, rfl⟩
        · cases dispatch

end LastEvent

/-! ## How far a run has come -/

/-- The run of the simulation `i` that was begun when `start` actions had started, to stop after
`limit` more. -/
structure Run.Bounded (run : Run n) (i : Fin n) (start limit : Nat) : Prop where
  sim : run.sim = i
  start : run.start = start
  limit : run.limit = some limit

/-- A run with a limit is over where the limit is reached, or its simulation is stopped. -/
theorem Run.Bounded.isOver_iff {start limit : Nat} (bounded : run.Bounded i start limit)
    (s : Simulation (Action n)) :
    run.isOver s = true ↔ limit ≤ s.processed - start ∨ s.isStopped = true := by
  rw [Run.isOver, bounded.start, bounded.limit, Bool.or_eq_true]
  exact or_congr_left decide_eq_true_iff

/-- How far a run with a limit has come after `k` steps. -/
inductive Stage (i : Fin n) (limit : Nat) (m : Machine n) (k : Nat) : Prop where
  /-- Outside of a replay the limit is not exceeded. -/
  | within (outer : Run n) (last : (m.steps k).runs.getLast? = some outer)
      (bounded : outer.Bounded i (m.world.sim i).processed limit) (idle : outer.replay = none)
      (few : ((m.steps k).world.sim i).processed ≤ (m.world.sim i).processed + limit)
  | replaying (outer : Run n) (last : (m.steps k).runs.getLast? = some outer)
      (bounded : outer.Bounded i (m.world.sim i).processed limit) (j : Nat) (r : Replay n)
      (replay : outer.replay = some r) (since : LastIsRelease i limit m k j r)
  /-- A replay has ended beyond the limit: the next step looks at it. -/
  | beyond (w : World n) (outer : Run n) (here : m.steps k = ⟨w, .between outer, []⟩)
      (bounded : outer.Bounded i (m.world.sim i).processed limit) (idle : outer.replay = none)
      (many : (m.world.sim i).processed + limit < ((m.steps k).world.sim i).processed) (j : Nat)
      (r : Replay n) (since : LastIsRelease i limit m k j r)
  | ended (outcome : Outcome) (result : (m.steps k).result? = some outcome)
      (stops : ∀ c, outcome = .count c → StopsThere i limit m k c)

section Stage

variable {limit k : Nat}

/-- A run that has been answered by no count. -/
theorem Stage.of_persists {outer : Run n} (persists : Persists outer (m.steps k))
    (last : (m.steps k).runs.getLast? = some outer → Stage i limit m k) : Stage i limit m k := by
  rcases persists with hlast | ⟨outcome, hresult, hother⟩
  · exact last hlast
  · exact .ended outcome hresult fun c hc => absurd hc (hother c)

/-- The run ends between two actions. -/
theorem Stage.of_ended {outer : Run n}
    (bounded : outer.Bounded i (m.world.sim i).processed limit)
    (here : m.steps k = ⟨w, .between outer, []⟩)
    (ended : m.steps (k + 1) = .goOn w outer [] .exhausted)
    (under : (w.sim i).processed < (m.world.sim i).processed + limit →
      (w.sim i).isStopped = true ∨ (w.sim i).calendar.isEmpty = true)
    (beyond : (m.world.sim i).processed + limit < (w.sim i).processed →
      ∃ j r, LastIsRelease i limit m k j r) : Stage i limit m (k + 1) := by
  obtain ⟨rfl, hstart, -⟩ := bounded
  have hsim : (m.steps (k + 1)).world.sim outer.sim = (w.sim outer.sim).endRun := by
    rw [ended]
    exact sim_setSim_self _ _ _
  have hbefore : (m.steps k).world.sim outer.sim = w.sim outer.sim := by rw [here]
  have hcount := started_story m (k + 1) outer.sim
  rw [hsim] at hcount
  refine .ended (.count ((w.sim outer.sim).processed - outer.start)) (by rw [ended]; rfl) ?_
  intro c hc
  cases hc
  rw [hstart]
  refine ⟨?_, fun hshort => ?_, fun hmany => ?_⟩
  · exact (Nat.sub_eq_of_eq_add' hcount)
  · rw [hsim]
    have hstopped := under (by omega)
    rw [Simulation.isStopped, Bool.or_eq_true] at hstopped
    rcases hstopped with (hpaused | hhalted) | hempty
    · exact .inr (.inl hpaused)
    · exact .inr (.inr hhalted)
    · exact .inl hempty
  · obtain ⟨j, r, hsince⟩ := beyond (by omega)
    refine ⟨j, r, hsince.still ?_ ?_⟩
    · rw [hsim, hbefore]
      rfl
    · rw [hsim, hbefore]
      rfl

/-- The run is between two actions, outside of a replay, and takes the next event. -/
theorem Stage.of_going {outer : Run n} (hist : History h (m.steps k))
    (bounded : outer.Bounded i (m.world.sim i).processed limit) (idle : outer.replay = none)
    (here : m.steps k = ⟨w, .between outer, []⟩)
    (going : m.steps (k + 1) = .goOn w outer [] (w.sim i).dispatch)
    (few : (w.sim i).processed < (m.world.sim i).processed + limit) :
    Stage i limit m (k + 1) := by
  have hbefore : (m.steps k).world.sim i = w.sim i := by rw [here]
  have hafter : ∀ {s : Simulation (Action n)}, (w.setSim outer.sim s).sim i = s := by
    intro s
    rw [bounded.sim, sim_setSim_self]
  have hframe : ∀ {s}, (w.sim i).dispatch.sim? = some s → s.processed = (w.sim i).processed := by
    intro s htaken
    obtain ⟨_, _, _, _, -, rfl⟩ := dispatch_frame htaken
    rfl
  cases hdispatch : (w.sim i).dispatch with
  | exhausted =>
    rw [hdispatch] at going
    refine .of_ended bounded here going (fun _ => .inr ?_) fun hmany => ?_
    · rw [Calendar.isEmpty, Calendar.next?_eq_none_iff.1 (exhausted_iff.1 hdispatch)]
      rfl
    · omega
  | settled s =>
    have hs : s.processed = (w.sim i).processed := hframe (by rw [hdispatch]; rfl)
    rw [hdispatch] at going
    refine .within outer (by rw [going]; rfl) bounded idle ?_
    rw [going]
    show ((w.setSim outer.sim s).sim i).processed ≤ _
    rw [hafter, hs]
    exact few.le
  | start work s =>
    have hs : s.processed = (w.sim i).processed := hframe (by rw [hdispatch]; rfl)
    rw [hdispatch] at going
    refine .within outer (by rw [going]; rfl) bounded idle ?_
    rw [going, Machine.goOn, enter_eq]
    show ((w.setSim outer.sim (s.startAction work)).sim i).processed ≤ _
    rw [hafter]
    show s.processed + 1 ≤ _
    rw [hs]
    exact few
  | replay source stall s =>
    rw [hdispatch] at going
    obtain ⟨turn, id, htaken⟩ := release_of_dispatch hdispatch
    have hcalendar : ((m.steps (k + 1)).world.sim i).calendar = s.calendar := by
      rw [going]
      exact congrArg Simulation.calendar hafter
    have htakes : Takes i (m.steps k) (m.steps (k + 1)) (turn, .release id source) := by
      rw [Takes, hbefore, hcalendar]
      exact htaken
    have hcount := started_story m k i
    rw [hbefore] at hcount
    refine .replaying { outer with replay := some ⟨source, stall.release, stall.timers⟩ }
      (by rw [going]; rfl) ⟨bounded.sim, bounded.start, bounded.limit⟩ k
      ⟨source, stall.release, stall.timers⟩ rfl (.begin hist ⟨turn, id, htakes⟩ ?_ (by omega))
    rw [going]
    exact if_pos bounded.sim

/-- The run is between two actions, outside of a replay and not beyond its limit. -/
theorem Stage.of_top {outer : Run n} (hist : History h (m.steps k))
    (bounded : outer.Bounded i (m.world.sim i).processed limit) (idle : outer.replay = none)
    (here : m.steps k = ⟨w, .between outer, []⟩)
    (few : (w.sim i).processed ≤ (m.world.sim i).processed + limit) :
    Stage i limit m (k + 1) := by
  have hstep : m.steps (k + 1) = .goOn w outer []
      (if outer.isOver (w.sim i) then .exhausted else (w.sim i).dispatch) := by
    rw [steps_succ, here, ← bounded.sim]
    exact stepRun_idle idle
  have hcount := started_story m k i
  rw [here] at hcount
  dsimp only at hcount
  split at hstep
  · rename_i hends
    refine .of_ended bounded here hstep (fun hshort => ?_) fun hmany => ?_
    · exact .inl (((bounded.isOver_iff _).1 hends).resolve_left (by omega))
    · omega
  · rename_i hgoing
    rw [bounded.isOver_iff, not_or] at hgoing
    exact .of_going hist bounded idle here hstep (by omega)

/-- The run is between two actions, in the middle of a replay. -/
theorem Stage.of_replay {outer : Run n} {j : Nat} {r : Replay n}
    (bounded : outer.Bounded i (m.world.sim i).processed limit) (replay : outer.replay = some r)
    (here : m.steps k = ⟨w, .between outer, []⟩) (since : LastIsRelease i limit m (k + 1) j r) :
    Stage i limit m (k + 1) := by
  have hstep : m.steps (k + 1) = Machine.stepRun w outer [] := by
    rw [steps_succ, here]
    rfl
  have hrun := runStep_stepRun w outer []
  rw [← hstep] at hrun
  generalize hm : m.steps (k + 1) = m' at hrun
  have hgoing : m'.runs.getLast? = some outer → Stage i limit m (k + 1) := fun hlast =>
    .replaying outer (hm ▸ hlast) bounded j r replay since
  cases hrun with
  | skip r' work s replay' next cancelled => exact hgoing rfl
  | drain r' work s replay' next live => exact hgoing rfl
  | close r' replay' exhausted =>
    by_cases hfew : ((m.steps (k + 1)).world.sim i).processed ≤ (m.world.sim i).processed + limit
    · exact .within { outer with replay := none } (by rw [hm]; rfl)
        ⟨bounded.sim, bounded.start, bounded.limit⟩ rfl hfew
    · exact .beyond _ { outer with replay := none } hm
        ⟨bounded.sim, bounded.start, bounded.limit⟩ rfl (Nat.lt_of_not_le hfew) j r since
  | conclude outcome idle => cases idle.symm.trans replay
  | settle s idle going dispatch => cases idle.symm.trans replay
  | start work s idle going dispatch => cases idle.symm.trans replay
  | replay source stall s idle going dispatch => cases idle.symm.trans replay

/-- **The run goes from stage to stage.** -/
theorem Stage.step (stage : Stage i limit m k) (hist : History h (m.steps k)) :
    Stage i limit m (k + 1) := by
  cases stage with
  | within outer last bounded idle few =>
    by_cases hbottom : ∃ w, m.steps k = ⟨w, .between outer, []⟩
    · obtain ⟨w, here⟩ := hbottom
      exact .of_top hist bounded idle here (by rwa [here] at few)
    · rw [not_exists] at hbottom
      have hprocessed := processed_below hist last hbottom
      rw [bounded.sim, ← steps_succ] at hprocessed
      refine .of_persists (steps_succ m k ▸ step_below last hbottom) fun hlast => ?_
      exact .within outer hlast bounded idle (hprocessed ▸ few)
  | replaying outer last bounded j r replay since =>
    have hreplaying : ((m.steps k).standing i).replay = some r := by
      rw [← bounded.sim, ← replay]
      exact replayIn_of_last hist.grounded.distinct last
    have hsince := since.step hist hreplaying
    by_cases hbottom : ∃ w, m.steps k = ⟨w, .between outer, []⟩
    · obtain ⟨w, here⟩ := hbottom
      exact .of_replay bounded replay here hsince
    · rw [not_exists] at hbottom
      refine .of_persists (steps_succ m k ▸ step_below last hbottom) fun hlast => ?_
      exact .replaying outer hlast bounded j r replay hsince
  | beyond w outer here bounded idle many j r since =>
    rw [here] at many
    dsimp only at many
    have hends : outer.isOver (w.sim outer.sim) = true := by
      rw [bounded.isOver_iff, bounded.sim]
      exact .inl (by omega)
    have hstep : m.steps (k + 1) = .goOn w outer [] .exhausted := by
      rw [steps_succ, here]
      show Machine.stepRun w outer [] = _
      rw [stepRun_idle idle, if_pos hends]
    refine .of_ended bounded here hstep (fun hshort => ?_) fun _ => ⟨j, r, since⟩
    omega
  | ended outcome result stops =>
    have hstep : m.steps (k + 1) = m.steps k := by
      rw [steps_succ]
      exact Machine.step_of_result? result
    refine .ended outcome (by rw [hstep]; exact result) fun c hc => ?_
    obtain ⟨hcount, hunder, hbeyond⟩ := stops c hc
    have hmore := started_story m (k + 1) i
    rw [hstep, started_story m k i] at hmore
    refine ⟨by omega, fun hshort => ?_, fun hmany => ?_⟩
    · rw [hstep]
      exact hunder hshort
    · obtain ⟨j, r, hsince⟩ := hbeyond hmany
      exact ⟨j, r, hsince.still (by rw [hstep]) (by rw [hstep])⟩

theorem Stage.steps (hist : History h m) (begun : Stage i limit m 0) (k : Nat) :
    Stage i limit m k := by
  induction k with
  | zero => exact begun
  | succ k ih => exact ih.step (hist.steps k)

end Stage

/-! ## Every history -/

section Request

variable {outcome : Outcome}

/-- What a run with a limit that is asked for from outside comes to at once: it is refused, it is
declined, or it begins. -/
theorem request_runFor (hist : History h m) (rested : m.result? = some outcome) (i : Fin n)
    (limit : Nat) :
    ((m.world.sim i).halted = true ∧ Machine.request m.world (.command i (.runFor limit)) =
      ⟨m.world, .returned (.refused .halted), []⟩) ∨
    ((m.world.sim i).halted = false ∧ (m.world.sim i).paused = true ∧
      Machine.request m.world (.command i (.runFor limit)) =
        ⟨m.world, .returned (.count 0), []⟩) ∨
    ((m.world.sim i).halted = false ∧ (m.world.sim i).running = false ∧
      Machine.request m.world (.command i (.runFor limit)) =
        .going (m.world.setSim i { m.world.sim i with running := true }) i
          (m.world.sim i).processed (some limit)) := by
  have hidle : (m.world.sim i).running = false := by
    have hnot : ¬ (m.world.sim i).running = true := by
      rw [hist.keeps.running, runs_of_result? rested]
      exact List.not_mem_nil
    simpa using hnot
  cases hhalted : (m.world.sim i).halted with
  | true =>
    refine .inl ⟨rfl, ?_⟩
    simp [Machine.request, World.command, World.beginRun, Simulation.startRun, hhalted]
  | false =>
    cases hpaused : (m.world.sim i).paused with
    | true =>
      refine .inr (.inl ⟨rfl, rfl, ?_⟩)
      simp [Machine.request, World.command, World.beginRun, Simulation.startRun, hhalted, hpaused]
    | false =>
      have hgoing : (m.world.sim i).isStopped = false := by
        rw [Simulation.isStopped, hpaused, hhalted]
        rfl
      exact .inr (.inr ⟨rfl, hidle, request_toRun hgoing hidle (some limit)⟩)

theorem stage_of_request (hist : History h m) (rested : m.result? = some outcome) (i : Fin n)
    (limit : Nat) : Stage i limit (Machine.request m.world (.command i (.runFor limit))) 0 := by
  rcases request_runFor hist rested i limit with ⟨-, hrefused⟩ | ⟨-, hpaused, hdeclined⟩ |
    ⟨-, -, hbegun⟩
  · rw [hrefused]
    exact .ended _ rfl fun c hc => by cases hc
  · rw [hdeclined]
    refine .ended (.count 0) rfl fun c hc => ?_
    cases hc
    exact ⟨rfl, fun _ => .inr (.inl hpaused), fun hmany => absurd hmany (Nat.not_lt_zero limit)⟩
  · rw [hbegun]
    have hsim := sim_setSim_self m.world i { m.world.sim i with running := true }
    refine .within ⟨i, (m.world.sim i).processed, some limit, none⟩ rfl ⟨rfl, ?_, rfl⟩ rfl
      (Nat.le_add_right _ _)
    exact (congrArg Simulation.processed hsim).symm

/-- A run that begins and is over at once leaves the world as it was. -/
theorem going_over (idle : (w.sim i).running = false) :
    (Machine.going (w.setSim i { w.sim i with running := true }) i (w.sim i).processed
      (some 0)).step = ⟨w, .returned (.count 0), []⟩ := by
  generalize hw : w.setSim i { w.sim i with running := true } = w'
  have hsim : w'.sim i = { w.sim i with running := true } := hw ▸ sim_setSim_self w i _
  have hback : (w'.sim i).endRun = w.sim i := by
    rw [hsim]
    exact endRun_of_idle idle
  have hover : Run.isOver ⟨i, (w.sim i).processed, some 0, none⟩ (w'.sim i) = true := rfl
  show Machine.stepRun w' ⟨i, (w.sim i).processed, some 0, none⟩ [] = _
  rw [stepRun_idle rfl, if_pos hover, Machine.goOn, hback, hsim, Nat.sub_self, ← hw, setSim_setSim,
    setSim_sim]

end Request

/-- **A run with a limit stops where it says.**  A simulation is told from outside to run up to
`limit` actions, at any moment of any history, and the call answers a count: it is the number of the
actions that have started meanwhile.  If it is below the limit, then no event waits, or the
simulation is paused or halted.  If it is beyond the limit, then the last event that was taken was
the release of a source, fewer than `limit` actions had started by then, and all that started after
it started in the replay of that source.  To run up to no action is answered at once, and leaves the
world as it is. -/
theorem limited_run_stops (hist : History h m) {outcome : Outcome}
    (rested : m.result? = some outcome) (i : Fin n) (limit : Nat) :
    (∀ k c, ((Machine.request m.world (.command i (.runFor limit))).steps k).result? =
        some (.count c) →
      StopsThere i limit (Machine.request m.world (.command i (.runFor limit))) k c) ∧
    (limit = 0 → ∀ k, 0 < k →
      (Machine.request m.world (.command i (.runFor limit))).steps k =
        ⟨m.world, .returned (if (m.world.sim i).halted then .refused .halted else .count 0),
          []⟩) := by
  refine ⟨fun k c answer => ?_, ?_⟩
  · have hasked := hist.next (.request m outcome (.command i (.runFor limit)) rested)
    have hsame : ∀ {run : Run n}, (Machine.steps k (Machine.request m.world
        (.command i (.runFor limit)))).runs.getLast? ≠ some run := by
      intro run hlast
      rw [runs_of_result? answer] at hlast
      cases hlast
    cases (stage_of_request hist rested i limit).steps hasked k with
    | within outer last => exact absurd last hsame
    | replaying outer last => exact absurd last hsame
    | beyond w outer here =>
      rw [here] at answer
      cases answer
    | ended outcome result stops => exact stops c (Option.some.inj (result.symm.trans answer))
  · rintro rfl k hk
    obtain ⟨k, rfl⟩ := Nat.exists_eq_add_of_lt hk
    rw [Nat.zero_add, Machine.steps]
    rcases request_runFor hist rested i 0 with ⟨hhalted, hrefused⟩ | ⟨hgoing, -, hdeclined⟩ |
      ⟨hgoing, hidle, hbegun⟩
    · rw [hrefused, hhalted, if_pos rfl]
      exact Machine.steps_of_result? rfl k
    · rw [hdeclined, hgoing, if_neg Bool.false_ne_true]
      exact Machine.steps_of_result? rfl k
    · rw [hbegun, hgoing, if_neg Bool.false_ne_true, going_over hidle]
      exact Machine.steps_of_result? rfl k

/-- The first of three actions stalls the source of the others.  A run up to two actions starts it,
and then both of the others in the replay of the source. -/
theorem limited_run_stops_beyond :
    ∃ k j r, ((Machine.request threeHandedIn.world (.command lone (.runFor 2))).steps k).result? =
        some (.count 3) ∧
      LastIsRelease lone 2 (Machine.request threeHandedIn.world (.command lone (.runFor 2))) k j
        r := by
  have hist : History _ threeHandedIn := History.small.ask _ rfl
  have hanswer : ((Machine.request threeHandedIn.world
      (.command lone (.runFor 2))).steps 20).result? = some (.count 3) := rfl
  have hstops := (limited_run_stops hist rfl lone 2).1 20 3 hanswer
  obtain ⟨j, r, hlast⟩ := hstops.beyond (by decide)
  exact ⟨20, j, r, hanswer, hlast⟩

end StallSim
