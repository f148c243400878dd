import StallSim.Proofs.Conservation
import StallSim.Proofs.Replays
import StallSim.Proofs.Stops

/-!
# A failure is final

An action that fails halts its simulation and ends its run.  From then on the simulation only takes
in: submissions and cancellations are still accepted, but no run begins, so no event is taken any
more, and whatever waits stays where it is.  What a failure in the middle of a replay has left is
still there, in its order: in the calendar, or parked if the source was stalled again.

* `Rested` — what lulls leave of a simulation.
* `Over` — no run of the simulation is under way, and none can begin.
* `Final`, `Remains` — what is known of the simulation of a failed action from then on.

Principal results: `Over.lulls` — a simulation that is over goes through lulls only;
`failure_is_final` — in every history; `trace_enabled_after_failure` — the trace of a simulation
that is over can still be enabled.
-/

set_option autoImplicit false

namespace StallSim

variable {n : Nat} {log new : Log n} {st st' : Standing n} {s s' : Simulation (Action n)}

/-! ## What lulls leave -/

/-- What lulls leave of a simulation: the clock, the counter and the trace, though a trace may have
been enabled, and in its order all that waits in the calendar or is parked. -/
structure Rested (s s' : Simulation (Action n)) : Prop where
  now : s'.now = s.now
  processed : s'.processed = s.processed
  trace : s'.trace = s.trace ∨ s.trace = none ∧ s'.trace = some []
  entries : s.calendar.entries.Sublist s'.calendar.entries
  parked : ∀ source stall, s.phase source = .stalled stall →
    ∃ stall', s'.phase source = .stalled stall' ∧
      stall.immediate.toList.Sublist stall'.immediate.toList

theorem Rested.refl (s : Simulation (Action n)) : Rested s s :=
  ⟨rfl, rfl, .inl rfl, .refl _, fun _ stall hstalled => ⟨stall, hstalled, .refl _⟩⟩

theorem Rested.trans {s'' : Simulation (Action n)} (first : Rested s s') (later : Rested s' s'') :
    Rested s s'' where
  now := later.now.trans first.now
  processed := later.processed.trans first.processed
  trace := by
    rcases later.trace with hsame | ⟨hnone, hempty⟩
    · rw [hsame]
      exact first.trace
    · rcases first.trace with hbefore | ⟨-, hbefore⟩
      · exact .inr ⟨hbefore ▸ hnone, hempty⟩
      · rw [hbefore] at hnone
        cases hnone
  entries := first.entries.trans later.entries
  parked source stall hstalled := by
    obtain ⟨stall', hstalled', hsub⟩ := first.parked source stall hstalled
    obtain ⟨stall'', hstalled'', hsub'⟩ := later.parked source stall' hstalled'
    exact ⟨stall'', hstalled'', hsub.trans hsub'⟩

/-- What is held back for the sources does not change, and what waits stays. -/
theorem Rested.of_same (now : s'.now = s.now) (processed : s'.processed = s.processed)
    (trace : s'.trace = s.trace) (phase : s'.phase = s.phase)
    (entries : s.calendar.entries.Sublist s'.calendar.entries) : Rested s s' :=
  ⟨now, processed, .inl trace, entries,
    fun _ stall hstalled => ⟨stall, phase ▸ hstalled, .refl _⟩⟩

/-- A source goes over to another phase, in which all that is parked for it stays. -/
theorem Rested.setPhase {source : Source} {phase : Phase (Action n)}
    (parked : ∀ stall, s.phase source = .stalled stall → ∃ stall', phase = .stalled stall' ∧
      stall.immediate.toList.Sublist stall'.immediate.toList) :
    Rested s (s.setPhase source phase) := by
  refine ⟨rfl, rfl, .inl rfl, .refl _, fun other stall hstalled => ?_⟩
  rw [Simulation.phase_setPhase]
  split
  · rename_i heq
    exact parked stall (heq ▸ hstalled)
  · exact ⟨stall, hstalled, .refl _⟩

theorem Stall.sublist_park (stall : Stall (Action n)) (due : Option Instant)
    (work : Work (Action n)) :
    stall.immediate.toList.Sublist (stall.park due work).immediate.toList := by
  cases due with
  | none => exact stall.immediate.sublist_insert work.id work
  | some t => exact .refl _

theorem Rested.lodge {ticket : Ticket n} (placed : Placed s ticket s') : Rested s s' := by
  have hissued : Rested s s.issue := .of_same rfl rfl rfl rfl (.refl _)
  cases placed with
  | immediate event entry =>
    exact .of_same rfl rfl rfl rfl (Calendar.sublist_pushImmediate _ _)
  | timed t event entry => exact .of_same rfl rfl rfl rfl (Calendar.sublist_pushTimed _ _ _)
  | parked stall stalled =>
    refine hissued.trans (.setPhase (fun stall' hstalled => ⟨_, rfl, ?_⟩))
    have heq : Phase.stalled stall = .stalled stall' := stalled.symm.trans hstalled
    cases heq
    exact stall.sublist_park _ _
  | joined backlog replaying =>
    refine hissued.trans (.setPhase (fun stall hstalled => ?_))
    have heq : Phase.replaying backlog = .stalled stall := replaying.symm.trans hstalled
    cases heq

theorem Rested.close (r : Replay n) :
    Rested s (s.closeReplay r.source r.release r.timers) := by
  have hlull : Lull (n := n) [] ⟨s, some r⟩ [] _ := .close r
  refine ⟨hlull.now, ?_, .inl ?_, hlull.stays, fun source stall hstalled => ⟨stall, ?_, .refl _⟩⟩
  · rw [closeReplay_eq]
  · rw [closeReplay_eq]
  · rw [phase_closeReplay]
    split
    · rename_i heq
      rw [heq, hstalled]
      rfl
    · exact hstalled

/-- **What a lull leaves.** -/
theorem Lull.rested (lull : Lull log st new st') : Rested st.sim st'.sim := by
  obtain ⟨move, -, hquiet, hstays⟩ := lull
  cases move with
  | control => exact .of_same rfl rfl rfl rfl (.refl _)
  | enableTrace s r =>
    refine ⟨rfl, rfl, ?_, .refl _, fun _ stall hstalled => ⟨stall, hstalled, .refl _⟩⟩
    show some (s.trace.getD []) = s.trace ∨ s.trace = none ∧ some (s.trace.getD []) = some []
    cases s.trace with
    | none => exact .inr ⟨rfl, rfl⟩
    | some trace => exact .inl rfl
  | cancel => exact .of_same rfl rfl rfl rfl (.refl _)
  | accept s s' r ticket admits => exact .lodge (admits.eq ▸ placed_lodge s ticket)
  | stall s r source release backlog known inTime active carried =>
    have hset : Rested s (s.setPhase source (.stalled (.starting release backlog))) :=
      .setPhase (fun stall hstalled => by
        rw [hstalled] at carried
        cases carried)
    exact hset.trans (.of_same rfl rfl rfl rfl (Calendar.sublist_pushTimed _ _ _))
  | drop s turn event rest taken => exact absurd hstays (not_sublist_of_next? taken)
  | intercept s turn work rest stall taken => exact absurd hstays (not_sublist_of_next? taken)
  | start s turn event work rest taken => exact absurd hstays (not_sublist_of_next? taken)
  | release s turn id source rest stall taken => exact absurd hstays (not_sublist_of_next? taken)
  | stale s turn id source rest taken => exact absurd hstays (not_sublist_of_next? taken)
  | skip s r key work backlog rest replaying =>
    refine .setPhase (fun stall hstalled => ?_)
    rw [replaying] at hstalled
    cases hstalled
  | drain s r key work => cases hquiet
  | close s r => exact .close r
  | unwind s r => exact .refl s

theorem Along.rested (along : Along (Lull (n := n)) log st new st') : Rested st.sim st'.sim := by
  induction along with
  | refl => exact .refl _
  | next _ lull ih => exact ih.trans lull.rested

/-! ## A simulation that is over -/

section Over

variable {h later : List (Fin n × Happening n)} {m m' : Machine n} {i : Fin n}

/-- The simulation is halted, and no run of it is under way. -/
structure Over (i : Fin n) (m : Machine n) : Prop where
  halted : (m.world.sim i).halted = true
  idle : i ∉ m.runs.map Run.sim

theorem Next.go_halted (next : Next m later m') (i : Fin n) : Go .halted i m later m' := by
  cases next with
  | step => exact .step m (fun _ _ hlifted => hlifted)
  | request outcome request rested => exact .request m outcome request rested id

/-- **What is over stays over.** -/
theorem Over.next (ended : Over i m) (next : Next m later m') : Over i m' := by
  have hholds : Stop.halted.Holds (m.world.sim i) := ended.halted
  refine ⟨(next.go_halted i).holds hholds, ?_⟩
  have hidle := ended.idle
  cases next.shift with
  | stays runs => rwa [runs]
  | begins run runs idle going =>
    rw [runs, List.map_cons, List.mem_cons]
    rintro (rfl | hmem)
    · rw [ended.halted] at going
      cases going
    · exact hidle hmem
  | replays run run' rest before after same idle =>
    rw [before, List.map_cons] at hidle
    rwa [after, List.map_cons, same]
  | closes run rest r before after =>
    rw [before, List.map_cons] at hidle
    rwa [after, List.map_cons]
  | concludes run runs idle =>
    rw [runs, List.map_cons] at hidle
    exact fun hmem => hidle (List.mem_cons_of_mem _ hmem)
  | fails run work failure failing runs step =>
    rw [runs, List.map_cons] at hidle
    exact fun hmem => hidle (List.mem_cons_of_mem _ hmem)
  | panics panics runs =>
    rw [runs]
    exact List.not_mem_nil

/-- **A simulation that is over goes through lulls only.** -/
theorem Over.lulls (ended : Over i m) (hist : History h m) (onward : Later m later m') :
    Over i m' ∧ Along Lull (logOf i h) (m.standing i) (logOf i later) (m'.standing i) := by
  induction onward generalizing h with
  | refl m => exact ⟨ended, .refl⟩
  | next next _ ih =>
    obtain ⟨hover, hrest⟩ := ih (ended.next next) (hist.next next)
    refine ⟨hover, ?_⟩
    rw [logOf_append] at hrest ⊢
    exact (next.lulls hist ended.idle).append hrest

/-- An action that fails leaves its simulation over. -/
theorem over_of_failing (hist : History h m) {run : Run n} {work : Work (Action n)}
    {failure : Failure} (failing : m.failing? = some (run, work, failure)) :
    Over run.sim m.step := by
  have hdistinct := hist.grounded.distinct
  rw [(runFails_of_failing failing).innermost, List.map_cons, List.nodup_cons] at hdistinct
  refine ⟨?_, hdistinct.1⟩
  obtain ⟨w, callers, hstep, -, -, -⟩ := step_of_failing failing
  rw [hstep]
  unfold Machine.abort
  dsimp only
  rw [sim_setSim_self]
  cases run.replay with
  | none => rfl
  | some r =>
    dsimp only
    rw [closeReplay_eq]
    rfl

end Over

/-! ## What an observer sees from then on -/

/-- The commands that ask for a run. -/
inductive Command.AsksForRun : Command n → Prop where
  | run : AsksForRun .run
  | runFor (limit : Nat) : AsksForRun (.runFor limit)
  | resume : AsksForRun .resume

/-- What an observer sees of immediate work, as far as it is not cancelled. -/
def Simulation.seeWorks (s : Simulation (Action n)) (works : List (Work (Action n))) :
    List Pending :=
  (works.filter (fun work => !s.isCancelled work.id)).map
    (fun work => ⟨work.id, none, work.source, work.description⟩)

/-- What an observer sees of timers that will run at `release`, as far as they are not cancelled. -/
def Simulation.seeTimers (s : Simulation (Action n)) (release : Instant)
    (timers : List (Origin × Work (Action n))) : List Pending :=
  (timers.filter (fun e => !s.isCancelled e.2.id)).map
    (fun e => ⟨e.2.id, some release, e.2.source, e.2.description⟩)

/-- The simulation `i` goes on from `m` to `m'` after an action of it has failed: no action starts,
no run begins, and the clock, the counter and the trace stay, except that a trace that was not
enabled can be. -/
structure Final (i : Fin n) (m : Machine n) (later : List (Fin n × Happening n))
    (m' : Machine n) : Prop where
  silent : ∀ work time, (i, .started work time) ∉ later
  refused : ∀ command : Command n, command.AsksForRun →
    (Machine.request m'.world (.command i command)).result? = some (.refused .halted)
  now : (m'.world.sim i).now = (m.world.sim i).now
  processed : (m'.world.sim i).processed = (m.world.sim i).processed
  trace : (m'.world.sim i).trace = (m.world.sim i).trace ∨
    (m.world.sim i).trace = none ∧ (m'.world.sim i).trace = some []

/-- What is listed, at `s'`, of a replay that an action has broken off at `s`.  If the source was
not stalled again, the rest of the backlog and then the timers are in the calendar, the timers for
the instant of the release; if it was, the rest of the backlog is parked. -/
inductive Remains (r : Replay n) (s s' : Simulation (Action n)) : Prop where
  | queued (unstalled : (s.phase r.source).isStalled = false)
      (listed : (s'.seeWorks (s.backlog r.source) ++
        s'.seeTimers r.release r.timers.toList).Sublist s'.scheduledEvents)
  | parked (again : (s.phase r.source).isStalled = true)
      (still : (s'.phase r.source).isStalled = true)
      (works : (s'.seeWorks (s.backlog r.source)).Sublist (s'.deferredEvents r.source))
      (timers : (s'.seeTimers r.release r.timers.toList).Sublist s'.scheduledEvents)

section Seen

variable {r : Replay n}

/-- Events that wait are seen in their order. -/
theorem sublist_scheduledEvents {entries : List (Option Turn × Event (Action n))}
    (waiting : entries.Sublist s.calendar.entries) :
    ((entries.filter (fun e => !s.isCancelled e.2.id)).map
      (fun e => (⟨e.2.id, e.1.map Turn.time, e.2.source, e.2.description⟩ : Pending))).Sublist
      s.scheduledEvents := by
  have hsame : (fun e : Option Turn × Event (Action n) => !s.isCancelled e.2.id) =
      (fun e => decide (e.2.id ∉ s.cancelled)) := by
    funext e
    simp [Simulation.isCancelled]
  rw [hsame]
  exact (waiting.filter _).map _

theorem seeWorks_eq (s : Simulation (Action n)) (works : List (Work (Action n))) :
    s.seeWorks works =
      (((works.map (fun work => ((none : Option Turn), Event.routed work))).filter
        (fun e => !s.isCancelled e.2.id)).map
        (fun e => (⟨e.2.id, e.1.map Turn.time, e.2.source, e.2.description⟩ : Pending))) := by
  unfold Simulation.seeWorks
  rw [List.filter_map, List.map_map]
  rfl

theorem seeTimers_eq (s : Simulation (Action n)) (release : Instant)
    (timers : List (Origin × Work (Action n))) :
    s.seeTimers release timers =
      ((((replayedEvents release timers).map (fun e => (some e.1, e.2))).filter
        (fun e => !s.isCancelled e.2.id)).map
        (fun e => (⟨e.2.id, e.1.map Turn.time, e.2.source, e.2.description⟩ : Pending))) := by
  unfold Simulation.seeTimers replayedEvents
  rw [List.map_map, List.filter_map, List.map_map]
  rfl

/-- What was cancelled before need not be looked at. -/
theorem seeWorks_filter {works : List (Work (Action n))}
    (mono : ∀ id, s.isCancelled id = true → s'.isCancelled id = true) :
    s'.seeWorks (works.filter (fun work => !s.isCancelled work.id)) = s'.seeWorks works := by
  unfold Simulation.seeWorks
  rw [List.filter_filter]
  refine congrArg (List.map _) (List.filter_congr fun work _ => ?_)
  cases hcancelled : s.isCancelled work.id with
  | false => simp
  | true => simp [mono _ hcancelled]

theorem seeTimers_filter {release : Instant} {timers : List (Origin × Work (Action n))}
    (mono : ∀ id, s.isCancelled id = true → s'.isCancelled id = true) :
    s'.seeTimers release (timers.filter (fun e => !s.isCancelled e.2.id)) =
      s'.seeTimers release timers := by
  unfold Simulation.seeTimers
  rw [List.filter_filter]
  refine congrArg (List.map _) (List.filter_congr fun e _ => ?_)
  cases hcancelled : s.isCancelled e.2.id with
  | false => simp
  | true => simp [mono _ hcancelled]

/-- Work that is parked is seen in its order. -/
theorem sublist_deferredEvents {source : Source} {stall : Stall (Action n)}
    (stalled : s.phase source = .stalled stall) {works : List (Work (Action n))}
    (parked : works.Sublist stall.immediate.values) :
    (s.seeWorks works).Sublist (s.deferredEvents source) := by
  have hsame : (fun work : Work (Action n) => !s.isCancelled work.id) =
      (fun work => decide (work.id ∉ s.cancelled)) := by
    funext work
    simp [Simulation.isCancelled]
  have hheld : (works.map (fun work => ((none : Option Instant), work))).Sublist
      (s.phase source).held := by
    rw [stalled]
    exact (parked.map _).trans (List.sublist_append_left _ _)
  unfold Simulation.seeWorks Simulation.deferredEvents Phase.deferred
  rw [hsame]
  have hseen := (hheld.filter (fun x => decide (x.2.id ∉ s.cancelled))).map
    (fun x => (⟨x.2.id, x.1, x.2.source, x.2.description⟩ : Pending))
  rw [List.filter_map, List.map_map] at hseen
  exact hseen

/-- **What a replay that ends leaves in the calendar, and in which order.** -/
theorem sublist_closeReplay (course : Course log ⟨s, some r⟩) :
    ((leftover s r.source).map (fun work => ((none : Option Turn), Event.routed work)) ++
      (replayedEvents r.release (r.live s)).map (fun e => (some e.1, e.2))).Sublist
      (s.closeReplay r.source r.release r.timers).calendar.entries := by
  have htimed := timed_closeReplay course
  unfold Calendar.entries
  rw [htimed, List.map_append]
  refine List.Sublist.append ?_ (List.sublist_append_left _ _)
  rw [closeReplay_eq]
  simp only [List.map_append, List.map_map]
  exact List.sublist_append_right _ _

/-- **A replay that is broken off leaves all that it had not come to.** -/
theorem remains_of_closes (course : Course log ⟨s, some r⟩) {closed : Simulation (Action n)}
    (closes : Closes r s closed) (rested : Rested closed s')
    (mono : ∀ id, s.isCancelled id = true → s'.isCancelled id = true) : Remains r s s' := by
  obtain ⟨_, _, _, _, rfl⟩ := closes
  have hentries := (sublist_closeReplay course).trans rested.entries
  have htimers : (s'.seeTimers r.release r.timers.toList).Sublist s'.scheduledEvents := by
    rw [← seeTimers_filter mono, seeTimers_eq]
    exact sublist_scheduledEvents ((List.sublist_append_right _ _).trans hentries)
  have hheld := (course.underWay rfl).held
  cases hphase : s.phase r.source with
  | running => exact absurd hphase hheld
  | replaying backlog =>
    refine .queued (by rw [hphase]; rfl) ?_
    have hleft : leftover s r.source =
        (s.backlog r.source).filter (fun work => !s.isCancelled work.id) := by
      unfold leftover Simulation.backlog
      rw [hphase]
      rfl
    rw [← seeTimers_filter mono, ← seeWorks_filter mono, ← hleft, seeTimers_eq, seeWorks_eq,
      ← List.map_append, ← List.filter_append]
    exact sublist_scheduledEvents hentries
  | stalled stall =>
    have hstays : (s.closeReplay r.source r.release r.timers).phase r.source = .stalled stall := by
      rw [phase_closeReplay, if_pos rfl, hphase]
      rfl
    obtain ⟨stall', hstalled', hsub⟩ := rested.parked r.source stall hstays
    refine .parked (by rw [hphase]; rfl) (by rw [hstalled']; rfl) ?_ htimers
    refine sublist_deferredEvents hstalled' ?_
    unfold Simulation.backlog
    rw [hphase]
    exact hsub.map _

/-- All that remains is listed among the pending events. -/
theorem Remains.listed (remains : Remains r s s') (rostered : Rostered s') :
    ∀ p ∈ s'.seeWorks (s.backlog r.source) ++ s'.seeTimers r.release r.timers.toList,
      p ∈ s'.pendingEvents := by
  intro p hp
  cases remains with
  | queued unstalled listed => exact List.mem_append_left _ (listed.subset hp)
  | parked again still works timers =>
    rcases List.mem_append.1 hp with hmem | hmem
    · have hknown : r.source ∈ s'.sources := by
        apply rostered.known
        intro hrunning
        rw [hrunning] at still
        cases still
      exact List.mem_append_right _ (List.mem_flatMap.2 ⟨_, hknown, works.subset hmem⟩)
    · exact List.mem_append_left _ (timers.subset hmem)

end Seen

/-! ## Histories -/

section Histories

variable {h later : List (Fin n × Happening n)} {m m' : Machine n} {i : Fin n}

/-- A halted simulation refuses to run. -/
theorem refused_of_halted {w : World n} (halted : (w.sim i).halted = true) {command : Command n}
    (asks : command.AsksForRun) :
    (Machine.request w (.command i command)).result? = some (.refused .halted) := by
  have hbegin : ∀ (w : World n) limit, (w.sim i).halted = true →
      w.beginRun i limit = (w, .outcome (.refused .halted)) := by
    intro w limit hhalted
    unfold World.beginRun Simulation.startRun
    rw [hhalted]
    rfl
  unfold Machine.request
  cases asks with
  | run =>
    dsimp only [World.command]
    rw [hbegin w none halted]
    rfl
  | runFor limit =>
    dsimp only [World.command]
    rw [hbegin w (some limit) halted]
    rfl
  | resume =>
    dsimp only [World.command]
    rw [hbegin (w.update i Simulation.unpause) none]
    · rfl
    · rw [World.update, sim_setSim_self]
      exact halted

/-- What is known of a simulation that is over from then on. -/
theorem Over.final (ended : Over i m) (hist : History h m) (onward : Later m later m') :
    Final i m later m' := by
  obtain ⟨hover, along⟩ := ended.lulls hist onward
  have hrested := along.rested
  refine ⟨fun work time hstart => ?_, fun command asks => refused_of_halted hover.halted asks,
    hrested.now, hrested.processed, hrested.trace⟩
  have hmem : work ∈ (logOf i later).started :=
    List.mem_filterMap.2 ⟨_, mem_logOf.2 hstart, rfl⟩
  rw [along.kept.2.1] at hmem
  cases hmem

/-- **A failure is final and lossless.**  An action fails, in whatever way it was started: its run
ends with an error.  From then on, whatever is done, no action of its simulation starts, every
request to run it is refused, the clock and the counter stay, and so does the trace, except that it
can be enabled; and in a history without a panic the pending events are exactly the work that is
still to be done, each listed once.  If the action was one of a backlog that was being replayed,
what is left of the backlog and the timers of the replay are all listed from then on, as far as they
are not cancelled, and in their order. -/
theorem failure_is_final (hist : History h m) {run : Run n} {work : Work (Action n)}
    {failure : Failure} (failing : m.failing? = some (run, work, failure)) :
    (∃ error, RunFails m run error) ∧
    (∀ r, run.replay = some r → InOrder (logOf run.sim h) r (m.world.sim run.sim)) ∧
    ∀ later m', Later m.step later m' →
      Final run.sim m.step later m' ∧
      (PanicFree (h ++ m.happenings ++ later) → ∃ listing releases,
        Lists (logOf run.sim (h ++ m.happenings ++ later)) (m'.world.sim run.sim) listing
          releases) ∧
      ∀ r, run.replay = some r →
        Remains r (m.world.sim run.sim) (m'.world.sim run.sim) ∧
        ∀ p ∈ (m'.world.sim run.sim).seeWorks ((m.world.sim run.sim).backlog r.source) ++
            (m'.world.sim run.sim).seeTimers r.release r.timers.toList,
          p ∈ (m'.world.sim run.sim).pendingEvents := by
  have hfails := runFails_of_failing failing
  have hover := over_of_failing hist failing
  have hcourse : ∀ r, run.replay = some r →
      Course (logOf run.sim h) ⟨m.world.sim run.sim, some r⟩ := by
    intro r hr
    have hhere := hist.course run.sim
    have hstanding : m.standing run.sim = ⟨m.world.sim run.sim, run.replay⟩ := by
      unfold Machine.standing
      rw [hfails.innermost, replayIn_cons_self]
    rwa [hstanding, hr] at hhere
  refine ⟨⟨_, hfails⟩, fun r hr => inOrder_of_course (hcourse r hr), fun later m' onward => ?_⟩
  have hist' : History (h ++ m.happenings) m.step := hist.next (.step m)
  have hist'' := hist'.later onward
  obtain ⟨hover', along⟩ := hover.lulls hist' onward
  have hstanding' : m'.standing run.sim = ⟨m'.world.sim run.sim, none⟩ := by
    unfold Machine.standing
    rw [replayIn_eq_none hover'.idle]
  refine ⟨hover.final hist' onward, fun free => ?_, fun r hr => ?_⟩
  · have hcourse' := hist''.course run.sim
    rw [hstanding'] at hcourse'
    exact ⟨_, _, lists_of_course hcourse' (free.calm run.sim)⟩
  · have hremains : Remains r (m.world.sim run.sim) (m'.world.sim run.sim) := by
      refine remains_of_closes (hcourse r hr) (closes_of_failing failing hr) along.rested ?_
      intro id hcancelled
      have hmoves := (Next.step m).along hist run.sim
      exact isCancelled_of_along (along.mono Lull.move)
        (isCancelled_of_along hmoves hcancelled)
    exact ⟨hremains, hremains.listed (hist''.course run.sim).ledger.rostered⟩

end Histories

/-- The small world whose second of three actions fails in the middle of a replay. -/
def failingReplay : Machine 1 := threeWorld stallUntilFive failingScript .sourceNow 7

/-- Then the third action is listed. -/
theorem third_remains_after_failure :
    failingReplay.failing? = some (secondReplayed, secondWork failingScript, .plain "") ∧
      secondReplayed.replay = some ⟨.index 0, ⟨5⟩, .empty⟩ ∧
      PanicFree (threeLog stallUntilFive failingScript .sourceNow 7 ++
        failingReplay.happenings ++ []) ∧
      Final secondReplayed.sim failingReplay.step [] failingReplay.step ∧
      (∃ listing releases, Lists (logOf secondReplayed.sim
        (threeLog stallUntilFive failingScript .sourceNow 7 ++ failingReplay.happenings ++ []))
          (failingReplay.step.world.sim secondReplayed.sim) listing releases) ∧
      ⟨⟨2⟩, none, .index 0, ""⟩ ∈
        (failingReplay.step.world.sim secondReplayed.sim).pendingEvents := by
  have hfree : PanicFree (threeLog stallUntilFive failingScript .sourceNow 7 ++
      failingReplay.happenings ++ []) := by decide
  have hhist : History _ failingReplay := .three stallUntilFive failingScript .sourceNow 7
  obtain ⟨-, -, hlater⟩ := failure_is_final hhist failing_secondReplayed
  obtain ⟨hfinal, hlists, hremains⟩ := hlater [] _ (.refl _)
  obtain ⟨-, hlisted⟩ := hremains ⟨.index 0, ⟨5⟩, .empty⟩ rfl
  refine ⟨failing_secondReplayed, rfl, hfree, hfinal, hlists hfree, hlisted _ ?_⟩
  rw [show (failingReplay.step.world.sim secondReplayed.sim).seeWorks
    ((failingReplay.world.sim secondReplayed.sim).backlog (.index 0)) =
      [⟨⟨2⟩, none, .index 0, ""⟩] from rfl]
  exact List.mem_cons_self

/-- The trace of a simulation that is over can be enabled, in a history without a panic. -/
theorem trace_enabled_after_failure :
    ¬ ∀ (h : List (Fin 1 × Happening 1)) (m : Machine 1) (run : Run 1) (work : Work (Action 1))
      (failure : Failure), History h m → m.failing? = some (run, work, failure) →
      ∀ later m', Later m.step later m' → PanicFree (h ++ m.happenings ++ later) →
        (m'.world.sim run.sim).trace = (m.step.world.sim run.sim).trace := by
  intro hall
  have hlater : Later (threeWorld failingScript .done .sourceNow 1).step [] _ :=
    .ask _ [.command lone .enableTrace] rfl
  have hfree : PanicFree (threeLog failingScript .done .sourceNow 1 ++
      (threeWorld failingScript .done .sourceNow 1).happenings ++ []) := by decide
  have htrace := hall _ _ ⟨lone, 0, none, none⟩ ⟨⟨0⟩, .index 0, "", ⟨"", failingScript⟩⟩
    (.plain "") (.three failingScript .done .sourceNow 1) rfl _ _ hlater hfree
  have hbefore : ((threeWorld failingScript .done .sourceNow 1).step.world.sim lone).trace =
    none := rfl
  have hafter : ((Machine.request (threeWorld failingScript .done .sourceNow 1).step.world
    (.command lone .enableTrace)).world.sim lone).trace = some [] := rfl
  have hsame : (some [] : Option Trace) = none := hafter.symm.trans (htrace.trans hbefore)
  cases hsame

end StallSim
