import StallSim.Proofs.Replays
import StallSim.Proofs.Takings

/-!
# Releases replay without interruption

When the release of a source is taken, the immediate work that is held back for the source starts
first, one action after the other in the order of the ids, what the source is handed in meanwhile
included.  Nothing else of the simulation starts in between, until nothing is held back any more,
the source is stalled again, or an action fails.  Then the timers of the stall are taken one after
the other, before any other timed event, whichever source it belongs to and whenever it came.

* `During` — the world goes on while a replay is under way.
* `WorkedOff` — what has become of the queue of a replay.
* `EndsBy` — why a replay ends.
* `TimersAhead` — how far the timers of a replay that has ended have been taken.
* `DealtWith` — what becomes of a timer that is taken.

Principal results: `During.workedOff`, `Serves.timersAhead`; `release_contiguous` — for every
release in every history.
-/

set_option autoImplicit false

namespace StallSim

variable {n : Nat} {log new : Log n} {st st' : Standing n} {s s' : Simulation (Action n)}
  {r : Replay n}

/-! ## The immediate work -/

/-- The world goes on while a run of the simulation `i` is in the middle of the replay `r`. -/
inductive During (i : Fin n) (r : Replay n) (m : Machine n) :
    List (Fin n × Happening n) → Machine n → Prop where
  | refl : During i r m [] m
  | next {later new : List (Fin n × Happening n)} {m' m'' : Machine n} :
      During i r m later m' → Next m' new m'' → (m''.standing i).replay = some r →
        During i r m (later ++ new) m''

/-- What has become of the queue of a replay: `taken` of it has been worked off, the rest is still
held back.  The queue is what was held back and what the source was handed in since, in the order
of the ids.  What started is what was taken, in that order and at the instant of the release, but
for what is cancelled. -/
structure WorkedOff (r : Replay n) (s : Simulation (Action n)) (new : Log n)
    (s' : Simulation (Action n)) (taken : List (Work (Action n))) : Prop where
  queue : s.backlog r.source ++ new.immediate r.source = taken ++ s'.backlog r.source
  byId : ((s.backlog r.source ++ new.immediate r.source).map Work.id).Pairwise (· ≤ ·)
  starts : new.started.Sublist taken
  skipped : ∀ work ∈ taken, work ∈ new.started ∨ s'.isCancelled work.id = true
  onTime : ∀ work t, .started work t ∈ new → t = r.release

theorem WorkedOff.refl (course : Course log ⟨s, some r⟩) : WorkedOff r s [] s [] where
  queue := List.append_nil _
  byId := by
    rw [show Log.immediate r.source ([] : Log n) = [] from rfl, List.append_nil]
    exact (inOrder_of_course course).works
  starts := .refl _
  skipped work hmem := by cases hmem
  onTime work t hmem := by cases hmem

/-- Whatever is in the queue was accepted. -/
theorem accepted_of_queue (course : Course log ⟨s, some r⟩) {work : Work (Action n)}
    (mem : work ∈ s.backlog r.source ++ new.immediate r.source) :
    ∃ ticket ∈ (log ++ new).accepted, ticket.work = work := by
  have hledger := course.ledger
  rw [Log.accepted_append]
  rcases List.mem_append.1 mem with hmem | hmem
  · obtain ⟨e, he, rfl⟩ := List.mem_map.1 hmem
    exact ⟨_, List.mem_append_left _
      (hledger.accepted_of_mem (mem_tickets_of_parked hledger.rostered he)), rfl⟩
  · obtain ⟨ticket, hticket, rfl⟩ := List.mem_map.1 hmem
    exact ⟨ticket, List.mem_append_right _ (List.mem_of_mem_filter hticket), rfl⟩

/-- Nothing starts, and the queue at most grows at the end, by work with newer ids. -/
theorem WorkedOff.grow {new' : Log n} {s'' : Simulation (Action n)}
    {taken : List (Work (Action n))} (worked : WorkedOff r s new s' taken)
    (quiet : new'.started = [])
    (queue : s''.backlog r.source = s'.backlog r.source ++ new'.immediate r.source)
    (byId : ((s.backlog r.source ++ (new ++ new').immediate r.source).map Work.id).Pairwise (· ≤ ·))
    (skipped : ∀ work ∈ taken, work ∈ (new ++ new').started ∨ s''.isCancelled work.id = true) :
    WorkedOff r s (new ++ new') s'' taken where
  queue := by
    rw [Log.immediate_append, queue, ← List.append_assoc, ← List.append_assoc, worked.queue]
  byId := byId
  starts := by
    rw [Log.started_append, quiet, List.append_nil]
    exact worked.starts
  skipped := skipped
  onTime work t hstart := by
    rcases List.mem_append.1 hstart with hstart | hstart
    · exact worked.onTime work t hstart
    · have hmem : work ∈ new'.started := List.mem_filterMap.2 ⟨_, hstart, rfl⟩
      rw [quiet] at hmem
      cases hmem

/-- **A move works off the queue from the front, and lets it grow at the end.** -/
theorem WorkedOff.move {new' : Log n} {s'' : Simulation (Action n)}
    {taken : List (Work (Action n))} (course : Course log ⟨s, some r⟩)
    (course' : Course (log ++ new) ⟨s', some r⟩) (worked : WorkedOff r s new s' taken)
    (move : Move (log ++ new) ⟨s', some r⟩ new' ⟨s'', some r⟩) :
    ∃ taken', WorkedOff r s (new ++ new') s'' taken' := by
  have hskipped : ∀ work ∈ taken, work ∈ (new ++ new').started ∨
      s''.isCancelled work.id = true := by
    intro work hmem
    rw [Log.started_append, List.mem_append]
    rcases worked.skipped work hmem with hstarted | hcancelled
    · exact .inl (.inl hstarted)
    · exact .inr (isCancelled_of_move move hcancelled)
  cases move_drains course' move with
  | aside same quiet unjoined =>
    refine ⟨taken, worked.grow quiet ?_ ?_ hskipped⟩
    · rw [same, unjoined, List.append_nil]
    · rw [Log.immediate_append, unjoined, List.append_nil]
      exact worked.byId
  | joins work fresh queue quiet joined =>
    refine ⟨taken, worked.grow quiet (by rw [queue, joined]) ?_ hskipped⟩
    rw [Log.immediate_append, joined, ← List.append_assoc, List.map_append, List.pairwise_append]
    refine ⟨worked.byId, List.pairwise_singleton _ _, fun a ha b hb => ?_⟩
    -- the new work has the newest id
    obtain ⟨older, holder, rfl⟩ := List.mem_map.1 ha
    obtain ⟨ticket, hticket, rfl⟩ := accepted_of_queue course holder
    rw [List.mem_singleton.1 hb, fresh]
    exact Nat.le_of_lt (course'.ledger.issued ticket hticket)
  | skips work cancelled queue silent =>
    subst silent
    rw [List.append_nil] at hskipped ⊢
    refine ⟨taken ++ [work], ?_, worked.byId, worked.starts.trans (List.sublist_append_left _ _),
      ?_, worked.onTime⟩
    · rw [worked.queue, queue, List.append_assoc]
      rfl
    · intro other hmem
      rcases List.mem_append.1 hmem with hmem | hmem
      · exact hskipped other hmem
      · rw [List.mem_singleton.1 hmem]
        exact .inr (isCancelled_of_move move cancelled)
  | starts work queue start =>
    subst start
    have hunjoined : Log.immediate r.source [Happening.started work s'.now] = [] := rfl
    refine ⟨taken ++ [work], ?_, ?_, ?_, ?_, ?_⟩
    · rw [Log.immediate_append, hunjoined, List.append_nil, worked.queue, queue,
        List.append_assoc]
      rfl
    · rw [Log.immediate_append, hunjoined, List.append_nil]
      exact worked.byId
    · rw [Log.started_append]
      exact worked.starts.append (.refl _)
    · intro other hmem
      rcases List.mem_append.1 hmem with hmem | hmem
      · exact hskipped other hmem
      · refine .inl ?_
        rw [Log.started_append]
        exact List.mem_append_right _ hmem
    · intro other t hstart
      rcases List.mem_append.1 hstart with hstart | hstart
      · exact worked.onTime other t hstart
      · cases List.mem_singleton.1 hstart
        obtain ⟨htimely, -⟩ := course'.schedule
        exact (htimely.replay r rfl).1.symm

/-- A lull starts no replay. -/
theorem Lull.replay_before (lull : Lull log st new st') (replay : st'.replay = some r) :
    st.replay = some r := by
  obtain ⟨move, -, -, hstays⟩ := lull
  cases move with
  | release s turn id source rest stall taken => exact absurd hstays (not_sublist_of_next? taken)
  | _ => first | exact replay | cases replay

/-- Row by row, as long as the replay goes on. -/
theorem WorkedOff.along {new' : Log n} {taken : List (Work (Action n))}
    (course : Course log ⟨s, some r⟩) (course' : Course (log ++ new) st')
    {st'' : Standing n} (there : st''.replay = some r)
    (worked : WorkedOff r s new st'.sim taken)
    (along : Along Lull (log ++ new) st' new' st'') :
    ∃ taken', WorkedOff r s (new ++ new') st''.sim taken' := by
  induction along with
  | refl =>
    rw [List.append_nil]
    exact ⟨taken, worked⟩
  | @next new₁ new₂ st₁ st₂ earlier lull ih =>
    have hbetween := lull.replay_before there
    obtain ⟨taken₁, hworked⟩ := ih hbetween
    have hcourse := course'.along (earlier.mono Lull.move)
    obtain ⟨s₁, r₁⟩ := st₁
    obtain ⟨s₂, r₂⟩ := st₂
    cases hbetween
    cases there
    rw [List.append_assoc] at hcourse
    have hmove := lull.move
    rw [List.append_assoc] at hmove
    rw [← List.append_assoc]
    exact hworked.move course hcourse hmove

section Machines

variable {h later : List (Fin n × Happening n)} {m m' : Machine n} {i : Fin n}

theorem During.history (during : During i r m later m') (hist : History h m) :
    History (h ++ later) m' := by
  induction during with
  | refl =>
    rw [List.append_nil]
    exact hist
  | next _ next _ ih =>
    rw [← List.append_assoc]
    exact ih.next next

theorem standing_of_replay (underWay : (m.standing i).replay = some r) :
    m.standing i = ⟨m.world.sim i, some r⟩ := by
  rw [← underWay]
  rfl

theorem During.replay (during : During i r m later m') (here : (m.standing i).replay = some r) :
    (m'.standing i).replay = some r := by
  cases during with
  | refl => exact here
  | next _ _ there => exact there

/-- **While a replay goes on, its queue is worked off, and nothing else starts.** -/
theorem During.workedOff (during : During i r m later m') (hist : History h m)
    (here : (m.standing i).replay = some r) :
    ∃ taken, WorkedOff r (m.world.sim i) (logOf i later) (m'.world.sim i) taken := by
  have hcourse := hist.course i
  rw [standing_of_replay here] at hcourse
  induction during with
  | refl => exact ⟨[], .refl hcourse⟩
  | @next later new m₁ m₂ earlier next there ih =>
    obtain ⟨taken, hworked⟩ := ih
    have hist₁ := earlier.history hist
    have hbetween := earlier.replay here
    have hcourse₁ := hist₁.course i
    have hmoves := (next.stride hist₁.grounded).moves i
    rw [logOf_append] at hcourse₁ hmoves
    rw [logOf_append]
    rcases hmoves with hmove | along
    · rw [standing_of_replay hbetween] at hcourse₁ hmove
      rw [standing_of_replay there] at hmove
      exact hworked.move hcourse hcourse₁ hmove
    · exact hworked.along hcourse hcourse₁ there along

/-- Why a replay ends: nothing is held back any more, the source was stalled again, or an action of
the simulation fails. -/
inductive EndsBy (i : Fin n) (r : Replay n) (m : Machine n) : Prop where
  | exhausted (nothing : (m.world.sim i).backlog r.source = [])
  | stalled (again : ((m.world.sim i).phase r.source).isStalled = true)
  | failed (run : Run n) (work : Work (Action n)) (failure : Failure) (sim : run.sim = i)
      (failing : m.failing? = some (run, work, failure))

/-- What a panic leaves is in the log. -/
theorem not_panics_of_free (next : Next m later m') (free : PanicFree later) : ¬ m.Panics := by
  rintro ⟨run, work, message, hcontrol⟩
  cases next with
  | step =>
    refine free (run.sim, .unwound) ?_ rfl
    refine List.mem_append_right _ ?_
    unfold Machine.unwinds Machine.runs
    rw [hcontrol]
    exact List.mem_cons_self
  | request outcome request rested =>
    obtain ⟨w, control, callers⟩ := m
    cases hcontrol
    cases rested

theorem backlog_of_exhausted {source : Source} (held : s.phase source ≠ .running)
    (exhausted : s.nextReplayed source = none) :
    s.backlog source = [] ∨ (s.phase source).isStalled = true := by
  unfold Simulation.nextReplayed at exhausted
  cases hphase : s.phase source with
  | running => exact absurd hphase held
  | stalled stall => exact .inr rfl
  | replaying backlog =>
    rw [hphase] at exhausted
    have hnone : backlog.next? = none := Option.map_eq_none_iff.1 exhausted
    left
    unfold Simulation.backlog
    rw [hphase]
    exact congrArg (List.map Prod.snd) (Agenda.next?_eq_none_iff.1 hnone)

/-! ## The timers -/

/-- At the instant `t` the timers wait, to be replayed by then, ahead of all other timed events, and
no replay is under way. -/
structure Ahead (t : Instant) (waiting : List (Origin × Work (Action n))) (st : Standing n) :
    Prop where
  idle : st.replay = none
  clock : st.sim.now = t
  heads : replayedEvents t waiting <+: st.sim.calendar.timed.toList

/-- Events that are posted for turns of their own go behind the timers. -/
theorem prefix_pushTimed {t u : Instant} {id : EventId} {event : Event (Action n)}
    {waiting : List (Origin × Work (Action n))} {timed : Agenda Turn (Event (Action n))}
    (ahead : t ≤ u) (heads : replayedEvents t waiting <+: timed.toList) :
    replayedEvents t waiting <+: (timed.insert (.dueAt u id) event).toList := by
  refine Agenda.prefix_insert event heads (fun e he => ?_)
  obtain ⟨timer, -, rfl⟩ := List.mem_map.1 he
  rw [Turn.le_iff_toNat]
  rw [Instant.le_def] at ahead
  simp only [Turn.replayedAt, Turn.dueAt, Band.rank]
  omega

/-- A move that takes no event leaves the timers ahead. -/
theorem Ahead.stays {t : Instant} {waiting : List (Origin × Work (Action n))}
    (ahead : Ahead t waiting st) (move : Move log st new st')
    (stays : st.sim.calendar.entries.Sublist st'.sim.calendar.entries) : Ahead t waiting st' := by
  obtain ⟨hidle, hclock, hheads⟩ := ahead
  cases move with
  | accept s s' r ticket admits =>
    have hnow : s'.now = s.now := admits.eq ▸ now_lodge s ticket
    have hplaced := placed_lodge s ticket
    rw [← admits.eq] at hplaced
    refine ⟨hidle, hnow.trans hclock, ?_⟩
    cases hplaced with
    | immediate event entry => exact hheads
    | timed u event entry =>
      exact prefix_pushTimed (hclock ▸ admits.inTime u (Event.due_of_ticket? entry)) hheads
    | parked stall stalled => exact hheads
    | joined backlog replaying => exact hheads
  | stall s r source release backlog known inTime active carried =>
    exact ⟨hidle, hclock, prefix_pushTimed (hclock ▸ inTime) hheads⟩
  | drop s turn event rest taken => exact absurd stays (not_sublist_of_next? taken)
  | intercept s turn work rest stall taken => exact absurd stays (not_sublist_of_next? taken)
  | start s turn event work rest taken => exact absurd stays (not_sublist_of_next? taken)
  | release s turn id source rest stall taken => exact absurd stays (not_sublist_of_next? taken)
  | stale s turn id source rest taken => exact absurd stays (not_sublist_of_next? taken)
  | skip => cases hidle
  | drain => cases hidle
  | close => cases hidle
  | unwind => exact ⟨rfl, hclock, hheads⟩
  | _ => exact ⟨hidle, hclock, hheads⟩

theorem Ahead.lulls {t : Instant} {waiting : List (Origin × Work (Action n))}
    (ahead : Ahead t waiting st) (along : Along Lull log st new st') : Ahead t waiting st' := by
  induction along with
  | refl => exact ahead
  | next _ lull ih => exact ih.stays lull.move lull.stays

/-- What is taken while timers are ahead: an immediate event, or the first of them. -/
theorem heads_of_next? {t : Instant} {timer : Origin × Work (Action n)}
    {waiting : List (Origin × Work (Action n))} {c rest : Calendar (Action n)}
    {turn : Option Turn} {event : Event (Action n)}
    (heads : replayedEvents t (timer :: waiting) <+: c.timed.toList)
    (taken : c.next? = some ((turn, event), rest)) :
    (turn = none ∧ replayedEvents t (timer :: waiting) <+: rest.timed.toList) ∨
      turn = some (.replayedAt t timer.1) ∧ event = .routed timer.2 ∧
        replayedEvents t waiting <+: rest.timed.toList := by
  rcases Calendar.next?_cases taken with ⟨hnone, -, htimed⟩ | ⟨k, hk, -, -, htimed, -⟩
  · exact .inl ⟨hnone, htimed ▸ heads⟩
  · rw [htimed] at heads
    obtain ⟨hfirst, hothers⟩ := List.cons_prefix_cons.1 heads
    cases hfirst
    exact .inr ⟨hk, rfl, hothers⟩

/-- **While timers are ahead, an immediate event is taken, or the first of them.** -/
theorem Ahead.taking {t : Instant} {timer : Origin × Work (Action n)}
    {waiting : List (Origin × Work (Action n))} (ahead : Ahead t (timer :: waiting) st)
    (stalls : Stalls st.sim) {e : Option Turn × Event (Action n)} (taking : Taking e st new st') :
    (e.1 = none ∧ Ahead t (timer :: waiting) st') ∨
      e = (some (.replayedAt t timer.1), .routed timer.2) ∧ Ahead t waiting st' := by
  obtain ⟨-, hclock, hheads⟩ := ahead
  obtain ⟨turn, event⟩ := e
  have hnow : ∀ (s : Simulation (Action n)) rest, s.now = t →
      turn = none ∨ turn = some (.replayedAt t timer.1) → (s.take turn rest).now = t := by
    rintro s rest hs (rfl | rfl)
    · exact hs
    · show s.now.advance t = t
      rw [hs, ← Instant.toNat_inj, Instant.toNat_advance]
      omega
  have hsplit := heads_of_next? hheads taking.next?
  have hgo : st'.replay = none → st'.sim.now = t →
      (((turn, event) : Option Turn × Event (Action n)).1 = none ∧ Ahead t (timer :: waiting) st') ∨
        (turn, event) = (some (.replayedAt t timer.1), .routed timer.2) ∧ Ahead t waiting st' := by
    intro hidle hafter
    rcases hsplit with ⟨hturn, hrest⟩ | ⟨rfl, rfl, hrest⟩
    · exact .inl ⟨hturn, hidle, hafter, hrest⟩
    · exact .inr ⟨rfl, hidle, hafter, hrest⟩
  have hturn : turn = none ∨ turn = some (.replayedAt t timer.1) := hsplit.imp And.left And.left
  cases taking with
  | drop s e rest taken cancelled => exact hgo rfl hclock
  | intercept s turn work rest stall taken stalled => exact hgo rfl (hnow s rest hclock hturn)
  | start s turn event work rest taken isWork => exact hgo rfl (hnow s rest hclock hturn)
  | release s turn id source rest stall taken stalled =>
    -- a release is never immediate, and the first of the timers is none
    obtain ⟨k, rfl, -⟩ := stalls.release_taken taken
    rcases hsplit with ⟨hnone, -⟩ | ⟨-, hevent, -⟩
    · cases hnone
    · cases hevent
  | stale s turn id source rest taken free => exact hgo rfl (hnow s rest hclock hturn)

/-- The timed events among those that were taken. -/
def timedOf (taken : List (Option Turn × Event (Action n))) : List (Turn × Event (Action n)) :=
  taken.filterMap (fun e => e.1.map (fun turn => (turn, e.2)))

theorem timedOf_append (a b : List (Option Turn × Event (Action n))) :
    timedOf (a ++ b) = timedOf a ++ timedOf b := List.filterMap_append

/-- A run of the simulation `i` is about to go on with the next event: it is between two actions
and not at its limit, and the simulation is neither paused nor halted. -/
def GoesOn (i : Fin n) (m : Machine n) : Prop :=
  ∃ run, m.control = .between run ∧ run.sim = i ∧ (m.world.sim i).isStopped = false ∧
    ∀ limit, run.limit = some limit → (m.world.sim i).processed - run.start < limit

/-- How far the timers of a replay that ended at the instant `t` have been taken.  Either the timed
events that were taken are the first of them, and the others are ahead of all that waits for its
turn: whenever the run goes on, it takes immediate work or the first of these.  Or all of them were
taken before any other timed event. -/
inductive TimersAhead (i : Fin n) (t : Instant) (timers : List (Origin × Work (Action n)))
    (taken : List (Option Turn × Event (Action n))) (m : Machine n) : Prop where
  | waiting (timer : Origin × Work (Action n)) (rest : List (Origin × Work (Action n)))
      (split : replayedEvents t timers = timedOf taken ++ replayedEvents t (timer :: rest))
      (ahead : Ahead t (timer :: rest) (m.standing i))
      (served : GoesOn i m → ∃ e, Takes i m m.step e ∧
        (e.1 = none ∨ e = (some (.replayedAt t timer.1), .routed timer.2)))
  | done (first : replayedEvents t timers <+: timedOf taken)

theorem calendar_of_dispatch {turn : Option Turn} {event : Event (Action n)}
    {rest : Calendar (Action n)} {a : Standing n}
    (next : s.calendar.next? = some ((turn, event), rest))
    (after : s.dispatch.after = some (new, a)) : a.sim.calendar = rest := by
  rw [dispatch_eq next] at after
  split at after
  · cases after
    rfl
  · cases event with
    | direct work =>
      cases after
      rfl
    | routed work =>
      dsimp only at after
      split at after <;> cases after <;> rfl
    | release id source =>
      dsimp only at after
      split at after <;> cases after <;> rfl

/-- A run that goes on takes the next event. -/
theorem takes_of_goesOn {w : World n} {run : Run n} {callers : List (Caller n)}
    (idle : run.replay = none) (going : (w.sim run.sim).isStopped = false)
    (below : ∀ limit, run.limit = some limit → (w.sim run.sim).processed - run.start < limit)
    {turn : Option Turn} {event : Event (Action n)} {rest : Calendar (Action n)}
    (next : (w.sim run.sim).calendar.next? = some ((turn, event), rest)) :
    Takes run.sim ⟨w, .between run, callers⟩ (Machine.stepRun w run callers) (turn, event) := by
  have hlimit : run.limit.any
      (fun limit => decide (limit ≤ (w.sim run.sim).processed - run.start)) = false := by
    cases hrun : run.limit with
    | none => rfl
    | some limit =>
      have hlt := below limit hrun
      simpa using hlt
  have hset : ∀ s : Simulation (Action n), s.calendar = rest →
      (w.sim run.sim).calendar.next? =
        some ((turn, event), ((w.setSim run.sim s).sim run.sim).calendar) := by
    intro s hs
    rw [sim_setSim_self, hs]
    exact next
  unfold Takes Machine.stepRun
  simp only [idle, hlimit, going, Bool.or_self, Bool.false_eq_true, if_false]
  cases hdispatch : (w.sim run.sim).dispatch with
  | exhausted =>
    have hsome := hdispatch
    rw [dispatch_eq next] at hsome
    split at hsome
    · cases hsome
    · cases event with
      | direct work => cases hsome
      | routed work =>
        dsimp only at hsome
        split at hsome <;> cases hsome
      | release id source =>
        dsimp only at hsome
        split at hsome <;> cases hsome
  | settled s =>
    exact hset s (calendar_of_dispatch next (a := ⟨s, none⟩) (by rw [hdispatch]; rfl))
  | start work s =>
    have hcalendar := calendar_of_dispatch next (a := ⟨s.startAction work, none⟩)
      (by rw [hdispatch]; rfl)
    have henter := hset (s.startAction work) hcalendar
    obtain ⟨hsims, -⟩ := enter_setSim w run s work callers
    simp only [World.sim, hsims] at henter ⊢
    exact henter
  | replay source stall s =>
    exact hset s (calendar_of_dispatch next (a := ⟨s, _⟩) (by rw [hdispatch]; rfl))

/-- As long as timers are ahead, a run that goes on takes immediate work or the first of them. -/
theorem Ahead.served {t : Instant} {timer : Origin × Work (Action n)}
    {rest : List (Origin × Work (Action n))} (ahead : Ahead t (timer :: rest) (m.standing i))
    (goes : GoesOn i m) : ∃ e, Takes i m m.step e ∧
      (e.1 = none ∨ e = (some (.replayedAt t timer.1), .routed timer.2)) := by
  obtain ⟨hidle, -, hheads⟩ := ahead
  obtain ⟨run, hcontrol, rfl, hgoing, hbelow⟩ := goes
  obtain ⟨w, control, callers⟩ := m
  cases hcontrol
  have hnone : run.replay = none := replayIn_cons_self.symm.trans hidle
  cases hnext : (w.sim run.sim).calendar.next? with
  | none =>
    have hentries : (w.sim run.sim).calendar.entries = [] := Calendar.next?_eq_none_iff.1 hnext
    have htimed : (w.sim run.sim).calendar.timed.toList = [] := by
      simpa [Calendar.entries] using (List.append_eq_nil_iff.1 hentries).2
    have hheads' : replayedEvents t (timer :: rest) <+: (w.sim run.sim).calendar.timed.toList :=
      hheads
    rw [htimed] at hheads'
    cases List.prefix_nil.1 hheads'
  | some taken =>
    obtain ⟨⟨turn, event⟩, later⟩ := taken
    refine ⟨_, takes_of_goesOn hnone hgoing hbelow hnext, ?_⟩
    rcases heads_of_next? hheads hnext with ⟨hturn, -⟩ | ⟨rfl, rfl, -⟩
    · exact .inl hturn
    · exact .inr rfl

theorem TimersAhead.of_ahead {t : Instant} {timers rest : List (Origin × Work (Action n))}
    {taken : List (Option Turn × Event (Action n))}
    (split : replayedEvents t timers = timedOf taken ++ replayedEvents t rest)
    (ahead : Ahead t rest (m.standing i)) : TimersAhead i t timers taken m := by
  cases rest with
  | nil =>
    refine .done ?_
    rw [split]
    exact (List.append_nil _).symm ▸ List.prefix_refl _
  | cons timer rest => exact .waiting timer rest split ahead ahead.served

/-- **The timers of a replay that has ended are taken before any other timed event.** -/
theorem Serves.timersAhead {t : Instant} {timers : List (Origin × Work (Action n))}
    {taken : List (Option Turn × Event (Action n))} (serves : Serves i m later taken m')
    (hist : History h m) (ahead : Ahead t timers (m.standing i)) :
    TimersAhead i t timers taken m' := by
  induction serves with
  | refl => exact .of_ahead (List.nil_append _).symm ahead
  | @pass later new taken m₁ m₂ earlier next none ih =>
    cases ih with
    | done first => exact .done first
    | waiting timer rest split ahead =>
      refine .of_ahead split ?_
      have hist₁ := earlier.history hist
      rcases (next.stride hist₁.grounded).moves i with hmove | along
      · rcases move_takes hmove with hstays | ⟨e, taking⟩
        · exact ahead.stays hmove hstays
        · exact absurd taking.next? (none e)
      · exact ahead.lulls along
  | @take later new taken m₁ m₂ e earlier next takes ih =>
    have hist₁ := earlier.history hist
    cases ih with
    | done first =>
      refine .done (first.trans ?_)
      rw [timedOf_append]
      exact List.prefix_append _ _
    | waiting timer rest split ahead =>
      obtain ⟨-, taking⟩ := takes.taking hist₁ next
      obtain ⟨-, hstalls⟩ := (hist₁.course i).schedule
      rcases ahead.taking hstalls taking with ⟨hnone, hahead⟩ | ⟨rfl, hahead⟩
      · refine .of_ahead ?_ hahead
        rw [timedOf_append, split]
        simp [timedOf, hnone]
      · refine .of_ahead ?_ hahead
        rw [timedOf_append, split, List.append_assoc]
        rfl

/-- What becomes of a timer that is taken at the instant `t`: its action starts, it is parked for
the instant at which it was first due, or it is dropped because it is cancelled. -/
inductive DealtWith (i : Fin n) (t : Instant) (timer : Origin × Work (Action n)) (m : Machine n)
    (new : List (Fin n × Happening n)) (m' : Machine n) : Prop where
  | started (start : (i, .started timer.2 t) ∈ new)
  | parked (stall : Stall (Action n))
      (stalled : (m.world.sim i).phase timer.2.source = .stalled stall)
      (after : (m'.world.sim i).phase timer.2.source =
        .stalled (stall.park (some timer.1.due) timer.2))
  | dropped (cancelled : (m.world.sim i).isCancelled timer.2.id = true)

/-- A timer that is taken when its replay has ended is dispatched at the instant of the release. -/
theorem Takes.dispatched {t : Instant} {timer : Origin × Work (Action n)}
    (takes : Takes i m m' (some (.replayedAt t timer.1), .routed timer.2)) (hist : History h m)
    (next : Next m later m') : DealtWith i t timer m later m' := by
  obtain ⟨-, taking⟩ := takes.taking hist next
  obtain ⟨htimely, -⟩ := (hist.course i).schedule
  have hmem : ((Turn.replayedAt t timer.1, Event.routed timer.2) : Turn × Event (Action n)) ∈
      (m.standing i).sim.calendar.timed.toList := (Calendar.least_of_next? taking.next?).2.1
  have hadvance : (m.standing i).sim.now.advance t = t := (htimely.proper _ hmem).advance
  generalize hst : m.standing i = st at taking hadvance
  generalize hst' : m'.standing i = st' at taking
  have hsim : m.world.sim i = st.sim := hst ▸ rfl
  have hsim' : m'.world.sim i = st'.sim := hst' ▸ rfl
  generalize hlog : logOf i later = new at taking
  cases taking with
  | drop s e rest taken cancelled =>
    refine .dropped ?_
    rw [hsim]
    exact cancelled
  | intercept s turn work rest stall taken stalled =>
    refine .parked stall (by rw [hsim]; exact stalled) ?_
    rw [hsim', Simulation.phase_setPhase, if_pos rfl]
    rfl
  | start s turn event work rest taken isWork =>
    cases isWork
    refine .started (mem_logOf.1 ?_)
    rw [hlog]
    exact List.mem_singleton.2 (congrArg _ hadvance.symm)

/-! ## Releases -/

/-- A release that is taken finds its source stalled, and its replay begins. -/
theorem Takes.released {turn : Option Turn} {id : EventId} {source : Source}
    (takes : Takes i m m' (turn, .release id source)) (hist : History h m)
    (next : Next m later m') : ∃ stall, (m.world.sim i).phase source = .stalled stall ∧
      (m'.standing i).replay = some ⟨source, stall.release, stall.timers⟩ ∧
      (m'.world.sim i).backlog source = stall.immediate.values := by
  obtain ⟨-, taking⟩ := takes.taking hist next
  have hcourse := hist.course i
  obtain ⟨-, hstalls⟩ := hcourse.schedule
  have hmem := Calendar.next?_eq_some_iff.1 taking.next?
  generalize hst : m.standing i = st at taking hcourse hstalls hmem
  generalize hst' : m'.standing i = st' at taking hmem ⊢
  have hsim : m.world.sim i = st.sim := hst ▸ rfl
  have hsim' : m'.world.sim i = st'.sim := hst' ▸ rfl
  rw [hsim, hsim']
  clear hst hst' hsim hsim'
  generalize logOf i later = new at taking
  cases taking with
  | drop s e rest taken cancelled =>
    have hlive := hcourse.ledger.release_live (hmem ▸ List.mem_cons_self)
    exact absurd cancelled (by simpa [Event.id] using hlive)
  | start s turn event work rest taken isWork => cases isWork
  | release s turn id source rest stall taken stalled =>
    refine ⟨stall, stalled, rfl, ?_⟩
    rw [backlog_setPhase, if_pos rfl]
    rfl
  | stale s turn id source rest taken free =>
    obtain ⟨k, -, -, htimed, -⟩ := hstalls.release_taken taken
    have hrelease : (k, source) ∈ s.calendar.releases := by
      refine Calendar.mem_releases.2 ⟨id, ?_⟩
      rw [htimed]
      exact List.mem_cons_self
    obtain ⟨stall, hstalled, -⟩ := hstalls.release _ hrelease
    rw [show s.phase source = .stalled stall from hstalled] at free
    cases free

/-- When a replay ends, its timers are ahead of all other timed events. -/
theorem Next.ahead (next : Next m later m') (hist : History h m)
    (underWay : (m.standing i).replay = some r) (ended : (m'.standing i).replay ≠ some r)
    (free : PanicFree later) :
    EndsBy i r m ∧ Ahead r.release (r.live (m.world.sim i)) (m'.standing i) := by
  have hcourse := hist.course i
  obtain ⟨hrelease, -⟩ := hcourse.schedule.1.replay r underWay
  rw [standing_of_replay underWay] at hcourse
  obtain ⟨hnone, hcloses, hreason⟩ :=
    next.closes hist underWay ended (not_panics_of_free next free)
  constructor
  · rcases hreason with hexhausted | ⟨run, work, failure, hfailing, hsim⟩
    · rcases backlog_of_exhausted (hcourse.underWay rfl).held hexhausted with hnothing | hagain
      · exact .exhausted hnothing
      · exact .stalled hagain
    · exact .failed run work failure hsim hfailing
  · obtain ⟨_, _, _, _, hsim⟩ := hcloses
    have htimed := timed_closeReplay hcourse
    refine ⟨hnone, ?_, ?_⟩
    · show (m'.world.sim i).now = r.release
      rw [hsim]
      show ((m.world.sim i).closeReplay r.source r.release r.timers).now = r.release
      rw [closeReplay_eq]
      exact hrelease.symm
    · show replayedEvents _ _ <+: (m'.world.sim i).calendar.timed.toList
      rw [hsim]
      exact htimed ▸ List.prefix_append _ _

/-- **A release replays without interruption.**  A release of a source is taken from the calendar of
a simulation.  Then the source was stalled until now, and what its stall held back is replayed.
While the replay goes on, its queue is worked off in the order of the ids, at the instant of the
release, and no other action of the simulation starts.  The replay ends, if no action panics, when
nothing is held back any more, when the source has been stalled again, or when an action of the
simulation fails.  After that, its timers that are not cancelled are taken in the order of the
instants for which they were handed in, and then of the ids, before any other timed event, of
whichever source and whether it waited by then or came later.  Each is dispatched at the instant of
the release. -/
theorem release_contiguous {later : List (Fin n × Happening n)} (hist : History h m)
    (next : Next m later m') {turn : Option Turn} {id : EventId} {source : Source}
    (takes : Takes i m m' (turn, .release id source)) :
    ∃ stall r, (m.world.sim i).phase source = .stalled stall ∧
      r = ⟨source, stall.release, stall.timers⟩ ∧ stall.release = (m'.world.sim i).now ∧
      (m'.standing i).replay = some r ∧
      (m'.world.sim i).backlog source = stall.immediate.values ∧
      InOrder (logOf i (h ++ later)) r (m'.world.sim i) ∧
      ∀ drained m₁, During i r m' drained m₁ →
        (∃ taken, WorkedOff r (m'.world.sim i) (logOf i drained) (m₁.world.sim i) taken) ∧
        ∀ new₁ m₂, Next m₁ new₁ m₂ → (m₂.standing i).replay ≠ some r → PanicFree new₁ →
          EndsBy i r m₁ ∧
          ∀ served taken m₃, Serves i m₂ served taken m₃ →
            TimersAhead i stall.release (r.live (m₁.world.sim i)) taken m₃ ∧
            ∀ timer new₃ m₄, Next m₃ new₃ m₄ →
              Takes i m₃ m₄ (some (.replayedAt stall.release timer.1), .routed timer.2) →
              DealtWith i stall.release timer m₃ new₃ m₄ := by
  obtain ⟨stall, hstalled, hreplay, hbacklog⟩ := takes.released hist next
  have hist' := hist.next next
  have hcourse' := hist'.course i
  have hclock : stall.release = (m'.world.sim i).now := (hcourse'.schedule.1.replay _ hreplay).1
  rw [standing_of_replay hreplay] at hcourse'
  refine ⟨stall, _, hstalled, rfl, hclock, hreplay, hbacklog, inOrder_of_course hcourse', ?_⟩
  intro drained m₁ during
  refine ⟨during.workedOff hist' hreplay, ?_⟩
  intro new₁ m₂ next₁ ended free
  have hist₁ := during.history hist'
  obtain ⟨hends, hahead⟩ := next₁.ahead hist₁ (during.replay hreplay) ended free
  refine ⟨hends, ?_⟩
  intro served taken m₃ serves
  have hist₂ := hist₁.next next₁
  refine ⟨serves.timersAhead hist₂ hahead, ?_⟩
  intro timer new₃ m₄ next₃ takes₃
  exact takes₃.dispatched (serves.history hist₂) next₃

end Machines

/-- The small world when the release of its source is about to be taken: one action has stalled the
source until five, another one and a timer that was due at three are parked. -/
def releasingWorld : Machine 1 := threeWorld stallUntilFive .done (.sourceAt (.at ⟨3⟩)) 5

/-- The timer. -/
def delayedTimer : Origin × Work (Action 1) :=
  (⟨⟨3⟩, ⟨2⟩⟩, ⟨⟨2⟩, .index 0, "", ⟨"", .done⟩⟩)

/-- When the other action has been replayed, the timer is taken at five. -/
theorem timer_follows_backlog :
    Takes lone releasingWorld releasingWorld.step
        (some (.dueAt ⟨5⟩ ⟨3⟩), .release ⟨3⟩ (.index 0)) ∧
      PanicFree (releasingWorld.steps 3).happenings ∧
      Takes lone (releasingWorld.steps 4) (releasingWorld.steps 4).step
        (some (.replayedAt ⟨5⟩ delayedTimer.1), .routed delayedTimer.2) ∧
      TimersAhead lone ⟨5⟩ [delayedTimer]
        [(some (.replayedAt ⟨5⟩ delayedTimer.1), .routed delayedTimer.2)]
        (releasingWorld.steps 4).step ∧
      DealtWith lone ⟨5⟩ delayedTimer (releasingWorld.steps 4) (releasingWorld.steps 4).happenings
        (releasingWorld.steps 4).step := by
  have hhist : History _ releasingWorld :=
    .three stallUntilFive .done (.sourceAt (.at ⟨3⟩)) 5
  have htakes : Takes lone releasingWorld releasingWorld.step
      (some (.dueAt ⟨5⟩ ⟨3⟩), .release ⟨3⟩ (.index 0)) := rfl
  have hfree : PanicFree (releasingWorld.steps 3).happenings := by decide
  have htaken : Takes lone (releasingWorld.steps 4) (releasingWorld.steps 4).step
      (some (.replayedAt ⟨5⟩ delayedTimer.1), .routed delayedTimer.2) := rfl
  obtain ⟨stall, r, hstalled, rfl, -, hreplay, -, -, hduring⟩ :=
    release_contiguous hhist (.step releasingWorld) htakes
  have hphase : (releasingWorld.world.sim lone).phase (.index 0) =
      .stalled ⟨⟨5⟩, ⟨[(⟨1⟩, ⟨⟨1⟩, .index 0, "", ⟨"", .done⟩⟩)], List.pairwise_singleton _ _⟩,
        ⟨[delayedTimer], List.pairwise_singleton _ _⟩⟩ := rfl
  cases hstalled.symm.trans hphase
  obtain ⟨-, hended⟩ := hduring _ (releasingWorld.steps 3)
    (.next (.next .refl (.step _) rfl) (.step _) rfl)
  obtain ⟨-, hserves⟩ := hended _ _ (.step _) (fun h => by cases h) hfree
  obtain ⟨htimers, -⟩ := hserves _ _ _ (.take .refl (.step _) htaken)
  obtain ⟨-, hdispatched⟩ := hserves _ _ _ .refl
  exact ⟨htakes, hfree, htaken, htimers, hdispatched _ _ _ (.step _) htaken⟩

end StallSim
