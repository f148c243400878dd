import StallSim.Proofs.Failing
import StallSim.Proofs.Queues

/-!
# Replays

While the replay of a source lasts, the immediate work that is held back for the source is a queue:
its actions start from the front, and immediate work that the source is handed in joins at the end.
The calendar has to wait.  When the replay ends, the timers of the stall go back to the calendar,
ahead of all the timed events there.

* `UnderWay` — no timer of an earlier replay waits any more, and the source does not run.
* `Drains` — what a move is to the queue of a replay that goes on.
* `Closes` — what the end of a replay makes of its simulation.

Principal results: `move_drains`; `timed_closeReplay` — where the timers go; `Next.closes` — a
replay ends when there is nothing more to start, or when an action of its simulation fails.
-/

set_option autoImplicit false

namespace StallSim

variable {n : Nat} {log new : Log n} {s s' : Simulation (Action n)} {r : Replay n}

/-! ## While a replay lasts -/

/-- A replay under way: all timed events wait for turns of their own, and the source is being
replayed, or is stalled again. -/
structure UnderWay (s : Simulation (Action n)) (r : Replay n) : Prop where
  ordinary : ∀ e ∈ s.calendar.timed.toList, e.1.band = .ordinary
  held : s.phase r.source ≠ .running

/-- When a release is taken, no timer of an earlier replay waits: it would have gone first. -/
theorem ordinary_of_release {turn : Option Turn} {id : EventId} {source : Source}
    {rest : Calendar (Action n)} (timely : Timely ⟨s, none⟩) (stalls : Stalls s)
    (taken : s.calendar.next? = some ((turn, .release id source), rest)) :
    ∀ e ∈ rest.timed.toList, e.1.band = .ordinary := by
  obtain ⟨k, -, -, htimed, hleast⟩ := stalls.release_taken taken
  have hrelease : Proper (n := n) s.now k (.release id source) :=
    timely.proper (k, .release id source) (htimed ▸ List.mem_cons_self)
  rintro ⟨turn, event⟩ he
  have hother : Proper s.now turn event :=
    timely.proper (turn, event) (htimed ▸ List.mem_cons_of_mem _ he)
  have hle : k ≤ turn := hleast _ he
  have hnow := hrelease.now_le
  rw [hrelease.of_release] at hle
  cases hother with
  | due t event ahead => rfl
  | replayed origin work own past =>
    rw [Turn.le_iff_toNat] at hle
    rw [Instant.le_def] at hnow
    simp only [Turn.dueAt, Turn.replayedAt, Band.rank] at hle
    omega

theorem UnderWay.of_subset (underWay : UnderWay s r)
    (timed : ∀ e ∈ s'.calendar.timed.toList,
      e ∈ s.calendar.timed.toList ∨ e.1.band = .ordinary)
    (held : s'.phase r.source ≠ .running) : UnderWay s' r :=
  ⟨fun e he => (timed e he).elim (underWay.ordinary e) id, held⟩

/-- A source that does not run stays so when some source goes over to a phase in which it does not
run. -/
theorem held_setPhase {source other : Source} {phase : Phase (Action n)}
    (held : s.phase other ≠ .running) (phase_held : phase ≠ .running) :
    (s.setPhase source phase).phase other ≠ .running := by
  rw [Simulation.phase_setPhase]
  split
  · exact phase_held
  · exact held

theorem UnderWay.lodge (underWay : UnderWay s r) {ticket : Ticket n}
    (placed : Placed s ticket s') : UnderWay s' r := by
  cases placed with
  | immediate event entry => exact underWay.of_subset (fun _ he => .inl he) underWay.held
  | timed t event entry =>
    refine underWay.of_subset (fun e he => ?_) underWay.held
    rcases Agenda.mem_insert.1 he with rfl | he
    · exact .inr rfl
    · exact .inl he
  | parked stall stalled =>
    exact underWay.of_subset (fun _ he => .inl he)
      (held_setPhase (s := s.issue) underWay.held (fun h => by cases h))
  | joined backlog replaying =>
    exact underWay.of_subset (fun _ he => .inl he)
      (held_setPhase (s := s.issue) underWay.held (fun h => by cases h))

theorem UnderWay.stall (underWay : UnderWay s r) (source : Source) (release : Instant)
    (backlog : Agenda EventId (Work (Action n))) :
    UnderWay (s.beginStall source release backlog) r := by
  refine underWay.of_subset (fun e he => ?_)
    (held_setPhase (s := s) underWay.held (fun h => by cases h))
  rcases Agenda.mem_insert.1 he with rfl | he
  · exact .inr rfl
  · exact .inl he

/-- **Every replay on a course is under way as it should be.** -/
theorem Course.underWay {st : Standing n} (course : Course log st) (replay : st.replay = some r) :
    UnderWay st.sim r := by
  induction course with
  | create config => cases replay
  | move course move ih =>
    cases move with
    | control s r' => exact (ih replay).of_subset (fun _ he => .inl he) (ih replay).held
    | enableTrace s r' => exact (ih replay).of_subset (fun _ he => .inl he) (ih replay).held
    | cancel s r' => exact (ih replay).of_subset (fun _ he => .inl he) (ih replay).held
    | accept s s' r' ticket admits =>
      exact (ih replay).lodge (admits.eq ▸ placed_lodge s ticket)
    | stall s r' source release backlog => exact (ih replay).stall source release backlog
    | release s turn id source rest stall taken live stalled =>
      cases replay
      obtain ⟨htimely, hstalls⟩ := course.schedule
      refine ⟨ordinary_of_release htimely hstalls taken, ?_⟩
      rw [Simulation.phase_setPhase, if_pos rfl]
      exact fun h => by cases h
    | skip s r' key work backlog rest =>
      exact (ih replay).of_subset (fun _ he => .inl he)
        (held_setPhase (ih replay).held (fun h => by cases h))
    | drain s r' key work backlog rest =>
      exact (ih replay).of_subset (fun _ he => .inl he)
        (held_setPhase (s := s) (ih replay).held (fun h => by cases h))
    | _ => cases replay

/-! ## The queue of a replay -/

/-- The immediate work that was handed in through the source. -/
def Log.immediate (source : Source) (log : Log n) : List (Work (Action n)) :=
  (log.accepted.filter
    (fun t => t.routed && t.due.isNone && decide (t.work.source = source))).map Ticket.work

theorem Log.immediate_append (source : Source) (a b : Log n) :
    Log.immediate source (a ++ b) = a.immediate source ++ b.immediate source := by
  simp [Log.immediate]

/-- The immediate work that is held back for a source, in the order in which it will start. -/
def Simulation.backlog (s : Simulation (Action n)) (source : Source) : List (Work (Action n)) :=
  (s.phase source).parked.map Prod.snd

theorem backlog_setPhase (s : Simulation (Action n)) (source other : Source)
    (phase : Phase (Action n)) :
    (s.setPhase source phase).backlog other =
      if source = other then phase.parked.map Prod.snd else s.backlog other := by
  unfold Simulation.backlog
  rw [Simulation.phase_setPhase]
  split <;> rfl

/-- What a move is to the queue of a replay that goes on. -/
inductive Drains (r : Replay n) (s : Simulation (Action n)) (new : Log n)
    (s' : Simulation (Action n)) : Prop where
  | aside (same : s'.backlog r.source = s.backlog r.source) (quiet : new.started = [])
      (unjoined : new.immediate r.source = [])
  /-- Immediate work of the source joins at the end. -/
  | joins (work : Work (Action n)) (fresh : work.id = s.freshId)
      (queue : s'.backlog r.source = s.backlog r.source ++ [work])
      (quiet : new.started = []) (joined : new.immediate r.source = [work])
  | skips (work : Work (Action n)) (cancelled : s.isCancelled work.id = true)
      (queue : s.backlog r.source = work :: s'.backlog r.source) (silent : new = [])
  | starts (work : Work (Action n)) (queue : s.backlog r.source = work :: s'.backlog r.source)
      (start : new = [.started work s.now])

/-- What is held back waits. -/
theorem mem_tickets_of_parked {st : Standing n} {source : Source} (rostered : Rostered st.sim)
    {e : EventId × Work (Action n)} (mem : e ∈ (st.sim.phase source).parked) :
    (⟨e.2, none, true⟩ : Ticket n) ∈ st.tickets := by
  have hknown : source ∈ st.sim.sources := by
    apply rostered.known
    intro hrunning
    rw [hrunning] at mem
    cases mem
  refine List.mem_append_left _ (List.mem_append_right _ (List.mem_flatMap.2 ⟨source, hknown, ?_⟩))
  have hvalues : ∀ agenda : Agenda EventId (Work (Action n)), e ∈ agenda.toList →
      (⟨e.2, none, true⟩ : Ticket n) ∈ backlogTickets agenda.values :=
    fun agenda he => List.mem_map_of_mem (List.mem_map_of_mem he)
  cases hphase : st.sim.phase source with
  | running =>
    rw [hphase] at mem
    cases mem
  | stalled stall =>
    rw [hphase] at mem
    exact List.mem_append_left _ (hvalues _ mem)
  | replaying backlog =>
    rw [hphase] at mem
    exact hvalues _ mem

/-- New work goes behind all that is held back. -/
theorem values_insert_fresh {agenda : Agenda EventId (Work (Action n))} {work : Work (Action n)}
    (older : ∀ e ∈ agenda.toList, e.1 ≤ work.id) :
    (agenda.insert work.id work).toList.map Prod.snd = agenda.toList.map Prod.snd ++ [work] := by
  rw [Agenda.toList_insert_of_split work (List.append_nil _).symm older
    (fun e he => by cases he), List.map_append]
  rfl

theorem immediate_accepted {ticket : Ticket n} {source : Source} :
    Log.immediate source [.accepted ticket] =
      if ticket.routed && ticket.due.isNone && decide (ticket.work.source = source)
      then [ticket.work] else [] := by
  show (List.filter _ [ticket]).map Ticket.work = _
  simp only [List.filter_cons, List.filter_nil]
  split <;> rfl

/-- An accepted submission joins the queue if it is immediate work of the source. -/
theorem Drains.lodge {st : Standing n} (course : Course log st) (replay : st.replay = some r)
    {ticket : Ticket n} (fresh : ticket.work.id = st.sim.freshId)
    (placed : Placed st.sim ticket s') : Drains r st.sim [.accepted ticket] s' := by
  obtain ⟨s, rep⟩ := st
  cases replay
  have hunderWay : UnderWay s r := course.underWay rfl
  have hledger := course.ledger
  obtain ⟨-, hstalls⟩ := course.schedule
  have hquiet : Log.started [Happening.accepted ticket] = [] := rfl
  -- whatever is held back has an older id
  have hold : ∀ source, ∀ e ∈ (s.phase source).parked, e.1 ≤ ticket.work.id := by
    intro source e he
    have hlt := hledger.lt_nextId (mem_tickets_of_parked hledger.rostered he)
    rw [((hstalls.own source).parked e he).1, fresh]
    exact Nat.le_of_lt hlt
  have haside : ∀ {s'}, (ticket.routed && ticket.due.isNone &&
      decide (ticket.work.source = r.source)) = false →
      s'.backlog r.source = s.backlog r.source → Drains r s [.accepted ticket] s' := by
    intro s' hother hsame
    refine .aside hsame hquiet ?_
    rw [immediate_accepted, hother]
    rfl
  have hjoins : ∀ {s'}, ticket.routed = true → ticket.due = none →
      ticket.work.source = r.source →
      s'.backlog r.source = s.backlog r.source ++ [ticket.work] →
      Drains r s [.accepted ticket] s' := by
    intro s' hrouted hdue hsource hqueue
    refine .joins ticket.work fresh hqueue hquiet ?_
    rw [immediate_accepted, hrouted, hdue, hsource]
    simp
  have hother : ∀ phase, ticket.work.source ≠ r.source →
      Drains r s [.accepted ticket] (s.issue.setPhase ticket.work.source phase) := by
    intro phase hne
    refine haside (by simp [hne]) ?_
    rw [backlog_setPhase, if_neg hne]
    rfl
  cases placed with
  | immediate event entry running =>
    refine haside ?_ rfl
    cases hrouted : ticket.routed with
    | false => rfl
    | true =>
      have hne : ticket.work.source ≠ r.source := by
        intro heq
        exact hunderWay.held (heq ▸ running hrouted)
      simp [hne]
  | timed t event entry =>
    refine haside ?_ rfl
    rw [Event.due_of_ticket? entry]
    simp
  | parked stall stalled routed early =>
    by_cases hsource : ticket.work.source = r.source
    · have hphase : s.phase r.source = .stalled stall := hsource ▸ stalled
      have hqueue : s.backlog r.source = stall.immediate.values := by
        rw [Simulation.backlog, hphase]
        rfl
      cases hdue : ticket.due with
      | none =>
        refine hjoins routed hdue hsource ?_
        rw [backlog_setPhase, if_pos hsource, hqueue]
        have hparked := hold r.source
        rw [hphase] at hparked
        exact values_insert_fresh hparked
      | some t =>
        refine haside (by rw [hdue]; simp) ?_
        rw [backlog_setPhase, if_pos hsource, hqueue]
        rfl
    · exact hother _ hsource
  | joined backlog replaying routed untimed =>
    by_cases hsource : ticket.work.source = r.source
    · have hphase : s.phase r.source = .replaying backlog := hsource ▸ replaying
      have hqueue : s.backlog r.source = backlog.values := by
        rw [Simulation.backlog, hphase]
        rfl
      refine hjoins routed untimed hsource ?_
      rw [backlog_setPhase, if_pos hsource, hqueue]
      have hparked := hold r.source
      rw [hphase] at hparked
      exact values_insert_fresh hparked
    · exact hother _ hsource

/-- The first of a backlog, and the rest. -/
theorem backlog_of_next? {source : Source} {backlog rest : Agenda EventId (Work (Action n))}
    {key : EventId} {work : Work (Action n)} (replaying : s.phase source = .replaying backlog)
    (taken : backlog.next? = some ((key, work), rest)) :
    s.backlog source = work :: (s.setPhase source (.replaying rest)).backlog source := by
  rw [backlog_setPhase, if_pos rfl, Simulation.backlog, replaying]
  show backlog.toList.map Prod.snd = work :: rest.toList.map Prod.snd
  rw [Agenda.next?_eq_some_iff.1 taken]
  rfl

/-- **What a move is to the queue of a replay that goes on.** -/
theorem move_drains (course : Course log ⟨s, some r⟩)
    (move : Move log ⟨s, some r⟩ new ⟨s', some r⟩) :
    Drains r s new s' := by
  cases move with
  | control => exact .aside rfl rfl rfl
  | enableTrace => exact .aside rfl rfl rfl
  | cancel => exact .aside rfl rfl rfl
  | accept s s' r' ticket admits =>
    exact .lodge course rfl admits.fresh (admits.eq ▸ placed_lodge s ticket)
  | stall s r' source release backlog known inTime active carried =>
    refine .aside ?_ rfl rfl
    show (s.setPhase source (.stalled (.starting release backlog))).backlog r.source = _
    rw [backlog_setPhase]
    split
    · rename_i heq
      subst heq
      unfold Simulation.backlog
      cases hphase : s.phase r.source with
      | running =>
        rw [hphase] at carried
        cases carried
        rfl
      | stalled stall =>
        rw [hphase] at carried
        cases carried
      | replaying b =>
        rw [hphase] at carried
        cases carried
        rfl
    · rfl
  | skip s r' key work backlog rest replaying taken cancelled =>
    exact .skips work cancelled (backlog_of_next? replaying taken) rfl
  | drain s r' key work backlog rest replaying taken live =>
    exact .starts work (backlog_of_next? replaying taken) rfl

/-- The rest of a backlog is in the order of the ids, and the timers of a replay are in the order of
the instants for which they were handed in, then of the ids. -/
structure InOrder (log : Log n) (r : Replay n) (s : Simulation (Action n)) : Prop where
  works : ((s.backlog r.source).map Work.id).Pairwise (· ≤ ·)
  timers : r.timers.toList.Pairwise (fun a b => a.1 ≤ b.1)
  genuine : ∀ e ∈ r.timers.toList,
    e.1.id = e.2.id ∧ (⟨e.2, some e.1.due, true⟩ : Ticket n) ∈ log.accepted

theorem inOrder_of_course (course : Course log ⟨s, some r⟩) : InOrder log r s := by
  have hledger := course.ledger
  obtain ⟨htimely, hstalls⟩ := course.schedule
  have hkeys : ∀ source, ((s.phase source).parked).Pairwise (fun a b => a.1 ≤ b.1) := by
    intro source
    cases s.phase source with
    | running => exact .nil
    | stalled stall => exact stall.immediate.ordered
    | replaying backlog => exact backlog.ordered
  refine ⟨?_, r.timers.ordered, fun e he => ⟨((htimely.replay r rfl).2 e he).1, ?_⟩⟩
  · unfold Simulation.backlog
    rw [List.map_map]
    refine List.pairwise_map.2 ((hkeys r.source).imp_of_mem ?_)
    intro a b ha hb hle
    have hown := hstalls.own r.source
    show a.2.id ≤ b.2.id
    rw [← (hown.parked a ha).1, ← (hown.parked b hb).1]
    exact hle
  · apply hledger.accepted_of_mem
    exact List.mem_append_right _ (List.mem_map_of_mem
      (f := fun e : Origin × Work (Action n) => (⟨e.2, some e.1.due, true⟩ : Ticket n)) he)

/-! ## When a replay ends -/

theorem Turn.replayedAt_le_iff {t : Instant} {a b : Origin} :
    Turn.replayedAt t a ≤ Turn.replayedAt t b ↔ a ≤ b := by
  rw [Turn.le_iff_toNat, Origin.le_iff_toNat]
  simp only [Turn.replayedAt, Nat.lt_irrefl, false_or, true_and]

/-- An event that waits for a turn of its own goes behind the timers that are replayed by then. -/
theorem Turn.not_le_replayedAt {turn : Turn} {t : Instant} (ordinary : turn.band = .ordinary)
    (late : t ≤ turn.time) (origin : Origin) : ¬ turn ≤ Turn.replayedAt t origin := by
  rw [Turn.le_iff_toNat, ordinary]
  rw [Instant.le_def] at late
  simp only [Turn.replayedAt, Band.rank]
  omega

/-- Timers that are posted again stand behind those before them and ahead of all other events. -/
theorem toList_repostedTimers {release : Instant} {timers : List (Origin × Work (Action n))}
    (ordered : timers.Pairwise (fun a b => a.1 ≤ b.1)) {timed : Agenda Turn (Event (Action n))}
    {before behind : List (Turn × Event (Action n))} (split : timed.toList = before ++ behind)
    (le : ∀ e ∈ before, ∀ timer ∈ timers, e.1 ≤ .replayedAt release timer.1)
    (not_le : ∀ e ∈ behind, ∀ origin, ¬ e.1 ≤ .replayedAt release origin) :
    (repostedTimers release timed timers).toList =
      before ++ timers.map (fun e => (.replayedAt release e.1, .routed e.2)) ++ behind := by
  induction timers generalizing timed before with
  | nil =>
    rw [List.map_nil, List.append_nil]
    exact split
  | cons e timers ih =>
    obtain ⟨hfirst, hordered⟩ := List.pairwise_cons.1 ordered
    have hinsert : (timed.insert (.replayedAt release e.1) (.routed e.2)).toList =
        before ++ [(.replayedAt release e.1, .routed e.2)] ++ behind := by
      rw [Agenda.toList_insert_of_split (.routed e.2) split
        (fun d hd => le d hd e List.mem_cons_self) (fun d hd => not_le d hd e.1), List.append_assoc]
      rfl
    have hrest := ih hordered hinsert (fun d hd timer htimer => by
      rcases List.mem_append.1 hd with hd | hd
      · exact le d hd timer (List.mem_cons_of_mem _ htimer)
      · rw [List.mem_singleton.1 hd]
        exact Turn.replayedAt_le_iff.2 (hfirst timer htimer))
    rw [List.map_cons, List.append_cons]
    exact hrest

/-- The timers of a replay that are not cancelled. -/
def Replay.live (r : Replay n) (s : Simulation (Action n)) : List (Origin × Work (Action n)) :=
  r.timers.toList.filter (fun e => !s.isCancelled e.2.id)

/-- The events in which the timers wait again. -/
def replayedEvents (release : Instant) (timers : List (Origin × Work (Action n))) :
    List (Turn × Event (Action n)) :=
  timers.map (fun e => (.replayedAt release e.1, .routed e.2))

/-- **When a replay ends, its timers are ahead of all the other timed events.** -/
theorem timed_closeReplay (course : Course log ⟨s, some r⟩) :
    (s.closeReplay r.source r.release r.timers).calendar.timed.toList =
      replayedEvents r.release (r.live s) ++ s.calendar.timed.toList := by
  have hunderWay := course.underWay rfl
  obtain ⟨htimely, -⟩ := course.schedule
  obtain ⟨hrelease, -⟩ := htimely.replay r rfl
  rw [closeReplay_eq]
  refine toList_repostedTimers (r.timers.ordered.filter _) (List.nil_append _).symm
    (fun e he => by cases he) (fun e he origin => ?_)
  refine Turn.not_le_replayedAt (hunderWay.ordinary e he) ?_ origin
  rw [hrelease]
  exact (htimely.proper e he).now_le

/-- The simulation of a replay that ends, up to what runs and actions are under way and how they
are controlled. -/
def Closes (r : Replay n) (s s' : Simulation (Action n)) : Prop :=
  ∃ paused halted running active, s' =
    { s.closeReplay r.source r.release r.timers with
      paused := paused, halted := halted, running := running, active := active }

section Machines

variable {h later : List (Fin n × Happening n)} {m m' : Machine n} {i : Fin n}

/-- An action that fails in the middle of a replay ends the replay. -/
theorem closes_of_failing {run : Run n} {work : Work (Action n)} {failure : Failure}
    (failing : m.failing? = some (run, work, failure)) (replay : run.replay = some r) :
    Closes r (m.world.sim run.sim) (m.step.world.sim run.sim) := by
  obtain ⟨w, callers, hstep, -, -, hsims⟩ := step_of_failing failing
  obtain ⟨paused, hsim⟩ := hsims run.sim
  rw [hstep]
  unfold Machine.abort
  rw [replay]
  dsimp only
  rw [sim_setSim_self, hsim, closeReplay_eq]
  exact ⟨_, _, _, _, by rw [closeReplay_eq]; rfl⟩

theorem replayIn_cons_self {run : Run n} {runs : List (Run n)} :
    replayIn run.sim (run :: runs) = run.replay := if_pos rfl

/-- **How a replay ends.** -/
theorem Next.closes (hist : History h m) (next : Next m later m')
    (underWay : (m.standing i).replay = some r) (ended : (m'.standing i).replay ≠ some r)
    (calm : ¬ m.Panics) :
    (m'.standing i).replay = none ∧ Closes r (m.world.sim i) (m'.world.sim i) ∧
      ((m.world.sim i).nextReplayed r.source = none ∨
        ∃ run work failure, m.failing? = some (run, work, failure) ∧ run.sim = i) := by
  have hdistinct := hist.grounded.distinct
  have hdistinct' := (hist.next next).grounded.distinct
  change replayIn i m.runs = some r at underWay
  change replayIn i m'.runs ≠ some r at ended
  change replayIn i m'.runs = none ∧ _
  cases next.shift with
  | stays runs => exact absurd (runs ▸ underWay) ended
  | begins run runs idle going =>
    rw [runs, List.map_cons, List.nodup_cons] at hdistinct'
    rw [runs, replayIn] at ended
    split at ended
    · rename_i hi
      rw [replayIn_eq_none (hi ▸ hdistinct'.1)] at underWay
      cases underWay
    · exact absurd underWay ended
  | replays run run' rest before after same idle =>
    rw [before, replayIn] at underWay
    rw [after, replayIn, same] at ended
    split at underWay
    · rw [idle] at underWay
      cases underWay
    · rename_i hi
      rw [if_neg hi] at ended
      exact absurd underWay ended
  | closes run rest r' before after replay exhausted sim =>
    rw [before, replayIn] at underWay
    rw [after, replayIn] at ended ⊢
    dsimp only at ended ⊢
    split at underWay
    · rename_i hi
      subst hi
      rw [replay] at underWay
      cases underWay
      exact ⟨if_pos rfl, ⟨_, _, _, _, sim⟩, .inl exhausted⟩
    · rename_i hi
      rw [if_neg hi] at ended
      exact absurd underWay ended
  | concludes run runs idle =>
    rw [runs, replayIn] at underWay
    split at underWay
    · rw [idle] at underWay
      cases underWay
    · exact absurd underWay ended
  | fails run work failure failing runs step =>
    rw [runs, List.map_cons, List.nodup_cons] at hdistinct
    rw [runs, replayIn] at underWay
    split at underWay
    · rename_i hi
      subst hi
      refine ⟨replayIn_eq_none hdistinct.1, ?_, .inr ⟨run, work, failure, failing, rfl⟩⟩
      rw [step]
      exact closes_of_failing failing underWay
    · exact absurd underWay ended
  | panics panics runs => exact absurd panics calm

end Machines

end StallSim
