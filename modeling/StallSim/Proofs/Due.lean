import StallSim.Proofs.Clock
import StallSim.Proofs.Lifecycle
import StallSim.Proofs.Order

/-!
# When parked work starts

What is parked for a stalled source stays parked until the release of the source is taken, and the
clock shows the instant of the release then.  While the work that was parked waits, the clock
stands; so the work starts at that instant, unless its source is stalled again.

* `Stays` — what is parked for a stalled source stays parked.
* `Bound` — work is parked until an instant, or that instant is now and the work is due.

Principal results: `stall_of_move`, `free_of_move`, `timed_of_move` — what a move does to stalls and
to turns; `Bound.move`, `Bound.along` — parked work is bound to the release; `Bound.time_eq` — and
starts then.
-/

set_option autoImplicit false

namespace StallSim

variable {n : Nat} {log new : Log n} {st st' : Standing n} {s s' : Simulation (Action n)}
  {source : Source} {stall : Stall (Action n)} {ticket : Ticket n}

/-! ## What moves do to a stall -/

/-- The source is stalled until the same release, and no less is parked for it. -/
def Stays (source : Source) (stall : Stall (Action n)) (s : Simulation (Action n)) : Prop :=
  ∃ stall', s.phase source = .stalled stall' ∧ stall'.release = stall.release ∧
    stall.tickets ⊆ stall'.tickets

theorem Stays.same (stalled : s.phase source = .stalled stall) : Stays source stall s :=
  ⟨stall, stalled, rfl, fun _ hmem => hmem⟩

/-- Another source goes over to another phase. -/
theorem Stays.other (stalled : s.phase source = .stalled stall) {other : Source}
    (off : other ≠ source) (phase : Phase (Action n)) :
    Stays source stall (s.setPhase other phase) :=
  .same ((Simulation.phase_setPhase s other source phase).trans ((if_neg off).trans stalled))

/-- A source that is being replayed is another one. -/
theorem Stays.replaying (stalled : s.phase source = .stalled stall) {other : Source}
    {backlog : Agenda EventId (Work (Action n))} (replaying : s.phase other = .replaying backlog)
    (phase : Phase (Action n)) : Stays source stall (s.setPhase other phase) := by
  refine .other stalled ?_ phase
  rintro rfl
  rw [stalled] at replaying
  cases replaying

/-- Work is parked, for this source or for another one. -/
theorem Stays.park (stalled : s.phase source = .stalled stall) {other : Source}
    {x : Stall (Action n)} (parked : s.phase other = .stalled x) (due : Option Instant)
    (work : Work (Action n)) :
    Stays source stall (s.setPhase other (.stalled (x.park due work))) := by
  by_cases hother : other = source
  · subst hother
    rw [stalled] at parked
    cases parked
    refine ⟨_, (Simulation.phase_setPhase s other other _).trans (if_pos rfl),
      Stall.release_park _ _ _, fun ticket hmem => ?_⟩
    exact (Stall.tickets_park stall due work).mem_iff.2 (List.mem_cons_of_mem _ hmem)
  · exact .other stalled hother _

theorem Stays.lodge (stalled : s.phase source = .stalled stall) (placed : Placed s ticket s') :
    Stays source stall s' := by
  cases placed with
  | immediate event entry running => exact .same stalled
  | timed t event entry => exact .same stalled
  | parked x parked routed early => exact .park (s := s.issue) stalled parked _ _
  | joined backlog replaying routed untimed => exact .replaying (s := s.issue) stalled replaying _

/-- **What is parked for a stalled source stays parked until the release is taken.** -/
theorem stall_of_move (move : Move log st new st')
    (stalled : st.sim.phase source = .stalled stall) :
    Stays source stall st'.sim ∨
      st.replay = none ∧ ∃ turn id rest,
        st.sim.calendar.next? = some ((turn, .release id source), rest) ∧
        st'.sim = (st.sim.take turn rest).setPhase source (.replaying stall.immediate) := by
  cases move with
  | accept s s' r ticket admits => exact .inl (.lodge stalled (admits.eq ▸ placed_lodge s ticket))
  | stall s r other release backlog known inTime active carried =>
    refine .inl (.other (s := s) stalled ?_ _)
    rintro rfl
    rw [show s.phase other = _ from stalled] at carried
    cases carried
  | intercept s turn work rest x taken live parked =>
    exact .inl (.park (s := s.take turn rest) stalled parked _ _)
  | release s turn id other rest x taken live parked =>
    by_cases hother : other = source
    · subst hother
      rw [show s.phase other = _ from stalled] at parked
      cases parked
      exact .inr ⟨rfl, turn, id, rest, taken, rfl⟩
    · exact .inl (.other (s := s.take turn rest) stalled hother _)
  | skip s r key work backlog rest replaying taken cancelled =>
    exact .inl (.replaying stalled replaying _)
  | drain s r key work backlog rest replaying taken live =>
    exact .inl (.replaying (s := s) stalled replaying _)
  | close s r =>
    refine .inl (.same ?_)
    rw [phase_closeReplay]
    split
    · rename_i heq
      rw [heq, stalled]
      rfl
    · exact stalled
  | _ => exact .inl (.same stalled)

theorem free_setPhase (free : (s.phase source).isStalled = false) {other : Source}
    {phase : Phase (Action n)} (free' : other = source → phase.isStalled = false) :
    ((s.setPhase other phase).phase source).isStalled = false := by
  rw [Simulation.phase_setPhase]
  split
  · exact free' ‹_›
  · exact free

/-- A source that is not stalled is not stalled until a stall is granted. -/
theorem free_of_move (move : Move log st new st') (free : (st.sim.phase source).isStalled = false)
    (unstalled : source ∉ new.pauses.map Pause.source) :
    (st'.sim.phase source).isStalled = false := by
  -- where work is parked, the source is stalled already
  have hparked : ∀ {s : Simulation (Action n)} {other : Source} {x : Stall (Action n)},
      (s.phase source).isStalled = false → s.phase other = .stalled x → other ≠ source := by
    rintro s other x hfree hparked rfl
    rw [hparked] at hfree
    cases hfree
  cases move with
  | accept s s' r ticket admits =>
    have hplaced := placed_lodge s ticket
    rw [← admits.eq] at hplaced
    cases hplaced with
    | immediate event entry running => exact free
    | timed t event entry => exact free
    | parked x parked routed early =>
      exact free_setPhase (s := s.issue) free (fun h => absurd h (hparked free parked))
    | joined backlog replaying routed untimed =>
      exact free_setPhase (s := s.issue) free (fun _ => rfl)
  | stall s r other release backlog known inTime active carried =>
    refine free_setPhase (s := s) free (fun h => absurd ?_ unstalled)
    exact List.mem_singleton.2 h.symm
  | intercept s turn work rest x taken live parked =>
    exact free_setPhase (s := s.take turn rest) free (fun h => absurd h (hparked free parked))
  | release s turn id other rest x taken live parked =>
    exact free_setPhase (s := s.take turn rest) free (fun _ => rfl)
  | skip s r key work backlog rest replaying taken cancelled =>
    exact free_setPhase free (fun _ => rfl)
  | drain s r key work backlog rest replaying taken live =>
    exact free_setPhase (s := s) free (fun _ => rfl)
  | close s r =>
    rw [phase_closeReplay]
    split
    · rename_i heq
      rw [heq]
      cases hphase : s.phase source with
      | running => rfl
      | replaying backlog => rfl
      | stalled x =>
        rw [hphase] at free
        cases free
    · exact free
  | _ => exact free

/-- A turn that work gets is that of a submission, or it has come: it is the turn of a timer that is
replayed at this instant. -/
theorem timed_of_move (timely : Timely st) (move : Move log st new st') {k : Turn}
    {event : Event (Action n)} (mem : (k, event) ∈ st'.sim.calendar.timed.toList) :
    (k, event) ∈ st.sim.calendar.timed.toList ∨ k.time = st.sim.now ∨
      ∀ ticket, event.ticket? (some k) = some ticket → ticket ∈ new.accepted := by
  cases move with
  | accept s s' r ticket admits =>
    have hplaced := placed_lodge s ticket
    rw [← admits.eq] at hplaced
    cases hplaced with
    | immediate event entry running => exact .inl mem
    | timed t event entry =>
      rcases Agenda.mem_insert.1 mem with heq | hmem
      · cases heq
        refine .inr (.inr fun other hother => ?_)
        rw [entry] at hother
        cases hother
        exact List.mem_singleton.2 rfl
      · exact .inl hmem
    | parked x parked routed early => exact .inl mem
    | joined backlog replaying routed untimed => exact .inl mem
  | stall s r other release backlog known inTime active carried =>
    rcases Agenda.mem_insert.1 mem with heq | hmem
    · cases heq
      exact .inr (.inr fun other hother => by cases hother)
    · exact .inl hmem
  | drop s turn event' rest taken cancelled => exact .inl (Calendar.timed_of_next? taken mem)
  | intercept s turn work rest x taken live parked => exact .inl (Calendar.timed_of_next? taken mem)
  | start s turn event' work rest taken isWork live free =>
    exact .inl (Calendar.timed_of_next? taken mem)
  | release s turn id other rest x taken live parked =>
    exact .inl (Calendar.timed_of_next? taken mem)
  | stale s turn id other rest taken live free => exact .inl (Calendar.timed_of_next? taken mem)
  | close s r =>
    rw [closeReplay_eq] at mem
    rcases mem_repostedTimers.1 mem with ⟨timer, -, heq⟩ | hmem
    · cases heq
      exact .inr (.inl (timely.replay r rfl).1)
    · exact .inl hmem
  | _ => exact .inl mem

/-! ## Parked work is bound to the release -/

/-- The work is parked until the instant `release`, or that instant is now, as long as the work
waits, and it is the time of any turn that it waits for. -/
inductive Bound (source : Source) (release : Instant) (ticket : Ticket n) (st : Standing n) :
    Prop where
  | parked (stall : Stall (Action n)) (stalled : st.sim.phase source = .stalled stall)
      (until_eq : stall.release = release) (mem : ticket ∈ stall.tickets)
  | freed (free : (st.sim.phase source).isStalled = false)
      (now : ticket ∈ st.tickets → st.sim.now = release)
      (turn : ∀ k event, (k, event) ∈ st.sim.calendar.timed.toList →
        event.ticket? (some k) = some ticket → k.time = release)

section Bound

variable {release : Instant}

/-- While due work of a source waits, the clock stands. -/
theorem now_of_due (course : Course log st) (move : Move log st new st')
    (attended : st.Attended ticket.work.source)
    (free : (st.sim.phase ticket.work.source).isStalled = false) (waits : ticket ∈ st.tickets)
    (turn : ∀ k event, (k, event) ∈ st.sim.calendar.timed.toList →
      event.ticket? (some k) = some ticket → k.time = st.sim.now) :
    st'.sim.now = st.sim.now := by
  obtain ⟨htimely, hstalls⟩ := course.schedule
  by_contra hmoved
  obtain ⟨hreplay, k, event, rest, hnext, hnow⟩ := taken_of_moved htimely move hmoved
  obtain ⟨s, r⟩ := st
  dsimp only at hreplay hnext hmoved turn free
  subst hreplay
  obtain ⟨himmediate, hk, hleast⟩ := Calendar.least_of_next? hnext
  rcases place_of_running hstalls (place_of_mem waits) (running_of_idle attended free) with
    ⟨other, hmem, -⟩ | ⟨l, other, hmem, hentry⟩
  · rw [himmediate] at hmem
    cases hmem
  · have hahead : s.now ≤ k.time := (htimely.proper _ hk).now_le
    have hbehind := Turn.time_le_of_le (hleast _ hmem)
    rw [turn l other hmem hentry] at hbehind
    exact hmoved (hnow.trans (Std.le_antisymm hbehind hahead))

/-- What is parked for a source is held back, in the order in which it is parked. -/
theorem sublist_heldTickets (rostered : Rostered s) (stalled : s.phase source = .stalled stall) :
    stall.tickets.Sublist s.heldTickets := by
  have hknown : source ∈ s.sources := rostered.known_of_eq stalled (fun h => by cases h)
  have hmem : (s.phase source).tickets ∈ s.sources.map (fun source => (s.phase source).tickets) :=
    List.mem_map_of_mem hknown
  rw [stalled] at hmem
  exact List.sublist_flatten_of_mem hmem

/-- What is parked does not wait in the calendar too. -/
theorem Ledger.not_timed_of_held {r : Option (Replay n)} (ledger : Ledger log ⟨s, r⟩)
    (held : ticket ∈ s.heldTickets) {k : Turn} {event : Event (Action n)}
    (mem : (k, event) ∈ s.calendar.timed.toList) : event.ticket? (some k) ≠ some ticket := by
  intro hentry
  have hcalendar : ticket ∈ s.calendar.tickets := by
    refine List.mem_filterMap.2 ⟨(some k, event), List.mem_append_right _ ?_, hentry⟩
    exact List.mem_map_of_mem (f := fun e : Turn × Event (Action n) => (some e.1, e.2)) mem
  have hnodup := ledger.nodup_tickets
  rw [Standing.tickets, List.map_append, List.nodup_append, Simulation.tickets, List.map_append,
    List.nodup_append] at hnodup
  exact hnodup.1.2.2 _ (List.mem_map_of_mem hcalendar) _ (List.mem_map_of_mem held) rfl

/-- A release makes what was parked due. -/
theorem Bound.of_release (course : Course log ⟨s, none⟩) {turn : Option Turn} {id : EventId}
    {rest : Calendar (Action n)} (stalled : s.phase source = .stalled stall)
    (taken : s.calendar.next? = some ((turn, .release id source), rest))
    (mem : ticket ∈ stall.tickets) {r : Option (Replay n)} :
    Bound source stall.release ticket
      ⟨(s.take turn rest).setPhase source (.replaying stall.immediate), r⟩ := by
  have hledger := course.ledger
  obtain ⟨htimely, hstalls⟩ := course.schedule
  have hnow := htimely.now_take taken
  obtain ⟨k, rfl, -, htimed, -⟩ := hstalls.release_taken taken
  obtain ⟨stall', hstalled, hrelease, -⟩ := hstalls.release (k, source)
    (Calendar.mem_releases.2 ⟨id, htimed ▸ List.mem_cons_self⟩)
  rw [stalled] at hstalled
  cases hstalled
  refine .freed ?_ (fun _ => hnow.trans hrelease.symm) ?_
  · rw [Simulation.phase_setPhase, if_pos rfl]
    rfl
  · intro l event hmem hentry
    exact absurd hentry (hledger.not_timed_of_held
      ((sublist_heldTickets hledger.rostered stalled).subset mem)
      (Calendar.timed_of_next? taken hmem))

/-- **Parked work stays bound to the release**, in one move, unless its source is stalled again. -/
theorem Bound.move (bound : Bound source release ticket st) (course : Course log st)
    (move : Move log st new st') (accepted : ticket ∈ log.accepted)
    (through : ticket.Through source) (attended : st.Attended source)
    (unstalled : source ∉ new.pauses.map Pause.source) : Bound source release ticket st' := by
  obtain ⟨-, rfl⟩ := through
  cases bound with
  | parked stall stalled until_eq mem =>
    rcases stall_of_move move stalled with ⟨stall', hstalled, hrelease, hsubset⟩ | hreleased
    · exact .parked stall' hstalled (hrelease.trans until_eq) (hsubset mem)
    · obtain ⟨hidle, turn, id, rest, htaken, hsim⟩ := hreleased
      obtain ⟨s, r⟩ := st
      obtain ⟨s', r'⟩ := st'
      cases hidle
      cases hsim
      exact until_eq ▸ .of_release course stalled htaken mem
  | freed free now turn =>
    refine .freed (free_of_move move free unstalled) (fun hwaits => ?_)
      (fun k event hmem hentry => ?_)
    · have hwaited := waited_of_move course move accepted hwaits
      rw [now_of_due course move attended free hwaited (now hwaited ▸ turn)]
      exact now hwaited
    · have hwaited := waited_of_move course move accepted (mem_tickets_of_timed hmem hentry)
      rcases timed_of_move course.schedule.1 move hmem with hold | hnow | hnew
      · exact turn k event hold hentry
      · exact hnow.trans (now hwaited)
      · exact absurd (hnew ticket hentry) (course.not_accepted_again (.single move) accepted)

/-- **Parked work stays bound to the release** along any row of moves without a panic, unless its
source is stalled again. -/
theorem Bound.along (bound : Bound source release ticket st) (course : Course log st)
    (along : Along Move log st new st') (calm : new.Calm) (accepted : ticket ∈ log.accepted)
    (through : ticket.Through source) (attended : st.Attended source)
    (unstalled : source ∉ new.pauses.map Pause.source) : Bound source release ticket st' := by
  induction along with
  | refl => exact bound
  | next before move ih =>
    obtain ⟨hcalm, -⟩ := Log.calm_append.1 calm
    obtain ⟨hbefore, hafter⟩ := not_mem_pauses_append unstalled
    refine (ih hcalm hbefore).move (course.along before) move ?_ through
      (attended.along before hcalm) hafter
    rw [Log.accepted_append]
    exact List.mem_append_left _ accepted

/-- Work that is bound to a release starts at that instant. -/
theorem Bound.time_eq (bound : Bound source release ticket st) (course : Course log st)
    (move : Move log st new st') {time : Instant} (start : .started ticket.work time ∈ new)
    (accepted : ticket ∈ log.accepted) (through : ticket.Through source) : time = release := by
  obtain ⟨hrouted, rfl⟩ := through
  have hledger := course.ledger
  obtain ⟨htime, hturn⟩ := time_of_move course move start
  cases move.begins start with
  | start s turn event work rest taken isWork live free =>
    obtain ⟨other, hentry, hwork⟩ := Event.ticket?_of_work? isWork turn
    have hwaits := mem_tickets_of_taken taken hentry
    obtain rfl : other = ticket :=
      hledger.eq_of_id (hledger.accepted_of_mem hwaits) accepted (by rw [hwork])
    cases bound with
    | parked stall stalled until_eq mem =>
      cases event with
      | routed w =>
        cases hentry
        have hfree := free rfl
        rw [show s.phase w.source = _ from stalled] at hfree
        cases hfree
      | direct w =>
        cases hentry
        cases hrouted
      | release id source => cases isWork
    | freed free now due =>
      cases turn with
      | none => exact now hwaits
      | some k =>
        obtain ⟨-, hk, -⟩ := Calendar.least_of_next? taken
        rw [← hturn k event hk isWork]
        exact due k event hk hentry
  | drain s r key work backlog rest replaying taken live =>
    have hwaits := mem_tickets_of_replayed hledger.rostered.distinct hledger.rostered.known
      replaying taken (some r)
    have hsame := hledger.eq_of_id (hledger.accepted_of_mem hwaits) accepted rfl
    cases bound with
    | parked stall stalled until_eq mem =>
      dsimp only at stalled
      rw [course.schedule.2.source_of_replayed replaying taken, replaying] at stalled
      cases stalled
    | freed free now due => exact now (hsame ▸ hwaits)

end Bound

end StallSim
