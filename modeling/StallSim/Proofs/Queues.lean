import StallSim.Proofs.Stalls

/-!
# The immediate work of a source

Immediate work of one source waits in the calendar, parked, or in a backlog, but never both in the
calendar and in a backlog; and in each place it waits in the order of its ids.

* `Event.Before` — of two events that wait for the same source, the first is the older one.
* `Lines` — the immediate events are in order, and while a source has a backlog none of its work is
  among them.
* `Standing.Attended` — a backlog of a source is that of the replay under way.
* `Queues` — `Lines`, and every source is attended.

Principal results: `Course.lines` — along every course; `Standing.Attended.move`, `Course.queues` —
without a panic.
-/

set_option autoImplicit false

namespace StallSim

variable {n : Nat} {log new : Log n} {st st' : Standing n} {s s' : Simulation (Action n)}
  {r r' : Option (Replay n)} {source : Source}

/-- If both events are routed work of one source, `a` is not younger than `b`. -/
def Event.Before {α : Type} (a b : Event α) : Prop :=
  ∀ v w, a = .routed v → b = .routed w → v.source = w.source → v.id ≤ w.id

/-- The immediate events are in order, and no source that has a backlog has work among them. -/
structure Lines (s : Simulation (Action n)) : Prop where
  fifo : s.calendar.immediate.Pairwise Event.Before
  apart : ∀ source backlog, s.phase source = .replaying backlog →
    ∀ work, .routed work ∈ s.calendar.immediate → work.source ≠ source

/-- A backlog of the source is that of the replay under way: it was not left by a panic. -/
def Standing.Attended (st : Standing n) (source : Source) : Prop :=
  ∀ backlog, st.sim.phase source = .replaying backlog → ∃ r, st.replay = some r ∧ r.source = source

/-- The immediate work of the sources is in order. -/
structure Queues (st : Standing n) : Prop where
  fifo : st.sim.calendar.immediate.Pairwise Event.Before
  replaying : ∀ source backlog, st.sim.phase source = .replaying backlog →
    ∃ r, st.replay = some r ∧ r.source = source
  apart : ∀ source backlog, st.sim.phase source = .replaying backlog →
    ∀ work, .routed work ∈ st.sim.calendar.immediate → work.source ≠ source

/-- Outside of replays, a source that is not stalled runs, unless nobody replays its backlog. -/
theorem running_of_idle (attended : (⟨s, none⟩ : Standing n).Attended source)
    (free : (s.phase source).isStalled = false) : s.phase source = .running := by
  cases hphase : s.phase source with
  | running => rfl
  | stalled stall =>
    rw [hphase] at free
    cases free
  | replaying backlog =>
    obtain ⟨r, hr, -⟩ := attended backlog hphase
    cases hr

/-- Immediate events may leave the calendar, and sources may be stalled. -/
theorem Lines.of_sublist (lines : Lines s)
    (sublist : s'.calendar.immediate.Sublist s.calendar.immediate)
    (replaying : ∀ source backlog, s'.phase source = .replaying backlog →
      ∃ backlog', s.phase source = .replaying backlog') : Lines s' where
  fifo := lines.fifo.sublist sublist
  apart source backlog hphase work hmem := by
    obtain ⟨backlog', hphase'⟩ := replaying source backlog hphase
    exact lines.apart source backlog' hphase' work (sublist.subset hmem)

/-- The sources that are being replayed are so after another source went over to a phase that is
no replay, or the same source to the next backlog. -/
theorem replaying_of_setPhase {phase : Phase (Action n)}
    (mine : ∀ backlog, phase = .replaying backlog → ∃ b, s.phase source = .replaying b)
    (other : Source) (backlog : Agenda EventId (Work (Action n)))
    (replaying : (s.setPhase source phase).phase other = .replaying backlog) :
    ∃ b, s.phase other = .replaying b := by
  rw [Simulation.phase_setPhase] at replaying
  split at replaying
  · rename_i heq
    exact heq ▸ mine backlog replaying
  · exact ⟨backlog, replaying⟩

theorem Calendar.immediate_sublist_of_next? {c rest : Calendar (Action n)}
    {e : Option Turn × Event (Action n)} (taken : c.next? = some (e, rest)) :
    rest.immediate.Sublist c.immediate := by
  obtain ⟨turn, event⟩ := e
  rcases Calendar.next?_cases taken with ⟨-, himmediate, -⟩ | ⟨k, -, himmediate, hrest, -⟩
  · rw [himmediate]
    exact List.sublist_cons_self _ _
  · rw [himmediate, hrest]

theorem mem_tickets_of_immediate {work : Work (Action n)}
    (mem : .routed work ∈ st.sim.calendar.immediate) :
    (⟨work, none, true⟩ : Ticket n) ∈ st.tickets := by
  refine List.mem_append_left _ (List.mem_append_left _ (List.mem_filterMap.2 ?_))
  refine ⟨(none, .routed work), List.mem_append_left _ ?_, rfl⟩
  exact List.mem_map_of_mem (f := fun event : Event (Action n) => ((none : Option Turn), event)) mem

/-- An accepted submission waits behind the older work of its source. -/
theorem Lines.lodge (lines : Lines s) (ledger : Ledger log ⟨s, r⟩) {ticket : Ticket n}
    (fresh : ticket.work.id = s.freshId) (placed : Placed s ticket s') : Lines s' := by
  cases placed with
  | immediate event entry running =>
    have hmine : ∀ work, event = .routed work → work = ticket.work ∧ ticket.routed = true := by
      rintro work rfl
      cases entry
      exact ⟨rfl, rfl⟩
    constructor
    · refine List.pairwise_append.2 ⟨lines.fifo, List.pairwise_singleton _ _, ?_⟩
      intro a ha b hb v w hv hw _
      rw [List.mem_singleton.1 hb] at hw
      rw [(hmine w hw).1, fresh]
      exact Nat.le_of_lt (ledger.lt_nextId (mem_tickets_of_immediate (hv ▸ ha)))
    · intro source backlog hphase work hmem
      rcases List.mem_append.1 hmem with hmem | hmem
      · exact lines.apart source backlog hphase work hmem
      · obtain ⟨rfl, hrouted⟩ := hmine work (List.mem_singleton.1 hmem).symm
        rintro rfl
        have hrunning := running hrouted
        rw [show s.phase ticket.work.source = .replaying backlog from hphase] at hrunning
        cases hrunning
  | timed t event entry =>
    exact lines.of_sublist (List.Sublist.refl _) (fun _ backlog hphase => ⟨backlog, hphase⟩)
  | parked stall stalled =>
    exact lines.of_sublist (List.Sublist.refl _)
      (replaying_of_setPhase (s := s.issue) (fun backlog h => by cases h))
  | joined backlog replaying =>
    exact lines.of_sublist (List.Sublist.refl _)
      (replaying_of_setPhase (s := s.issue) (fun _ _ => ⟨backlog, replaying⟩))

/-- What is left of a backlog is in the order of the ids, and all of it is of one source. -/
theorem pairwise_leftover (own : (s.phase source).Of source) :
    ((leftover s source).map Event.routed).Pairwise Event.Before ∧
      ∀ work ∈ leftover s source, work.source = source := by
  rw [leftover_eq]
  unfold backlogOf
  cases hphase : s.phase source with
  | running => exact ⟨List.Pairwise.nil, fun work hmem => (by cases hmem)⟩
  | stalled stall => exact ⟨List.Pairwise.nil, fun work hmem => (by cases hmem)⟩
  | replaying backlog =>
    rw [hphase] at own
    constructor
    · refine List.pairwise_map.2 (List.Pairwise.filter _ (List.pairwise_map.2 ?_))
      refine backlog.ordered.imp_of_mem ?_
      intro a b ha hb hle v w hv hw _
      cases hv
      cases hw
      rw [← (own.parked a ha).1, ← (own.parked b hb).1]
      exact hle
    · intro work hmem
      obtain ⟨e, he, rfl⟩ := List.mem_map.1 (List.mem_of_mem_filter hmem)
      exact (own.parked e he).2

/-- A source whose replay ends runs, unless it was stalled again. -/
def Phase.closed {α : Type} : Phase α → Phase α
  | .replaying _ => .running
  | phase => phase

theorem phase_closeReplay (s : Simulation (Action n)) (source other : Source) (release : Instant)
    (timers : Agenda Origin (Work (Action n))) :
    (s.closeReplay source release timers).phase other =
      if source = other then (s.phase source).closed else s.phase other := by
  rw [closeReplay_eq]
  unfold closedPhases
  split
  · rename_i backlog hphase
    rw [hphase]
    exact Simulation.phase_setPhase s source other .running
  · rename_i hphase
    split
    · rename_i heq
      show s.phase other = _
      rw [← heq]
      cases h : s.phase source with
      | replaying backlog => exact absurd h (hphase backlog)
      | running => rfl
      | stalled stall => rfl
    · rfl

/-- Whoever is being replayed when a replay ends was so before. -/
theorem replaying_of_close {release : Instant} {timers : Agenda Origin (Work (Action n))}
    {other : Source} {backlog : Agenda EventId (Work (Action n))}
    (replaying : (s.closeReplay source release timers).phase other = .replaying backlog) :
    source ≠ other ∧ s.phase other = .replaying backlog := by
  rw [phase_closeReplay] at replaying
  split at replaying
  · cases hold : s.phase source <;> rw [hold] at replaying <;> cases replaying
  · exact ⟨‹_›, replaying⟩

/-- The rest of a backlog goes back to the calendar, where none of its source waits. -/
theorem Lines.close (lines : Lines s) (stalls : Stalls s) (source : Source) (release : Instant)
    (timers : Agenda Origin (Work (Action n))) : Lines (s.closeReplay source release timers) := by
  obtain ⟨hordered, hsource⟩ := pairwise_leftover (stalls.own source)
  have himmediate : (s.closeReplay source release timers).calendar.immediate =
      s.calendar.immediate ++ (leftover s source).map .routed := by
    rw [closeReplay_eq]
  constructor
  · rw [himmediate]
    refine List.pairwise_append.2 ⟨lines.fifo, hordered, ?_⟩
    intro a ha b hb v w hv hw hsame
    obtain ⟨_, hx, rfl⟩ := List.mem_map.1 hb
    cases hw
    have hback : ∃ backlog, s.phase source = .replaying backlog := by
      unfold leftover at hx
      split at hx
      · rename_i backlog hphase
        exact ⟨backlog, hphase⟩
      · cases hx
    obtain ⟨backlog, hphase⟩ := hback
    exact absurd (hsame.trans (hsource _ hx)) (lines.apart source backlog hphase v (hv ▸ ha))
  · intro other backlog hphase work hmem
    obtain ⟨hother, hback⟩ := replaying_of_close hphase
    rw [himmediate] at hmem
    rcases List.mem_append.1 hmem with hmem | hmem
    · exact lines.apart other backlog hback work hmem
    · obtain ⟨_, hx, heq⟩ := List.mem_map.1 hmem
      cases heq
      exact fun h => hother ((hsource _ hx).symm.trans h)

/-- **Moves keep the immediate events in order.** -/
theorem Lines.move (lines : Lines st.sim) (stalls : Stalls st.sim) (ledger : Ledger log st)
    (move : Move log st new st') : Lines st'.sim := by
  cases move with
  | accept s s' r ticket admits =>
    exact lines.lodge ledger admits.fresh (admits.eq ▸ placed_lodge s ticket)
  | stall s r source release backlog known inTime active carried =>
    exact lines.of_sublist (List.Sublist.refl _) (replaying_of_setPhase (fun _ h => by cases h))
  | drop s turn event rest taken cancelled =>
    exact lines.of_sublist (Calendar.immediate_sublist_of_next? taken)
      (fun _ backlog hphase => ⟨backlog, hphase⟩)
  | intercept s turn work rest stall taken live stalled =>
    exact lines.of_sublist (Calendar.immediate_sublist_of_next? taken)
      (replaying_of_setPhase (s := s.take turn rest) (fun _ h => by cases h))
  | start s turn event work rest taken isWork live free =>
    exact lines.of_sublist (Calendar.immediate_sublist_of_next? taken)
      (fun _ backlog hphase => ⟨backlog, hphase⟩)
  | release s turn id source rest stall taken live stalled =>
    -- a release is taken when no immediate work waits
    obtain ⟨-, -, hnone, -, -⟩ := stalls.release_taken taken
    constructor
    · show rest.immediate.Pairwise Event.Before
      rw [hnone]
      exact List.Pairwise.nil
    · intro other backlog hphase work hmem
      have hmem' : .routed work ∈ rest.immediate := hmem
      rw [hnone] at hmem'
      cases hmem'
  | stale s turn id source rest taken live free =>
    exact lines.of_sublist (Calendar.immediate_sublist_of_next? taken)
      (fun _ backlog hphase => ⟨backlog, hphase⟩)
  | skip s r key work backlog rest replaying taken cancelled =>
    exact lines.of_sublist (List.Sublist.refl _)
      (replaying_of_setPhase (fun _ _ => ⟨backlog, replaying⟩))
  | drain s r key work backlog rest replaying taken live =>
    exact lines.of_sublist (List.Sublist.refl _)
      (replaying_of_setPhase (fun _ _ => ⟨backlog, replaying⟩))
  | close s r => exact lines.close stalls r.source r.release r.timers
  | _ => exact lines.of_sublist (List.Sublist.refl _) (fun _ backlog hphase => ⟨backlog, hphase⟩)

/-- **Along every course the immediate work of each source is in order.** -/
theorem Course.lines (course : Course log st) : Lines st.sim := by
  induction course with
  | create config => exact ⟨List.Pairwise.nil, fun _ _ hphase => (by cases hphase)⟩
  | move course move ih => exact ih.move course.schedule.2 course.ledger move

/-- Where an accepted submission waits, no other source comes to have a backlog. -/
theorem replaying_of_placed {ticket : Ticket n} (placed : Placed s ticket s') {other : Source}
    {backlog : Agenda EventId (Work (Action n))} (replaying : s'.phase other = .replaying backlog) :
    ∃ b, s.phase other = .replaying b := by
  cases placed with
  | immediate event entry running => exact ⟨backlog, replaying⟩
  | timed t event entry => exact ⟨backlog, replaying⟩
  | parked stall stalled =>
    exact replaying_of_setPhase (s := s.issue) (fun backlog h => by cases h) _ _ replaying
  | joined b before =>
    exact replaying_of_setPhase (s := s.issue) (fun _ _ => ⟨b, before⟩) _ _ replaying

/-- Without a panic, a backlog is that of the replay under way. -/
theorem Standing.Attended.move {other : Source} (attended : st.Attended other)
    (move : Move log st new st') (calm : new.Calm) : st'.Attended other := by
  intro backlog replaying
  have hsame : (∃ b, st.sim.phase other = .replaying b) →
      ∃ r, st.replay = some r ∧ r.source = other := fun ⟨b, hphase⟩ => attended b hphase
  cases move with
  | accept s s' r ticket admits =>
    exact hsame (replaying_of_placed (admits.eq ▸ placed_lodge s ticket) replaying)
  | stall s r source release b known inTime active carried =>
    exact hsame (replaying_of_setPhase (fun _ h => by cases h) _ _ replaying)
  | intercept s turn work rest stall taken live stalled =>
    exact hsame (replaying_of_setPhase (s := s.take turn rest) (fun _ h => by cases h) _ _
      replaying)
  | release s turn id source rest stall taken live stalled =>
    refine ⟨_, rfl, ?_⟩
    rw [Simulation.phase_setPhase] at replaying
    split at replaying
    · assumption
    · obtain ⟨x, hx, -⟩ := attended backlog replaying
      cases hx
  | skip s r key work b rest before taken cancelled =>
    exact hsame (replaying_of_setPhase (fun _ _ => ⟨b, before⟩) _ _ replaying)
  | drain s r key work b rest before taken live =>
    exact hsame (replaying_of_setPhase (s := s) (fun _ _ => ⟨b, before⟩) _ _ replaying)
  | close s r =>
    obtain ⟨hother, hback⟩ := replaying_of_close replaying
    obtain ⟨x, hx, hsource⟩ := attended backlog hback
    cases hx
    exact absurd hsource hother
  | unwind s r => exact absurd (List.mem_singleton.2 rfl) calm
  | _ => exact hsame ⟨backlog, replaying⟩

/-- **Along a course without a panic, the immediate work of each source is in order**, and only the
replay under way has a backlog. -/
theorem Course.queues (course : Course log st) (calm : log.Calm) : Queues st := by
  refine ⟨course.lines.fifo, ?_, course.lines.apart⟩
  induction course with
  | create config => exact fun _ _ hphase => (by cases hphase)
  | move course move ih =>
    obtain ⟨hlog, hnew⟩ := Log.calm_append.1 calm
    exact fun source => Standing.Attended.move (ih hlog source) move hnew

/-- Outside of replays, all work of a source that runs is in the calendar. -/
theorem place_of_running (stalls : Stalls s) {ticket : Ticket n} (place : Place ⟨s, none⟩ ticket)
    (running : s.phase ticket.work.source = .running) :
    (∃ event ∈ s.calendar.immediate, event.ticket? none = some ticket) ∨
    ∃ k event, (k, event) ∈ s.calendar.timed.toList ∧ event.ticket? (some k) = some ticket := by
  cases place with
  | immediate event ticket mem entry => exact .inl ⟨event, mem, entry⟩
  | timed k event ticket mem entry => exact .inr ⟨k, event, mem, entry⟩
  | parked source stall e stalled mem =>
    have hown := stalls.own source
    rw [show s.phase source = .stalled stall from stalled] at hown
    rw [(hown.parked e mem).2, show s.phase source = .stalled stall from stalled] at running
    cases running
  | held source stall e stalled mem =>
    have hown := stalls.own source
    rw [show s.phase source = .stalled stall from stalled] at hown
    rw [(hown.timers e mem).2, show s.phase source = .stalled stall from stalled] at running
    cases running
  | backlog source backlog e replaying mem =>
    have hown := stalls.own source
    rw [show s.phase source = .replaying backlog from replaying] at hown
    rw [(hown.parked e mem).2, show s.phase source = .replaying backlog from replaying] at running
    cases running
  | replayed r e replay mem => cases replay

end StallSim
