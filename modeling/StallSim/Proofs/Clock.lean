import StallSim.Proofs.Pauses
import StallSim.Proofs.Steps

/-!
# The clock leaves nothing behind

The clock moves only when the event with the least turn is taken, and only to the time of that turn.
So no work is overdue: when the clock moves on, whatever could have run before has run.

* `Advance` — what is true when the clock of a simulation is about to move to an instant.

Principal results: `advance_of_move`, `time_of_move`, `timer_of_move` — in one move;
`clock_leaves_nothing` — in every history without a panic.
-/

set_option autoImplicit false

namespace StallSim

variable {n : Nat}

/-- The clock can move to `t`: no immediate work waits, all work of sources that are not stalled is
due at `t` at the earliest, and no stall ends before `t`. -/
structure Advance (log : Log n) (s : Simulation (Action n)) (t : Instant) : Prop where
  later : s.now < t
  immediate : s.calendar.immediate = []
  due : ∀ ticket, Outstanding log s ticket →
    (s.phase ticket.work.source).isStalled = false → ∃ d, ticket.due = some d ∧ t ≤ d
  stalled : ∀ source stall, s.phase source = .stalled stall → t ≤ stall.release

section Moves

variable {log new : Log n} {st st' : Standing n} {s : Simulation (Action n)}

/-- When an event is taken, the clock shows the time of its turn, if it has one. -/
theorem Timely.taken_of_moved (timely : Timely ⟨s, none⟩) {turn : Option Turn}
    {event : Event (Action n)} {rest : Calendar (Action n)}
    (taken : s.calendar.next? = some ((turn, event), rest))
    (moved : (s.take turn rest).now ≠ s.now) : ∃ k event rest,
      s.calendar.next? = some ((some k, event), rest) ∧ (s.take turn rest).now = k.time := by
  have hnow := timely.now_take taken
  cases turn with
  | none => exact absurd rfl moved
  | some k => exact ⟨k, event, _, taken, hnow⟩

/-- The clock moves only when a timed event is taken, outside of replays. -/
theorem taken_of_moved (timely : Timely st) (move : Move log st new st')
    (moved : st'.sim.now ≠ st.sim.now) : st.replay = none ∧ ∃ k event rest,
      st.sim.calendar.next? = some ((some k, event), rest) ∧ st'.sim.now = k.time := by
  cases move with
  | accept s s' r ticket admits =>
    refine absurd ?_ moved
    show s'.now = s.now
    rw [admits.eq, now_lodge]
  | intercept s turn work rest stall taken => exact ⟨rfl, timely.taken_of_moved taken moved⟩
  | start s turn event work rest taken => exact ⟨rfl, timely.taken_of_moved taken moved⟩
  | release s turn id source rest stall taken => exact ⟨rfl, timely.taken_of_moved taken moved⟩
  | stale s turn id source rest taken => exact ⟨rfl, timely.taken_of_moved taken moved⟩
  | close s r =>
    refine absurd ?_ moved
    show (s.closeReplay r.source r.release r.timers).now = s.now
    rw [closeReplay_eq]
  | _ => exact absurd rfl moved

/-- A timed event whose turn comes after the clock was not replayed at this instant, and was first
due at the time of its turn. -/
theorem Proper.origin_eq {now : Instant} {k : Turn} {event : Event (Action n)}
    (proper : Proper now k event) (later : now ≠ k.time) : k.origin = k.time := by
  cases proper with
  | due t event ahead => rfl
  | replayed origin work own past => exact absurd rfl later

/-- **The clock leaves nothing behind**, in one move. -/
theorem advance_of_move (course : Course log st) (calm : log.Calm) (move : Move log st new st')
    (moved : st'.sim.now ≠ st.sim.now) : Advance log st.sim st'.sim.now := by
  have hledger := course.ledger
  obtain ⟨htimely, hstalls⟩ := course.schedule
  have hqueues := course.queues calm
  obtain ⟨hreplay, k, event, rest, hnext, hnow⟩ := taken_of_moved htimely move moved
  obtain ⟨s, r⟩ := st
  dsimp only at hreplay hnext moved ⊢
  subst hreplay
  obtain ⟨himmediate, hk, hleast⟩ := Calendar.least_of_next? hnext
  have hmin : ∀ e ∈ s.calendar.timed.toList, k.time ≤ e.1.time := by
    intro e he
    exact Turn.time_le_of_le (hleast e he)
  rw [hnow] at moved ⊢
  have hlater : s.now < k.time := by
    have hle : s.now ≤ k.time := (htimely.proper _ hk).now_le
    rw [Instant.le_def] at hle
    rw [Instant.lt_def]
    exact Nat.lt_of_le_of_ne hle (fun heq => moved (Instant.toNat_inj.1 heq.symm))
  refine ⟨hlater, himmediate, ?_, ?_⟩
  · intro ticket hout hfree
    obtain ⟨hwaits, -⟩ := (hledger.outstanding_iff calm).1 hout
    have hrunning := running_of_idle (hqueues.replaying _) hfree
    rcases place_of_running hstalls (place_of_mem hwaits) hrunning with
      ⟨event, hmem, -⟩ | ⟨l, event, hmem, hentry⟩
    · rw [himmediate] at hmem
      cases hmem
    · refine ⟨l.origin, Event.due_of_ticket? hentry, ?_⟩
      have hle := hmin _ hmem
      have hown : Proper s.now l event := htimely.proper _ hmem
      rw [hown.origin_eq]
      · exact hle
      · rintro heq
        rw [Instant.lt_def] at hlater
        rw [Instant.le_def] at hle
        dsimp only at hle
        rw [← heq] at hle
        omega
  · intro source stall hstalled
    obtain ⟨turn, hmem⟩ := hstalls.pending source stall hstalled
    obtain ⟨stall', hstalled', hrelease, -⟩ := hstalls.release _ hmem
    rw [hstalled] at hstalled'
    cases hstalled'
    obtain ⟨id, hrel⟩ := Calendar.mem_releases.1 hmem
    rw [hrelease]
    exact hmin _ hrel

/-- A ticket that leaves the list was on it once. -/
theorem Ledger.not_mem_of_perm (ledger : Ledger log st) {rest : List (Ticket n)} {ticket : Ticket n}
    (perm : st.tickets.Perm (rest ++ [ticket])) {other : Ticket n} (mem : other ∈ rest) :
    other.work.id ≠ ticket.work.id := by
  have hnodup := (perm.map (fun ticket => ticket.work.id)).nodup_iff.1 ledger.nodup_tickets
  rw [List.map_append, List.nodup_append] at hnodup
  exact hnodup.2.2 _ (List.mem_map_of_mem mem) _ (List.mem_map_of_mem (List.mem_singleton.2 rfl))

theorem Event.ticket?_of_work? {event : Event (Action n)} {work : Work (Action n)}
    (isWork : event.work? = some work) (turn : Option Turn) :
    ∃ ticket, event.ticket? turn = some ticket ∧ ticket.work = work := by
  cases event with
  | direct w =>
    cases isWork
    exact ⟨_, rfl, rfl⟩
  | routed w =>
    cases isWork
    exact ⟨_, rfl, rfl⟩
  | release id source => cases isWork

/-- Work that leaves its place waits nowhere in the calendar that is left. -/
theorem Ledger.not_timed (ledger : Ledger log st) {st' : Standing n} {ticket : Ticket n}
    (perm : st.tickets.Perm (st'.tickets ++ [ticket])) {k : Turn} {event : Event (Action n)}
    (isWork : event.work? = some ticket.work) :
    (k, event) ∉ st'.sim.calendar.timed.toList := by
  intro hmem
  obtain ⟨other, hentry, hwork⟩ := Event.ticket?_of_work? isWork (some k)
  exact ledger.not_mem_of_perm perm (mem_tickets_of_timed hmem hentry) (by rw [hwork])

/-- An action starts at the time of its turn, if it waited for one. -/
theorem time_of_move (course : Course log st) (move : Move log st new st')
    {work : Work (Action n)} {time : Instant} (start : .started work time ∈ new) :
    time = st'.sim.now ∧ ∀ k event, (k, event) ∈ st.sim.calendar.timed.toList →
      event.work? = some work → k.time = time := by
  have hledger := course.ledger
  obtain ⟨htimely, -⟩ := course.schedule
  cases move.begins start with
  | start s turn event work rest taken isWork live free =>
    refine ⟨rfl, ?_⟩
    intro k other hmem hother
    obtain ⟨ticket, hentry, rfl⟩ := Event.ticket?_of_work? isWork turn
    have hperm : (⟨s, none⟩ : Standing n).tickets.Perm
        ((⟨s.take turn rest, none⟩ : Standing n).tickets ++ [ticket]) := by
      have htake := tickets_take taken
      rw [tickets_of_idle, tickets_of_idle]
      rwa [hentry] at htake
    have hnot := hledger.not_timed hperm (k := k) hother
    rcases Calendar.next?_cases taken with ⟨rfl, -, htimed⟩ | ⟨l, rfl, -, -, htimed, -⟩
    · exact absurd (htimed ▸ hmem) hnot
    · dsimp only at hmem
      rw [htimed] at hmem
      rcases List.mem_cons.1 hmem with heq | hmem
      · cases heq
        exact (htimely.now_take taken).symm
      · exact absurd hmem hnot
  | drain s r key work backlog rest replaying taken live =>
    have hperm := tickets_replayed hledger.rostered.distinct hledger.rostered.known replaying
      taken (some r)
    exact ⟨rfl, fun k other hmem hother => absurd hmem (hledger.not_timed hperm hother)⟩

/-- A stall that lasts over an instant which is over, of a source that is not stalled, is over. -/
theorem Chronicle.lt_now (chronicle : Chronicle log.pauses ⟨s, none⟩) {source : Source}
    (free : (s.phase source).isStalled = false) {d : Instant}
    (covered : Covered log.pauses source d) : d < s.now := by
  obtain ⟨p, hp, rfl, -, hlt⟩ := covered
  rcases chronicle.ended p hp with hover | ⟨stall, hstalled, -⟩
  · exact Nat.lt_of_lt_of_le hlt hover
  · rw [show s.phase p.source = .stalled stall from hstalled] at free
    cases free

/-- Only routed timers are replayed: any other is due at its turn. -/
theorem turn_of_direct (timely : Timely st) {k : Turn} {work : Work (Action n)}
    (queued : (k, .direct work) ∈ st.sim.calendar.timed.toList) : k.origin = k.time := by
  have hproper : Proper st.sim.now k (.direct work) := timely.proper _ queued
  cases hproper with
  | due t event ahead => rfl

/-- A routed timer whose turn comes was first due at its turn, unless a stall lasted over that
instant; then its turn comes at the end of a stall. -/
theorem turn_of_routed (timely : Timely ⟨s, none⟩) (chronicle : Chronicle log.pauses ⟨s, none⟩)
    {k : Turn} {work : Work (Action n)} (queued : (k, .routed work) ∈ s.calendar.timed.toList)
    (free : (s.phase work.source).isStalled = false) :
    (Covered log.pauses work.source k.origin →
      k.origin < k.time ∧ EndsAt log.pauses work.source k.time) ∧
    (¬ Covered log.pauses work.source k.origin → k.time = k.origin) := by
  have hproper : Proper s.now k (.routed work) := timely.proper _ queued
  have hle : s.now ≤ k.time := hproper.now_le
  have hover : Covered log.pauses work.source k.origin → k.origin < s.now := chronicle.lt_now free
  cases hband : k.band with
  | ordinary =>
    have hown : k.origin = k.time := by
      cases hproper with
      | due t event ahead => rfl
      | replayed origin work own past => cases hband
    refine ⟨?_, fun _ => hown.symm⟩
    intro hcovered
    -- the instant is not over yet, so no stall that is over can have lasted over it
    have hlt := hover hcovered
    rw [hown, Instant.lt_def] at hlt
    rw [Instant.le_def] at hle
    omega
  | replayed =>
    obtain ⟨hend, hwhen⟩ := chronicle.replayed k _ queued hband
    refine ⟨?_, fun hfree => (hwhen.resolve_left hfree).symm⟩
    intro hcovered
    exact ⟨Nat.lt_of_lt_of_le (hover hcovered) hle, hend⟩

/-- **A timer starts when it is due, or when a stall ends.**  A timer starts at the instant it was
asked for, unless it was handed in through its source and a stall of the source lasted over that
instant; then it starts later, at the end of a stall of the source. -/
theorem timer_of_move (course : Course log st) (move : Move log st new st') {ticket : Ticket n}
    {time : Instant} (start : .started ticket.work time ∈ new)
    (accepted : ticket ∈ log.accepted) {d : Instant} (due : ticket.due = some d) :
    (ticket.routed = true → Covered log.pauses ticket.work.source d →
      d < time ∧ EndsAt log.pauses ticket.work.source time) ∧
    (ticket.routed = false ∨ ¬ Covered log.pauses ticket.work.source d → time = d) := by
  have hledger := course.ledger
  obtain ⟨htimely, -⟩ := course.schedule
  obtain ⟨-, hturn⟩ := time_of_move course move start
  cases move.begins start with
  | start s turn event work rest taken isWork live free =>
    obtain ⟨other, hentry, hwork⟩ := Event.ticket?_of_work? isWork turn
    have hother := mem_tickets_of_taken taken hentry
    obtain rfl : other = ticket :=
      hledger.eq_of_id (hledger.accepted_of_mem hother) accepted (by rw [hwork])
    have horigin := Event.due_of_ticket? hentry
    rw [due] at horigin
    cases turn with
    | none => cases horigin
    | some k =>
      cases horigin
      obtain ⟨-, hk, -⟩ := Calendar.least_of_next? taken
      rw [← hturn k _ hk isWork]
      cases event with
      | direct work =>
        cases hentry
        exact ⟨fun hrouted => (by cases hrouted), fun _ => (turn_of_direct htimely hk).symm⟩
      | routed work =>
        cases hentry
        obtain ⟨hstalled, hfree⟩ := turn_of_routed htimely course.chronicle hk (free rfl)
        exact ⟨fun _ => hstalled, fun h => hfree (h.resolve_left (fun hdirect => by cases hdirect))⟩
      | release id source => cases isWork
  | drain s r key work backlog rest replaying taken live =>
    -- what a backlog holds is immediate work
    have hmem := mem_tickets_of_replayed hledger.rostered.distinct hledger.rostered.known replaying
      taken (some r)
    have heq := hledger.eq_of_id (hledger.accepted_of_mem hmem) accepted rfl
    rw [← heq] at due
    cases due

end Moves

/-- **The clock leaves nothing behind.**  In every history without a panic, no turn in the calendar
is over, and replayed timers wait for this very instant; the clock moves only forward, and only when
everything that could run before has run; an action that waited for a turn starts at its time; and a
timer starts at the instant it was asked for, unless it was handed in through its source and a stall
of the source lasted over that instant, and then at the end of a stall. -/
theorem clock_leaves_nothing {h new : List (Fin n × Happening n)} {m m' : Machine n}
    (hist : History h m) (free : PanicFree h) (next : Next m new m') (i : Fin n) :
    (∀ e ∈ (m.world.sim i).calendar.timed.toList, (m.world.sim i).now ≤ e.1.time ∧
      (e.1.band = .replayed → e.1.time = (m.world.sim i).now)) ∧
    ((m'.world.sim i).now ≠ (m.world.sim i).now →
      Advance (logOf i h) (m.world.sim i) (m'.world.sim i).now) ∧
    ∀ work time, (i, .started work time) ∈ new →
      time = (m'.world.sim i).now ∧
      (∀ e ∈ (m.world.sim i).calendar.timed.toList, e.2.work? = some work → e.1.time = time) ∧
      ∀ ticket ∈ (logOf i h).accepted, ticket.work = work → ∀ d, ticket.due = some d →
        (ticket.routed = true → Covered (logOf i h).pauses work.source d →
          d < time ∧ EndsAt (logOf i h).pauses work.source time) ∧
        (ticket.routed = false ∨ ¬ Covered (logOf i h).pauses work.source d → time = d) := by
  have hcourse := hist.course i
  obtain ⟨htimely, -⟩ := hcourse.schedule
  refine ⟨?_, ?_, ?_⟩
  · intro e he
    obtain ⟨k, event⟩ := e
    have hproper : Proper (m.world.sim i).now k event := htimely.proper _ he
    refine ⟨hproper.now_le, ?_⟩
    intro hband
    cases hproper with
    | due t event ahead => cases hband
    | replayed origin work own past => rfl
  · intro hmoved
    exact advance_of_move hcourse (free.calm i) (move_of_now_ne hist next hmoved) hmoved
  · intro work time hstart
    have hmove := move_of_started hist next hstart
    obtain ⟨htime, hturn⟩ := time_of_move hcourse hmove (mem_logOf.2 hstart)
    refine ⟨htime, fun e he hwork => hturn e.1 e.2 he hwork, ?_⟩
    intro ticket hmem hwork d hdue
    subst hwork
    exact timer_of_move hcourse hmove (mem_logOf.2 hstart) hmem hdue

/-- A timer that was parked starts at the end of the stall. -/
theorem clock_leaves_nothing_parked :
    PanicFree (stalledLog .sourceAt .run 6) ∧
    (0, .started ⟨⟨1⟩, .index 0, "", ⟨"", .done⟩⟩ ⟨10⟩) ∈
      (stalledWorld .sourceAt .run 6).happenings ∧
    Covered (logOf 0 (stalledLog .sourceAt .run 6)).pauses (.index 0) ⟨5⟩ ∧
    EndsAt (logOf 0 (stalledLog .sourceAt .run 6)).pauses (.index 0) ⟨10⟩ := by
  have hfree : PanicFree (stalledLog .sourceAt .run 6) := by decide
  have hstart : (0, .started ⟨⟨1⟩, .index 0, "", ⟨"", .done⟩⟩ ⟨10⟩) ∈
      (stalledWorld .sourceAt .run 6).happenings := by
    rw [show (stalledWorld .sourceAt .run 6).happenings =
      [(0, .started ⟨⟨1⟩, .index 0, "", ⟨"", .done⟩⟩ ⟨10⟩)] from rfl]
    exact List.mem_singleton.2 rfl
  have hcovered : Covered (logOf 0 (stalledLog .sourceAt .run 6)).pauses (.index 0) ⟨5⟩ := by
    refine ⟨⟨.index 0, ⟨0⟩, ⟨10⟩⟩, ?_, rfl, by decide, by decide⟩
    rw [show (logOf 0 (stalledLog .sourceAt .run 6)).pauses = [⟨.index 0, ⟨0⟩, ⟨10⟩⟩] from rfl]
    exact List.mem_singleton.2 rfl
  have haccepted : (⟨⟨⟨1⟩, .index 0, "", ⟨"", .done⟩⟩, some ⟨5⟩, true⟩ : Ticket 1) ∈
      (logOf 0 (stalledLog .sourceAt .run 6)).accepted := by
    rw [show (logOf 0 (stalledLog .sourceAt .run 6)).accepted =
      [⟨⟨⟨0⟩, .index 0, "", ⟨"", .perform 0 (.stall (.index 0) (.at ⟨10⟩)) ⟨true, none⟩ .done⟩⟩,
        none, true⟩, ⟨⟨⟨1⟩, .index 0, "", ⟨"", .done⟩⟩, some ⟨5⟩, true⟩] from rfl]
    exact List.mem_cons_of_mem _ List.mem_cons_self
  obtain ⟨-, -, hstarts⟩ := clock_leaves_nothing (.stalled .sourceAt .run 6) hfree (.step _) 0
  obtain ⟨-, -, htimer⟩ := hstarts _ _ hstart
  exact ⟨hfree, hstart, hcovered, ((htimer _ haccepted rfl _ rfl).1 rfl hcovered).2⟩

/-- A timer that is handed in straight to the calendar starts when it is due, whether its source is
stalled or not. -/
theorem direct_timer_ignores_stall :
    ¬ ∀ (h new : List (Fin 1 × Happening 1)) (m m' : Machine 1), History h m → PanicFree h →
      Next m new m' → ∀ i work time, (i, .started work time) ∈ new →
      ∀ ticket ∈ (logOf i h).accepted, ticket.work = work → ∀ d, ticket.due = some d →
        Covered (logOf i h).pauses work.source d → EndsAt (logOf i h).pauses work.source time := by
  intro hall
  have hpauses : (logOf 0 (stalledLog .directAt .run 3)).pauses = [⟨.index 0, ⟨0⟩, ⟨10⟩⟩] := rfl
  have hstart : (0, .started ⟨⟨1⟩, .index 0, "", ⟨"", .done⟩⟩ ⟨5⟩) ∈
      (stalledWorld .directAt .run 3).happenings := by
    rw [show (stalledWorld .directAt .run 3).happenings =
      [(0, .started ⟨⟨1⟩, .index 0, "", ⟨"", .done⟩⟩ ⟨5⟩)] from rfl]
    exact List.mem_singleton.2 rfl
  have haccepted : (⟨⟨⟨1⟩, .index 0, "", ⟨"", .done⟩⟩, some ⟨5⟩, false⟩ : Ticket 1) ∈
      (logOf 0 (stalledLog .directAt .run 3)).accepted := by
    rw [show (logOf 0 (stalledLog .directAt .run 3)).accepted =
      [⟨⟨⟨0⟩, .index 0, "", ⟨"", .perform 0 (.stall (.index 0) (.at ⟨10⟩)) ⟨true, none⟩ .done⟩⟩,
        none, true⟩, ⟨⟨⟨1⟩, .index 0, "", ⟨"", .done⟩⟩, some ⟨5⟩, false⟩] from rfl]
    exact List.mem_cons_of_mem _ List.mem_cons_self
  have hcovered : Covered (logOf 0 (stalledLog .directAt .run 3)).pauses (.index 0) ⟨5⟩ := by
    rw [hpauses]
    exact ⟨_, List.mem_singleton.2 rfl, rfl, by decide, by decide⟩
  obtain ⟨p, hp, -, hrelease⟩ := hall _ _ _ _ (.stalled .directAt .run 3) (by decide) (.step _) 0 _
    _ hstart _ haccepted rfl _ rfl hcovered
  rw [hpauses, List.mem_singleton] at hp
  rw [hp] at hrelease
  cases hrelease

end StallSim
