import StallSim.Proofs.Queues
import StallSim.Proofs.Steps

/-!
# The order of the work of one source

The actions of one source start in the order in which a source that is never stalled would start
them: immediate work by id, then timers by the instant they were asked for and by id.  Stalling,
parking, replaying and stalling again do not disturb it.

* `Ticket.Precedes` — the order of the tickets of one source.

Principal results: `first_of_move`, `start_of_move` — in one move; `started_least` — in every
history.
-/

set_option autoImplicit false

namespace StallSim

variable {n : Nat}

/-- The order of the work of one source: immediate work before timers, immediate work by id,
timers by the instant they were asked for and by id. -/
def Ticket.Precedes (a b : Ticket n) : Prop :=
  match a.due, b.due with
  | none, none => a.work.id ≤ b.work.id
  | none, some _ => True
  | some _, none => False
  | some t, some u => (⟨t, a.work.id⟩ : Origin) ≤ ⟨u, b.work.id⟩

section Moves

variable {log new : Log n} {st st' : Standing n} {s : Simulation (Action n)}

/-- The order of turns is the order of the instants first due, where one of the events may be
replayed or not. -/
theorem Timely.first_le (timely : Timely st) {k l : Turn} {a b : Event (Action n)}
    (hk : (k, a) ∈ st.sim.calendar.timed.toList) (hl : (l, b) ∈ st.sim.calendar.timed.toList)
    (le : k ≤ l) : k.first ≤ l.first := by
  have hproper : Proper st.sim.now k a := timely.proper _ hk
  have hproper' : Proper st.sim.now l b := timely.proper _ hl
  cases hproper with
  | due t a ahead =>
    cases hproper' with
    | due u b ahead' => exact Turn.first_le_of_dueAt le
    | replayed origin work own past =>
      -- a replayed timer goes before whatever has a turn of its own
      rw [Turn.le_iff_toNat] at le
      rw [Instant.le_def] at ahead
      simp only [Turn.dueAt, Turn.replayedAt, Band.rank] at le
      omega
  | replayed origin work own past =>
    cases hproper' with
    | due u b ahead => exact timely.first origin (.inl ⟨_, hk, rfl, rfl⟩) _ hl rfl
    | replayed origin' work' own' past' =>
      rw [Turn.le_iff_toNat] at le
      rw [Turn.first_replayedAt, Turn.first_replayedAt, Origin.le_iff_toNat]
      simp only [Turn.replayedAt] at le
      omega

/-- Routed work that is taken from the calendar is the first of its source, if the source runs. -/
theorem precedes_of_taken (timely : Timely ⟨s, none⟩) (stalls : Stalls s) (lines : Lines s)
    {turn : Option Turn} {work : Work (Action n)} {rest : Calendar (Action n)}
    (taken : s.calendar.next? = some ((turn, .routed work), rest))
    (running : s.phase work.source = .running) {other : Ticket n}
    (waits : other ∈ (⟨s, none⟩ : Standing n).tickets) (routed : other.routed = true)
    (same : other.work.source = work.source) :
    (⟨work, turn.map Turn.origin, true⟩ : Ticket n).Precedes other := by
  have hplace := place_of_running stalls (place_of_mem waits) (same ▸ running)
  rcases Calendar.next?_cases taken with ⟨rfl, himmediate, -⟩ | ⟨k, rfl, -⟩
  · rcases hplace with ⟨event, hmem, hentry⟩ | ⟨k, event, hmem, hentry⟩
    · rw [himmediate] at hmem
      have hfifo := lines.fifo
      rw [himmediate, List.pairwise_cons] at hfifo
      cases event with
      | routed w =>
        cases hentry
        rcases List.mem_cons.1 hmem with heq | hmem
        · cases heq
          exact Nat.le_refl _
        · exact hfifo.1 _ hmem work w rfl rfl same.symm
      | direct w =>
        cases hentry
        cases routed
      | release id source => cases hentry
    · have hdue := Event.due_of_ticket? hentry
      unfold Ticket.Precedes
      rw [hdue]
      exact trivial
  · obtain ⟨hnone, hk, hleast⟩ := Calendar.least_of_next? taken
    rcases hplace with ⟨event, hmem, hentry⟩ | ⟨l, event, hmem, hentry⟩
    · rw [hnone] at hmem
      cases hmem
    · have hfirst := timely.first_le hk hmem (hleast _ hmem)
      have hid : k.id = work.id := (timely.proper _ hk).id_eq
      have hid' : l.id = other.work.id :=
        (timely.proper _ hmem).id_eq.trans (Event.id_of_ticket? hentry)
      have hdue := Event.due_of_ticket? hentry
      unfold Ticket.Precedes
      rw [hdue, ← hid, ← hid']
      exact hfirst

/-- Work that is taken from a backlog is the first of its source. -/
theorem precedes_of_replayed {r : Replay n} (stalls : Stalls s) (lines : Lines s) {key : EventId}
    {work : Work (Action n)} {backlog rest : Agenda EventId (Work (Action n))}
    (replaying : s.phase r.source = .replaying backlog)
    (taken : backlog.next? = some ((key, work), rest)) {other : Ticket n}
    (waits : other ∈ (⟨s, some r⟩ : Standing n).tickets) (routed : other.routed = true)
    (same : other.work.source = work.source) : (⟨work, none, true⟩ : Ticket n).Precedes other := by
  have hown := stalls.own r.source
  rw [replaying] at hown
  have hbacklog := Agenda.next?_eq_some_iff.1 taken
  have hhead : (key, work) ∈ backlog.toList := by
    rw [hbacklog]
    exact List.mem_cons_self
  obtain ⟨hkey, hsource⟩ := hown.parked _ hhead
  dsimp only at hkey hsource
  rw [hsource] at same
  have htimed : ∀ t, other.due = some t → (⟨work, none, true⟩ : Ticket n).Precedes other := by
    intro t hdue
    unfold Ticket.Precedes
    rw [hdue]
    exact trivial
  cases place_of_mem waits with
  | immediate event ticket mem entry =>
    cases event with
    | routed w =>
      cases entry
      exact absurd same (lines.apart r.source backlog replaying w mem)
    | direct w =>
      cases entry
      cases routed
    | release id source => cases entry
  | timed k event ticket mem entry => exact htimed _ (Event.due_of_ticket? entry)
  | parked source stall e stalled mem =>
    have hown' := stalls.own source
    rw [show s.phase source = .stalled stall from stalled] at hown'
    have heq : source = r.source := (hown'.parked e mem).2.symm.trans same
    have hphase : s.phase r.source = .stalled stall := heq ▸ stalled
    rw [replaying] at hphase
    cases hphase
  | held source stall e stalled mem => exact htimed _ rfl
  | backlog source backlog' e replaying' mem =>
    have hown' := stalls.own source
    rw [show s.phase source = .replaying backlog' from replaying'] at hown'
    have heq : source = r.source := (hown'.parked e mem).2.symm.trans same
    have hphase : s.phase r.source = .replaying backlog' := heq ▸ replaying'
    rw [replaying] at hphase
    cases hphase
    show work.id ≤ e.2.id
    rw [← hkey, ← (hown.parked e mem).1]
    rw [hbacklog] at mem
    rcases List.mem_cons.1 mem with rfl | hmem
    · exact Nat.le_refl _
    · exact Agenda.le_of_next?_eq_some taken hmem
  | replayed r' e replay mem => exact htimed _ rfl

/-- **What starts was the first of its source**, unless nobody replays a backlog of the source. -/
theorem first_of_move (course : Course log st) (move : Move log st new st')
    {work : Work (Action n)} {time : Instant} (start : .started work time ∈ new) :
    ∃ ticket ∈ st.tickets, ticket.work = work ∧ st.sim.isCancelled work.id = false ∧
      (ticket.routed = true → (st'.sim.phase work.source).isStalled = false) ∧
      (ticket.routed = true → st.Attended work.source → ∀ other ∈ st.tickets,
        other.routed = true → other.work.source = work.source → ticket.Precedes other) := by
  have hledger := course.ledger
  have hlines := course.lines
  obtain ⟨htimely, hstalls⟩ := course.schedule
  cases move.begins start with
  | start s turn event work rest taken isWork live free =>
    cases event with
    | direct w =>
      obtain rfl : w = work := Option.some.inj isWork
      exact ⟨⟨w, turn.map Turn.origin, false⟩, mem_tickets_of_taken taken rfl, rfl, live,
        fun h => (by cases h), fun h => (by cases h)⟩
    | routed w =>
      obtain rfl : w = work := Option.some.inj isWork
      refine ⟨⟨w, turn.map Turn.origin, true⟩, mem_tickets_of_taken taken rfl, rfl, live,
        fun _ => free rfl, fun _ attended other hwaits hrouted hsame => ?_⟩
      have hrunning := running_of_idle attended (free rfl)
      exact precedes_of_taken htimely hstalls hlines taken hrunning hwaits hrouted hsame
    | release id source => cases isWork
  | drain s r key work backlog rest replaying taken live =>
    refine ⟨⟨work, none, true⟩, mem_tickets_of_replayed hledger.rostered.distinct
      hledger.rostered.known replaying taken (some r), rfl, live, fun _ => ?_,
      fun _ _ other hwaits hrouted hsame => ?_⟩
    · have hsource := hstalls.source_of_replayed replaying taken
      show (((s.setPhase r.source (.replaying rest))).phase work.source).isStalled = false
      rw [Simulation.phase_setPhase, if_pos hsource.symm]
      rfl
    · exact precedes_of_replayed hstalls hlines replaying taken hwaits hrouted hsame

/-- **An action of a source starts in its turn.**  The move that starts it finds its source not
stalled, and no other work of the source that goes before it is still to be done. -/
theorem start_of_move (course : Course log st) (calm : log.Calm) (move : Move log st new st')
    {work : Work (Action n)} {time : Instant} (start : .started work time ∈ new) :
    ∃ ticket, Outstanding log st.sim ticket ∧ ticket.work = work ∧
      (ticket.routed = true → (st'.sim.phase work.source).isStalled = false ∧
        ∀ other, Outstanding log st.sim other → other.routed = true →
          other.work.source = work.source → ticket.Precedes other) := by
  have hwaits : ∀ ticket, Outstanding log st.sim ticket ↔
      ticket ∈ st.tickets ∧ st.sim.isCancelled ticket.work.id = false :=
    fun _ => course.ledger.outstanding_iff calm
  obtain ⟨ticket, hmem, rfl, hlive, hfree, hfirst⟩ := first_of_move course move start
  have hleast := fun hrouted => hfirst hrouted ((course.queues calm).replaying _)
  exact ⟨ticket, (hwaits ticket).2 ⟨hmem, hlive⟩, rfl, fun hrouted => ⟨hfree hrouted,
    fun other hother => hleast hrouted other ((hwaits other).1 hother).1⟩⟩

end Moves

/-- **The actions of one source start in order.**  Whenever an action starts, in any history without
a panic, its work was still to be done; and if it was handed in through its source, the source is
not stalled, and of all the work handed in through that source that was still to be done, this one
goes first. -/
theorem started_least {h new : List (Fin n × Happening n)} {m m' : Machine n}
    (hist : History h m) (free : PanicFree h) (next : Next m new m') {i : Fin n}
    {work : Work (Action n)} {time : Instant} (start : (i, .started work time) ∈ new) :
    ∃ ticket, Outstanding (logOf i h) (m.world.sim i) ticket ∧ ticket.work = work ∧
      (ticket.routed = true → ((m'.world.sim i).phase work.source).isStalled = false ∧
        ∀ other, Outstanding (logOf i h) (m.world.sim i) other → other.routed = true →
          other.work.source = work.source → ticket.Precedes other) :=
  start_of_move (hist.course i) (free.calm i) (move_of_started hist next start)
    (mem_logOf.2 start)

/-- A timer that was parked and replayed starts in its turn. -/
theorem started_least_of_parked :
    PanicFree (stalledLog .sourceAt .run 6) ∧
    (0, .started ⟨⟨1⟩, .index 0, "", ⟨"", .done⟩⟩ ⟨10⟩) ∈
      (stalledWorld .sourceAt .run 6).happenings ∧
    ∃ ticket, Outstanding (logOf 0 (stalledLog .sourceAt .run 6))
        ((stalledWorld .sourceAt .run 6).world.sim 0) ticket ∧
      ticket.work = ⟨⟨1⟩, .index 0, "", ⟨"", .done⟩⟩ ∧
      (ticket.routed = true →
        (((stalledWorld .sourceAt .run 6).step.world.sim 0).phase (.index 0)).isStalled = false ∧
        ∀ other, Outstanding (logOf 0 (stalledLog .sourceAt .run 6))
            ((stalledWorld .sourceAt .run 6).world.sim 0) other → other.routed = true →
          other.work.source = .index 0 → ticket.Precedes other) := by
  have hfree : PanicFree (stalledLog .sourceAt .run 6) := by decide
  have hstart : (0, .started ⟨⟨1⟩, .index 0, "", ⟨"", .done⟩⟩ ⟨10⟩) ∈
      (stalledWorld .sourceAt .run 6).happenings := by
    rw [show (stalledWorld .sourceAt .run 6).happenings =
      [(0, .started ⟨⟨1⟩, .index 0, "", ⟨"", .done⟩⟩ ⟨10⟩)] from rfl]
    exact List.mem_singleton.2 rfl
  exact ⟨hfree, hstart, started_least (.stalled .sourceAt .run 6) hfree (.step _) hstart⟩

end StallSim
