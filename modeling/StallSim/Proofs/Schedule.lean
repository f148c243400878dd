import StallSim.Proofs.Ledger

/-!
# The schedule of a simulation

What every course keeps true of the turns in the calendar, of the timers that a release has delayed,
and of the stalls that releases end.

* `Proper` — a turn says when its event is due, or that a release at this very instant replays it.
* `Timely` — turns are proper, the timers of a replay are overdue, and delayed timers go before
  everything that waits for a turn of its own.
* `Stalls` — a source is stalled if and only if one release of it waits, for the instant at which
  the stall ends, behind all timers that are parked.

Principal result: `Timely.move` — every move keeps the turns proper and the delayed timers first.
-/

set_option autoImplicit false

namespace StallSim

variable {n : Nat}

/-! ## Turns -/

/-- The place of a timed event by the instant it was first due, and its id. -/
def Turn.first (turn : Turn) : Origin := ⟨turn.origin, turn.id⟩

theorem Turn.first_dueAt (t : Instant) (id : EventId) : (Turn.dueAt t id).first = ⟨t, id⟩ := rfl

theorem Turn.first_replayedAt (t : Instant) (origin : Origin) :
    (Turn.replayedAt t origin).first = origin := rfl

/-- Events with turns of their own go by the instants at which they were first due. -/
theorem Turn.first_le_of_dueAt {t u : Instant} {i j : EventId}
    (le : Turn.dueAt t i ≤ Turn.dueAt u j) : (⟨t, i⟩ : Origin) ≤ ⟨u, j⟩ := by
  rw [Turn.le_iff_toNat] at le
  rw [Origin.le_iff_toNat]
  simp only [Turn.dueAt, Band.rank] at le ⊢
  omega

theorem Turn.time_le_of_le {k l : Turn} (le : k ≤ l) : k.time ≤ l.time := by
  rw [Turn.le_iff_toNat] at le
  rw [Instant.le_def]
  omega

/-- The turn of an event, while the clock shows `now`: it is due at an instant that is not over, or
a release at `now` replays it. -/
inductive Proper (now : Instant) : Turn → Event (Action n) → Prop where
  | due (t : Instant) (event : Event (Action n)) (ahead : now ≤ t) :
      Proper now (.dueAt t event.id) event
  | replayed (origin : Origin) (work : Work (Action n)) (own : origin.id = work.id)
      (past : origin.due ≤ now) : Proper now (.replayedAt now origin) (.routed work)

section Proper

variable {now : Instant} {turn : Turn} {event : Event (Action n)}

theorem Proper.now_le (proper : Proper now turn event) : now ≤ turn.time := by
  cases proper with
  | due t event ahead => exact ahead
  | replayed origin work own past => exact Nat.le_refl _

theorem Proper.id_eq (proper : Proper now turn event) : turn.id = event.id := by
  cases proper with
  | due t event ahead => rfl
  | replayed origin work own past => exact own

theorem Proper.origin_le (proper : Proper now turn event) : turn.origin ≤ turn.time := by
  cases proper with
  | due t event ahead => exact Nat.le_refl _
  | replayed origin work own past => exact past

/-- A release has a turn of its own. -/
theorem Proper.of_release {id : EventId} {source : Source}
    (proper : Proper (n := n) now turn (.release id source)) : turn = .dueAt turn.time id := by
  cases proper
  rfl

/-- The clock moves on to the turn of the event that is taken. -/
theorem Proper.advance (proper : Proper now turn event) : now.advance turn.time = turn.time := by
  have hle := proper.now_le
  rw [← Instant.toNat_inj, Instant.toNat_advance]
  rw [Instant.le_def] at hle
  omega

/-- When the clock moves on to the least turn, the others stay proper. -/
theorem Proper.later {turn' : Turn} {event' : Event (Action n)} (proper : Proper now turn event)
    (proper' : Proper now turn' event') (le : turn ≤ turn') : Proper turn.time turn' event' := by
  cases proper' with
  | due t event' ahead =>
    exact .due t event' (Turn.time_le_of_le le)
  | replayed origin work own past =>
    have htime : turn.time = now := by
      have hle := proper.now_le
      have hge := Turn.time_le_of_le le
      rw [Instant.le_def] at hle hge
      exact Instant.toNat_inj.1 (Nat.le_antisymm hge hle)
    rw [htime]
    exact .replayed origin work own past

end Proper

/-- The next event is the first of the immediate ones, or where there is none, the one with the
least turn. -/
theorem Calendar.next?_cases {c rest : Calendar (Action n)} {turn : Option Turn}
    {event : Event (Action n)} (taken : c.next? = some ((turn, event), rest)) :
    (turn = none ∧ c.immediate = event :: rest.immediate ∧ c.timed = rest.timed) ∨
    (∃ k, turn = some k ∧ c.immediate = [] ∧ rest.immediate = [] ∧
      c.timed.toList = (k, event) :: rest.timed.toList ∧
      ∀ e ∈ rest.timed.toList, k ≤ e.1) := by
  obtain ⟨_ | ⟨first, others⟩, timed⟩ := c
  · simp only [Calendar.next?, Option.map_eq_some_iff, Prod.mk.injEq] at taken
    obtain ⟨⟨⟨k, v⟩, later⟩, hnext, ⟨rfl, rfl⟩, rfl⟩ := taken
    exact .inr ⟨k, rfl, rfl, rfl, Agenda.next?_eq_some_iff.1 hnext,
      fun e he => Agenda.le_of_next?_eq_some hnext he⟩
  · simp only [Calendar.next?, Option.some.injEq, Prod.mk.injEq] at taken
    obtain ⟨⟨rfl, rfl⟩, rfl⟩ := taken
    exact .inl ⟨rfl, rfl, rfl⟩

/-- An event that is taken under a turn has the least one, and no immediate event waits. -/
theorem Calendar.least_of_next? {c rest : Calendar (Action n)} {k : Turn} {event : Event (Action n)}
    (taken : c.next? = some ((some k, event), rest)) :
    c.immediate = [] ∧ (k, event) ∈ c.timed.toList ∧ ∀ e ∈ c.timed.toList, k ≤ e.1 := by
  rcases Calendar.next?_cases taken with ⟨hnone, -, -⟩ | ⟨l, hl, himmediate, -, htimed, hleast⟩
  · cases hnone
  cases hl
  rw [htimed]
  refine ⟨himmediate, List.mem_cons_self, ?_⟩
  intro e he
  rcases List.mem_cons.1 he with rfl | he
  · exact Std.le_refl k
  · exact hleast e he

theorem Calendar.timed_of_next? {c rest : Calendar (Action n)} {turn : Option Turn}
    {event : Event (Action n)} (taken : c.next? = some ((turn, event), rest))
    {e : Turn × Event (Action n)} (mem : e ∈ rest.timed.toList) : e ∈ c.timed.toList := by
  rcases Calendar.next?_cases taken with ⟨-, -, htimed⟩ | ⟨k, -, -, -, htimed, -⟩
  · rw [htimed]
    exact mem
  · rw [htimed]
    exact List.mem_cons_of_mem _ mem

/-! ## The invariants -/

/-- A timer that a release has delayed: it was first due, with its id, at this place. -/
def Standing.Delayed (st : Standing n) (origin : Origin) : Prop :=
  (∃ e ∈ st.sim.calendar.timed.toList, e.1.band = .replayed ∧ e.1.first = origin) ∨
    ∃ r, st.replay = some r ∧ ∃ e ∈ r.timers.toList, e.1 = origin

/-- The turns in the calendar are proper, and delayed timers go first. -/
structure Timely (st : Standing n) : Prop where
  proper : ∀ e ∈ st.sim.calendar.timed.toList, Proper st.sim.now e.1 e.2
  replay : ∀ r, st.replay = some r → r.release = st.sim.now ∧
    ∀ e ∈ r.timers.toList, e.1.id = e.2.id ∧ e.1.due ≤ st.sim.now
  first : ∀ origin, st.Delayed origin → ∀ e ∈ st.sim.calendar.timed.toList,
    e.1.band = .ordinary → origin ≤ e.1.first

/-- The immediate work a phase holds back, under its keys. -/
def Phase.parked {α : Type} : Phase α → List (EventId × Work α)
  | .running => []
  | .stalled stall => stall.immediate.toList
  | .replaying backlog => backlog.toList

/-- The timers a phase holds back, under their keys. -/
def Phase.timers {α : Type} : Phase α → List (Origin × Work α)
  | .stalled stall => stall.timers.toList
  | _ => []

/-- A phase holds back only work of its source, under the ids of the work. -/
structure Phase.Of (phase : Phase (Action n)) (source : Source) : Prop where
  parked : ∀ e ∈ phase.parked, e.1 = e.2.id ∧ e.2.source = source
  timers : ∀ e ∈ phase.timers, e.1.id = e.2.id ∧ e.2.source = source

/-- The source that an event releases, if it is a release. -/
def Event.released? {α : Type} : Event α → Option Source
  | .release _ source => some source
  | _ => none

/-- The turns of the releases that wait, each with its source. -/
def Calendar.releases (c : Calendar (Action n)) : List (Turn × Source) :=
  c.timed.toList.filterMap (fun e => e.2.released?.map (fun source => (e.1, source)))

/-- Stalls and the releases that end them. -/
structure Stalls (s : Simulation (Action n)) : Prop where
  own : ∀ source, (s.phase source).Of source
  urgent : ∀ event ∈ s.calendar.immediate, event.released? = none
  release : ∀ e ∈ s.calendar.releases, ∃ stall, s.phase e.2 = .stalled stall ∧
    stall.release = e.1.time ∧ ∀ timer ∈ stall.timers.toList, timer.1 ≤ e.1.first
  pending : ∀ source stall, s.phase source = .stalled stall →
    ∃ turn, (turn, source) ∈ s.calendar.releases
  single : (s.calendar.releases.map Prod.snd).Nodup

theorem Calendar.mem_releases {c : Calendar (Action n)} {turn : Turn} {source : Source} :
    (turn, source) ∈ c.releases ↔ ∃ id, (turn, .release id source) ∈ c.timed.toList := by
  unfold Calendar.releases
  rw [List.mem_filterMap]
  constructor
  · rintro ⟨⟨k, event⟩, hmem, heq⟩
    cases event with
    | release id other =>
      cases heq
      exact ⟨id, hmem⟩
    | direct work => cases heq
    | routed work => cases heq
  · rintro ⟨id, hmem⟩
    exact ⟨_, hmem, rfl⟩

/-- A release is not immediate: it is taken when its turn is the least. -/
theorem Stalls.release_taken {s : Simulation (Action n)} (stalls : Stalls s) {turn : Option Turn}
    {id : EventId} {source : Source} {rest : Calendar (Action n)}
    (taken : s.calendar.next? = some ((turn, .release id source), rest)) :
    ∃ k, turn = some k ∧ rest.immediate = [] ∧
      s.calendar.timed.toList = (k, .release id source) :: rest.timed.toList ∧
      ∀ e ∈ rest.timed.toList, k ≤ e.1 := by
  rcases Calendar.next?_cases taken with ⟨-, himmediate, -⟩ | ⟨k, hk, -, hrest, htimed, hleast⟩
  · have hmem : .release id source ∈ s.calendar.immediate := by
      rw [himmediate]
      exact List.mem_cons_self
    cases stalls.urgent _ hmem
  · exact ⟨k, hk, hrest, htimed, hleast⟩

/-! ## Turns stay proper -/

section Timely

variable {log new : Log n} {st st' : Standing n} {s s' : Simulation (Action n)}
  {r r' : Option (Replay n)}

/-- The ticket of a timed event is on the list. -/
theorem mem_tickets_of_timed {k : Turn} {event : Event (Action n)} {ticket : Ticket n}
    (mem : (k, event) ∈ st.sim.calendar.timed.toList)
    (entry : event.ticket? (some k) = some ticket) : ticket ∈ st.tickets := by
  refine List.mem_append_left _ (List.mem_append_left _ (List.mem_filterMap.2 ?_))
  refine ⟨(some k, event), List.mem_append_right _ ?_, entry⟩
  exact List.mem_map_of_mem (f := fun e : Turn × Event (Action n) => (some e.1, e.2)) mem

/-- A delayed timer is overdue, and older than any submission to come. -/
theorem Timely.delayed_lt (timely : Timely st) (ledger : Ledger log st) {origin : Origin}
    (delayed : st.Delayed origin) :
    origin.due ≤ st.sim.now ∧ origin.id.raw < st.sim.nextId := by
  rcases delayed with ⟨⟨k, event⟩, hmem, hband, rfl⟩ | ⟨r, hr, e, hmem, rfl⟩
  · have hproper : Proper st.sim.now k event := timely.proper _ hmem
    cases hproper with
    | due t event ahead => cases hband
    | replayed origin work own past =>
      refine ⟨past, ?_⟩
      rw [Turn.first_replayedAt, own]
      exact ledger.lt_nextId (mem_tickets_of_timed hmem rfl)
  · obtain ⟨-, htimers⟩ := timely.replay r hr
    obtain ⟨hid, hdue⟩ := htimers e hmem
    refine ⟨hdue, ?_⟩
    have hticket : (⟨e.2, some e.1.due, true⟩ : Ticket n) ∈ st.tickets := by
      apply List.mem_append_right
      rw [hr]
      exact List.mem_map_of_mem (f := fun e : Origin × Work (Action n) =>
        (⟨e.2, some e.1.due, true⟩ : Ticket n)) hmem
    rw [hid]
    exact ledger.lt_nextId hticket

/-- Events may leave the calendar, and a replay may be abandoned. -/
theorem Timely.of_subset (timely : Timely ⟨s, r⟩) (now : s'.now = s.now)
    (subset : ∀ e ∈ s'.calendar.timed.toList, e ∈ s.calendar.timed.toList)
    (replay : r' = r ∨ r' = none) : Timely ⟨s', r'⟩ := by
  have hreplay : ∀ x, r' = some x → r = some x := by
    intro x hx
    rcases replay with rfl | rfl
    · exact hx
    · cases hx
  refine ⟨?_, ?_, ?_⟩
  · intro e he
    rw [now]
    exact timely.proper e (subset e he)
  · intro x hx
    rw [now]
    exact timely.replay x (hreplay x hx)
  · intro origin hdelayed e he hband
    refine timely.first origin ?_ e (subset e he) hband
    rcases hdelayed with ⟨d, hd, hrest⟩ | ⟨x, hx, hrest⟩
    · exact .inl ⟨d, subset d hd, hrest⟩
    · exact .inr ⟨x, hreplay x hx, hrest⟩

/-- A new event that is due at `t` goes behind all delayed timers. -/
theorem Timely.post (timely : Timely ⟨s, r⟩) (ledger : Ledger log ⟨s, r⟩) {t : Instant}
    {event : Event (Action n)} (ahead : s.now ≤ t) (fresh : event.id = s.freshId)
    (now : s'.now = s.now)
    (calendar : s'.calendar = s.calendar.pushTimed (.dueAt t s.freshId) event) :
    Timely ⟨s', r⟩ := by
  have htimed : ∀ e, e ∈ s'.calendar.timed.toList ↔
      e = (.dueAt t s.freshId, event) ∨ e ∈ s.calendar.timed.toList := by
    intro e
    rw [calendar]
    exact Agenda.mem_insert
  refine ⟨?_, ?_, ?_⟩
  · intro e he
    rw [now]
    rcases (htimed e).1 he with rfl | he
    · rw [← fresh]
      exact .due t event ahead
    · exact timely.proper e he
  · intro x hx
    rw [now]
    exact timely.replay x hx
  · intro origin hdelayed e he hband
    have hold : Standing.Delayed ⟨s, r⟩ origin := by
      rcases hdelayed with ⟨d, hd, hreplayed, hfirst⟩ | hdelayed
      · rcases (htimed d).1 hd with rfl | hd
        · cases hreplayed
        · exact .inl ⟨d, hd, hreplayed, hfirst⟩
      · exact .inr hdelayed
    rcases (htimed e).1 he with rfl | he
    · obtain ⟨hdue, hid⟩ := timely.delayed_lt ledger hold
      rw [Turn.first_dueAt, Origin.le_iff_toNat]
      rw [Instant.le_def] at hdue ahead
      simp only [Simulation.freshId] at hdue hid ⊢
      omega
    · exact timely.first origin hold e he hband

/-- Taking an event moves the clock to its turn. -/
theorem Timely.now_take (timely : Timely ⟨s, none⟩) {turn : Option Turn}
    {event : Event (Action n)} {rest : Calendar (Action n)}
    (taken : s.calendar.next? = some ((turn, event), rest)) :
    (s.take turn rest).now = (turn.map Turn.time).getD s.now := by
  cases turn with
  | none => rfl
  | some k =>
    obtain ⟨-, hk, -⟩ := Calendar.least_of_next? taken
    exact (timely.proper _ hk).advance

theorem Timely.take (timely : Timely ⟨s, none⟩) {turn : Option Turn} {event : Event (Action n)}
    {rest : Calendar (Action n)} (taken : s.calendar.next? = some ((turn, event), rest)) :
    Timely ⟨s.take turn rest, none⟩ := by
  have hnow := timely.now_take taken
  refine ⟨?_, fun x hx => (by cases hx), ?_⟩
  · intro e he
    dsimp only
    rw [hnow]
    have hold := timely.proper e (Calendar.timed_of_next? taken he)
    cases turn with
    | none => exact hold
    | some k =>
      obtain ⟨-, hk, hleast⟩ := Calendar.least_of_next? taken
      exact (timely.proper _ hk).later hold (hleast e (Calendar.timed_of_next? taken he))
  · intro origin hdelayed e he hband
    refine timely.first origin ?_ e (Calendar.timed_of_next? taken he) hband
    rcases hdelayed with ⟨d, hd, hrest⟩ | ⟨x, hx, hrest⟩
    · exact .inl ⟨d, Calendar.timed_of_next? taken hd, hrest⟩
    · cases hx

/-- A release that is taken delays the timers of its stall: they are older than all that waits. -/
theorem Timely.release (timely : Timely ⟨s, none⟩) (stalls : Stalls s) {turn : Option Turn}
    {id : EventId} {source : Source} {rest : Calendar (Action n)} {stall : Stall (Action n)}
    (taken : s.calendar.next? = some ((turn, .release id source), rest))
    (stalled : s.phase source = .stalled stall) :
    Timely ⟨(s.take turn rest).setPhase source (.replaying stall.immediate),
      some ⟨source, stall.release, stall.timers⟩⟩ := by
  have htake := timely.take taken
  have hnow := timely.now_take taken
  obtain ⟨k, rfl, -, htimed, hleast⟩ := stalls.release_taken taken
  have hmem : (k, .release id source) ∈ s.calendar.timed.toList := by
    rw [htimed]
    exact List.mem_cons_self
  have hproper : Proper s.now k (.release id source) := timely.proper _ hmem
  obtain ⟨stall', hstalled, hrelease, htimers⟩ :=
    stalls.release (k, source) (Calendar.mem_releases.2 ⟨id, hmem⟩)
  rw [stalled] at hstalled
  cases hstalled
  dsimp only [Option.map, Option.getD] at hnow
  refine ⟨htake.proper, ?_, ?_⟩
  · intro x hx
    cases hx
    dsimp only [Simulation.setPhase]
    rw [hnow]
    refine ⟨hrelease, fun e he => ⟨((stalls.own source).timers e ?_).1, ?_⟩⟩
    · rw [stalled]
      exact he
    · have hle := htimers e he
      have horigin := hproper.origin_le
      rw [Origin.le_iff_toNat] at hle
      rw [Instant.le_def] at horigin ⊢
      simp only [Turn.first] at hle
      omega
  · intro origin hdelayed e he hband
    rcases hdelayed with hdelayed | ⟨x, hx, timer, htimer, rfl⟩
    · exact htake.first origin (.inl hdelayed) e he hband
    · cases hx
      apply Std.le_trans (htimers timer htimer)
      have hother : Proper s.now e.1 e.2 := timely.proper e (Calendar.timed_of_next? taken he)
      have hle := hleast e he
      obtain ⟨l, event⟩ := e
      dsimp only at hband hother hle ⊢
      cases hother with
      | due t event ahead =>
        rw [hproper.of_release] at hle ⊢
        exact Turn.first_le_of_dueAt hle
      | replayed origin work own past => cases hband

/-- The timers of a replay that ends are replayed at the instant that the clock shows. -/
theorem Timely.close {r : Replay n} (timely : Timely ⟨s, some r⟩) :
    Timely ⟨s.closeReplay r.source r.release r.timers, none⟩ := by
  obtain ⟨hrelease, htimers⟩ := timely.replay r rfl
  have htimed : ∀ e, e ∈ (s.closeReplay r.source r.release r.timers).calendar.timed.toList →
      (∃ timer ∈ r.timers.toList, e = (.replayedAt s.now timer.1, .routed timer.2)) ∨
        e ∈ s.calendar.timed.toList := by
    intro e he
    rw [closeReplay_eq] at he
    rcases mem_repostedTimers.1 he with ⟨timer, htimer, rfl⟩ | he
    · rw [hrelease]
      exact .inl ⟨timer, List.mem_of_mem_filter htimer, rfl⟩
    · exact .inr he
  have hnow : (s.closeReplay r.source r.release r.timers).now = s.now := by rw [closeReplay_eq]
  refine ⟨?_, fun x hx => (by cases hx), ?_⟩
  · intro e he
    rw [hnow]
    rcases htimed e he with ⟨timer, htimer, rfl⟩ | he
    · exact .replayed timer.1 timer.2 (htimers timer htimer).1 (htimers timer htimer).2
    · exact timely.proper e he
  · intro origin hdelayed e he hband
    have hold : Standing.Delayed ⟨s, some r⟩ origin := by
      rcases hdelayed with ⟨d, hd, hreplayed, hfirst⟩ | ⟨x, hx, -⟩
      · rcases htimed d hd with ⟨timer, htimer, rfl⟩ | hd
        · exact .inr ⟨r, rfl, timer, htimer, hfirst⟩
        · exact .inl ⟨d, hd, hreplayed, hfirst⟩
      · cases hx
    rcases htimed e he with ⟨timer, htimer, rfl⟩ | he
    · cases hband
    · exact timely.first origin hold e he hband

theorem Timely.move (timely : Timely st) (stalls : Stalls st.sim) (ledger : Ledger log st)
    (move : Move log st new st') : Timely st' := by
  cases move with
  | accept s s' r ticket admits =>
    have hplaced := placed_lodge s ticket
    rw [← admits.eq] at hplaced
    cases hplaced with
    | immediate event entry => exact timely.of_subset rfl (fun _ he => he) (.inl rfl)
    | timed t event entry =>
      have hdue : ticket.due = some t := Event.due_of_ticket? entry
      have hid := Event.id_of_ticket? entry
      rw [admits.fresh] at hid ⊢
      exact timely.post ledger (admits.inTime t hdue) hid rfl rfl
    | parked stall stalled routed => exact timely.of_subset rfl (fun _ he => he) (.inl rfl)
    | joined backlog replaying => exact timely.of_subset rfl (fun _ he => he) (.inl rfl)
  | stall s r source release backlog known inTime active carried =>
    exact timely.post ledger inTime rfl rfl rfl
  | drop s turn event rest taken cancelled =>
    exact timely.of_subset rfl (fun _ he => Calendar.timed_of_next? taken he) (.inl rfl)
  | intercept s turn work rest stall taken live stalled =>
    exact (timely.take taken).of_subset rfl (fun _ he => he) (.inl rfl)
  | start s turn event work rest taken isWork live free =>
    exact (timely.take taken).of_subset rfl (fun _ he => he) (.inl rfl)
  | release s turn id source rest stall taken live stalled =>
    exact timely.release stalls taken stalled
  | stale s turn id source rest taken live free => exact timely.take taken
  | close s r => exact timely.close
  | unwind s r => exact timely.of_subset rfl (fun _ he => he) (.inr rfl)
  | _ => exact timely.of_subset rfl (fun _ he => he) (.inl rfl)

end Timely

end StallSim
