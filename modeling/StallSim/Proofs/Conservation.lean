import StallSim.Proofs.Pauses
import StallSim.Proofs.Steps

/-!
# No work is lost and none is done twice

At rest, the pending events of a simulation are the work that is still to be done, each listed once
with the instant at which it will run as far as that is known, and one release for each stalled
source.

* `Shown` — the instant under which the work of a ticket is listed.
* `Simulation.listing` — the tickets that wait, each with that instant.
* `ReleaseEntry` — how the release of a stalled source is listed.

Principal results: `pendingEvents_perm` — what an observer sees, in terms of tickets;
`pendingEvents_exact` — in every history without a panic.
-/

set_option autoImplicit false

namespace StallSim

variable {n : Nat}

/-- The work of a ticket as an observer sees it, to run at `time`. -/
def Ticket.pending (ticket : Ticket n) (time : Option Instant) : Pending :=
  ⟨ticket.work.id, time, ticket.work.source, ticket.work.description⟩

/-- The instant under which waiting work is listed: none for immediate work, its own for a timer
that waits for its own turn, and the end of the stall for a timer that is parked or replayed. -/
inductive Shown (log : Log n) (s : Simulation (Action n)) (ticket : Ticket n) :
    Option Instant → Prop where
  | immediate (untimed : ticket.due = none) : Shown log s ticket none
  | own (t : Instant) (event : Event (Action n)) (timed : ticket.due = some t)
      (isWork : event.work? = some ticket.work)
      (queued : (.dueAt t ticket.work.id, event) ∈ s.calendar.timed.toList) :
      Shown log s ticket (some t)
  | parked (t : Instant) (stall : Stall (Action n)) (timed : ticket.due = some t)
      (stalled : s.phase ticket.work.source = .stalled stall)
      (held : (⟨t, ticket.work.id⟩, ticket.work) ∈ stall.timers.toList) :
      Shown log s ticket (some stall.release)
  | replayed (t release : Instant) (timed : ticket.due = some t)
      (ended : EndsAt log.pauses ticket.work.source release)
      (queued : (.replayedAt release ⟨t, ticket.work.id⟩, .routed ticket.work) ∈
        s.calendar.timed.toList) : Shown log s ticket (some release)

/-- The entry of the release of a stalled source. -/
structure ReleaseEntry (s : Simulation (Action n)) (entry : Pending) : Prop where
  description : entry.description = "release paused source"
  time : ∃ stall, s.phase entry.source = .stalled stall ∧ entry.time = some stall.release

/-- The pending events of a simulation are these tickets, each at this instant, and these releases:
the tickets are those whose work is still to be done, each once, and the releases are those of the
stalled sources, one for each. -/
structure Lists (log : Log n) (s : Simulation (Action n))
    (listing : List (Ticket n × Option Instant)) (releases : List Pending) : Prop where
  events : s.pendingEvents.Perm (listing.map (fun x => x.1.pending x.2) ++ releases)
  outstanding : ∀ ticket, ticket ∈ listing.map Prod.fst ↔ Outstanding log s ticket
  once : (listing.map (fun x => x.1.work.id)).Nodup
  shown : ∀ x ∈ listing, Shown log s x.1 x.2
  stalled : ∀ source, source ∈ releases.map Pending.source ↔ (s.phase source).isStalled = true
  single : (releases.map Pending.source).Nodup
  entries : ∀ entry ∈ releases, ReleaseEntry s entry

/-- The timers of a replay under way that are not cancelled.  They wait for the end of the replay,
out of the sight of everybody. -/
def Standing.withheld (st : Standing n) : List (Ticket n) :=
  (replayTickets st.replay).filter (fun ticket => !st.sim.isCancelled ticket.work.id)

/-- The pending events of a simulation are these tickets, each at this instant, and these releases:
the tickets are those whose work is still to be done and is not withheld by a replay, each once, and
the releases are those of the stalled sources, one for each. -/
structure Exposes (log : Log n) (st : Standing n) (listing : List (Ticket n × Option Instant))
    (releases : List Pending) : Prop where
  events : st.sim.pendingEvents.Perm (listing.map (fun x => x.1.pending x.2) ++ releases)
  outstanding : ∀ ticket, Outstanding log st.sim ticket ↔
    ticket ∈ listing.map Prod.fst ∨ ticket ∈ st.withheld
  once : (listing.map (fun x => x.1.work.id) ++
    st.withheld.map (fun ticket => ticket.work.id)).Nodup
  shown : ∀ x ∈ listing, Shown log st.sim x.1 x.2
  stalled : ∀ source, source ∈ releases.map Pending.source ↔
    (st.sim.phase source).isStalled = true
  single : (releases.map Pending.source).Nodup
  entries : ∀ entry ∈ releases, ReleaseEntry st.sim entry

/-! ## What an observer sees, in tickets -/

/-- The ticket of a waiting event, with the instant of its turn. -/
def Event.listed? (e : Option Turn × Event (Action n)) : Option (Ticket n × Option Instant) :=
  (e.2.ticket? e.1).map (fun ticket => (ticket, e.1.map Turn.time))

/-- The tickets of a phase, with the instants under which they are listed. -/
def Phase.listing : Phase (Action n) → List (Ticket n × Option Instant)
  | .running => []
  | .stalled stall =>
    stall.immediate.values.map (fun work => (⟨work, none, true⟩, none)) ++
      stall.timers.toList.map (fun e => (⟨e.2, some e.1.due, true⟩, some stall.release))
  | .replaying backlog => backlog.values.map (fun work => (⟨work, none, true⟩, none))

/-- The tickets that wait, with the instants under which they are listed. -/
def Simulation.listing (s : Simulation (Action n)) : List (Ticket n × Option Instant) :=
  s.calendar.entries.filterMap Event.listed? ++
    s.sources.flatMap (fun source => (s.phase source).listing)

/-- The entry of a release that waits. -/
def Event.releaseEntry? (e : Option Turn × Event (Action n)) : Option Pending :=
  match e.2 with
  | .release id source => some ⟨id, e.1.map Turn.time, source, e.2.description⟩
  | _ => none

section Listing

variable {log : Log n} {s : Simulation (Action n)}

theorem map_fst_phase_listing (phase : Phase (Action n)) :
    phase.listing.map Prod.fst = phase.tickets := by
  cases phase with
  | running => rfl
  | stalled stall =>
    simp [Phase.listing, Phase.tickets, Stall.tickets, backlogTickets, timerTickets,
      Function.comp_def]
  | replaying backlog => simp [Phase.listing, Phase.tickets, backlogTickets, Function.comp_def]

theorem map_fst_listing (s : Simulation (Action n)) : s.listing.map Prod.fst = s.tickets := by
  unfold Simulation.listing Simulation.tickets Simulation.heldTickets Calendar.tickets
  rw [List.map_append, List.map_flatMap, List.map_filterMap]
  congr 1
  · refine congrArg (fun f => s.calendar.entries.filterMap f) (funext fun e => ?_)
    unfold Event.listed?
    cases e.2.ticket? e.1 <;> rfl
  · exact congrArg (fun f => s.sources.flatMap f)
      (funext fun source => map_fst_phase_listing (s.phase source))

/-- The work that a phase holds back is listed by its tickets. -/
theorem deferred_eq (phase : Phase (Action n)) (cancelled : List EventId) :
    phase.deferred cancelled =
      (phase.listing.filter (fun x => x.1.work.id ∉ cancelled)).map (fun x => x.1.pending x.2) := by
  have hheld : phase.held = phase.listing.map (fun x => (x.2, x.1.work)) := by
    cases phase with
    | running => rfl
    | stalled stall => simp [Phase.held, Phase.listing, Agenda.values, Function.comp_def]
    | replaying backlog => simp [Phase.held, Phase.listing, Function.comp_def]
  unfold Phase.deferred
  rw [hheld, List.filter_map, List.map_map]
  rfl

/-- The events of a calendar are its work and its releases. -/
theorem pending_entries_perm (entries : List (Option Turn × Event (Action n)))
    (cancelled : List EventId)
    (live : ∀ turn id source, (turn, .release id source) ∈ entries → id ∉ cancelled) :
    ((entries.filter (fun e => e.2.id ∉ cancelled)).map
      (fun e => (⟨e.2.id, e.1.map Turn.time, e.2.source, e.2.description⟩ : Pending))).Perm
    (((entries.filterMap Event.listed?).filter (fun x => x.1.work.id ∉ cancelled)).map
      (fun x => x.1.pending x.2) ++ entries.filterMap Event.releaseEntry?) := by
  induction entries with
  | nil => exact List.Perm.refl _
  | cons e entries ih =>
    have hrest := ih (fun turn id source hmem => live turn id source (List.mem_cons_of_mem _ hmem))
    obtain ⟨turn, event⟩ := e
    cases hentry : event.ticket? turn with
    | some ticket =>
      have hlisted : Event.listed? (turn, event) = some (ticket, turn.map Turn.time) := by
        rw [Event.listed?, hentry]
        rfl
      have hnone : Event.releaseEntry? (turn, event) = none := by
        cases event <;> cases hentry <;> rfl
      have hpending : (⟨event.id, turn.map Turn.time, event.source, event.description⟩ : Pending) =
          ticket.pending (turn.map Turn.time) := by
        cases event <;> cases hentry <;> rfl
      have hid := Event.id_of_ticket? hentry
      rw [List.filterMap_cons_some hlisted, List.filterMap_cons_none hnone]
      by_cases hlive : event.id ∈ cancelled
      · rw [List.filter_cons_of_neg (by simpa using hlive),
          List.filter_cons_of_neg (by simpa [hid] using hlive)]
        exact hrest
      · rw [List.filter_cons_of_pos (by simpa using hlive),
          List.filter_cons_of_pos (by simpa [hid] using hlive), List.map_cons, List.map_cons,
          hpending]
        exact hrest.cons _
    | none =>
      cases event with
      | release id source =>
        have hlive : (.release id source : Event (Action n)).id ∉ cancelled :=
          live turn id source List.mem_cons_self
        have hentry : Event.releaseEntry? (turn, (.release id source : Event (Action n))) =
          some ⟨id, turn.map Turn.time, source, "release paused source"⟩ := rfl
        have hlisted : Event.listed? (turn, (.release id source : Event (Action n))) = none := rfl
        rw [List.filter_cons_of_pos (by simpa using hlive), List.map_cons,
          List.filterMap_cons_some hentry, List.filterMap_cons_none hlisted]
        exact (hrest.cons _).trans List.perm_middle.symm
      | direct work => cases hentry
      | routed work => cases hentry

/-- **What an observer sees is the work that waits and is not cancelled, and the releases.** -/
theorem pendingEvents_perm (s : Simulation (Action n))
    (live : ∀ turn id source, (turn, .release id source) ∈ s.calendar.entries →
      s.isCancelled id = false) :
    s.pendingEvents.Perm
      ((s.listing.filter (fun x => !s.isCancelled x.1.work.id)).map (fun x => x.1.pending x.2) ++
        s.calendar.entries.filterMap Event.releaseEntry?) := by
  have hcalendar := pending_entries_perm s.calendar.entries s.cancelled
    (fun turn id source hmem => by simpa [Simulation.isCancelled] using live turn id source hmem)
  have hheld : s.sources.flatMap s.deferredEvents =
      ((s.sources.flatMap (fun source => (s.phase source).listing)).filter
        (fun x => x.1.work.id ∉ s.cancelled)).map (fun x => x.1.pending x.2) := by
    rw [List.filter_flatMap, List.map_flatMap]
    refine congrArg (fun f => s.sources.flatMap f) (funext fun source => ?_)
    exact deferred_eq (s.phase source) s.cancelled
  have hsame : (fun x : Ticket n × Option Instant => !s.isCancelled x.1.work.id) =
      (fun x => decide (x.1.work.id ∉ s.cancelled)) := by
    funext x
    simp [Simulation.isCancelled]
  unfold Simulation.pendingEvents Simulation.listing
  rw [hsame, hheld, List.filter_append, List.map_append]
  refine (hcalendar.append_right _).trans ?_
  rw [List.append_assoc, List.append_assoc]
  exact List.perm_append_comm.append_left _

/-- Waiting work is listed under the instant at which it will run, as far as that is known. -/
theorem shown_of_mem {r : Option (Replay n)} (timely : Timely ⟨s, r⟩) (stalls : Stalls s)
    (chronicle : Chronicle log.pauses ⟨s, r⟩) {x : Ticket n × Option Instant}
    (mem : x ∈ s.listing) : Shown log s x.1 x.2 := by
  rcases List.mem_append.1 mem with hcalendar | hheld
  · obtain ⟨⟨turn, event⟩, he, hlisted⟩ := List.mem_filterMap.1 hcalendar
    obtain ⟨ticket, hentry, rfl⟩ := Option.map_eq_some_iff.1 hlisted
    dsimp only at hentry ⊢
    have hdue := Event.due_of_ticket? hentry
    rcases List.mem_append.1 he with hmem | hmem
    · obtain ⟨_, -, heq⟩ := List.mem_map.1 hmem
      cases heq
      exact .immediate hdue
    · obtain ⟨⟨k, event⟩, hk, heq⟩ := List.mem_map.1 hmem
      cases heq
      have hproper : Proper s.now k event := timely.proper _ hk
      have hid := Event.id_of_ticket? hentry
      cases hproper with
      | due t event ahead =>
        rw [hid] at hk
        refine .own t event hdue ?_ hk
        cases event <;> cases hentry <;> rfl
      | replayed origin work own past =>
        cases hentry
        obtain ⟨hend, -⟩ := chronicle.replayed _ _ hk rfl
        refine .replayed origin.due s.now rfl hend ?_
        dsimp only
        rw [← own]
        exact hk
  · obtain ⟨source, -, hphase⟩ := List.mem_flatMap.1 hheld
    have hown := stalls.own source
    cases hp : s.phase source with
    | running =>
      rw [hp] at hphase
      cases hphase
    | stalled stall =>
      rw [hp] at hphase hown
      rcases List.mem_append.1 hphase with hmem | hmem
      · obtain ⟨work, -, rfl⟩ := List.mem_map.1 hmem
        exact .immediate rfl
      · obtain ⟨e, he, rfl⟩ := List.mem_map.1 hmem
        obtain ⟨hid, hsource⟩ := hown.timers e he
        refine .parked e.1.due stall rfl ?_ ?_
        · rw [hsource]
          exact hp
        · rw [← hid]
          exact he
    | replaying backlog =>
      rw [hp] at hphase
      obtain ⟨work, -, rfl⟩ := List.mem_map.1 hphase
      exact .immediate rfl

/-- The releases that wait are listed with the stalls that they end. -/
theorem map_releaseEntries (stalls : Stalls s) :
    (s.calendar.entries.filterMap Event.releaseEntry?).map Pending.source =
      s.calendar.releases.map Prod.snd := by
  have hnone : (s.calendar.immediate.map (fun event => ((none, event) :
      Option Turn × Event (Action n)))).filterMap Event.releaseEntry? = [] := by
    rw [List.filterMap_eq_nil_iff]
    intro e he
    obtain ⟨event, hmem, rfl⟩ := List.mem_map.1 he
    have hurgent := stalls.urgent event hmem
    cases event <;> first | rfl | cases hurgent
  unfold Calendar.entries
  rw [List.filterMap_append, hnone, List.nil_append]
  unfold Calendar.releases
  rw [List.filterMap_map, List.map_filterMap, List.map_filterMap]
  refine congrArg (fun f => s.calendar.timed.toList.filterMap f) (funext fun e => ?_)
  obtain ⟨k, event⟩ := e
  cases event <;> rfl

theorem releaseEntry_of_mem (stalls : Stalls s) {entry : Pending}
    (mem : entry ∈ s.calendar.entries.filterMap Event.releaseEntry?) : ReleaseEntry s entry := by
  obtain ⟨⟨turn, event⟩, he, hentry⟩ := List.mem_filterMap.1 mem
  cases event with
  | release id source =>
    cases hentry
    rcases List.mem_append.1 he with hmem | hmem
    · obtain ⟨_, hmem, heq⟩ := List.mem_map.1 hmem
      cases heq
      have hurgent := stalls.urgent _ hmem
      cases hurgent
    · obtain ⟨⟨k, _⟩, hk, heq⟩ := List.mem_map.1 hmem
      cases heq
      obtain ⟨stall, hstalled, hrelease, -⟩ :=
        stalls.release (k, source) (Calendar.mem_releases.2 ⟨id, hk⟩)
      exact ⟨rfl, stall, hstalled, congrArg some hrelease.symm⟩
  | direct work => cases hentry
  | routed work => cases hentry

/-- The tickets that are listed are those that wait in the simulation and are not cancelled. -/
theorem mem_listing_iff {ticket : Ticket n} :
    ticket ∈ (s.listing.filter (fun x => !s.isCancelled x.1.work.id)).map Prod.fst ↔
      ticket ∈ s.tickets ∧ s.isCancelled ticket.work.id = false := by
  rw [← map_fst_listing]
  constructor
  · intro hmem
    obtain ⟨x, hx, rfl⟩ := List.mem_map.1 hmem
    obtain ⟨hlisted, hlive⟩ := List.mem_filter.1 hx
    exact ⟨List.mem_map_of_mem hlisted, by simpa using hlive⟩
  · rintro ⟨hmem, hlive⟩
    obtain ⟨x, hx, rfl⟩ := List.mem_map.1 hmem
    exact List.mem_map_of_mem (List.mem_filter.2 ⟨hx, by simpa using hlive⟩)

theorem mem_withheld {st : Standing n} {ticket : Ticket n} :
    ticket ∈ st.withheld ↔
      ticket ∈ replayTickets st.replay ∧ st.sim.isCancelled ticket.work.id = false := by
  simp [Standing.withheld, List.mem_filter]

/-- The releases that wait do not go by the ids of submissions. -/
theorem releaseEntry_ids {st : Standing n} (ledger : Ledger log st) {ticket : Ticket n}
    (accepted : ticket ∈ log.accepted) :
    ticket.work.id ∉
      (st.sim.calendar.entries.filterMap Event.releaseEntry?).map Pending.id := by
  intro hmem
  obtain ⟨entry, hentry, hid⟩ := List.mem_map.1 hmem
  obtain ⟨⟨turn, event⟩, he, heq⟩ := List.mem_filterMap.1 hentry
  cases event with
  | release id source =>
    cases heq
    exact (ledger.releases turn id source he).2 ticket accepted hid.symm
  | direct work => cases heq
  | routed work => cases heq

/-- An accepted submission is listed if it waits in the simulation and is not cancelled. -/
theorem mem_pendingEvents_iff {r : Option (Replay n)} (ledger : Ledger log ⟨s, r⟩)
    {ticket : Ticket n} (accepted : ticket ∈ log.accepted) :
    (∃ time, ticket.pending time ∈ s.pendingEvents) ↔
      ticket ∈ s.tickets ∧ s.isCancelled ticket.work.id = false := by
  have hevents := pendingEvents_perm s (fun _ _ _ hmem => ledger.release_live hmem)
  rw [← mem_listing_iff]
  constructor
  · rintro ⟨time, hmem⟩
    rcases List.mem_append.1 (hevents.mem_iff.1 hmem) with hlisted | hrelease
    · obtain ⟨x, hx, heq⟩ := List.mem_map.1 hlisted
      have hwaits := (mem_listing_iff.1 (List.mem_map_of_mem hx)).1
      have hsame : x.1 = ticket := ledger.eq_of_id
        (ledger.accepted_of_mem (List.mem_append_left _ hwaits)) accepted (congrArg Pending.id heq)
      exact hsame ▸ List.mem_map_of_mem hx
    · exact absurd (List.mem_map_of_mem hrelease) (releaseEntry_ids ledger accepted)
  · intro hmem
    obtain ⟨x, hx, rfl⟩ := List.mem_map.1 hmem
    exact ⟨x.2, hevents.mem_iff.2 (List.mem_append_left _ (List.mem_map_of_mem hx))⟩

/-- **The pending events are the work that is still to be done, but for what is withheld.** -/
theorem exposes_of_course {st : Standing n} (course : Course log st) (calm : log.Calm) :
    Exposes log st (st.sim.listing.filter (fun x => !st.sim.isCancelled x.1.work.id))
      (st.sim.calendar.entries.filterMap Event.releaseEntry?) := by
  have hledger := course.ledger
  obtain ⟨htimely, hstalls⟩ := course.schedule
  have hsources := map_releaseEntries hstalls
  refine ⟨?_, ?_, ?_, ?_, ?_, ?_, ?_⟩
  · exact pendingEvents_perm st.sim (fun _ _ _ hmem => hledger.release_live hmem)
  · intro ticket
    rw [hledger.outstanding_iff calm, mem_listing_iff, mem_withheld, Standing.tickets,
      List.mem_append, or_and_right]
  · have hnodup := hledger.nodup_tickets
    rw [Standing.tickets, ← map_fst_listing, List.map_append, List.map_map] at hnodup
    refine hnodup.sublist (List.Sublist.append (List.filter_sublist.map _) ?_)
    exact List.filter_sublist.map _
  · intro x hx
    exact shown_of_mem htimely hstalls course.chronicle (List.mem_of_mem_filter hx)
  · intro source
    rw [hsources, mem_releases_iff hstalls]
  · rw [hsources]
    exact hstalls.single
  · exact fun entry hmem => releaseEntry_of_mem hstalls hmem

/-- Where nothing is withheld, the pending events are the work that is still to be done. -/
theorem Exposes.lists {st : Standing n} {listing : List (Ticket n × Option Instant)}
    {releases : List Pending} (exposes : Exposes log st listing releases)
    (nothing : st.withheld = []) : Lists log st.sim listing releases where
  events := exposes.events
  outstanding ticket := by
    rw [exposes.outstanding, nothing]
    simp
  once := by
    have honce := exposes.once
    rwa [nothing, List.map_nil, List.append_nil] at honce
  shown := exposes.shown
  stalled := exposes.stalled
  single := exposes.single
  entries := exposes.entries

/-- **Outside of replays, the pending events are the work that is still to be done.** -/
theorem lists_of_course (course : Course log ⟨s, none⟩) (calm : log.Calm) :
    Lists log s (s.listing.filter (fun x => !s.isCancelled x.1.work.id))
      (s.calendar.entries.filterMap Event.releaseEntry?) :=
  (exposes_of_course course calm).lists rfl

/-- Outside of replays, where no event waits, work waits in backlogs that nobody replays. -/
theorem backlog_of_isEmpty (course : Course log ⟨s, none⟩) (idle : s.calendar.isEmpty = true)
    {ticket : Ticket n} (waits : ticket ∈ (⟨s, none⟩ : Standing n).tickets) :
    ∃ backlog, s.phase ticket.work.source = .replaying backlog ∧
      ticket ∈ backlogTickets backlog.values := by
  obtain ⟨-, hstalls⟩ := course.schedule
  have hentries : s.calendar.entries = [] := by simpa [Calendar.isEmpty] using idle
  have hnone : s.calendar.immediate = [] ∧ s.calendar.timed.toList = [] := by
    simpa [Calendar.entries] using hentries
  have hfree : ∀ source stall, s.phase source ≠ .stalled stall := by
    intro source stall hstalled
    obtain ⟨turn, hmem⟩ := hstalls.pending source stall hstalled
    obtain ⟨id, htimed⟩ := Calendar.mem_releases.1 hmem
    rw [hnone.2] at htimed
    cases htimed
  cases place_of_mem waits with
  | immediate event ticket mem entry =>
    rw [show s.calendar.immediate = [] from hnone.1] at mem
    cases mem
  | timed k event ticket mem entry =>
    rw [show s.calendar.timed.toList = [] from hnone.2] at mem
    cases mem
  | parked source stall e stalled mem => exact absurd stalled (hfree source stall)
  | held source stall e stalled mem => exact absurd stalled (hfree source stall)
  | backlog source backlog e replaying mem =>
    have hreplaying : s.phase source = .replaying backlog := replaying
    have hown := hstalls.own source
    rw [hreplaying] at hown
    refine ⟨backlog, ?_, List.mem_map_of_mem (List.mem_map_of_mem mem)⟩
    rw [(hown.parked e mem).2]
    exact hreplaying
  | replayed r e replay mem => cases replay

/-- Outside of replays, without a panic, work waits only if an event waits. -/
theorem tickets_of_isEmpty (course : Course log ⟨s, none⟩) (calm : log.Calm)
    (idle : s.calendar.isEmpty = true) : (⟨s, none⟩ : Standing n).tickets = [] := by
  apply List.eq_nil_iff_forall_not_mem.2
  intro ticket hmem
  obtain ⟨backlog, hreplaying, -⟩ := backlog_of_isEmpty course idle hmem
  obtain ⟨r, hr, -⟩ := (course.queues calm).replaying _ backlog hreplaying
  cases hr

end Listing

/-- Between requests no replay is under way. -/
theorem standing_of_result? {m : Machine n} {outcome : Outcome} (rested : m.result? = some outcome)
    (i : Fin n) : m.standing i = ⟨m.world.sim i, none⟩ := by
  unfold Machine.standing
  rw [runs_of_result? rested]
  rfl

/-- **No work is lost and none is done twice.**  In every history without a panic, no action starts
twice, and none that was not accepted.  Whenever a request has been answered, the pending events are
the work that is still to be done, with the releases of the stalled sources; and if then no event
waits, all accepted work that is not cancelled was started once. -/
theorem pendingEvents_exact {h : List (Fin n × Happening n)} {m : Machine n} (hist : History h m)
    (free : PanicFree h) (i : Fin n) :
    (logOf i h).startedIds.Nodup ∧
      (∀ work ∈ (logOf i h).started, ∃ ticket ∈ (logOf i h).accepted, ticket.work = work) ∧
      ∀ outcome, m.result? = some outcome →
        (∃ listing releases, Lists (logOf i h) (m.world.sim i) listing releases) ∧
        ((m.world.sim i).calendar.isEmpty = true → ∀ ticket ∈ (logOf i h).accepted,
          (m.world.sim i).isCancelled ticket.work.id = false →
          (logOf i h).startedIds.count ticket.work.id = 1) := by
  have hcourse := hist.course i
  have hledger := hcourse.ledger
  refine ⟨hledger.nodup_startedIds, fun work hwork => hledger.accepted_of_started hwork, ?_⟩
  intro outcome hrest
  rw [standing_of_result? hrest] at hcourse hledger
  refine ⟨⟨_, _, lists_of_course hcourse (free.calm i)⟩, ?_⟩
  intro hidle ticket hmem hlive
  apply List.count_eq_one_of_mem hledger.nodup_startedIds
  apply Classical.byContradiction
  intro hunstarted
  obtain ⟨hwaits, -⟩ := (hledger.outstanding_iff (free.calm i)).1 ⟨hmem, hlive, hunstarted⟩
  rw [tickets_of_isEmpty hcourse (free.calm i) hidle] at hwaits
  cases hwaits

/-- A run that is cut short leaves a timer and the release of its source to be listed. -/
theorem pendingEvents_exact_stalled :
    PanicFree (stalledLog .sourceAt (.runFor 1) 4) ∧
    (stalledWorld .sourceAt (.runFor 1) 4).result? = some (.count 1) ∧
    ∃ listing releases, Lists (logOf 0 (stalledLog .sourceAt (.runFor 1) 4))
      ((stalledWorld .sourceAt (.runFor 1) 4).world.sim 0) listing releases := by
  have hfree : PanicFree (stalledLog .sourceAt (.runFor 1) 4) := by decide
  have hrest : (stalledWorld .sourceAt (.runFor 1) 4).result? = some (.count 1) := rfl
  exact ⟨hfree, hrest,
    ((pendingEvents_exact (.stalled .sourceAt (.runFor 1) 4) hfree 0).2.2 _ hrest).1⟩

end StallSim
