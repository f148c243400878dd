import StallSim.Proofs.Course

/-!
# Tickets of waiting work

Wherever work waits, in the calendar, parked for a stalled source, in a backlog, or as a timer of a
replay, the ticket it came in under can be read off its place.  Operations hand work over from one
place to another, and say so in permutations of tickets.

* `Standing.tickets` — the tickets of all work that waits, wherever it waits.
* `Placed` — the place where an accepted submission waits.

Principal results: `tickets_lodge`, `tickets_take`, `tickets_park`, `tickets_beginStall`,
`tickets_replayed`, `tickets_closeReplay` — what each operation does to the tickets.
-/

set_option autoImplicit false

namespace StallSim

variable {n : Nat}

/-! ## Where tickets are -/

/-- The ticket of a waiting event, read off its turn; a release has none. -/
def Event.ticket? (turn : Option Turn) : Event (Action n) → Option (Ticket n)
  | .direct work => some ⟨work, turn.map Turn.origin, false⟩
  | .routed work => some ⟨work, turn.map Turn.origin, true⟩
  | .release _ _ => none

theorem Event.id_of_ticket? {turn : Option Turn} {event : Event (Action n)} {ticket : Ticket n}
    (h : event.ticket? turn = some ticket) : event.id = ticket.work.id := by
  cases event <;> cases h <;> rfl

theorem Event.due_of_ticket? {turn : Option Turn} {event : Event (Action n)} {ticket : Ticket n}
    (h : event.ticket? turn = some ticket) : ticket.due = turn.map Turn.origin := by
  cases event <;> cases h <;> rfl

/-- The tickets of the events of a calendar. -/
def Calendar.tickets (c : Calendar (Action n)) : List (Ticket n) :=
  c.entries.filterMap (fun e => e.2.ticket? e.1)

/-- The tickets of immediate work that is held back. -/
def backlogTickets (works : List (Work (Action n))) : List (Ticket n) :=
  works.map (fun work => ⟨work, none, true⟩)

/-- The tickets of timers that are held back. -/
def timerTickets (timers : List (Origin × Work (Action n))) : List (Ticket n) :=
  timers.map (fun e => ⟨e.2, some e.1.due, true⟩)

/-- The tickets of a stall. -/
def Stall.tickets (stall : Stall (Action n)) : List (Ticket n) :=
  backlogTickets stall.immediate.values ++ timerTickets stall.timers.toList

/-- The tickets of the work a phase holds back. -/
def Phase.tickets : Phase (Action n) → List (Ticket n)
  | .running => []
  | .stalled stall => stall.tickets
  | .replaying backlog => backlogTickets backlog.values

/-- The tickets of the work held back for the sources. -/
def Simulation.heldTickets (s : Simulation (Action n)) : List (Ticket n) :=
  s.sources.flatMap (fun source => (s.phase source).tickets)

/-- The tickets of the work that waits in a simulation. -/
def Simulation.tickets (s : Simulation (Action n)) : List (Ticket n) :=
  s.calendar.tickets ++ s.heldTickets

/-- The tickets of the timers of a replay. -/
def replayTickets : Option (Replay n) → List (Ticket n)
  | some r => timerTickets r.timers.toList
  | none => []

/-- The tickets of all work that waits, that of a replay under way included. -/
def Standing.tickets (st : Standing n) : List (Ticket n) :=
  st.sim.tickets ++ replayTickets st.replay

theorem tickets_of_idle (s : Simulation (Action n)) :
    (⟨s, none⟩ : Standing n).tickets = s.tickets :=
  List.append_nil _

/-- The place of a ticket: the calendar, a stall, a backlog, or the replay under way. -/
inductive Place (st : Standing n) : Ticket n → Prop where
  | immediate (event : Event (Action n)) (ticket : Ticket n)
      (mem : event ∈ st.sim.calendar.immediate) (entry : event.ticket? none = some ticket) :
      Place st ticket
  | timed (k : Turn) (event : Event (Action n)) (ticket : Ticket n)
      (mem : (k, event) ∈ st.sim.calendar.timed.toList)
      (entry : event.ticket? (some k) = some ticket) : Place st ticket
  | parked (source : Source) (stall : Stall (Action n)) (e : EventId × Work (Action n))
      (stalled : st.sim.phase source = .stalled stall) (mem : e ∈ stall.immediate.toList) :
      Place st ⟨e.2, none, true⟩
  | held (source : Source) (stall : Stall (Action n)) (e : Origin × Work (Action n))
      (stalled : st.sim.phase source = .stalled stall) (mem : e ∈ stall.timers.toList) :
      Place st ⟨e.2, some e.1.due, true⟩
  | backlog (source : Source) (backlog : Agenda EventId (Work (Action n)))
      (e : EventId × Work (Action n)) (replaying : st.sim.phase source = .replaying backlog)
      (mem : e ∈ backlog.toList) : Place st ⟨e.2, none, true⟩
  | replayed (r : Replay n) (e : Origin × Work (Action n)) (replay : st.replay = some r)
      (mem : e ∈ r.timers.toList) : Place st ⟨e.2, some e.1.due, true⟩

theorem place_of_backlog {st : Standing n} {backlog : Agenda EventId (Work (Action n))}
    (place : ∀ e ∈ backlog.toList, Place st ⟨e.2, none, true⟩) {ticket : Ticket n}
    (mem : ticket ∈ backlogTickets backlog.values) : Place st ticket := by
  obtain ⟨work, hwork, rfl⟩ := List.mem_map.1 mem
  obtain ⟨e, he, rfl⟩ := List.mem_map.1 hwork
  exact place e he

/-- A ticket on the list has a place. -/
theorem place_of_mem {st : Standing n} {ticket : Ticket n} (mem : ticket ∈ st.tickets) :
    Place st ticket := by
  rcases List.mem_append.1 mem with hsim | hreplay
  · rcases List.mem_append.1 hsim with hcalendar | hheld
    · obtain ⟨e, he, hentry⟩ := List.mem_filterMap.1 hcalendar
      rcases List.mem_append.1 he with hmem | hmem
      · obtain ⟨event, hevent, rfl⟩ := List.mem_map.1 hmem
        exact .immediate event ticket hevent hentry
      · obtain ⟨d, hd, rfl⟩ := List.mem_map.1 hmem
        exact .timed d.1 d.2 ticket hd hentry
    · obtain ⟨source, -, hphase⟩ := List.mem_flatMap.1 hheld
      cases hp : st.sim.phase source with
      | running =>
        rw [hp] at hphase
        cases hphase
      | stalled stall =>
        rw [hp] at hphase
        rcases List.mem_append.1 hphase with hmem | hmem
        · exact place_of_backlog (fun e he => .parked source stall e hp he) hmem
        · obtain ⟨e, he, rfl⟩ := List.mem_map.1 hmem
          exact .held source stall e hp he
      | replaying backlog =>
        rw [hp] at hphase
        exact place_of_backlog (fun e he => .backlog source backlog e hp he) hphase
  · cases hr : st.replay with
    | none =>
      rw [hr] at hreplay
      cases hreplay
    | some r =>
      rw [hr] at hreplay
      obtain ⟨e, he, rfl⟩ := List.mem_map.1 hreplay
      exact .replayed r e hr he

/-- Where an accepted submission waits: in the calendar, parked, or in a backlog. -/
inductive Placed (s : Simulation (Action n)) (ticket : Ticket n) :
    Simulation (Action n) → Prop where
  | immediate (event : Event (Action n)) (entry : event.ticket? none = some ticket)
      (running : ticket.routed = true → s.phase ticket.work.source = .running) :
      Placed s ticket (s.issue.postNow event)
  | timed (t : Instant) (event : Event (Action n))
      (entry : event.ticket? (some (.dueAt t ticket.work.id)) = some ticket) :
      Placed s ticket (s.issue.postTimed (.dueAt t ticket.work.id) event)
  | parked (stall : Stall (Action n)) (stalled : s.phase ticket.work.source = .stalled stall)
      (routed : ticket.routed = true) (early : ∀ t, ticket.due = some t → t < stall.release) :
      Placed s ticket (s.issue.setPhase ticket.work.source
        (.stalled (stall.park ticket.due ticket.work)))
  | joined (backlog : Agenda EventId (Work (Action n)))
      (replaying : s.phase ticket.work.source = .replaying backlog) (routed : ticket.routed = true)
      (untimed : ticket.due = none) :
      Placed s ticket (s.issue.setPhase ticket.work.source
        (.replaying (backlog.insert ticket.work.id ticket.work)))

/-- Letting work wait puts it in one place. -/
theorem placed_lodge (s : Simulation (Action n)) (ticket : Ticket n) :
    Placed s ticket (s.issue.lodge ticket) := by
  obtain ⟨work, due, routed⟩ := ticket
  unfold Simulation.lodge
  cases routed with
  | false =>
    cases due with
    | none => exact .immediate (.direct work) rfl (fun h => by cases h)
    | some t => exact .timed t (.direct work) rfl
  | true =>
    cases due with
    | none =>
      dsimp only
      unfold Simulation.routeNow
      split
      · rename_i stall hphase
        exact .parked stall hphase rfl (fun _ h => by cases h)
      · rename_i backlog hphase
        exact .joined backlog hphase rfl rfl
      · rename_i hphase
        exact .immediate (.routed work) rfl (fun _ => hphase)
    | some t =>
      dsimp only
      unfold Simulation.routeTimed
      split
      · rename_i stall hphase
        split
        · rename_i hearly
          exact .parked stall hphase rfl (fun _ h => by cases h; exact hearly)
        · exact .timed t (.routed work) rfl
      · exact .timed t (.routed work) rfl

/-! ## Handing work over -/

theorem backlogTickets_insert (backlog : Agenda EventId (Work (Action n))) (id : EventId)
    (work : Work (Action n)) :
    (backlogTickets (backlog.insert id work).values).Perm
      (⟨work, none, true⟩ :: backlogTickets backlog.values) :=
  ((Agenda.toList_insert_perm backlog id work).map Prod.snd).map _

theorem backlogTickets_of_next? {backlog rest : Agenda EventId (Work (Action n))} {key : EventId}
    {work : Work (Action n)} (h : backlog.next? = some ((key, work), rest)) :
    backlogTickets backlog.values = ⟨work, none, true⟩ :: backlogTickets rest.values := by
  simp [backlogTickets, Agenda.values, Agenda.next?_eq_some_iff.1 h]

theorem Stall.tickets_park (stall : Stall (Action n)) (due : Option Instant)
    (work : Work (Action n)) :
    (stall.park due work).tickets.Perm (⟨work, due, true⟩ :: stall.tickets) := by
  cases due with
  | none => exact (backlogTickets_insert stall.immediate work.id work).append_right _
  | some t =>
    have htimers := (Agenda.toList_insert_perm stall.timers ⟨t, work.id⟩ work).map
      (fun e => (⟨e.2, some e.1.due, true⟩ : Ticket n))
    exact (htimers.append_left _).trans List.perm_middle

theorem Calendar.tickets_pushImmediate (c : Calendar (Action n)) (event : Event (Action n)) :
    (c.pushImmediate event).tickets.Perm ((event.ticket? none).toList ++ c.tickets) := by
  unfold Calendar.tickets
  rw [Calendar.entries_pushImmediate, List.filterMap_append, Calendar.entries,
    List.filterMap_append, List.filterMap_cons]
  cases event.ticket? none with
  | none => exact List.Perm.refl _
  | some ticket => exact List.perm_middle

theorem Calendar.tickets_pushTimed (c : Calendar (Action n)) (turn : Turn)
    (event : Event (Action n)) :
    (c.pushTimed turn event).tickets.Perm ((event.ticket? (some turn)).toList ++ c.tickets) := by
  unfold Calendar.tickets
  rw [Calendar.entries_pushTimed, List.filterMap_append, Calendar.entries, List.filterMap_append]
  have htimed := ((Agenda.toList_insert_perm c.timed turn event).map
    (fun e => (some e.1, e.2))).filterMap (fun e => e.2.ticket? e.1)
  rw [List.map_cons, List.filterMap_cons] at htimed
  refine (htimed.append_left _).trans ?_
  cases event.ticket? (some turn) with
  | none => exact List.Perm.refl _
  | some ticket => exact List.perm_middle

theorem Calendar.tickets_of_next? {c rest : Calendar (Action n)} {turn : Option Turn}
    {event : Event (Action n)} (h : c.next? = some ((turn, event), rest)) :
    c.tickets = (event.ticket? turn).toList ++ rest.tickets := by
  unfold Calendar.tickets
  rw [Calendar.next?_eq_some_iff.1 h, List.filterMap_cons]
  cases event.ticket? turn <;> rfl

theorem Calendar.mem_pushImmediate {c : Calendar (Action n)} {event : Event (Action n)}
    {e : Option Turn × Event (Action n)} :
    e ∈ (c.pushImmediate event).entries ↔ e = (none, event) ∨ e ∈ c.entries := by
  rw [Calendar.entries_pushImmediate, List.perm_middle.mem_iff, List.mem_cons]
  rfl

theorem Calendar.mem_pushTimed {c : Calendar (Action n)} {turn : Turn} {event : Event (Action n)}
    {e : Option Turn × Event (Action n)} :
    e ∈ (c.pushTimed turn event).entries ↔ e = (some turn, event) ∨ e ∈ c.entries := by
  have htimed := (Agenda.toList_insert_perm c.timed turn event).map (fun e => (some e.1, e.2))
  rw [Calendar.entries_pushTimed, (htimed.append_left _).mem_iff, List.map_cons,
    List.perm_middle.mem_iff, List.mem_cons]
  rfl

theorem Calendar.mem_of_next? {c rest : Calendar (Action n)} {e d : Option Turn × Event (Action n)}
    (taken : c.next? = some (e, rest)) (mem : d ∈ rest.entries) : d ∈ c.entries := by
  rw [Calendar.next?_eq_some_iff.1 taken]
  exact List.mem_cons_of_mem _ mem

/-- Two ways to join what the members of a list without repetitions have, that differ at one
member. -/
theorem flatMap_perm_of_eq_off {σ β : Type} {l : List σ} (distinct : l.Nodup) {a : σ} (mem : a ∈ l)
    {f g : σ → List β} (same : ∀ b, b ≠ a → f b = g b) :
    (l.flatMap f ++ g a).Perm (l.flatMap g ++ f a) := by
  induction l with
  | nil => cases mem
  | cons b l ih =>
    obtain ⟨hnot, hdistinct⟩ := List.nodup_cons.1 distinct
    rw [List.flatMap_cons, List.flatMap_cons]
    by_cases hb : b = a
    · subst hb
      have hrest : l.flatMap f = l.flatMap g := by
        rw [List.flatMap_def, List.flatMap_def]
        refine congrArg List.flatten (List.map_congr_left fun c hc => same c ?_)
        rintro rfl
        exact hnot hc
      rw [hrest, List.append_assoc, List.append_assoc]
      exact List.perm_append_comm.trans
        (by rw [List.append_assoc]; exact List.perm_append_comm_assoc _ _ _)
    · have hmem : a ∈ l := (List.mem_cons.1 mem).resolve_left (Ne.symm hb)
      rw [same b hb, List.append_assoc, List.append_assoc]
      exact (ih hdistinct hmem).append_left _

section Held

variable {s : Simulation (Action n)} {source : Source}

/-- Putting a source in a phase exchanges what the source holds back. -/
theorem heldTickets_setPhase (distinct : s.sources.Nodup) (known : source ∈ s.sources)
    (phase : Phase (Action n)) :
    ((s.setPhase source phase).heldTickets ++ (s.phase source).tickets).Perm
      (s.heldTickets ++ phase.tickets) := by
  have hself : ((s.setPhase source phase).phase source).tickets = phase.tickets := by
    rw [Simulation.phase_setPhase, if_pos rfl]
  rw [← hself]
  refine flatMap_perm_of_eq_off (f := fun other => ((s.setPhase source phase).phase other).tickets)
    (g := fun other => (s.phase other).tickets) distinct known (fun other hother => ?_)
  rw [Simulation.phase_setPhase, if_neg hother.symm]

/-- What a source gives away and gets, all that is held back gives away and gets. -/
theorem heldTickets_exchange (distinct : s.sources.Nodup) (known : source ∈ s.sources)
    (phase : Phase (Action n)) (given gotten : List (Ticket n))
    (exchange : ((s.phase source).tickets ++ gotten).Perm (phase.tickets ++ given)) :
    (s.heldTickets ++ gotten).Perm ((s.setPhase source phase).heldTickets ++ given) := by
  classical
  have hset := heldTickets_setPhase distinct known phase
  simp only [List.perm_iff_count, List.count_append] at hset exchange ⊢
  intro t
  have h₁ := hset t
  have h₂ := exchange t
  omega

theorem tickets_setPhase (distinct : s.sources.Nodup) (known : source ∈ s.sources)
    (phase : Phase (Action n)) (given gotten : List (Ticket n))
    (exchange : ((s.phase source).tickets ++ gotten).Perm (phase.tickets ++ given)) :
    (s.tickets ++ gotten).Perm ((s.setPhase source phase).tickets ++ given) := by
  have hheld :=
    (heldTickets_exchange distinct known phase given gotten exchange).append_left s.calendar.tickets
  rw [← List.append_assoc, ← List.append_assoc] at hheld
  exact hheld

theorem tickets_postNow (event : Event (Action n)) :
    (s.tickets ++ (event.ticket? none).toList).Perm (s.postNow event).tickets :=
  List.perm_append_comm.trans (by
    rw [Simulation.tickets, ← List.append_assoc]
    exact (s.calendar.tickets_pushImmediate event).symm.append_right _)

theorem tickets_postTimed (turn : Turn) (event : Event (Action n)) :
    (s.tickets ++ (event.ticket? (some turn)).toList).Perm (s.postTimed turn event).tickets :=
  List.perm_append_comm.trans (by
    rw [Simulation.tickets, ← List.append_assoc]
    exact (s.calendar.tickets_pushTimed turn event).symm.append_right _)

theorem tickets_take {turn : Option Turn} {event : Event (Action n)} {rest : Calendar (Action n)}
    (taken : s.calendar.next? = some ((turn, event), rest)) :
    s.tickets.Perm ((s.take turn rest).tickets ++ (event.ticket? turn).toList) := by
  rw [Simulation.tickets, Calendar.tickets_of_next? taken, List.append_assoc]
  exact List.perm_append_comm

theorem mem_tickets_of_taken {turn : Option Turn} {event : Event (Action n)}
    {rest : Calendar (Action n)} {ticket : Ticket n}
    (taken : s.calendar.next? = some ((turn, event), rest))
    (entry : event.ticket? turn = some ticket) : ticket ∈ (⟨s, none⟩ : Standing n).tickets := by
  rw [tickets_of_idle]
  refine (tickets_take taken).mem_iff.2 (List.mem_append_right _ ?_)
  rw [entry]
  exact List.mem_cons_self

/-- Work that is parked waits in the stall of its source. -/
theorem tickets_park (distinct : s.sources.Nodup) (known : source ∈ s.sources)
    {stall : Stall (Action n)} (stalled : s.phase source = .stalled stall) (due : Option Instant)
    (work : Work (Action n)) :
    (s.tickets ++ [(⟨work, due, true⟩ : Ticket n)]).Perm
      (s.setPhase source (.stalled (stall.park due work))).tickets := by
  have hpark := tickets_setPhase distinct known (.stalled (stall.park due work)) []
    [⟨work, due, true⟩] (by
      rw [stalled, List.append_nil]
      exact List.perm_append_comm.trans (stall.tickets_park due work).symm)
  rwa [List.append_nil] at hpark

/-- An accepted submission waits somewhere. -/
theorem tickets_lodge (ticket : Ticket n) (distinct : s.sources.Nodup)
    (known : ticket.work.source ∈ s.sources) :
    (s.tickets ++ [ticket]).Perm (s.issue.lodge ticket).tickets := by
  have hplaced := placed_lodge s ticket
  generalize s.issue.lodge ticket = s' at hplaced
  cases hplaced with
  | immediate event entry =>
    have hpost := tickets_postNow (s := s.issue) event
    rwa [entry] at hpost
  | timed t event entry =>
    have hpost := tickets_postTimed (s := s.issue) (.dueAt t ticket.work.id) event
    rwa [entry] at hpost
  | parked stall stalled routed =>
    have hpark := tickets_park (s := s.issue) distinct known stalled ticket.due ticket.work
    rwa [← routed] at hpark
  | joined backlog replaying routed untimed =>
    have hback := tickets_setPhase (s := s.issue) distinct known
      (.replaying (backlog.insert ticket.work.id ticket.work)) [] [ticket] (by
        rw [show s.issue.phase _ = _ from replaying, List.append_nil]
        have hinsert := backlogTickets_insert backlog ticket.work.id ticket.work
        rw [← untimed, ← routed] at hinsert
        exact List.perm_append_comm.trans hinsert.symm)
    rwa [List.append_nil] at hback

end Held

/-- Work that is taken from a backlog leaves what is held back. -/
theorem tickets_replayed {s : Simulation (Action n)} {source : Source}
    (distinct : s.sources.Nodup)
    (known : ∀ other, s.phase other ≠ .running → other ∈ s.sources)
    {backlog rest : Agenda EventId (Work (Action n))} {key : EventId} {work : Work (Action n)}
    (replaying : s.phase source = .replaying backlog)
    (taken : backlog.next? = some ((key, work), rest)) (r : Option (Replay n)) :
    (⟨s, r⟩ : Standing n).tickets.Perm
      ((⟨s.setPhase source (.replaying rest), r⟩ : Standing n).tickets ++
        [(⟨work, none, true⟩ : Ticket n)]) := by
  have hknown : source ∈ s.sources := known source (by rw [replaying]; intro h; cases h)
  have hset := tickets_setPhase distinct hknown (.replaying rest)
    [(⟨work, none, true⟩ : Ticket n)] [] (by
      rw [replaying, List.append_nil, Phase.tickets, backlogTickets_of_next? taken]
      exact List.perm_append_singleton _ _ |>.symm)
  rw [List.append_nil] at hset
  refine (hset.append_right (replayTickets r)).trans ?_
  rw [List.append_assoc, Standing.tickets, List.append_assoc]
  exact List.perm_append_comm.append_left _

theorem mem_tickets_of_replayed {s : Simulation (Action n)} {source : Source}
    (distinct : s.sources.Nodup)
    (known : ∀ other, s.phase other ≠ .running → other ∈ s.sources)
    {backlog rest : Agenda EventId (Work (Action n))} {key : EventId} {work : Work (Action n)}
    (replaying : s.phase source = .replaying backlog)
    (taken : backlog.next? = some ((key, work), rest)) (r : Option (Replay n)) :
    (⟨work, none, true⟩ : Ticket n) ∈ (⟨s, r⟩ : Standing n).tickets :=
  (tickets_replayed distinct known replaying taken r).mem_iff.2
    (List.mem_append_right _ List.mem_cons_self)

/-- A new stall holds back what its source held back before. -/
theorem tickets_starting {phase : Phase (Action n)} {backlog : Agenda EventId (Work (Action n))}
    (carried : phase.carried = some backlog) (release : Instant) :
    (Phase.stalled (.starting release backlog)).tickets = phase.tickets := by
  cases phase with
  | running =>
    cases carried
    rfl
  | stalled stall => cases carried
  | replaying b =>
    cases carried
    exact List.append_nil _

theorem tickets_beginStall {s : Simulation (Action n)} {source : Source}
    (distinct : s.sources.Nodup) (known : source ∈ s.sources) (release : Instant)
    {backlog : Agenda EventId (Work (Action n))}
    (carried : (s.phase source).carried = some backlog) :
    s.tickets.Perm (s.beginStall source release backlog).tickets := by
  have hset := tickets_setPhase distinct known (.stalled (.starting release backlog)) [] []
    (by rw [tickets_starting carried])
  have hpost := tickets_postTimed (s := (s.setPhase source
    (.stalled (.starting release backlog))).issue) (.dueAt release s.freshId)
    (.release s.freshId source)
  rw [List.append_nil, List.append_nil] at hset
  exact hset.trans ((List.Perm.of_eq (List.append_nil _).symm).trans hpost)

/-! ## Closing a replay -/

section Close

/-- Posting timers again adds them to the timed events, whatever the order. -/
theorem toList_repostedTimers_perm (release : Instant) (timed : Agenda Turn (Event (Action n)))
    (timers : List (Origin × Work (Action n))) :
    (repostedTimers release timed timers).toList.Perm
      (timers.map (fun e => (.replayedAt release e.1, .routed e.2)) ++ timed.toList) := by
  unfold repostedTimers
  induction timers generalizing timed with
  | nil => exact List.Perm.refl _
  | cons e timers ih =>
    rw [List.foldl_cons, List.map_cons]
    refine (ih _).trans ?_
    have hinsert := Agenda.toList_insert_perm timed (.replayedAt release e.1) (.routed e.2)
    exact (hinsert.append_left _).trans List.perm_middle

theorem mem_repostedTimers {release : Instant} {timed : Agenda Turn (Event (Action n))}
    {timers : List (Origin × Work (Action n))} {e : Turn × Event (Action n)} :
    e ∈ (repostedTimers release timed timers).toList ↔
      (∃ timer ∈ timers, e = (.replayedAt release timer.1, .routed timer.2)) ∨
        e ∈ timed.toList := by
  rw [(toList_repostedTimers_perm release timed timers).mem_iff, List.mem_append, List.mem_map]
  simp only [eq_comm]

/-- The tickets of a calendar that works and timers were posted to again. -/
theorem tickets_reposted (c : Calendar (Action n)) (release : Instant)
    (works : List (Work (Action n))) (timers : List (Origin × Work (Action n))) :
    (Calendar.tickets
      ⟨c.immediate ++ works.map .routed, repostedTimers release c.timed timers⟩).Perm
      (c.tickets ++ backlogTickets works ++ timerTickets timers) := by
  have htimed := ((toList_repostedTimers_perm release c.timed timers).map
    (fun e => (some e.1, e.2))).filterMap (fun e => e.2.ticket? e.1)
  have htimers : ((timers.map (fun e => ((Turn.replayedAt release e.1, Event.routed e.2) :
      Turn × Event (Action n)))).map (fun e => (some e.1, e.2))).filterMap
        (fun e => e.2.ticket? e.1) = timerTickets timers := by
    simp [timerTickets, Event.ticket?, Turn.replayedAt, Function.comp_def]
  have hworks : ((works.map Event.routed).map (fun event => ((none, event) :
      Option Turn × Event (Action n)))).filterMap (fun e => e.2.ticket? e.1) =
        backlogTickets works := by
    simp [backlogTickets, Event.ticket?, Function.comp_def]
  rw [List.map_append, List.filterMap_append, htimers] at htimed
  unfold Calendar.tickets Calendar.entries
  rw [List.map_append, List.filterMap_append, List.filterMap_append, List.filterMap_append, hworks]
  classical
  simp only [List.perm_iff_count, List.count_append] at htimed ⊢
  intro t
  have := htimed t
  omega

/-- Only routed work is posted again. -/
theorem Calendar.mem_reposted {c : Calendar (Action n)} {release : Instant}
    {works : List (Work (Action n))} {timers : List (Origin × Work (Action n))}
    {turn : Option Turn} {id : EventId} {source : Source}
    (mem : (turn, .release id source) ∈ Calendar.entries
      ⟨c.immediate ++ works.map .routed, repostedTimers release c.timed timers⟩) :
    (turn, .release id source) ∈ c.entries := by
  unfold Calendar.entries at *
  simp only [List.map_append, List.mem_append, List.mem_map, Prod.mk.injEq, Prod.exists,
    mem_repostedTimers] at mem ⊢
  rcases mem with (⟨event, hmem, heq⟩ | ⟨_, ⟨_, _, rfl⟩, _, heq⟩) | ⟨k, event, hmem, heq⟩
  · exact .inl ⟨event, hmem, heq⟩
  · cases heq
  · rcases hmem with ⟨_, _, _, _, rfl⟩ | hmem
    · cases heq.2
    · exact .inr ⟨k, event, hmem, heq⟩

/-- What is not cancelled, and what is. -/
theorem map_filter_perm {α β : Type} (l : List α) (p : α → Bool) (f : α → β) :
    (l.map f).Perm ((l.filter p).map f ++ (l.filter (fun x => !p x)).map f) := by
  rw [← List.map_append]
  exact ((List.filter_append_perm p l).map f).symm

/-- The rest of the backlog of a source that is being replayed. -/
def backlogOf (s : Simulation (Action n)) (source : Source) : List (Work (Action n)) :=
  match s.phase source with
  | .replaying backlog => backlog.values
  | _ => []

/-- A source whose replay ends holds nothing back, unless it was stalled again. -/
theorem heldTickets_closed {s : Simulation (Action n)} (distinct : s.sources.Nodup)
    (known : ∀ other, s.phase other ≠ .running → other ∈ s.sources) (source : Source) :
    s.heldTickets.Perm
      (Simulation.heldTickets { s with phases := closedPhases s source } ++
        backlogTickets (backlogOf s source)) := by
  unfold closedPhases backlogOf
  cases hphase : s.phase source with
  | running => exact (List.Perm.of_eq (List.append_nil _)).symm
  | stalled stall => exact (List.Perm.of_eq (List.append_nil _)).symm
  | replaying backlog =>
    have hknown : source ∈ s.sources := known source (by rw [hphase]; intro h; cases h)
    have hset := heldTickets_exchange distinct hknown .running (backlogTickets backlog.values) []
      (by
        rw [hphase, List.append_nil]
        exact List.Perm.refl _)
    rwa [List.append_nil] at hset

theorem leftover_eq (s : Simulation (Action n)) (source : Source) :
    leftover s source = (backlogOf s source).filter (fun work => !s.isCancelled work.id) := by
  unfold leftover backlogOf
  cases s.phase source <;> rfl

/-- A replay that ends leaves its timers and the rest of its backlog in the calendar, but for what
is cancelled. -/
theorem tickets_closeReplay {s : Simulation (Action n)} (distinct : s.sources.Nodup)
    (known : ∀ other, s.phase other ≠ .running → other ∈ s.sources) (source : Source)
    (release : Instant) (timers : Agenda Origin (Work (Action n))) :
    ∃ dropped, (s.tickets ++ timerTickets timers.toList).Perm
        ((s.closeReplay source release timers).tickets ++ dropped) ∧
      ∀ ticket ∈ dropped, s.isCancelled ticket.work.id = true := by
  refine ⟨backlogTickets ((backlogOf s source).filter (fun work => !!s.isCancelled work.id)) ++
    timerTickets (timers.toList.filter (fun e => !!s.isCancelled e.2.id)), ?_, ?_⟩
  · have hworks := map_filter_perm (backlogOf s source) (fun work => !s.isCancelled work.id)
      (fun work => (⟨work, none, true⟩ : Ticket n))
    have htimers := map_filter_perm timers.toList (fun e => !s.isCancelled e.2.id)
      (fun e => (⟨e.2, some e.1.due, true⟩ : Ticket n))
    have hheld := heldTickets_closed distinct known source
    have hcalendar := tickets_reposted s.calendar release (leftover s source)
      (timers.toList.filter (fun e => !s.isCancelled e.2.id))
    rw [leftover_eq] at hcalendar
    rw [closeReplay_eq, leftover_eq]
    unfold Simulation.tickets
    change (_ : List (Ticket n)).Perm
      (Calendar.tickets _ ++ Simulation.heldTickets { s with phases := closedPhases s source } ++ _)
    unfold backlogTickets at *
    unfold timerTickets at *
    classical
    simp only [List.perm_iff_count, List.count_append] at *
    intro t
    have h₁ := hworks t
    have h₂ := htimers t
    have h₃ := hheld t
    have h₄ := hcalendar t
    omega
  · intro ticket hticket
    rcases List.mem_append.1 hticket with hmem | hmem
    · obtain ⟨work, hwork, rfl⟩ := List.mem_map.1 hmem
      simpa using (List.mem_filter.1 hwork).2
    · obtain ⟨e, he, rfl⟩ := List.mem_map.1 hmem
      simpa using (List.mem_filter.1 he).2

end Close

end StallSim
