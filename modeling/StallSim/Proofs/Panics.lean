import StallSim.Proofs.Backlogs
import StallSim.Proofs.Conservation

/-!
# What a panic loses

A panic leaves every run that is under way.  A simulation that is not in the middle of a replay
loses nothing by it but the action that panicked.  A replay that is left takes its timers along, for
good; the rest of its backlog stays listed, but nobody works it off until the source is stalled
again.

* `Forfeited` — a timer was with a replay that a panic left.
* `Stranded` — work is in a backlog that nobody replays, and its source is not stalled again.

Principal results: `waits_or_forfeited` — what is still to be done waits or is forfeited, in every
history; `lost_by_panic_iff` — what a panic loses; `replay_lost_by_panic` — a panic that loses a
backlog and a timer.
-/

set_option autoImplicit false

namespace StallSim

variable {n : Nat} {h new later : List (Fin n × Happening n)} {m m' : Machine n} {i : Fin n}
  {ticket : Ticket n}

/-! ## The step of a panic -/

/-- A panic touches the sources at work and the flag of the run, in the simulations whose runs it
leaves. -/
theorem sim_unwind (w : World n) (runs : List (Run n)) (i : Fin n) :
    ∃ running active, (Machine.unwind w runs).sim i =
      { w.sim i with running := running, active := active } := by
  unfold Machine.unwind
  induction runs generalizing w with
  | nil => exact ⟨_, _, rfl⟩
  | cons run runs ih =>
    obtain ⟨running, active, hsim⟩ := ih (w.update run.sim (fun s => s.endAction.endRun))
    rw [List.foldl_cons, hsim, World.update, World.sim_setSim]
    split
    · rename_i hrun
      subst hrun
      exact ⟨running, active, rfl⟩
    · exact ⟨running, active, rfl⟩

/-- After a panic the simulation is as before, out of any replay. -/
theorem standing_of_panics (panics : m.Panics) (i : Fin n) :
    ∃ running active, m.step.standing i =
      ⟨{ m.world.sim i with running := running, active := active }, none⟩ := by
  obtain ⟨run, work, message, hcontrol⟩ := panics
  obtain ⟨w, control, callers⟩ := m
  cases hcontrol
  obtain ⟨running, active, hsim⟩ := sim_unwind w (run :: callers.map Caller.run) i
  exact ⟨running, active, congrArg (fun s => (⟨s, none⟩ : Standing n)) hsim⟩

/-- A panic accepts nothing. -/
theorem accepted_of_panics (panics : m.Panics) (i : Fin n) :
    (logOf i m.happenings).accepted = [] := by
  rw [List.eq_nil_iff_forall_not_mem]
  intro ticket hmem
  obtain ⟨x, hx, hticket⟩ := List.mem_filterMap.1 hmem
  have hsome : x = .accepted ticket := by
    cases x <;> cases hticket
    rfl
  subst hsome
  obtain ⟨run, work, message, hcontrol⟩ := panics
  rcases mem_happenings (mem_logOf.1 hx) with ⟨request, hcall, -⟩ | ⟨_, _, hstart⟩ | ⟨hunwound, -⟩
  · rw [Machine.call?, hcontrol] at hcall
    cases hcall
  · cases hstart
  · cases hunwound

/-- What happens next is without a panic, or it is one. -/
theorem Next.panicFree_or (next : Next m new m') :
    PanicFree new ∨ m.Panics ∧ new = m.happenings ∧ m' = m.step := by
  have hrequest : ∀ {w : World n} {request : Request n} {x : Fin n × Happening n},
      x ∈ request.happenings w → x.2 ≠ .unwound := by
    intro w request x hmem hx
    rcases mem_happenings_request hmem with ⟨_, hticket⟩ | ⟨_, _, _, _, _, -, -, rfl, -⟩
    · rw [hx] at hticket
      cases hticket
    · cases hx
  cases next with
  | step =>
    by_cases hpanics : m.Panics
    · exact .inr ⟨hpanics, rfl, rfl⟩
    · refine .inl fun x hmem hx => ?_
      rcases mem_happenings hmem with ⟨request, -, hcalled⟩ | ⟨_, _, hstart⟩ | ⟨-, hpanic⟩
      · exact hrequest hcalled hx
      · rw [hx] at hstart
        cases hstart
      · exact hpanics hpanic
  | request outcome request rested => exact .inl fun x hmem hx => hrequest hmem hx

/-! ## Forfeited timers -/

/-- The timer was with a replay of the simulation `i` that a panic left, or is about to leave. -/
def Forfeited (i : Fin n) (h : List (Fin n × Happening n)) (m : Machine n) (ticket : Ticket n) :
    Prop :=
  ∃ h₀ m₀ later, History h₀ m₀ ∧ m₀.Panics ∧ Later m₀ later m ∧ h = h₀ ++ later ∧
    ticket ∈ replayTickets (m₀.standing i).replay

theorem Forfeited.next (forfeited : Forfeited i h m ticket) (next : Next m new m') :
    Forfeited i (h ++ new) m' ticket := by
  obtain ⟨h₀, m₀, later, hist₀, hpanics, onward, rfl, htimer⟩ := forfeited
  exact ⟨h₀, m₀, later ++ new, hist₀, hpanics, onward.snoc next, List.append_assoc _ _ _, htimer⟩

section Rows

variable {log newLog : Log n} {st st' : Standing n}

/-- What is still to be done after a row of moves was so before, if it was accepted before. -/
theorem Outstanding.earlier (along : Along Move log st newLog st')
    (outstanding : Outstanding (log ++ newLog) st'.sim ticket) (accepted : ticket ∈ log.accepted) :
    Outstanding log st.sim ticket := by
  refine ⟨accepted, ?_, fun hstarted => outstanding.unstarted ?_⟩
  · by_contra hcancelled
    have hlater : st'.sim.isCancelled ticket.work.id = true :=
      isCancelled_of_along along (by simpa using hcancelled)
    rw [outstanding.live] at hlater
    cases hlater
  · rw [Log.startedIds, Log.started_append, List.map_append]
    exact List.mem_append_left _ hstarted

/-- What waits before a row of moves without a panic, or is accepted on the way, waits afterwards,
has started or is cancelled. -/
theorem Course.waits_or_started (course : Course log st) (along : Along Move log st newLog st')
    (calm : newLog.Calm) (mem : ticket ∈ st.tickets ++ newLog.accepted)
    (live : st'.sim.isCancelled ticket.work.id = false) :
    ticket ∈ st'.tickets ∨ ticket.work ∈ newLog.started := by
  obtain ⟨begun, dropped, hbalance, hbegun, hdropped⟩ := course.conserves along
  rcases List.mem_append.1 (hbalance.mem_iff.1 mem) with hmem | hmem
  · rcases List.mem_append.1 hmem with hmem | hmem
    · exact .inl hmem
    · exact .inr (hbegun ▸ List.mem_map_of_mem hmem)
  · rcases hdropped ticket hmem with hcancelled | hpanic
    · rw [live] at hcancelled
      cases hcancelled
    · exact absurd calm hpanic

/-- No ticket is accepted twice. -/
theorem Course.not_accepted_again (course : Course log st) (along : Along Move log st newLog st')
    (accepted : ticket ∈ log.accepted) : ticket ∉ newLog.accepted := by
  intro hagain
  have honce := (course.along along).ledger.once
  rw [Log.accepted_append, List.map_append] at honce
  exact (List.nodup_append.1 honce).2.2 _ (List.mem_map_of_mem accepted) _
    (List.mem_map_of_mem hagain) rfl

/-- What was accepted and does not wait any more, never waits or starts again. -/
theorem Course.gone (course : Course log st) (along : Along Move log st newLog st')
    (accepted : ticket ∈ log.accepted) (gone : ticket ∉ st.tickets) :
    ticket ∉ st'.tickets ∧ ticket.work ∉ newLog.started := by
  obtain ⟨begun, dropped, hbalance, hbegun, -⟩ := course.conserves along
  have habsent : ticket ∉ st.tickets ++ newLog.accepted := fun hmem =>
    (List.mem_append.1 hmem).elim gone (course.not_accepted_again along accepted)
  constructor
  · intro hmem
    exact habsent (hbalance.mem_iff.2 (List.mem_append_left _ (List.mem_append_left _ hmem)))
  · intro hstarted
    rw [← hbegun, List.mem_map] at hstarted
    obtain ⟨other, hother, hwork⟩ := hstarted
    have hbefore := hbalance.mem_iff.2
      (List.mem_append_left dropped (List.mem_append_right st'.tickets hother))
    have haccepted : other ∈ Log.accepted (log ++ newLog) := by
      rw [Log.accepted_append]
      rcases List.mem_append.1 hbefore with hmem | hmem
      · exact List.mem_append_left _ (course.ledger.accepted_of_mem hmem)
      · exact List.mem_append_right _ hmem
    have hsame : other = ticket := (course.along along).ledger.eq_of_id haccepted
      (by rw [Log.accepted_append]; exact List.mem_append_left _ accepted)
      (congrArg Work.id hwork)
    exact habsent (hsame ▸ hbefore)

end Rows

/-- **What is still to be done waits or is forfeited**, in every history. -/
theorem waits_or_forfeited (hist : History h m)
    (outstanding : Outstanding (logOf i h) (m.world.sim i) ticket) :
    ticket ∈ (m.standing i).tickets ∨ Forfeited i h m ticket := by
  induction hist with
  | create configs procedures => cases outstanding.accepted
  | @next h new m m' hist next ih =>
    have halong := next.along hist i
    have hcourse := hist.course i
    rw [logOf_append] at outstanding
    have haccepted := outstanding.accepted
    rw [Log.accepted_append] at haccepted
    rcases next.panicFree_or with hfree | ⟨hpanics, rfl, rfl⟩
    · have hwaited : ticket ∈ (m.standing i).tickets ++ (logOf i new).accepted ∨
          Forfeited i h m ticket := by
        rcases List.mem_append.1 haccepted with hold | hnew
        · exact (ih (outstanding.earlier halong hold)).imp_left (List.mem_append_left _)
        · exact .inl (List.mem_append_right _ hnew)
      rcases hwaited with hmem | hforfeited
      · rcases hcourse.waits_or_started halong (hfree.calm i) hmem outstanding.live with
          hwaits | hstarted
        · exact .inl hwaits
        · refine absurd ?_ outstanding.unstarted
          rw [Log.startedIds, Log.started_append, List.map_append]
          exact List.mem_append_right _ (List.mem_map_of_mem hstarted)
      · exact .inr (hforfeited.next next)
    · rw [accepted_of_panics hpanics, List.append_nil] at haccepted
      obtain ⟨running, active, hstanding⟩ := standing_of_panics hpanics i
      rcases ih (outstanding.earlier halong haccepted) with hwaits | hforfeited
      · rcases List.mem_append.1 hwaits with hsim | htimer
        · rw [hstanding]
          exact .inl (List.mem_append_left _ hsim)
        · exact .inr (Forfeited.next ⟨h, m, [], hist, hpanics, .refl m, (List.append_nil h).symm,
            htimer⟩ next)
      · exact .inr (hforfeited.next next)

/-- **What a panic leaves**: work that is still to be done waits in its simulation, unless it is
forfeited. -/
theorem mem_tickets_iff_not_forfeited (hist : History h m) (panics : m.Panics)
    (outstanding : Outstanding (logOf i h) (m.world.sim i) ticket) :
    ticket ∈ (m.world.sim i).tickets ↔ ¬ Forfeited i h m ticket := by
  constructor
  · rintro hmem ⟨h₀, m₀, later, hist₀, hpanics, onward, rfl, htimer⟩
    have hcourse := hist₀.course i
    have hnodup := hcourse.ledger.nodup_tickets
    rw [Standing.tickets, List.map_append] at hnodup
    have hapart : ticket ∉ (m₀.world.sim i).tickets := fun hsim =>
      (List.nodup_append.1 hnodup).2.2 _ (List.mem_map_of_mem hsim) _
        (List.mem_map_of_mem htimer) rfl
    cases onward with
    | refl => exact hapart hmem
    | next next onward =>
      rcases next.panicFree_or with hfree | ⟨-, rfl, rfl⟩
      · obtain ⟨run, work, message, hcontrol⟩ := hpanics
        obtain ⟨w, control, callers⟩ := m₀
        cases hcontrol
        cases next with
        | step =>
          refine hfree (run.sim, .unwound) (List.mem_append_right _ ?_) rfl
          exact List.mem_cons_self
        | request outcome request rested => cases rested
      · have hcourse₁ := (hist₀.next next).course i
        obtain ⟨running, active, hstanding⟩ := standing_of_panics hpanics i
        have hgone : ticket ∉ (m₀.step.standing i).tickets := by
          rw [hstanding, tickets_of_idle]
          exact hapart
        have haccepted : ticket ∈ (logOf i (h₀ ++ m₀.happenings)).accepted := by
          rw [logOf_append, Log.accepted_append]
          exact List.mem_append_left _
            (hcourse.ledger.accepted_of_mem (List.mem_append_right _ htimer))
        have halong := onward.along (hist₀.next next) i
        exact (hcourse₁.gone halong haccepted hgone).1 (List.mem_append_left _ hmem)
  · intro hkept
    rcases waits_or_forfeited hist outstanding with hwaits | hforfeited
    · rcases List.mem_append.1 hwaits with hmem | htimer
      · exact hmem
      · exact absurd ⟨h, m, [], hist, panics, .refl m, (List.append_nil h).symm, htimer⟩ hkept
    · exact absurd hforfeited hkept

/-! ## Stranded work -/

/-- The work is in the backlog of a source that is being replayed, and the source is not stalled in
what happens then. -/
def Stranded (s : Simulation (Action n)) (log : Log n) (ticket : Ticket n) : Prop :=
  ticket.work.source ∉ log.pauses.map Pause.source ∧
    ∃ backlog, s.phase ticket.work.source = .replaying backlog ∧
      ticket ∈ backlogTickets backlog.values

section Stranded

variable {log newLog : Log n} {s s' : Simulation (Action n)}

/-- Stranded work does not start. -/
theorem Stranded.unstarted (course : Course log ⟨s, none⟩) {st' : Standing n}
    (along : Along Move log ⟨s, none⟩ newLog st') (calm : newLog.Calm)
    (stranded : Stranded s newLog ticket) : ticket.work ∉ newLog.started := by
  obtain ⟨hunstalled, backlog, hphase, hmem⟩ := stranded
  obtain ⟨-, backlog', hphase', hsubset⟩ :=
    backlog_stays along calm hphase (not_replays_none s) hunstalled
  have hledger := (course.along along).ledger
  have hknown := hledger.rostered.known_of_eq hphase' (fun h => by cases h)
  have hwaits : ticket ∈ st'.tickets := by
    refine List.mem_append_left _ (List.mem_append_right _ (List.mem_flatMap.2 ⟨_, hknown, ?_⟩))
    rw [hphase']
    exact hsubset ticket hmem
  intro hstarted
  apply hledger.unstarted_of_mem hwaits
  rw [Log.startedIds, Log.started_append, List.map_append]
  exact List.mem_append_right _ (List.mem_map_of_mem hstarted)

/-- What is left when no event waits any more was stranded. -/
theorem stranded_of_isEmpty (course : Course log ⟨s, none⟩)
    (along : Along Move log ⟨s, none⟩ newLog ⟨s', none⟩) (calm : newLog.Calm)
    (accepted : ticket ∈ log.accepted) (idle : s'.calendar.isEmpty = true)
    (waits : ticket ∈ (⟨s', none⟩ : Standing n).tickets) : Stranded s newLog ticket := by
  obtain ⟨backlog, hphase, hmem⟩ := backlog_of_isEmpty (course.along along) idle waits
  rcases backlog_was along calm ticket.work.source hphase with hreplays | hwas
  · exact absurd hreplays (not_replays_none s')
  · obtain ⟨hunstalled, backlog', hphase', hsubset⟩ := hwas
    refine ⟨hunstalled, backlog', hphase', (hsubset ticket hmem).resolve_right ?_⟩
    exact course.not_accepted_again along accepted

end Stranded

/-- **What a panic loses.**  An action of a simulation panics.  Right afterwards, work that is still
to be done is listed, unless it is forfeited: it is a timer of a replay that this panic or an earlier
one has left.  And if the world goes on without another panic until no event waits and it rests, the
work that is not cancelled by then has been started, unless it is forfeited or stranded: it was in
the backlog of a source that was being replayed, and the source was not stalled again. -/
theorem lost_by_panic_iff (hist : History h m) (panics : m.Panics)
    (outstanding : Outstanding (logOf i h) (m.world.sim i) ticket) :
    ((∃ time, ticket.pending time ∈ (m.step.world.sim i).pendingEvents) ↔
      ¬ Forfeited i h m ticket) ∧
    ∀ later m' outcome, Later m.step later m' → PanicFree later → m'.result? = some outcome →
      (m'.world.sim i).calendar.isEmpty = true →
      (m'.world.sim i).isCancelled ticket.work.id = false →
      (ticket.work ∈ (logOf i later).started ↔
        ¬ Forfeited i h m ticket ∧ ¬ Stranded (m.world.sim i) (logOf i later) ticket) := by
  have hist' := hist.next (.step m)
  have hkept := mem_tickets_iff_not_forfeited hist panics outstanding
  obtain ⟨running, active, hstanding⟩ := standing_of_panics panics i
  have hsim : m.step.world.sim i =
      { m.world.sim i with running := running, active := active } :=
    congrArg Standing.sim hstanding
  have hcourse := hist'.course i
  have haccepted : ticket ∈ (logOf i (h ++ m.happenings)).accepted := by
    rw [logOf_append, Log.accepted_append]
    exact List.mem_append_left _ outstanding.accepted
  constructor
  · have hlisted := mem_pendingEvents_iff hcourse.ledger haccepted
    rw [hlisted, hsim, ← hkept]
    exact and_iff_left outstanding.live
  · intro later m' outcome onward hfree hrest hidle hlive
    have halong := onward.along hist' i
    rw [hstanding] at hcourse halong
    have hcalm := hfree.calm i
    constructor
    · intro hstarted
      refine ⟨hkept.1 ?_, fun hstranded => ?_⟩
      · by_contra hgone
        refine (hcourse.gone halong haccepted ?_).2 hstarted
        rw [tickets_of_idle]
        exact hgone
      · exact Stranded.unstarted hcourse halong hcalm hstranded hstarted
    · rintro ⟨hnot, hfloating⟩
      have hwaits : ticket ∈ (⟨{ m.world.sim i with running := running, active := active },
          none⟩ : Standing n).tickets ++ (logOf i later).accepted := by
        refine List.mem_append_left _ ?_
        rw [tickets_of_idle]
        exact hkept.2 hnot
      rcases hcourse.waits_or_started halong hcalm hwaits hlive with hleft | hstarted
      · rw [standing_of_result? hrest] at hleft halong
        exact absurd (stranded_of_isEmpty hcourse halong hcalm haccepted hidle hleft) hfloating
      · exact hstarted

/-! ## A panic in a replay, and one outside -/

/-- An action that panics. -/
def panicking : Script 1 := .panic ""

/-- The ticket of the last of the three actions, for immediate work or for a timer. -/
def lastTicket (due : Option Instant) : Ticket 1 := ⟨⟨⟨2⟩, .index 0, "", ⟨"", .done⟩⟩, due, true⟩

/-- The machine after its world was told to resume, and a number of steps. -/
def resumed (m : Machine 1) (k : Nat) : Machine 1 :=
  (Machine.request m.world (.command lone .resume)).steps k

/-- What has happened by then. -/
def resumedLog (m : Machine 1) (k : Nat) : List (Fin 1 × Happening 1) :=
  (Machine.request m.world (.command lone .resume)).story k

theorem Later.resumed {m : Machine 1} {outcome : Outcome} (rested : m.result? = some outcome)
    (k : Nat) : Later m (resumedLog m k) (resumed m k) :=
  .next (.request m outcome (.command lone .resume) rested) (.steps _ k)

/-- After a panic outside of replays, the work that waits is listed, and it starts. -/
theorem dispatched_panic_loses_nothing :
    (threeWorld .done panicking .sourceNow 3).Panics ∧
    Outstanding (logOf 0 (threeLog .done panicking .sourceNow 3))
      ((threeWorld .done panicking .sourceNow 3).world.sim 0) (lastTicket none) ∧
    (∃ time, (lastTicket none).pending time ∈
      ((threeWorld .done panicking .sourceNow 3).step.world.sim 0).pendingEvents) ∧
    (lastTicket none).work ∈
      (logOf 0 (resumedLog (threeWorld .done panicking .sourceNow 3).step 3)).started := by
  have hist := History.three .done panicking .sourceNow 3
  have hpanics : (threeWorld .done panicking .sourceNow 3).Panics := ⟨_, _, _, rfl⟩
  have hfree : PanicFree (threeLog .done panicking .sourceNow 3) := by decide
  have htickets : ((threeWorld .done panicking .sourceNow 3).standing 0).tickets =
      [lastTicket none] := rfl
  have houtstanding := ((hist.course 0).ledger.outstanding_iff (hfree.calm 0)).2
    ⟨htickets ▸ List.mem_singleton.2 rfl, rfl⟩
  have hlost := lost_by_panic_iff hist hpanics houtstanding
  have hlisted : ((threeWorld .done panicking .sourceNow 3).step.world.sim 0).pendingEvents =
      [(lastTicket none).pending none] := rfl
  have hkept := hlost.1.1 ⟨none, hlisted ▸ List.mem_singleton.2 rfl⟩
  refine ⟨hpanics, houtstanding, hlost.1.2 hkept, ?_⟩
  refine (hlost.2 _ (resumed _ 3) (.count 1) (.resumed rfl 3) (by decide) rfl rfl rfl).2
    ⟨hkept, ?_⟩
  rintro ⟨-, backlog, hphase, -⟩
  have hrunning : ((threeWorld .done panicking .sourceNow 3).world.sim 0).phase (.index 0) =
      .running := rfl
  rw [show (lastTicket none).work.source = .index 0 from rfl, hrunning] at hphase
  cases hphase

/-- A panic of a replayed action takes a timer along that the stall has delayed, and leaves work in
a backlog that nobody replays. -/
theorem replay_lost_by_panic :
    (¬ ∀ (h : List (Fin 1 × Happening 1)) (m : Machine 1) (i : Fin 1) (ticket : Ticket 1),
      History h m → m.Panics → Outstanding (logOf i h) (m.world.sim i) ticket →
      ∃ time, ticket.pending time ∈ (m.step.world.sim i).pendingEvents) ∧
    ¬ ∀ (h : List (Fin 1 × Happening 1)) (m : Machine 1) (i : Fin 1) (ticket : Ticket 1),
      History h m → m.Panics → Outstanding (logOf i h) (m.world.sim i) ticket →
      ∀ later m' outcome, Later m.step later m' → PanicFree later → m'.result? = some outcome →
        (m'.world.sim i).calendar.isEmpty = true →
        (m'.world.sim i).isCancelled ticket.work.id = false →
        ticket.work ∈ (logOf i later).started := by
  constructor
  · intro hall
    have hist := History.three stallUntilFive panicking (.sourceAt (.at ⟨3⟩)) 7
    have hfree : PanicFree (threeLog stallUntilFive panicking (.sourceAt (.at ⟨3⟩)) 7) := by decide
    have htickets : ((threeWorld stallUntilFive panicking (.sourceAt (.at ⟨3⟩)) 7).standing
        0).tickets = [lastTicket (some ⟨3⟩)] := rfl
    have houtstanding := ((hist.course 0).ledger.outstanding_iff (hfree.calm 0)).2
      ⟨htickets ▸ List.mem_singleton.2 rfl, rfl⟩
    obtain ⟨time, hlisted⟩ := hall _ _ 0 _ hist ⟨_, _, _, rfl⟩ houtstanding
    have hnone : ((threeWorld stallUntilFive panicking (.sourceAt (.at ⟨3⟩)) 7).step.world.sim
        0).pendingEvents = [] := rfl
    rw [hnone] at hlisted
    cases hlisted
  · intro hall
    have hist := History.three stallUntilFive panicking .sourceNow 7
    have hfree : PanicFree (threeLog stallUntilFive panicking .sourceNow 7) := by decide
    have htickets : ((threeWorld stallUntilFive panicking .sourceNow 7).standing 0).tickets =
        [lastTicket none] := rfl
    have houtstanding := ((hist.course 0).ledger.outstanding_iff (hfree.calm 0)).2
      ⟨htickets ▸ List.mem_singleton.2 rfl, rfl⟩
    have hstarted := hall _ _ 0 _ hist ⟨_, _, _, rfl⟩ houtstanding _ (resumed _ 1) (.count 0)
      (.resumed rfl 1) (by decide) rfl rfl rfl
    have hnone : (logOf 0 (resumedLog (threeWorld stallUntilFive panicking .sourceNow 7).step
        1)).started = [] := rfl
    rw [hnone] at hstarted
    cases hstarted

end StallSim
