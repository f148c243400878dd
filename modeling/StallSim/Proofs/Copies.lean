import StallSim.Proofs.Renumbering
import StallSim.Proofs.Resets

/-!
# Copies of simulations

A simulation is copied by one that holds the same work under other ids, or lacks some of it.  What
the first does with work that both know the second does as well; what it does with other work leaves
the second where it is, as long as that work is dropped or held back and does not start.

* `Copy` — the second simulation holds what the first holds, but for the ids and the work it does
  not know.  Its clock is behind only while no immediate event waits and a source is stalled: then
  the clocks will agree again before anything starts.
* `Level` — moreover the clocks agree.

Principal results: `Level.lodge`, `Level.lodge_left`, `Level.stallUntil`, `Level.cancel`,
`Copy.dispatch`, `Level.nextReplayed`, `Level.closeReplay` — every operation, on both or on the
first alone.
-/

set_option autoImplicit false

namespace StallSim

open List (Forall₂)

variable {n : Nat}

/-- No immediate event waits and a source is stalled, so a release is still to come. -/
def Simulation.AwaitsRelease (s : Simulation (Action n)) : Prop :=
  s.calendar.immediate = [] ∧ ∃ source, (s.phase source).isStalled = true

section Copies

variable (ρ : Renumbering)

/-- The same entry of a trace, but for the id. -/
inductive SameEntry : TraceEntry Source → TraceEntry Source → Prop where
  | mk (time : Instant) {id id' : EventId} (of : ρ.of id = some id') (source : Source)
      (description : String) :
      SameEntry ⟨time, id, source, description⟩ ⟨time, id', source, description⟩

/-- The same trace, but for the ids, or none in either case. -/
def SameTrace : Option Trace → Option Trace → Prop := Option.Rel (Forall₂ (SameEntry ρ))

/-- The second simulation holds what the first holds, but for the ids and the work that it does not
know. -/
structure Copy (s t : Simulation (Action n)) : Prop where
  immediate : Forall₂ (SameImmediate ρ) (s.calendar.immediate.filter ρ.keepsEvent)
    t.calendar.immediate
  timed : Renumbered (SameTimed ρ) ρ.keepsEvent s.calendar.timed t.calendar.timed
  phase : ∀ source, SamePhase ρ (s.phase source) (t.phase source)
  ids : ∀ k, ρ.of ⟨s.nextId + k⟩ = some ⟨t.nextId + k⟩ ∧ ρ.due ⟨s.nextId + k⟩ = none
  cancelled : ∀ id id', ρ.of id = some id' → t.isCancelled id' = s.isCancelled id
  sources : t.sources = s.sources
  flags : t.flags = s.flags
  active : t.active = s.active
  processed : t.processed = s.processed
  trace : SameTrace ρ s.trace t.trace
  behind : t.now ≤ s.now
  late : t.now = s.now ∨ s.AwaitsRelease

/-- Moreover the clocks show the same. -/
structure Level (s t : Simulation (Action n)) : Prop extends Copy ρ s t where
  now : t.now = s.now

end Copies

variable {ρ : Renumbering} {s t : Simulation (Action n)} {work work' : Work (Action n)}
  {event event' : Event (Action n)}

/-! ## Operations on both -/

namespace Level

theorem of_copy (copy : Copy ρ s t) (now : t.now = s.now) : Level ρ s t := { copy with now := now }

theorem flags_eq (level : Copy ρ s t) :
    t.paused = s.paused ∧ t.halted = s.halted ∧ t.running = s.running := by
  simpa [Simulation.flags] using level.flags

theorem endAction (level : Level ρ s t) : Level ρ s.endAction t.endAction :=
  { level with active := congrArg List.tail level.active }

theorem endRun (level : Level ρ s t) : Level ρ s.endRun t.endRun := by
  obtain ⟨hpaused, hhalted, -⟩ := flags_eq level.toCopy
  exact { level with flags := by simp [Simulation.flags, Simulation.endRun, hpaused, hhalted] }

theorem pause (level : Level ρ s t) : Level ρ s.pause t.pause := by
  obtain ⟨-, hhalted, hrunning⟩ := flags_eq level.toCopy
  exact { level with flags := by simp [Simulation.flags, Simulation.pause, hhalted, hrunning] }

theorem unpause (level : Level ρ s t) : Level ρ s.unpause t.unpause := by
  obtain ⟨-, hhalted, hrunning⟩ := flags_eq level.toCopy
  exact { level with flags := by simp [Simulation.flags, Simulation.unpause, hhalted, hrunning] }

theorem halt (level : Level ρ s t) : Level ρ s.halt t.halt := by
  obtain ⟨hpaused, -, hrunning⟩ := flags_eq level.toCopy
  exact { level with flags := by simp [Simulation.flags, Simulation.halt, hpaused, hrunning] }

theorem failAction (level : Level ρ s t) : Level ρ s.failAction t.failAction := level.endAction.halt

theorem enableTrace (level : Level ρ s t) : Level ρ s.enableTrace t.enableTrace :=
  { level with
    trace := by
      have htrace := level.trace
      show SameTrace ρ (some (s.trace.getD [])) (some (t.trace.getD []))
      generalize s.trace = a at htrace
      generalize t.trace = b at htrace
      cases htrace with
      | none => exact .some .nil
      | some entries => exact .some entries }

theorem startAction (level : Level ρ s t) (works : SameWork ρ work work') :
    Level ρ (s.startAction work) (t.startAction work') :=
  { level with
    active := by
      show work'.source :: t.active = work.source :: s.active
      rw [works.source_eq, level.active]
    processed := congrArg (· + 1) level.processed
    trace := by
      have htrace := level.trace
      show SameTrace ρ (s.trace.map _) (t.trace.map _)
      generalize s.trace = a at htrace
      generalize t.trace = b at htrace
      cases htrace with
      | none => exact .none
      | some entries =>
        cases works with
        | mk of source description action =>
          rw [level.now]
          exact .some (List.rel_append entries (.cons (.mk s.now of source description) .nil)) }

theorem issue (level : Level ρ s t) : Level ρ s.issue t.issue :=
  { level with
    ids := fun k => by
      have hids := level.ids (1 + k)
      rwa [← Nat.add_assoc, ← Nat.add_assoc] at hids }

theorem setPhase (level : Level ρ s t) (source : Source) {phase phase' : Phase (Action n)}
    (phases : SamePhase ρ phase phase') :
    Level ρ (s.setPhase source phase) (t.setPhase source phase') :=
  { level with
    phase := fun other => by
      rw [Simulation.phase_setPhase, Simulation.phase_setPhase]
      split
      · exact phases
      · exact level.phase other
    late := .inl level.now }

theorem postNow (level : Level ρ s t) (events : SameEvent ρ event event')
    (due : ρ.due event.id = none) : Level ρ (s.postNow event) (t.postNow event') :=
  { level with
    immediate := by
      have hlast : Forall₂ (SameImmediate ρ) ([event].filter ρ.keepsEvent) [event'] := by
        rw [List.filter_cons_of_pos events.keeps]
        exact .cons ⟨events, due⟩ .nil
      show Forall₂ _ ((s.calendar.immediate ++ [event]).filter ρ.keepsEvent) _
      rw [List.filter_append]
      exact List.rel_append level.immediate hlast
    late := .inl level.now }

theorem postTimed (level : Level ρ s t) (time : Instant) (band : Band) (origin : Instant)
    (events : SameEvent ρ event event') (due : ρ.DueAt event.id origin) :
    Level ρ (s.postTimed ⟨time, band, origin, event.id⟩ event)
      (t.postTimed ⟨time, band, origin, event'.id⟩ event') :=
  { level with
    timed := level.timed.insert (.mk time band origin events due) events.keeps
      (SameTimed.alike time band origin events due) }

/-- Both cancel the same work. -/
theorem cancel (level : Level ρ s t) {id id' : EventId} (of : ρ.of id = some id') :
    Level ρ (s.cancel id) (t.cancel id') :=
  { level with
    cancelled := fun other other' hother => by
      rw [Simulation.isCancelled_cancel, Simulation.isCancelled_cancel,
        level.cancelled other other' hother, decide_eq_decide.2 (Renumbering.eq_iff hother of)] }

end Level

/-! ## Operations on the first simulation alone -/

section Left

/-- The first cancels work that the second does not know. -/
theorem Level.cancel_left (level : Level ρ s t) {id : EventId} (unknown : ρ.of id = none) :
    Level ρ (s.cancel id) t :=
  { level with
    cancelled := fun other other' hother => by
      have hne : other ≠ id := by
        rintro rfl
        cases hother.symm.trans unknown
      rw [Simulation.isCancelled_cancel, level.cancelled other other' hother]
      simp [hne] }

theorem Level.postNow_left (level : Level ρ s t) (unknown : ρ.keepsEvent event = false) :
    Level ρ (s.postNow event) t :=
  { level with
    immediate := by
      show Forall₂ _ ((s.calendar.immediate ++ [event]).filter ρ.keepsEvent) _
      rw [List.filter_append, List.filter_cons_of_neg (by simp [unknown]), List.filter_nil,
        List.append_nil]
      exact level.immediate
    late := .inl level.now }

theorem Level.postTimed_left (level : Level ρ s t) (turn : Turn)
    (unknown : ρ.keepsEvent event = false) : Level ρ (s.postTimed turn event) t :=
  { level with timed := level.timed.insert_left turn unknown }

theorem Level.setPhase_left (level : Level ρ s t) {source : Source} {phase : Phase (Action n)}
    (phases : SamePhase ρ phase (t.phase source)) : Level ρ (s.setPhase source phase) t :=
  { level with
    phase := fun other => by
      rw [Simulation.phase_setPhase]
      split
      · rename_i hother
        exact hother ▸ phases
      · exact level.phase other
    late := .inl level.now }

/-- Work that the second does not know has just been handed in: it waits where its ticket says. -/
theorem Level.lodge_left {s' : Simulation (Action n)} {ticket : Ticket n}
    (placed : Placed s ticket s') (level : Level ρ s.issue t)
    (unknown : ρ.keeps ticket.work = false) : Level ρ s' t := by
  have hevent : ∀ {turn : Option Turn} {event : Event (Action n)},
      event.ticket? turn = some ticket → ρ.keepsEvent event = false := by
    intro turn event hentry
    cases event <;> cases hentry <;> exact unknown
  cases placed with
  | immediate event entry running => exact level.postNow_left (hevent entry)
  | timed due event entry => exact level.postTimed_left _ (hevent entry)
  | parked stall stalled routed early =>
    have hphase := level.phase ticket.work.source
    rw [show s.issue.phase ticket.work.source = .stalled stall from stalled] at hphase
    exact level.setPhase_left (hphase.park_left unknown ticket.due)
  | joined backlog replaying routed untimed =>
    have hphase := level.phase ticket.work.source
    rw [show s.issue.phase ticket.work.source = .replaying backlog from replaying] at hphase
    refine level.setPhase_left ?_
    generalize t.phase ticket.work.source = phase' at hphase
    cases hphase with
    | replaying parked => exact .replaying (parked.insert_left _ unknown)

end Left

/-! ## Submissions and stalls -/

namespace Level

theorem knows (level : Copy ρ s t) (source : Source) : t.knows source = s.knows source := by
  rw [Simulation.knows, Simulation.knows, level.sources]

theorem of_freshId (level : Copy ρ s t) : ρ.of s.freshId = some t.freshId := (level.ids 0).1

theorem due_freshId (level : Copy ρ s t) : ρ.due s.freshId = none := (level.ids 0).2

/-- Both let the same work wait. -/
theorem lodge (level : Level ρ s t) (works : SameWork ρ work work') {due : Option Instant}
    (fits : ρ.Fits work.id due) (routed : Bool) :
    Level ρ (s.lodge ⟨work, due, routed⟩) (t.lodge ⟨work', due, routed⟩) := by
  have hphase := level.phase work.source
  unfold Simulation.lodge
  cases routed with
  | false =>
    cases due with
    | none => exact level.postNow (.direct works) fits
    | some time => exact level.postTimed time .ordinary time (.direct works) fits
  | true =>
    cases due with
    | none =>
      simp only [Simulation.routeNow, works.source_eq]
      generalize s.phase work.source = phase at hphase
      generalize t.phase work.source = phase' at hphase
      cases hphase with
      | running => exact level.postNow (.routed works) fits
      | stalled release parked held =>
        exact level.setPhase _ (SamePhase.park (.stalled release parked held) works fits)
      | replaying parked =>
        exact level.setPhase _ (.replaying
          (parked.insert (.mk works fits) works.keeps (SameParked.alike works fits)))
    | some time =>
      have hposted := level.postTimed time .ordinary time (.routed works) fits
      simp only [Simulation.routeTimed, works.source_eq]
      generalize s.phase work.source = phase at hphase
      generalize t.phase work.source = phase' at hphase
      cases hphase with
      | running => exact hposted
      | stalled release parked held =>
        dsimp only
        split
        · exact level.setPhase _ (SamePhase.park (.stalled release parked held) works fits)
        · exact hposted
      | replaying parked => exact hposted

theorem beginStall (level : Level ρ s t) (source : Source) (release : Instant)
    {backlog backlog' : Agenda EventId (Work (Action n))}
    (parked : Renumbered (SameParked ρ) ρ.keeps backlog backlog') :
    Level ρ (s.beginStall source release backlog) (t.beginStall source release backlog') := by
  have hstalled := level.setPhase source (.stalled release parked .empty)
  exact hstalled.issue.postTimed release .ordinary release
    (.release (of_freshId level.toCopy) source) (.of_none (due_freshId level.toCopy) release)

end Level

/-- The error is none of a failed action, so it names no event. -/
def Error.isAnonymous : Error → Bool
  | .actionFailed _ _ _ => false
  | _ => true

/-- What two simulations make of a request to run. -/
inductive SameStart (ρ : Renumbering) :
    Except Error (Option (Simulation (Action n))) →
      Except Error (Option (Simulation (Action n))) → Prop where
  | refused {e : Error} (anonymous : e.isAnonymous = true) : SameStart ρ (.error e) (.error e)
  | nothing : SameStart ρ (.ok none) (.ok none)
  | begun {s t : Simulation (Action n)} (level : Level ρ s t) :
      SameStart ρ (.ok (some s)) (.ok (some t))

theorem Level.startRun (level : Level ρ s t) : SameStart ρ s.startRun t.startRun := by
  obtain ⟨hpaused, hhalted, hrunning⟩ := Level.flags_eq level.toCopy
  have hbusy : (t.running || t.paused) = (s.running || s.paused) := by rw [hrunning, hpaused]
  unfold Simulation.startRun
  by_cases hover : s.halted = true
  · rw [if_pos hover, if_pos (hhalted.trans hover)]
    exact .refused rfl
  · rw [if_neg hover, if_neg fun h => hover (hhalted.symm.trans h)]
    by_cases hwait : (s.running || s.paused) = true
    · rw [if_pos hwait, if_pos (hbusy.trans hwait)]
      exact .nothing
    · rw [if_neg hwait, if_neg fun h => hwait (hbusy.symm.trans h)]
      exact .begun
        { level with flags := by simp [Simulation.flags, hpaused, hhalted] }

/-- What two simulations make of a request to stall a source. -/
inductive SameStall (ρ : Renumbering) :
    Except Error (Simulation (Action n)) → Except Error (Simulation (Action n)) → Prop where
  | refused {e : Error} (anonymous : e.isAnonymous = true) : SameStall ρ (.error e) (.error e)
  | granted {s t : Simulation (Action n)} (level : Level ρ s t) : SameStall ρ (.ok s) (.ok t)

theorem Level.stallUntil (level : Level ρ s t) (source : Source) (release : Instant) :
    SameStall ρ (s.stallUntil source release) (t.stallUntil source release) := by
  have hactive : t.active? = s.active? := by
    rw [Simulation.active?, Simulation.active?, level.active]
  have hphase := level.phase source
  simp only [Simulation.stallUntil, Level.knows level.toCopy, level.now, hactive]
  generalize s.phase source = phase at hphase
  generalize t.phase source = phase' at hphase
  split
  · split
    · exact .refused rfl
    · split
      · cases hphase with
        | running => exact .granted (level.beginStall source release .empty)
        | stalled release' parked held => exact .refused rfl
        | replaying parked => exact .granted (level.beginStall source release parked)
      · exact .refused rfl
  · exact .refused rfl

/-! ## Taking events -/

namespace Copy

/-- Where no event waits in the first, none waits in the second, and the clocks agree. -/
theorem exhausted (copy : Copy ρ s t) (stalls : Stalls s) (none : s.calendar.next? = none) :
    t.calendar.next? = .none ∧ Level ρ s t := by
  obtain ⟨himmediate, htimed⟩ :=
    List.append_eq_nil_iff.1 (Calendar.next?_eq_none_iff.1 none)
  rw [List.map_eq_nil_iff] at himmediate htimed
  have hempty := copy.immediate
  rw [himmediate, List.filter_nil, List.forall₂_nil_left_iff] at hempty
  have hnext := copy.timed.next?_eq_none (Agenda.next?_eq_none_iff.2 htimed)
  refine ⟨by simp [Calendar.next?, hempty, hnext], .of_copy copy ?_⟩
  refine copy.late.resolve_right fun hawaits => ?_
  obtain ⟨source, hstalled⟩ := hawaits.2
  cases hphase : s.phase source with
  | stalled stall =>
    obtain ⟨turn, hrelease⟩ := stalls.pending source stall hphase
    obtain ⟨id, hmem⟩ := Calendar.mem_releases.1 hrelease
    rw [htimed] at hmem
    cases hmem
  | running => rw [hphase] at hstalled; cases hstalled
  | replaying backlog => rw [hphase] at hstalled; cases hstalled

/-- An immediate event is taken only while the clocks agree. -/
theorem now_of_immediate (copy : Copy ρ s t) {rest : List (Event (Action n))}
    (head : s.calendar.immediate = event :: rest) : t.now = s.now := by
  refine copy.late.resolve_right fun hawaits => ?_
  cases head.symm.trans hawaits.1

/-- Both take the same event. -/
theorem next? (copy : Copy ρ s t) (timely : Timely ⟨s, none⟩) {turn : Option Turn}
    {rest : Calendar (Action n)} (taken : s.calendar.next? = some ((turn, event), rest))
    (mine : ρ.keepsEvent event = true) :
    ∃ turn' event' rest', t.calendar.next? = some ((turn', event'), rest') ∧
      SameEvent ρ event event' ∧ turn'.map Turn.origin = turn.map Turn.origin ∧
      ρ.Fits event.id (turn.map Turn.origin) ∧
      Copy ρ { s with calendar := rest } { t with calendar := rest' } ∧
      Level ρ (s.take turn rest) (t.take turn' rest') := by
  have himmediate := copy.immediate
  rcases Calendar.next?_cases taken with ⟨rfl, hhead, hsame⟩ | ⟨k, rfl, hnone, hrest, hhead, -⟩
  · have hnow := copy.now_of_immediate hhead
    rw [hhead, List.filter_cons_of_pos mine, List.forall₂_cons_left_iff] at himmediate
    obtain ⟨event', later, hevents, hlater, ht⟩ := himmediate
    have hcopy : Copy ρ { s with calendar := rest }
        { t with calendar := { t.calendar with immediate := later } } :=
      { copy with
        immediate := hlater
        timed := hsame ▸ copy.timed
        late := .inl hnow }
    exact ⟨none, event', { t.calendar with immediate := later }, by simp only [Calendar.next?, ht],
      hevents.events, rfl, hevents.due, hcopy, .of_copy hcopy hnow⟩
  · rw [hnone, List.filter_nil, List.forall₂_nil_left_iff] at himmediate
    obtain ⟨⟨k', event'⟩, timed', hnext, htwins, htimed⟩ :=
      copy.timed.next? (Agenda.next?_eq_some_iff.2 hhead) mine
    have hproper := timely.proper (k, event) (by rw [hhead]; exact List.mem_cons_self)
    have hempty : Forall₂ (SameImmediate ρ) (rest.immediate.filter ρ.keepsEvent)
        t.calendar.immediate := by
      rw [hrest, himmediate]
      exact .nil
    cases htwins with
    | mk time band origin events due =>
      have hs : s.now.advance time = time := hproper.advance
      have ht : t.now.advance time = time := by
        rw [← Instant.toNat_inj, Instant.toNat_advance]
        exact Nat.max_eq_right (Nat.le_trans copy.behind hproper.now_le)
      refine ⟨some ⟨time, band, origin, event'.id⟩, event', { t.calendar with timed := timed' },
        by simp only [Calendar.next?, himmediate, hnext, Option.map_some], events, rfl, due,
        { copy with
          immediate := hempty
          timed := htimed
          late := copy.late.imp_right fun hawaits => ⟨hrest, hawaits.2⟩ }, ?_⟩
      have hnow : t.now.advance time = s.now.advance time := ht.trans hs.symm
      exact { copy with
        immediate := hempty
        timed := htimed
        behind := Nat.le_of_eq (congrArg Instant.toNat hnow)
        late := .inl hnow
        now := hnow }

/-- The first takes an event that the second does not know. -/
theorem next?_left (copy : Copy ρ s t) {turn : Option Turn} {rest : Calendar (Action n)}
    (taken : s.calendar.next? = some ((turn, event), rest))
    (unknown : ρ.keepsEvent event = false) : Copy ρ { s with calendar := rest } t := by
  have himmediate := copy.immediate
  rcases Calendar.next?_cases taken with ⟨rfl, hhead, hsame⟩ | ⟨k, rfl, hnone, hrest, hhead, -⟩
  · rw [hhead, List.filter_cons_of_neg (by simp [unknown])] at himmediate
    exact { copy with
      immediate := himmediate
      timed := hsame ▸ copy.timed
      late := .inl (copy.now_of_immediate hhead) }
  · exact { copy with
      immediate := by
        rw [hrest, ← hnone]
        exact himmediate
      timed := copy.timed.next?_left (Agenda.next?_eq_some_iff.2 hhead) unknown
      late := copy.late.imp_right fun hawaits => ⟨hrest, hawaits.2⟩ }

/-- Work that the second does not know is held back.  The clock of the first moves on to it. -/
theorem intercept_left (copy : Copy ρ s t) {turn : Option Turn} {rest : Calendar (Action n)}
    (taken : s.calendar.next? = some ((turn, .routed work), rest))
    (unknown : ρ.keeps work = false) {stall : Stall (Action n)}
    (stalled : s.phase work.source = .stalled stall) (due : Option Instant) :
    Copy ρ ((s.take turn rest).setPhase work.source (.stalled (stall.park due work))) t := by
  have hrest := copy.next?_left taken unknown
  have hphase : ∀ source, SamePhase ρ
      (((s.take turn rest).setPhase work.source (.stalled (stall.park due work))).phase source)
      (t.phase source) := by
    intro source
    rw [Simulation.phase_setPhase]
    split
    · rename_i hsource
      have hown := copy.phase work.source
      rw [stalled, hsource] at hown
      exact hown.park_left unknown due
    · exact copy.phase source
  have hstalled : (((s.take turn rest).setPhase work.source
      (.stalled (stall.park due work))).phase work.source).isStalled = true := by
    rw [Simulation.phase_setPhase, if_pos rfl]
    rfl
  rcases Calendar.next?_cases taken with ⟨rfl, hhead, -⟩ | ⟨k, rfl, -, hempty, -⟩
  · exact { hrest with phase := hphase, late := .inl (copy.now_of_immediate hhead) }
  · exact { hrest with
      phase := hphase
      behind := Nat.le_trans copy.behind (Instant.le_advance s.now k.time)
      late := .inr ⟨hempty, work.source, hstalled⟩ }

end Copy

/-- What taking the same event comes to. -/
inductive SameDispatch (ρ : Renumbering) :
    Simulation.Dispatch (Action n) → Simulation.Dispatch (Action n) → Prop where
  | exhausted : SameDispatch ρ .exhausted .exhausted
  | settled {s t : Simulation (Action n)} (copy : Copy ρ s t) :
      SameDispatch ρ (.settled s) (.settled t)
  | start {work work' : Work (Action n)} (works : SameWork ρ work work')
      {s t : Simulation (Action n)} (level : Level ρ s t) :
      SameDispatch ρ (.start work s) (.start work' t)
  | replay (source : Source) (release : Instant)
      {immediate immediate' : Agenda EventId (Work (Action n))}
      {timers timers' : Agenda Origin (Work (Action n))}
      (held : Renumbered (SameTimer ρ) ρ.keeps timers timers')
      {s t : Simulation (Action n)} (level : Level ρ s t) :
      SameDispatch ρ (.replay source ⟨release, immediate, timers⟩ s)
        (.replay source ⟨release, immediate', timers'⟩ t)

/-- What the first makes of an event that the second does not know. -/
inductive Ghost (ρ : Renumbering) (t : Simulation (Action n)) :
    Simulation.Dispatch (Action n) → Prop where
  | settled {s : Simulation (Action n)} (copy : Copy ρ s t) : Ghost ρ t (.settled s)
  /-- Its action starts. -/
  | start (work : Work (Action n)) (unknown : ρ.keeps work = false) (s : Simulation (Action n)) :
      Ghost ρ t (.start work s)

/-- **Both take the same event, or the first takes one that the second does not know.** -/
theorem Copy.dispatch (copy : Copy ρ s t) (timely : Timely ⟨s, none⟩) (stalls : Stalls s) :
    SameDispatch ρ s.dispatch t.dispatch ∧ (s.dispatch = .exhausted → Level ρ s t) ∨
      Ghost ρ t s.dispatch := by
  cases htaken : s.calendar.next? with
  | none =>
    obtain ⟨hnone, hlevel⟩ := copy.exhausted stalls htaken
    rw [exhausted_iff.2 htaken, exhausted_iff.2 hnone]
    exact .inl ⟨.exhausted, fun _ => hlevel⟩
  | some taken =>
    obtain ⟨⟨turn, event⟩, rest⟩ := taken
    have hgoing : ∀ {P : Prop}, s.dispatch = .exhausted → P := by
      intro P hexhausted
      cases (exhausted_iff.1 hexhausted).symm.trans htaken
    cases hmine : ρ.keepsEvent event with
    | true =>
      obtain ⟨turn', event', rest', hnext, hevents, horigin, hfits, hrest, hlevel⟩ :=
        copy.next? timely htaken hmine
      refine .inl ⟨?_, hgoing⟩
      rw [dispatch_eq htaken, dispatch_eq hnext, copy.cancelled _ _ hevents.of, horigin]
      split
      · exact .settled hrest
      · cases hevents with
        | direct works => exact .start works hlevel
        | @routed work work' works =>
          have hphase := copy.phase work.source
          simp only [works.source_eq]
          generalize s.phase work.source = phase at hphase
          generalize t.phase work.source = phase' at hphase
          cases hphase with
          | running => exact .start works hlevel
          | replaying parked => exact .start works hlevel
          | stalled release parked held =>
            exact .settled (hlevel.setPhase _
              (SamePhase.park (.stalled release parked held) works hfits)).toCopy
        | release of source =>
          have hphase := copy.phase source
          dsimp only
          generalize s.phase source = phase at hphase
          generalize t.phase source = phase' at hphase
          cases hphase with
          | running => exact .settled hlevel.toCopy
          | replaying parked => exact .settled hlevel.toCopy
          | stalled release parked held =>
            exact .replay source release held (hlevel.setPhase _ (.replaying parked))
    | false =>
      right
      rw [dispatch_eq htaken]
      split
      · exact .settled (copy.next?_left htaken hmine)
      · cases event with
        | direct work => exact .start work hmine _
        | routed work =>
          dsimp only
          cases hphase : s.phase work.source with
          | running => exact .start work hmine _
          | replaying backlog => exact .start work hmine _
          | stalled stall => exact .settled (copy.intercept_left htaken hmine hphase _)
        | release id source => cases hmine

/-! ## Replays -/

/-- What the next work of a backlog is, if there is any. -/
inductive SameReplayed (ρ : Renumbering) (t : Simulation (Action n)) :
    Option (Work (Action n) × Simulation (Action n)) →
      Option (Work (Action n) × Simulation (Action n)) → Prop where
  | exhausted : SameReplayed ρ t none none
  | next {work work' : Work (Action n)} (works : SameWork ρ work work')
      {s t' : Simulation (Action n)} (level : Level ρ s t') :
      SameReplayed ρ t (some (work, s)) (some (work', t'))
  /-- The first takes work that the second does not know. -/
  | ghost (work : Work (Action n)) (unknown : ρ.keeps work = false) {s : Simulation (Action n)}
      (level : Level ρ s t) (next? : Option (Work (Action n) × Simulation (Action n))) :
      SameReplayed ρ t (some (work, s)) next?

namespace Level

/-- **Both take the same work of a backlog, or the first takes work that the second does not
know.** -/
theorem nextReplayed (level : Level ρ s t) (source : Source) :
    SameReplayed ρ t (s.nextReplayed source) (t.nextReplayed source) := by
  have hphase := level.phase source
  unfold Simulation.nextReplayed
  cases hs : s.phase source with
  | running =>
    rw [hs] at hphase
    generalize t.phase source = phase' at hphase
    cases hphase
    exact .exhausted
  | stalled stall =>
    rw [hs] at hphase
    generalize t.phase source = phase' at hphase
    cases hphase
    exact .exhausted
  | replaying backlog =>
    rw [hs] at hphase
    generalize ht : t.phase source = phase' at hphase
    cases hphase with
    | @replaying _ backlog' parked =>
      cases hnext : backlog.next? with
      | none =>
        simp only [hnext, parked.next?_eq_none hnext, Option.map_none]
        exact .exhausted
      | some found =>
        obtain ⟨⟨key, work⟩, rest⟩ := found
        simp only [hnext, Option.map_some]
        cases hmine : ρ.keeps work with
        | true =>
          obtain ⟨e', rest', hnext', hsame, hrest⟩ := parked.next? hnext hmine
          simp only [hnext', Option.map_some]
          cases hsame with
          | mk works due => exact .next works (level.setPhase source (.replaying hrest))
        | false =>
          refine .ghost work hmine (level.setPhase_left ?_) _
          rw [ht]
          exact .replaying (parked.next?_left hnext hmine)

/-- What is left of a backlog is handed back. -/
theorem repostBacklog {backlog backlog' : List (EventId × Work (Action n))}
    (parked : Forall₂ (SameParked ρ) (backlog.filter (fun e => ρ.keeps e.2)) backlog')
    (level : Level ρ s t) :
    Level ρ ((backlog.map Prod.snd).foldl Simulation.repostNow s)
      ((backlog'.map Prod.snd).foldl Simulation.repostNow t) := by
  induction backlog generalizing backlog' s t with
  | nil =>
    rw [List.filter_nil, List.forall₂_nil_left_iff] at parked
    subst parked
    exact level
  | cons e backlog ih =>
    cases hmine : ρ.keeps e.2 with
    | true =>
      rw [List.filter_cons_of_pos (by simpa using hmine), List.forall₂_cons_left_iff] at parked
      obtain ⟨e', later, hsame, hlater, rfl⟩ := parked
      cases hsame with
      | mk works due =>
        rw [List.map_cons, List.foldl_cons, List.map_cons, List.foldl_cons]
        refine ih hlater ?_
        unfold Simulation.repostNow
        rw [level.cancelled _ _ works.of]
        split
        · exact level
        · exact level.postNow (.routed works) due
    | false =>
      rw [List.filter_cons_of_neg (by simp [hmine])] at parked
      refine ih parked ?_
      unfold Simulation.repostNow
      split
      · exact level
      · exact level.postNow_left hmine

/-- The timers of a stall are handed back. -/
theorem repostTimers (release : Instant) {timers timers' : List (Origin × Work (Action n))}
    (held : Forall₂ (SameTimer ρ) (timers.filter (fun e => ρ.keeps e.2)) timers')
    (level : Level ρ s t) :
    Level ρ (timers.foldl (Simulation.repostTimer release) s)
      (timers'.foldl (Simulation.repostTimer release) t) := by
  induction timers generalizing timers' s t with
  | nil =>
    rw [List.filter_nil, List.forall₂_nil_left_iff] at held
    subst held
    exact level
  | cons e timers ih =>
    cases hmine : ρ.keeps e.2 with
    | true =>
      rw [List.filter_cons_of_pos (by simpa using hmine), List.forall₂_cons_left_iff] at held
      obtain ⟨e', later, hsame, hlater, rfl⟩ := held
      cases hsame with
      | mk origin works due =>
        rw [List.foldl_cons, List.foldl_cons]
        refine ih hlater ?_
        unfold Simulation.repostTimer
        rw [level.cancelled _ _ works.of]
        split
        · exact level
        · exact level.postTimed release .replayed origin (.routed works) due
    | false =>
      rw [List.filter_cons_of_neg (by simp [hmine])] at held
      refine ih held ?_
      unfold Simulation.repostTimer
      split
      · exact level
      · exact level.postTimed_left _ hmine

/-- **A replay ends in both.** -/
theorem closeReplay (level : Level ρ s t) (source : Source) (release : Instant)
    {timers timers' : Agenda Origin (Work (Action n))}
    (held : Renumbered (SameTimer ρ) ρ.keeps timers timers') :
    Level ρ (s.closeReplay source release timers) (t.closeReplay source release timers') := by
  have hphase := level.phase source
  unfold Simulation.closeReplay
  generalize s.phase source = phase at hphase
  generalize t.phase source = phase' at hphase
  cases hphase with
  | running => exact level.repostTimers release held
  | stalled release' parked others => exact level.repostTimers release held
  | replaying parked =>
    exact ((level.setPhase source .running).repostBacklog parked).repostTimers release held

end Level

end StallSim
