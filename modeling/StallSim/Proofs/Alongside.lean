import StallSim.Proofs.Twins

/-!
# Two simulations alongside each other

A simulation that serves several sources, and one that serves only one of them.  Whatever the first
does for the others leaves the second where it is, and whatever it does for the one the second does
as well, with the twins.

* `Alongside` — the second holds the twins of the lane of the source and nothing else; its clock is
  not ahead, and shows the same instant as long as immediate events of the source wait.
* `Abreast` — moreover the clocks agree: so it is while an action of the source is at work, and
  while the source is replayed.

Principal results: `Alongside.elsewhere` — the second stays where it is;
`Abreast.submitAt`, `Abreast.submitNow`, `Abreast.stallUntil`, `Abreast.cancel`,
`Alongside.dispatch`, `Abreast.nextReplayed`, `Abreast.closeReplay` — both go on together.
-/

set_option autoImplicit false

namespace StallSim

open List (Forall₂)

variable {n : Nat}

/-- The second simulation holds the twins of the lane of `source` in the first, and nothing else. -/
structure Alongside (p : Pairing) (source : Source) (s t : Simulation (Action n)) : Prop where
  immediate : Forall₂ (TwinEvent p source) (s.lane source).immediate t.calendar.immediate
  timed : Forall₂ (TwinTimed p source) (s.lane source).timed t.calendar.timed.toList
  phase : TwinPhase p source (s.phase source) (t.phase source)
  issued : ∀ a b, p.twin a b → a.raw < s.nextId ∧ b.raw < t.nextId
  cancelled : ∀ a b, p.twin a b → s.isCancelled a = t.isCancelled b
  spent : (∀ a ∈ s.cancelled, a.raw < s.nextId) ∧ ∀ b ∈ t.cancelled, b.raw < t.nextId
  sources : s.sources = t.sources
  flags : s.flags = t.flags
  active : s.active = t.active
  behind : t.now ≤ s.now
  urgent : (s.lane source).immediate ≠ [] → t.now = s.now

/-- Moreover the clocks show the same. -/
structure Abreast (p : Pairing) (source : Source) (s t : Simulation (Action n)) : Prop
    extends Alongside p source s t where
  now : t.now = s.now

namespace Alongside

variable {p q : Pairing} {source : Source} {s s' t : Simulation (Action n)}

/-- Whatever is done for other sources leaves the second simulation where it is. -/
theorem elsewhere (beside : Alongside p source s t) (onward : Elsewhere source s s') :
    Alongside p source s' t where
  immediate := onward.lane ▸ beside.immediate
  timed := onward.lane ▸ beside.timed
  phase := by
    have hphase : s'.phase source = s.phase source := congrArg Lane.phase onward.lane
    exact hphase ▸ beside.phase
  issued a b twin :=
    (beside.issued a b twin).imp_left fun h => Nat.lt_of_lt_of_le h onward.nextId
  cancelled a b twin := by
    rw [← beside.cancelled a b twin, Simulation.isCancelled, Simulation.isCancelled,
      onward.cancelled]
  spent := ⟨fun a ha => Nat.lt_of_lt_of_le (beside.spent.1 a (onward.cancelled ▸ ha)) onward.nextId,
    beside.spent.2⟩
  sources := onward.sources.trans beside.sources
  flags := onward.flags.trans beside.flags
  active := onward.active.trans beside.active
  behind := Nat.le_trans beside.behind onward.now
  urgent h := (beside.urgent (onward.lane ▸ h)).trans (onward.urgent (onward.lane ▸ h)).symm

/-- Work of another source is cancelled. -/
theorem cancel_elsewhere (beside : Alongside p source s t) {a : EventId} (issued : a.raw < s.nextId)
    (foreign : ∀ b, ¬ p.twin a b) : Alongside p source (s.cancel a) t :=
  { beside with
    cancelled := by
      intro b b' twin
      have hne : b ≠ a := fun h => foreign b' (h ▸ twin)
      rw [Simulation.isCancelled_cancel, decide_eq_false hne, Bool.or_false,
        beside.cancelled b b' twin]
    spent := by
      refine ⟨fun b hb => ?_, beside.spent.2⟩
      rcases mem_addNew.1 hb with hb | rfl
      · exact beside.spent.1 b hb
      · exact issued }

/-- Both hand out an id. -/
theorem issue (beside : Alongside p source s t) :
    ∃ q, p.Grows q s.freshId t.freshId ∧ Alongside q source s.issue t.issue := by
  have hgrows := p.grows_extend s.freshId t.freshId beside.issued
  have hle := hgrows.le
  refine ⟨_, hgrows, ?_⟩
  exact { beside with
    immediate := beside.immediate.imp fun _ _ h => h.mono hle
    timed := beside.timed.imp fun _ _ h => h.mono hle
    phase := beside.phase.mono hle
    issued := by
      rintro a b (twin | ⟨rfl, rfl⟩)
      · obtain ⟨hs, ht⟩ := beside.issued a b twin
        exact ⟨Nat.lt_succ_of_lt hs, Nat.lt_succ_of_lt ht⟩
      · exact ⟨Nat.lt_succ_self _, Nat.lt_succ_self _⟩
    cancelled := by
      rintro a b (twin | ⟨rfl, rfl⟩)
      · exact beside.cancelled a b twin
      · -- an id that was not handed out cannot have been cancelled
        have hs : s.freshId ∉ s.cancelled := fun h => Nat.lt_irrefl _ (beside.spent.1 _ h)
        have ht : t.freshId ∉ t.cancelled := fun h => Nat.lt_irrefl _ (beside.spent.2 _ h)
        exact (decide_eq_false hs).trans (decide_eq_false ht).symm
    spent := ⟨fun a ha => Nat.lt_succ_of_lt (beside.spent.1 a ha),
      fun b hb => Nat.lt_succ_of_lt (beside.spent.2 b hb)⟩ }

/-! ## Taking events of the source -/

theorem exhausted (beside : Alongside p source s t) (none : s.calendar.next? = none) :
    t.calendar.next? = .none := by
  have hentries := Calendar.next?_eq_none_iff.1 none
  obtain ⟨himmediate, htimed⟩ := List.append_eq_nil_iff.1 hentries
  have hs : (s.lane source).immediate = [] ∧ (s.lane source).timed = [] := by
    simp only [Simulation.lane, List.map_eq_nil_iff.1 himmediate, List.map_eq_nil_iff.1 htimed,
      List.filter_nil, and_self]
  have ht := beside.immediate
  have ht' := beside.timed
  rw [hs.1, List.forall₂_nil_left_iff] at ht
  rw [hs.2, List.forall₂_nil_left_iff] at ht'
  simp [Calendar.next?, ht, Agenda.next?_eq_none_iff.2 ht']

/-- What the second simulation takes when the first takes an event of the source. -/
theorem next? (beside : Alongside p source s t) {turn : Option Turn} {event : Event (Action n)}
    {rest : Calendar (Action n)} (taken : s.calendar.next? = some ((turn, event), rest))
    (mine : event.source = source) :
    ∃ e rest', t.calendar.next? = some (e, rest') ∧ TwinTaken p source (turn, event) e ∧
      Alongside p source { s with calendar := rest } { t with calendar := rest' } ∧
      (turn = none → t.now = s.now) := by
  have himmediate := beside.immediate
  have htimed := beside.timed
  simp only [Simulation.lane] at himmediate htimed
  rcases Calendar.next?_cases taken with ⟨rfl, hhead, hsame⟩ | ⟨k, rfl, hnone, hrest, hhead, -⟩
  · rw [hhead, List.filter_cons_of_pos (by simpa using mine), List.forall₂_cons_left_iff]
      at himmediate
    obtain ⟨event', later, hevents, hlater, ht⟩ := himmediate
    have hnow : t.now = s.now := beside.urgent (by
      simp [Simulation.lane, hhead, List.filter_cons_of_pos, mine])
    rw [hsame] at htimed
    exact ⟨_, { t.calendar with immediate := later }, by simp only [Calendar.next?, ht],
      .immediate hevents,
      { beside with immediate := hlater, timed := htimed, urgent := fun _ => hnow },
      fun _ => hnow⟩
  · rw [hhead, List.filter_cons_of_pos (by simpa using mine), List.forall₂_cons_left_iff] at htimed
    rw [hnone, List.filter_nil, List.forall₂_nil_left_iff] at himmediate
    obtain ⟨⟨k', event'⟩, later, htwins, hlater, ht⟩ := htimed
    cases hnext : t.calendar.timed.next? with
    | none =>
      rw [Agenda.next?_eq_none_iff.1 hnext] at ht
      cases ht
    | some found =>
      obtain ⟨e, timed'⟩ := found
      obtain ⟨rfl, rfl⟩ := List.cons.inj ((Agenda.next?_eq_some_iff.1 hnext).symm.trans ht)
      have hempty : (Simulation.lane { s with calendar := rest } source).immediate = [] := by
        simp only [Simulation.lane, hrest, List.filter_nil]
      refine ⟨(some k', event'), { t.calendar with timed := timed' },
        by simp only [Calendar.next?, himmediate, hnext, Option.map_some], .timed htwins, ?_,
        fun h => (by cases h)⟩
      exact { beside with
        immediate := by
          rw [hempty, List.forall₂_nil_left_iff]
          exact himmediate
        timed := hlater
        urgent := fun h => absurd hempty h }

/-- When the event was taken, the clocks agree: an immediate event leaves both as they are, and a
timed one is not behind the clock that is ahead. -/
theorem take (beside : Alongside p source s t) (timely : Timely ⟨s, none⟩) {turn : Option Turn}
    {event : Event (Action n)} {rest : Calendar (Action n)}
    (taken : s.calendar.next? = some ((turn, event), rest)) (mine : event.source = source) :
    ∃ e rest', t.calendar.next? = some (e, rest') ∧ TwinTaken p source (turn, event) e ∧
      Alongside p source { s with calendar := rest } { t with calendar := rest' } ∧
      Abreast p source (s.take turn rest) (t.take e.1 rest') := by
  obtain ⟨⟨turn', event'⟩, rest', hnext, htwins, hrest, himmediate⟩ := beside.next? taken mine
  have hnow : (t.take turn' rest').now = (s.take turn rest).now := by
    cases htwins with
    | immediate events => exact himmediate rfl
    | timed twins =>
      have hproper := timely.proper _ (Calendar.least_of_next? taken).2.1
      cases twins with
      | mk time band origin twin events =>
        have hs : s.now.advance time = time := hproper.advance
        have hle : t.now ≤ time := Nat.le_trans beside.behind hproper.now_le
        show t.now.advance time = s.now.advance time
        rw [hs, ← Instant.toNat_inj, Instant.toNat_advance]
        exact Nat.max_eq_right hle
  refine ⟨_, rest', hnext, htwins, hrest, ?_⟩
  exact { hrest with
    behind := by
      rw [hnow]
      exact Nat.le_refl _
    urgent := fun _ => hnow
    now := hnow }

end Alongside

/-! ## Going on together -/

namespace Abreast

variable {p q : Pairing} {source : Source} {s s' t : Simulation (Action n)}

theorem setPhase (abreast : Abreast p source s t) {phase phase' : Phase (Action n)}
    (phases : TwinPhase p source phase phase') :
    Abreast p source (s.setPhase source phase) (t.setPhase source phase') :=
  { abreast with
    phase := by
      rw [Simulation.phase_setPhase, Simulation.phase_setPhase, if_pos rfl, if_pos rfl]
      exact phases }

theorem postNow (abreast : Abreast p source s t) {event event' : Event (Action n)}
    (events : TwinEvent p source event event') :
    Abreast p source (s.postNow event) (t.postNow event') :=
  { abreast with
    immediate := by
      have hlast : Forall₂ (TwinEvent p source)
          ([event].filter (fun event => event.source = source)) [event'] := by
        rw [List.filter_cons_of_pos (by simpa using events.source_eq)]
        exact .cons events .nil
      have hlane : ((s.postNow event).lane source).immediate =
          (s.lane source).immediate ++ [event].filter (fun event => event.source = source) :=
        List.filter_append ..
      rw [hlane]
      exact List.rel_append abreast.immediate hlast
    urgent := fun _ => abreast.now }

theorem postTimed (abreast : Abreast p source s t) {id id' : EventId} (twin : p.twin id id')
    (time : Instant) (band : Band) (origin : Instant) {event event' : Event (Action n)}
    (events : TwinEvent p source event event') :
    Abreast p source (s.postTimed ⟨time, band, origin, id⟩ event)
      (t.postTimed ⟨time, band, origin, id'⟩ event') :=
  { abreast with
    timed := forall₂_insert _ abreast.timed (.mk time band origin twin events)
      (by simpa using events.source_eq) (TwinTimed.alike twin time band origin) }

theorem issue (abreast : Abreast p source s t) :
    ∃ q, p.Grows q s.freshId t.freshId ∧ Abreast q source s.issue t.issue := by
  obtain ⟨q, hgrows, hissue⟩ := abreast.toAlongside.issue
  exact ⟨q, hgrows, { hissue with now := abreast.now }⟩

/-! ### Submissions, stalls and cancellations -/

theorem lodge (abreast : Abreast p source s t) {work work' : Work (Action n)}
    (works : TwinWork p source work work') (due : Option Instant) :
    Abreast p source (s.lodge ⟨work, due, true⟩) (t.lodge ⟨work', due, true⟩) := by
  have hphase := abreast.phase
  obtain ⟨hsource, hsource'⟩ := works.source_eq
  have hposted : ∀ time, Abreast p source (s.postTimed (.dueAt time work.id) (.routed work))
      (t.postTimed (.dueAt time work'.id) (.routed work')) :=
    fun time => abreast.postTimed works.twin time .ordinary time (.routed works)
  unfold Simulation.lodge
  cases due with
  | none =>
    simp only [Simulation.routeNow, hsource, hsource']
    generalize s.phase source = phase at hphase
    generalize t.phase source = phase' at hphase
    cases hphase with
    | running => exact abreast.postNow (.routed works)
    | stalled release parked held =>
      exact abreast.setPhase (TwinPhase.park (.stalled release parked held) works none)
    | replaying parked =>
      exact abreast.setPhase (.replaying
        (forall₂_insert_all parked (.mk works.twin works) (TwinParked.alike works.twin)))
  | some time =>
    simp only [Simulation.routeTimed, hsource, hsource']
    generalize s.phase source = phase at hphase
    generalize t.phase source = phase' at hphase
    cases hphase with
    | running => exact hposted time
    | stalled release parked held =>
      dsimp only
      split
      · exact abreast.setPhase (TwinPhase.park (.stalled release parked held) works (some time))
      · exact hposted time
    | replaying parked => exact hposted time

end Abreast

/-- What two simulations make of a submission: both refuse it, or the ids they accept it under are
twins from then on. -/
inductive TwinAnswer (p : Pairing) (source : Source) (s t : Simulation (Action n)) :
    Except Error (EventId × Simulation (Action n)) →
      Except Error (EventId × Simulation (Action n)) → Prop where
  | refused (e : Error) : TwinAnswer p source s t (.error e) (.error e)
  | accepted {q : Pairing} (grows : p.Grows q s.freshId t.freshId)
      {s' t' : Simulation (Action n)} (abreast : Abreast q source s' t')
      (nextId : s.nextId < s'.nextId) :
      TwinAnswer p source s t (.ok (s.freshId, s')) (.ok (t.freshId, t'))

/-- What they make of a request to stall the source. -/
inductive TwinStall (p : Pairing) (source : Source) (s t : Simulation (Action n)) :
    Except Error (Simulation (Action n)) → Except Error (Simulation (Action n)) → Prop where
  | refused (e : Error) : TwinStall p source s t (.error e) (.error e)
  | granted {q : Pairing} (grows : p.Grows q s.freshId t.freshId)
      {s' t' : Simulation (Action n)} (abreast : Abreast q source s' t')
      (nextId : s.nextId < s'.nextId) : TwinStall p source s t (.ok s') (.ok t')

namespace Abreast

variable {p : Pairing} {source : Source} {s t : Simulation (Action n)}

theorem knows (abreast : Abreast p source s t) (other : Source) :
    t.knows other = s.knows other := by
  rw [Simulation.knows, Simulation.knows, abreast.sources]

theorem submitAt (abreast : Abreast p source s t) (time : Instant) (description : String)
    (action : Action n) :
    TwinAnswer p source s t (s.submitAt source time description action)
      (t.submitAt source time description action) := by
  simp only [Simulation.submitAt, abreast.knows, abreast.now]
  split
  · split
    · exact .refused _
    · obtain ⟨q, hgrows, hissue⟩ := abreast.issue
      exact .accepted hgrows (hissue.lodge (.mk hgrows.twin description action) (some time))
        (nextId_lodge s ⟨⟨s.freshId, source, description, action⟩, some time, true⟩)
  · exact .refused _

theorem submitNow (abreast : Abreast p source s t) (description : String) (action : Action n) :
    TwinAnswer p source s t (s.submitNow source description action)
      (t.submitNow source description action) := by
  simp only [Simulation.submitNow, abreast.knows]
  split
  · obtain ⟨q, hgrows, hissue⟩ := abreast.issue
    exact .accepted hgrows (hissue.lodge (.mk hgrows.twin description action) none)
      (nextId_lodge s ⟨⟨s.freshId, source, description, action⟩, none, true⟩)
  · exact .refused _

theorem beginStall (abreast : Abreast p source s t) (release : Instant)
    {backlog backlog' : Agenda EventId (Work (Action n))}
    (parked : Forall₂ (TwinParked p source) backlog.toList backlog'.toList) :
    TwinStall p source s t (.ok (s.beginStall source release backlog))
      (.ok (t.beginStall source release backlog')) := by
  have hstalled := abreast.setPhase (.stalled release parked (forall₂_empty _))
  obtain ⟨q, hgrows, hissue⟩ := hstalled.issue
  exact TwinStall.granted (s := s) (t := t) hgrows
    (hissue.postTimed hgrows.twin release .ordinary release (.release hgrows.twin))
    (Nat.lt_succ_self _)

theorem stallUntil (abreast : Abreast p source s t) (release : Instant) :
    TwinStall p source s t (s.stallUntil source release) (t.stallUntil source release) := by
  have hactive : t.active? = s.active? := by
    rw [Simulation.active?, Simulation.active?, abreast.active]
  have hphase := abreast.phase
  simp only [Simulation.stallUntil, abreast.knows, abreast.now, hactive]
  generalize s.phase source = phase at hphase
  generalize t.phase source = phase' at hphase
  split
  · split
    · exact .refused _
    · by_cases hmine : s.active? = some source
      · rw [if_pos hmine, if_pos hmine]
        cases hphase with
        | running => exact abreast.beginStall release (forall₂_empty _)
        | stalled release' parked held => exact .refused _
        | replaying parked => exact abreast.beginStall release parked
      · rw [if_neg hmine, if_neg hmine]
        exact .refused _
  · exact .refused _

theorem cancel (abreast : Abreast p source s t) {a b : EventId} (twin : p.twin a b) :
    Abreast p source (s.cancel a) (t.cancel b) :=
  { abreast with
    cancelled := by
      intro x y hxy
      rw [Simulation.isCancelled_cancel, Simulation.isCancelled_cancel, abreast.cancelled x y hxy,
        decide_eq_decide.2 (p.eq_iff hxy twin)]
    spent := by
      obtain ⟨hs, ht⟩ := abreast.issued a b twin
      refine ⟨fun x hx => ?_, fun y hy => ?_⟩
      · rcases mem_addNew.1 hx with hx | rfl
        · exact abreast.spent.1 x hx
        · exact hs
      · rcases mem_addNew.1 hy with hy | rfl
        · exact abreast.spent.2 y hy
        · exact ht }

/-! ### Around an action -/

theorem startAction (abreast : Abreast p source s t) {work work' : Work (Action n)}
    (works : TwinWork p source work work') :
    Abreast p source (s.startAction work) (t.startAction work') :=
  { abreast with
    active := by
      show work.source :: s.active = work'.source :: t.active
      rw [works.source_eq.1, works.source_eq.2, abreast.active] }

theorem endAction (abreast : Abreast p source s t) :
    Abreast p source s.endAction t.endAction :=
  { abreast with active := congrArg List.tail abreast.active }

end Abreast

/-! ## Between two actions -/

/-- What taking an event of the source comes to. -/
inductive TwinDispatch (p : Pairing) (source : Source) :
    Simulation.Dispatch (Action n) → Simulation.Dispatch (Action n) → Prop where
  | settled {s t : Simulation (Action n)} (beside : Alongside p source s t) :
      TwinDispatch p source (.settled s) (.settled t)
  | start {work work' : Work (Action n)} (works : TwinWork p source work work')
      {s t : Simulation (Action n)} (abreast : Abreast p source s t) :
      TwinDispatch p source (.start work s) (.start work' t)
  | replay (release : Instant) {immediate immediate' : Agenda EventId (Work (Action n))}
      {timers timers' : Agenda Origin (Work (Action n))}
      (held : Forall₂ (TwinTimer p source) timers.toList timers'.toList)
      {s t : Simulation (Action n)} (abreast : Abreast p source s t) :
      TwinDispatch p source (.replay source ⟨release, immediate, timers⟩ s)
        (.replay source ⟨release, immediate', timers'⟩ t)

/-- What the next work of a backlog is, if there is any. -/
inductive TwinReplayed (p : Pairing) (source : Source) :
    Option (Work (Action n) × Simulation (Action n)) →
      Option (Work (Action n) × Simulation (Action n)) → Prop where
  | exhausted : TwinReplayed p source none none
  | next {work work' : Work (Action n)} (works : TwinWork p source work work')
      {s t : Simulation (Action n)} (abreast : Abreast p source s t) :
      TwinReplayed p source (some (work, s)) (some (work', t))

/-- An event of the source is taken by both. -/
theorem Alongside.dispatch {p : Pairing} {source : Source} {s t : Simulation (Action n)}
    (beside : Alongside p source s t) (timely : Timely ⟨s, none⟩) {turn : Option Turn}
    {event : Event (Action n)} {rest : Calendar (Action n)}
    (taken : s.calendar.next? = some ((turn, event), rest)) (mine : event.source = source) :
    TwinDispatch p source s.dispatch t.dispatch := by
  obtain ⟨⟨turn', event'⟩, rest', hnext, htwins, hrest, habreast⟩ := beside.take timely taken mine
  obtain ⟨hevents, horigin⟩ : TwinEvent p source event event' ∧
      ∀ work work', TwinWork p source work work' →
        ∀ stall stall' : Stall (Action n), TwinPhase p source (.stalled stall) (.stalled stall') →
          TwinPhase p source (.stalled (stall.park (turn.map Turn.origin) work))
            (.stalled (stall'.park (turn'.map Turn.origin) work')) := by
    cases htwins with
    | immediate events => exact ⟨events, fun _ _ works _ _ phases => phases.park works none⟩
    | timed twins =>
      cases twins with
      | mk time band origin twin events =>
        exact ⟨events, fun _ _ works _ _ phases => phases.park works (some origin)⟩
  have hphase := beside.phase
  rw [dispatch_eq taken, dispatch_eq hnext, beside.cancelled _ _ hevents.twin]
  split
  · exact .settled hrest
  · cases hevents with
    | routed works =>
      obtain ⟨hsource, hsource'⟩ := works.source_eq
      simp only [hsource, hsource']
      generalize s.phase source = phase at hphase
      generalize t.phase source = phase' at hphase
      cases hphase with
      | running => exact .start works habreast
      | replaying parked => exact .start works habreast
      | stalled release parked held =>
        exact .settled (habreast.setPhase
          (horigin _ _ works _ _ (.stalled release parked held))).toAlongside
    | release twin =>
      dsimp only
      generalize s.phase source = phase at hphase
      generalize t.phase source = phase' at hphase
      cases hphase with
      | running => exact .settled habreast.toAlongside
      | replaying parked => exact .settled habreast.toAlongside
      | stalled release parked held =>
        exact .replay release held (habreast.setPhase (.replaying parked))

namespace Abreast

variable {p : Pairing} {source : Source} {s t : Simulation (Action n)}

theorem nextReplayed (abreast : Abreast p source s t) :
    TwinReplayed p source (s.nextReplayed source) (t.nextReplayed source) := by
  have hphase := abreast.phase
  unfold Simulation.nextReplayed
  generalize s.phase source = phase at hphase
  generalize t.phase source = phase' at hphase
  cases hphase with
  | running => exact .exhausted
  | stalled release parked held => exact .exhausted
  | @replaying backlog backlog' parked =>
    cases hnext : backlog.next? with
    | none =>
      rw [Agenda.next?_eq_none_iff.1 hnext, List.forall₂_nil_left_iff] at parked
      simp only [hnext, Agenda.next?_eq_none_iff.2 parked, Option.map_none]
      exact .exhausted
    | some found =>
      obtain ⟨e, rest⟩ := found
      rw [Agenda.next?_eq_some_iff.1 hnext, List.forall₂_cons_left_iff] at parked
      obtain ⟨e', later, htwins, hlater, hlist⟩ := parked
      cases hnext' : backlog'.next? with
      | none =>
        rw [Agenda.next?_eq_none_iff.1 hnext'] at hlist
        cases hlist
      | some found' =>
        obtain ⟨d, rest'⟩ := found'
        obtain ⟨rfl, rfl⟩ := List.cons.inj ((Agenda.next?_eq_some_iff.1 hnext').symm.trans hlist)
        simp only [hnext, hnext', Option.map_some]
        cases htwins with
        | mk twin works => exact .next works (abreast.setPhase (.replaying hlater))

theorem repostNow (abreast : Abreast p source s t) {work work' : Work (Action n)}
    (works : TwinWork p source work work') :
    Abreast p source (s.repostNow work) (t.repostNow work') := by
  unfold Simulation.repostNow
  rw [abreast.cancelled _ _ works.twin]
  split
  · exact abreast
  · exact abreast.postNow (.routed works)

theorem repostTimer (abreast : Abreast p source s t) (release : Instant)
    {timer timer' : Origin × Work (Action n)} (twins : TwinTimer p source timer timer') :
    Abreast p source (s.repostTimer release timer) (t.repostTimer release timer') := by
  cases twins with
  | mk due twin works =>
    unfold Simulation.repostTimer
    rw [abreast.cancelled _ _ works.twin]
    split
    · exact abreast
    · exact abreast.postTimed twin release .replayed due (.routed works)

/-- What is left of the backlog is handed back. -/
theorem repostBacklog {backlog backlog' : List (EventId × Work (Action n))}
    (parked : Forall₂ (TwinParked p source) backlog backlog') {s t : Simulation (Action n)}
    (abreast : Abreast p source s t) :
    Abreast p source ((backlog.map Prod.snd).foldl Simulation.repostNow s)
      ((backlog'.map Prod.snd).foldl Simulation.repostNow t) := by
  induction parked generalizing s t with
  | nil => exact abreast
  | cons twins _ ih =>
    cases twins with
    | mk twin works => exact ih (abreast.repostNow works)

/-- The timers are handed back. -/
theorem repostTimers (release : Instant) {timers timers' : List (Origin × Work (Action n))}
    (held : Forall₂ (TwinTimer p source) timers timers') {s t : Simulation (Action n)}
    (abreast : Abreast p source s t) :
    Abreast p source (timers.foldl (Simulation.repostTimer release) s)
      (timers'.foldl (Simulation.repostTimer release) t) := by
  induction held generalizing s t with
  | nil => exact abreast
  | cons twins _ ih => exact ih (abreast.repostTimer release twins)

theorem closeReplay (abreast : Abreast p source s t) (release : Instant)
    {timers timers' : Agenda Origin (Work (Action n))}
    (held : Forall₂ (TwinTimer p source) timers.toList timers'.toList) :
    Abreast p source (s.closeReplay source release timers)
      (t.closeReplay source release timers') := by
  have hphase := abreast.phase
  unfold Simulation.closeReplay
  generalize s.phase source = phase at hphase
  generalize t.phase source = phase' at hphase
  cases hphase with
  | running => exact abreast.repostTimers release held
  | stalled release' parked others => exact abreast.repostTimers release held
  | replaying parked =>
    exact ((abreast.setPhase .running).repostBacklog parked).repostTimers release held

end Abreast

end StallSim
