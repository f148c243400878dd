import StallSim.Proofs.Schedule

/-!
# Stalls and their releases

A source is stalled from the request until its own release is taken: no move ends a stall otherwise,
and no release is left behind.  What is parked on the way always goes before that release.

* `Calendar.releases_pushTimed`, `Calendar.releases_of_next?`, `Calendar.releases_reposted` — which
  operations of the calendar touch releases.
* `Phase.Of.park`, `Phase.Of.join`, `Phase.Of.next` — sources hold back their own work only.

Principal results: `Stalls.move`; `Course.schedule` — along every course, panics included, the
schedule and the stalls are in order.
-/

set_option autoImplicit false

namespace StallSim

variable {n : Nat}

section Stalls

variable {log new : Log n} {st st' : Standing n} {s s' : Simulation (Action n)} {source : Source}
  {r : Option (Replay n)}

theorem Calendar.releases_pushTimed (c : Calendar (Action n)) (turn : Turn)
    (event : Event (Action n)) :
    (c.pushTimed turn event).releases.Perm
      ((event.released?.map (fun source => (turn, source))).toList ++ c.releases) := by
  have hinsert := (Agenda.toList_insert_perm c.timed turn event).filterMap
    (fun e => e.2.released?.map (fun source => (e.1, source)))
  rw [List.filterMap_cons] at hinsert
  refine hinsert.trans ?_
  dsimp only
  cases event.released? <;> exact List.Perm.refl _

/-- Only routed work is posted again. -/
theorem Calendar.releases_reposted (c : Calendar (Action n)) (release : Instant)
    (works : List (Event (Action n))) (timers : List (Origin × Work (Action n))) :
    (Calendar.releases ⟨works, repostedTimers release c.timed timers⟩).Perm c.releases := by
  have hperm := (toList_repostedTimers_perm release c.timed timers).filterMap
    (fun e => e.2.released?.map (fun source => (e.1, source)))
  have hnone : (timers.map (fun e => ((Turn.replayedAt release e.1, Event.routed e.2) :
      Turn × Event (Action n)))).filterMap
        (fun e => e.2.released?.map (fun source => (e.1, source))) = [] := by
    rw [List.filterMap_eq_nil_iff]
    intro e he
    obtain ⟨timer, -, rfl⟩ := List.mem_map.1 he
    rfl
  rwa [List.filterMap_append, hnone] at hperm

theorem Calendar.releases_of_next? {c rest : Calendar (Action n)} {turn : Option Turn}
    {event : Event (Action n)} (taken : c.next? = some ((turn, event), rest))
    (noRelease : event.released? = none) : rest.releases = c.releases := by
  unfold Calendar.releases
  rcases Calendar.next?_cases taken with ⟨-, -, htimed⟩ | ⟨k, -, -, -, htimed, -⟩
  · rw [htimed]
  · rw [htimed, List.filterMap_cons, noRelease]
    rfl

theorem Calendar.mem_immediate_of_next? {c rest : Calendar (Action n)} {turn : Option Turn}
    {event : Event (Action n)} (taken : c.next? = some ((turn, event), rest))
    {other : Event (Action n)} (mem : other ∈ rest.immediate) : other ∈ c.immediate := by
  rcases Calendar.next?_cases taken with ⟨-, himmediate, -⟩ | ⟨k, -, -, himmediate, -⟩
  · rw [himmediate]
    exact List.mem_cons_of_mem _ mem
  · rw [himmediate] at mem
    cases mem

/-- A new stall holds back only what its source held back before. -/
theorem Phase.Of.starting {phase : Phase (Action n)} {backlog : Agenda EventId (Work (Action n))}
    (own : phase.Of source) (carried : phase.carried = some backlog) (release : Instant) :
    (Phase.stalled (.starting release backlog)).Of source := by
  cases phase with
  | running =>
    cases carried
    exact ⟨fun e he => (by cases he), fun e he => (by cases he)⟩
  | stalled stall => cases carried
  | replaying b =>
    cases carried
    exact ⟨own.parked, fun e he => (by cases he)⟩

theorem Phase.Of.park {stall : Stall (Action n)} (own : (Phase.stalled stall).Of source)
    {work : Work (Action n)} (mine : work.source = source) (due : Option Instant) :
    (Phase.stalled (stall.park due work)).Of source := by
  cases due with
  | none =>
    refine ⟨?_, own.timers⟩
    intro e he
    rcases Agenda.mem_insert.1 he with rfl | he
    · exact ⟨rfl, mine⟩
    · exact own.parked e he
  | some t =>
    refine ⟨own.parked, ?_⟩
    intro e he
    rcases Agenda.mem_insert.1 he with rfl | he
    · exact ⟨rfl, mine⟩
    · exact own.timers e he

theorem Phase.Of.join {backlog : Agenda EventId (Work (Action n))}
    (own : (Phase.replaying backlog).Of source) {work : Work (Action n)}
    (mine : work.source = source) : (Phase.replaying (backlog.insert work.id work)).Of source := by
  refine ⟨?_, own.timers⟩
  intro e he
  rcases Agenda.mem_insert.1 he with rfl | he
  · exact ⟨rfl, mine⟩
  · exact own.parked e he

theorem Phase.Of.next {backlog rest : Agenda EventId (Work (Action n))}
    {e : EventId × Work (Action n)} (own : (Phase.replaying backlog).Of source)
    (taken : backlog.next? = some (e, rest)) : (Phase.replaying rest).Of source := by
  refine ⟨fun d hd => own.parked d ?_, own.timers⟩
  dsimp only [Phase.parked] at hd ⊢
  rw [Agenda.next?_eq_some_iff.1 taken]
  exact List.mem_cons_of_mem _ hd

theorem Phase.Of.running : (Phase.running : Phase (Action n)).Of source :=
  ⟨fun e he => (by cases he), fun e he => (by cases he)⟩

theorem Stall.mem_park_timers {stall : Stall (Action n)} {due : Option Instant}
    {work : Work (Action n)} {timer : Origin × Work (Action n)}
    (mem : timer ∈ (stall.park due work).timers.toList) :
    timer ∈ stall.timers.toList ∨ ∃ t, due = some t ∧ timer = (⟨t, work.id⟩, work) := by
  cases due with
  | none => exact .inl mem
  | some t =>
    rcases Agenda.mem_insert.1 mem with rfl | hmem
    · exact .inr ⟨t, rfl, rfl⟩
    · exact .inl hmem

/-- Neither the phases nor the releases change. -/
theorem Stalls.congr (stalls : Stalls s) (phase : s'.phase = s.phase)
    (urgent : ∀ event ∈ s'.calendar.immediate, event.released? = none)
    (releases : s'.calendar.releases.Perm s.calendar.releases) : Stalls s' where
  own := phase ▸ stalls.own
  urgent := urgent
  release e he := phase ▸ stalls.release e (releases.mem_iff.1 he)
  pending source stall hstalled := by
    obtain ⟨turn, hmem⟩ := stalls.pending source stall (phase ▸ hstalled)
    exact ⟨turn, releases.mem_iff.2 hmem⟩
  single := (releases.map _).nodup_iff.2 stalls.single

theorem Stalls.take (stalls : Stalls s) {turn : Option Turn} {event : Event (Action n)}
    {rest : Calendar (Action n)} (taken : s.calendar.next? = some ((turn, event), rest))
    (noRelease : event.released? = none) : Stalls (s.take turn rest) :=
  stalls.congr rfl
    (fun other hmem => stalls.urgent other (Calendar.mem_immediate_of_next? taken hmem))
    (.of_eq (Calendar.releases_of_next? taken noRelease))

/-- A source that is not stalled goes over to a phase that is no stall. -/
theorem Stalls.setPhase_free (stalls : Stalls s) (source : Source) (phase : Phase (Action n))
    (free : (s.phase source).isStalled = false) (free' : phase.isStalled = false)
    (own : phase.Of source) : Stalls (s.setPhase source phase) where
  own other := by
    rw [Simulation.phase_setPhase]
    split
    · rename_i heq
      exact heq ▸ own
    · exact stalls.own other
  urgent := stalls.urgent
  release e he := by
    obtain ⟨stall, hstalled, hrest⟩ := stalls.release e he
    refine ⟨stall, ?_, hrest⟩
    rw [Simulation.phase_setPhase, if_neg]
    · exact hstalled
    · rintro rfl
      rw [hstalled] at free
      cases free
  pending other stall hstalled := by
    rw [Simulation.phase_setPhase] at hstalled
    split at hstalled
    · rw [hstalled] at free'
      cases free'
    · exact stalls.pending other stall hstalled
  single := stalls.single

/-- More is parked for a stalled source; what is parked goes before the release. -/
theorem Stalls.setPhase_park (stalls : Stalls s) {stall stall' : Stall (Action n)}
    (stalled : s.phase source = .stalled stall) (release : stall'.release = stall.release)
    (own : (Phase.stalled stall').Of source)
    (before : ∀ turn, (turn, source) ∈ s.calendar.releases → ∀ timer ∈ stall'.timers.toList,
      timer ∈ stall.timers.toList ∨ timer.1 ≤ turn.first) :
    Stalls (s.setPhase source (.stalled stall')) where
  own other := by
    rw [Simulation.phase_setPhase]
    split
    · rename_i heq
      exact heq ▸ own
    · exact stalls.own other
  urgent := stalls.urgent
  release e he := by
    obtain ⟨old, hold, htime, htimers⟩ := stalls.release e he
    rw [Simulation.phase_setPhase]
    split
    · rename_i heq
      subst heq
      rw [stalled] at hold
      cases hold
      refine ⟨stall', rfl, release.trans htime, ?_⟩
      intro timer htimer
      rcases before e.1 he timer htimer with hmem | hle
      · exact htimers timer hmem
      · exact hle
    · exact ⟨old, hold, htime, htimers⟩
  pending other old hold := by
    rw [Simulation.phase_setPhase] at hold
    split at hold
    · rename_i heq
      subst heq
      exact stalls.pending source stall stalled
    · exact stalls.pending other old hold
  single := stalls.single

/-- A stall begins, and its release waits with it. -/
theorem Stalls.beginStall (stalls : Stalls s) {release : Instant}
    {backlog : Agenda EventId (Work (Action n))}
    (carried : (s.phase source).carried = some backlog) :
    Stalls (s.beginStall source release backlog) := by
  have hfree : ∀ stall, s.phase source ≠ .stalled stall := by
    intro stall hstalled
    rw [hstalled] at carried
    cases carried
  have hphase : ∀ other, (s.beginStall source release backlog).phase other =
      if source = other then .stalled (.starting release backlog) else s.phase other :=
    fun other => Simulation.phase_setPhase s source other _
  have hreleases : (s.beginStall source release backlog).calendar.releases.Perm
      ((.dueAt release s.freshId, source) :: s.calendar.releases) :=
    Calendar.releases_pushTimed _ _ _
  refine ⟨?_, stalls.urgent, ?_, ?_, ?_⟩
  · intro other
    rw [hphase]
    split
    · rename_i heq
      exact heq ▸ (stalls.own source).starting carried release
    · exact stalls.own other
  · intro e he
    rw [hphase]
    rcases List.mem_cons.1 (hreleases.mem_iff.1 he) with rfl | he
    · refine ⟨_, if_pos rfl, rfl, ?_⟩
      intro timer htimer
      cases htimer
    · obtain ⟨stall, hstalled, hrest⟩ := stalls.release e he
      refine ⟨stall, ?_, hrest⟩
      rw [if_neg]
      · exact hstalled
      · rintro rfl
        exact hfree stall hstalled
  · intro other stall hstalled
    rw [hphase] at hstalled
    split at hstalled
    · rename_i heq
      subst heq
      exact ⟨_, hreleases.mem_iff.2 List.mem_cons_self⟩
    · obtain ⟨turn, hmem⟩ := stalls.pending other stall hstalled
      exact ⟨turn, hreleases.mem_iff.2 (List.mem_cons_of_mem _ hmem)⟩
  · refine (hreleases.map _).nodup_iff.2 (List.nodup_cons.2 ⟨fun hmem => ?_, stalls.single⟩)
    obtain ⟨e, he, heq⟩ := List.mem_map.1 hmem
    obtain ⟨stall, hstalled, -⟩ := stalls.release e he
    rw [heq] at hstalled
    exact hfree stall hstalled

/-- A stall ends when its release is taken. -/
theorem Stalls.endStall (stalls : Stalls s) {turn : Option Turn} {id : EventId}
    {rest : Calendar (Action n)} {stall : Stall (Action n)}
    (taken : s.calendar.next? = some ((turn, .release id source), rest))
    (stalled : s.phase source = .stalled stall) :
    Stalls ((s.take turn rest).setPhase source (.replaying stall.immediate)) := by
  obtain ⟨k, rfl, -, htimed, -⟩ := stalls.release_taken taken
  have hreleases : s.calendar.releases = (k, source) :: rest.releases := by
    unfold Calendar.releases
    rw [htimed]
    rfl
  have hsingle := stalls.single
  rw [hreleases, List.map_cons, List.nodup_cons] at hsingle
  have hphase := Simulation.phase_setPhase (s.take (some k) rest) source
  refine ⟨?_, ?_, ?_, ?_, hsingle.2⟩
  · intro other
    rw [hphase]
    split
    · rename_i heq
      have hown := stalls.own source
      rw [stalled] at hown
      exact heq ▸ ⟨hown.parked, fun e he => (by cases he)⟩
    · exact stalls.own other
  · intro other hmem
    exact stalls.urgent other (Calendar.mem_immediate_of_next? taken hmem)
  · intro e he
    have hmem : e ∈ s.calendar.releases := by
      rw [hreleases]
      exact List.mem_cons_of_mem _ he
    obtain ⟨stall', hstalled, hrest⟩ := stalls.release e hmem
    refine ⟨stall', ?_, hrest⟩
    rw [hphase, if_neg]
    · exact hstalled
    · intro heq
      exact hsingle.1 (List.mem_map.2 ⟨e, he, heq.symm⟩)
  · intro other stall' hstalled
    rw [hphase] at hstalled
    split at hstalled
    · cases hstalled
    · rename_i hne
      obtain ⟨turn, hmem⟩ := stalls.pending other stall' hstalled
      rw [hreleases] at hmem
      rcases List.mem_cons.1 hmem with heq | hmem
      · cases heq
        exact absurd rfl hne
      · exact ⟨turn, hmem⟩

theorem Event.released?_of_ticket? {turn : Option Turn} {event : Event (Action n)}
    {ticket : Ticket n} (h : event.ticket? turn = some ticket) : event.released? = none := by
  cases event <;> cases h <;> rfl

theorem Event.released?_of_work? {event : Event (Action n)} {work : Work (Action n)}
    (h : event.work? = some work) : event.released? = none := by
  cases event <;> cases h <;> rfl

/-- Where an accepted submission waits, it disturbs no stall. -/
theorem Stalls.lodge (stalls : Stalls s) (timely : Timely ⟨s, r⟩) {ticket : Ticket n}
    (placed : Placed s ticket s') : Stalls s' := by
  have hissued : Stalls s.issue := stalls.congr rfl stalls.urgent (.refl _)
  cases placed with
  | immediate event entry =>
    refine stalls.congr rfl (fun other hmem => ?_) (.refl _)
    rcases List.mem_append.1 hmem with hmem | hmem
    · exact stalls.urgent other hmem
    · rw [List.mem_singleton.1 hmem]
      exact Event.released?_of_ticket? entry
  | timed t event entry =>
    refine stalls.congr rfl stalls.urgent ((Calendar.releases_pushTimed _ _ event).trans ?_)
    rw [Event.released?_of_ticket? entry]
    exact List.Perm.refl _
  | parked stall stalled routed early =>
    have hown := stalls.own ticket.work.source
    rw [stalled] at hown
    refine hissued.setPhase_park stalled (Stall.release_park _ _ _) (hown.park rfl _) ?_
    intro turn hmem timer htimer
    rcases Stall.mem_park_timers htimer with hold | ⟨t, hdue, rfl⟩
    · exact .inl hold
    · apply Or.inr
      obtain ⟨stall', hstalled, hrelease, -⟩ := stalls.release _ hmem
      rw [stalled] at hstalled
      cases hstalled
      obtain ⟨id, htimed⟩ := Calendar.mem_releases.1 hmem
      have hearly := early t hdue
      rw [hrelease] at hearly
      have hturn := (timely.proper _ htimed).of_release
      dsimp only at hturn hearly ⊢
      rw [hturn]
      exact .inl hearly
  | joined backlog replaying routed untimed =>
    have hown := stalls.own ticket.work.source
    rw [replaying] at hown
    exact hissued.setPhase_free _ _ (by rw [show s.issue.phase _ = _ from replaying]; rfl) rfl
      (hown.join rfl)

/-- Routed work that is parked when its turn comes goes before the release. -/
theorem Stalls.intercept (stalls : Stalls s) (timely : Timely ⟨s, none⟩) {turn : Option Turn}
    {work : Work (Action n)} {rest : Calendar (Action n)} {stall : Stall (Action n)}
    (taken : s.calendar.next? = some ((turn, .routed work), rest))
    (stalled : s.phase work.source = .stalled stall) :
    Stalls ((s.take turn rest).setPhase work.source
      (.stalled (stall.park (turn.map Turn.origin) work))) := by
  have hown := stalls.own work.source
  rw [stalled] at hown
  refine (stalls.take taken rfl).setPhase_park stalled (Stall.release_park _ _ _)
    (hown.park rfl _) ?_
  intro l hmem timer htimer
  rcases Stall.mem_park_timers htimer with hold | ⟨t, hdue, rfl⟩
  · exact .inl hold
  apply Or.inr
  obtain ⟨id, htimed⟩ := Calendar.mem_releases.1 hmem
  have hold := Calendar.timed_of_next? taken htimed
  have hrelease := (timely.proper _ hold).of_release
  cases turn with
  | none => cases hdue
  | some k =>
    cases hdue
    obtain ⟨-, hk, hleast⟩ := Calendar.least_of_next? taken
    have hle := hleast _ hold
    have hproper : Proper s.now k (.routed work) := timely.proper _ hk
    dsimp only at hrelease hle
    cases hproper with
    | due t event ahead =>
      rw [hrelease] at hle ⊢
      exact Turn.first_le_of_dueAt hle
    | replayed origin work own past =>
      have hfirst := timely.first origin (.inl ⟨_, hk, rfl, rfl⟩) _ hold (by rw [hrelease]; rfl)
      rw [← own]
      exact hfirst

/-- A release finds its source stalled. -/
theorem Stalls.stalled_of_release (stalls : Stalls s) {turn : Option Turn} {id : EventId}
    {rest : Calendar (Action n)}
    (taken : s.calendar.next? = some ((turn, .release id source), rest)) :
    ∃ stall, s.phase source = .stalled stall := by
  obtain ⟨k, rfl, -, htimed, -⟩ := stalls.release_taken taken
  have hmem : (k, source) ∈ s.calendar.releases := by
    refine Calendar.mem_releases.2 ⟨id, ?_⟩
    rw [htimed]
    exact List.mem_cons_self
  obtain ⟨stall, hstalled, -⟩ := stalls.release _ hmem
  exact ⟨stall, hstalled⟩

/-- Work of a backlog is of the source that is replayed. -/
theorem Stalls.source_of_replayed (stalls : Stalls s) {key : EventId} {work : Work (Action n)}
    {backlog rest : Agenda EventId (Work (Action n))}
    (replaying : s.phase source = .replaying backlog)
    (taken : backlog.next? = some ((key, work), rest)) : work.source = source := by
  have hparked : (key, work) ∈ (s.phase source).parked := by
    rw [replaying, Phase.parked, Agenda.next?_eq_some_iff.1 taken]
    exact List.mem_cons_self
  exact ((stalls.own source).parked _ hparked).2

/-- The releases that wait are those of the stalled sources. -/
theorem mem_releases_iff (stalls : Stalls s) :
    source ∈ s.calendar.releases.map Prod.snd ↔ (s.phase source).isStalled = true := by
  constructor
  · intro hmem
    obtain ⟨e, he, rfl⟩ := List.mem_map.1 hmem
    obtain ⟨stall, hstalled, -⟩ := stalls.release e he
    rw [hstalled]
    rfl
  · intro hstalled
    cases hphase : s.phase source with
    | stalled stall =>
      obtain ⟨turn, hmem⟩ := stalls.pending source stall hphase
      exact List.mem_map.2 ⟨_, hmem, rfl⟩
    | running =>
      rw [hphase] at hstalled
      cases hstalled
    | replaying backlog =>
      rw [hphase] at hstalled
      cases hstalled

theorem Stalls.closeReplay (stalls : Stalls s) (source : Source) (release : Instant)
    (timers : Agenda Origin (Work (Action n))) :
    Stalls (s.closeReplay source release timers) := by
  have hurgent : ∀ event ∈ s.calendar.immediate ++ (leftover s source).map .routed,
      event.released? = none := by
    intro event hmem
    rcases List.mem_append.1 hmem with hmem | hmem
    · exact stalls.urgent event hmem
    · obtain ⟨work, -, rfl⟩ := List.mem_map.1 hmem
      rfl
  rw [closeReplay_eq]
  unfold closedPhases
  split
  · rename_i backlog hphase
    have hset := stalls.setPhase_free source .running
      (by rw [hphase]; rfl) rfl .running
    exact hset.congr rfl hurgent (Calendar.releases_reposted _ _ _ _)
  · exact stalls.congr rfl hurgent (Calendar.releases_reposted _ _ _ _)

theorem Stalls.move (stalls : Stalls st.sim) (timely : Timely st) (ledger : Ledger log st)
    (move : Move log st new st') : Stalls st'.sim := by
  cases move with
  | accept s s' r ticket admits => exact stalls.lodge timely (admits.eq ▸ placed_lodge s ticket)
  | stall s r source release backlog known inTime active carried =>
    exact stalls.beginStall carried
  | drop s turn event rest taken cancelled =>
    have hnone : event.released? = none := by
      cases event with
      | release id source =>
        have hmem : (turn, .release id source) ∈ s.calendar.entries := by
          rw [Calendar.next?_eq_some_iff.1 taken]
          exact List.mem_cons_self
        have hlive : s.isCancelled id = false := ledger.release_live hmem
        rw [show s.isCancelled id = true from cancelled] at hlive
        cases hlive
      | direct work => rfl
      | routed work => rfl
    exact (stalls.take taken hnone).congr rfl
      (fun other hmem => stalls.urgent other (Calendar.mem_immediate_of_next? taken hmem)) (.refl _)
  | intercept s turn work rest stall taken live stalled =>
    exact stalls.intercept timely taken stalled
  | start s turn event work rest taken isWork live free =>
    have htake := stalls.take taken (Event.released?_of_work? isWork)
    exact htake.congr rfl htake.urgent (.refl _)
  | release s turn id source rest stall taken live stalled => exact stalls.endStall taken stalled
  | stale s turn id source rest taken live free =>
    obtain ⟨stall, hstalled⟩ := stalls.stalled_of_release taken
    rw [hstalled] at free
    cases free
  | skip s r key work backlog rest replaying taken cancelled =>
    have hown := stalls.own r.source
    rw [replaying] at hown
    exact stalls.setPhase_free _ _ (by rw [replaying]; rfl) rfl (hown.next taken)
  | drain s r key work backlog rest replaying taken live =>
    have hown := stalls.own r.source
    rw [replaying] at hown
    have hset := stalls.setPhase_free r.source (.replaying rest)
      (by rw [replaying]; rfl) rfl (hown.next taken)
    exact hset.congr rfl hset.urgent (.refl _)
  | close s r => exact stalls.closeReplay r.source r.release r.timers
  | _ => exact stalls.congr rfl stalls.urgent (.refl _)

/-- **The schedule of every course is in order.** -/
theorem Course.schedule (course : Course log st) : Timely st ∧ Stalls st.sim := by
  induction course with
  | create config =>
    refine ⟨⟨fun e he => (by cases he), fun r hr => (by cases hr), fun _ _ e he => (by cases he)⟩,
      ⟨fun source => .running, fun event hmem => (by cases hmem), fun e he => (by cases he),
        fun source stall hstalled => (by cases hstalled), List.nodup_nil⟩⟩
  | move course move ih =>
    obtain ⟨htimely, hstalls⟩ := ih
    exact ⟨htimely.move hstalls course.ledger move, hstalls.move htimely course.ledger move⟩

end Stalls

end StallSim
