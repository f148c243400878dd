import StallSim.Proofs.Steps
import StallSim.Proofs.Stalls

/-!
# The life of a stall

A stall begins when it is granted, and with it a release of its own is posted.  From then on the
source is stalled until that very release is taken, at the instant it was meant for.  All this holds
after failures and panics as well.

* `Simulation.releasesOf` — the releases of a source that wait, in the order of the calendar.
* `Simulation.Awaits` — exactly one release of a source waits.
* `Released` — the release of a source is taken, and with it the stall ends.

Principal results: `release_eq_some_iff` — the releases that wait tell who is stalled until when;
`Next.release` — what a step does to a stall; `stall_lifecycle` — a stall from its beginning to its
end.
-/

set_option autoImplicit false

namespace StallSim

variable {n : Nat}

/-- The events that release a source, in the order in which they will be taken. -/
def Simulation.releasesOf (s : Simulation (Action n)) (source : Source) :
    List (Option Turn × Event (Action n)) :=
  s.calendar.entries.filter (fun e => e.2.released? = some source)

/-- The release under the id `id` that waits for the instant `time`. -/
def releaseAt (time : Instant) (id : EventId) (source : Source) :
    Option Turn × Event (Action n) :=
  (some (.dueAt time id), .release id source)

/-- One release of the source waits, under this id for this instant, and it is not cancelled. -/
structure Simulation.Awaits (s : Simulation (Action n)) (source : Source) (time : Instant)
    (id : EventId) : Prop where
  one : s.releasesOf source = [releaseAt time id source]
  live : s.isCancelled id = false

theorem stalled_of_isStalled {α : Type} {phase : Phase α} (stalled : phase.isStalled = true) :
    ∃ stall, phase = .stalled stall := by
  cases phase with
  | stalled stall => exact ⟨stall, rfl⟩
  | running => cases stalled
  | replaying backlog => cases stalled

section Waiting

variable {log : Log n} {s : Simulation (Action n)} {r : Option (Replay n)} {source : Source}
  {time : Instant} {id : EventId}

theorem mem_releasesOf {e : Option Turn × Event (Action n)} :
    e ∈ s.releasesOf source ↔ e ∈ s.calendar.entries ∧ e.2.released? = some source := by
  simp [Simulation.releasesOf]

/-- Releases wait in the timed part of the calendar. -/
theorem length_releasesOf (stalls : Stalls s) (source : Source) :
    (s.releasesOf source).length = (s.calendar.releases.map Prod.snd).count source := by
  have himmediate : (s.calendar.immediate.map (fun event => ((none, event) :
      Option Turn × Event (Action n)))).countP (fun e => e.2.released? = some source) = 0 := by
    rw [List.countP_eq_zero]
    intro e he
    obtain ⟨event, hevent, rfl⟩ := List.mem_map.1 he
    simp [stalls.urgent event hevent]
  have hsources : s.calendar.releases.map Prod.snd =
      s.calendar.timed.toList.filterMap (fun e => e.2.released?) := by
    unfold Calendar.releases
    rw [List.map_filterMap]
    refine congrArg (fun f => s.calendar.timed.toList.filterMap f) (funext fun e => ?_)
    cases e.2.released? <;> rfl
  unfold Simulation.releasesOf Calendar.entries
  rw [← List.countP_eq_length_filter, List.countP_append, himmediate, Nat.zero_add,
    List.countP_map, hsources, List.count_filterMap]
  refine congrArg (fun p => s.calendar.timed.toList.countP p) (funext fun e => ?_)
  rw [Bool.eq_iff_iff]
  simp

theorem length_releasesOf_le (stalls : Stalls s) (source : Source) :
    (s.releasesOf source).length ≤ 1 := by
  rw [length_releasesOf stalls]
  exact List.nodup_iff_count_le_one.1 stalls.single source

/-- No release waits for a source that is not stalled. -/
theorem releasesOf_eq_nil (stalls : Stalls s) (free : (s.phase source).isStalled = false) :
    s.releasesOf source = [] := by
  rw [← List.length_eq_zero_iff, length_releasesOf stalls, List.count_eq_zero]
  intro hmem
  rw [mem_releases_iff stalls, free] at hmem
  cases hmem

/-- A release that waits is the only one of its source. -/
theorem releasesOf_eq_of_mem (stalls : Stalls s) {e : Option Turn × Event (Action n)}
    (mem : e ∈ s.releasesOf source) : s.releasesOf source = [e] := by
  obtain ⟨d, hone⟩ := List.length_eq_one_iff.1
    (Nat.le_antisymm (length_releasesOf_le stalls source) (List.length_pos_of_mem mem))
  rw [hone] at mem ⊢
  rw [List.mem_singleton.1 mem]

theorem Simulation.Awaits.mem (awaits : s.Awaits source time id) :
    releaseAt time id source ∈ s.calendar.entries := by
  have hmem : releaseAt time id source ∈ s.releasesOf source :=
    awaits.one ▸ List.mem_singleton.2 rfl
  exact (mem_releasesOf.1 hmem).1

/-- Along a course, a release that waits is the only one of its source, and is not cancelled. -/
theorem awaits_of_mem (course : Course log ⟨s, r⟩)
    (mem : releaseAt time id source ∈ s.calendar.entries) :
    s.Awaits source time id :=
  ⟨releasesOf_eq_of_mem course.schedule.2 (mem_releasesOf.2 ⟨mem, rfl⟩),
    course.ledger.release_live mem⟩

/-- A stalled source awaits the instant at which its stall ends. -/
theorem awaits_of_stalled (course : Course log ⟨s, r⟩) {stall : Stall (Action n)}
    (stalled : s.phase source = .stalled stall) :
    ∃ id, s.Awaits source stall.release id := by
  obtain ⟨htimely, hstalls⟩ := course.schedule
  obtain ⟨k, hk⟩ := hstalls.pending source stall stalled
  obtain ⟨stall', hstalled, hrelease, -⟩ := hstalls.release _ hk
  rw [stalled] at hstalled
  cases hstalled
  obtain ⟨id, hmem⟩ := Calendar.mem_releases.1 hk
  have hturn := (htimely.proper _ hmem).of_release
  refine ⟨id, awaits_of_mem course ?_⟩
  unfold releaseAt
  rw [show stall.release = k.time from hrelease, ← show k = .dueAt k.time id from hturn]
  exact List.mem_append_right _ (List.mem_map_of_mem (f := fun e => (some e.1, e.2)) hmem)

/-- The release that an observer sees is that of the stall. -/
theorem release_sourceView_iff :
    (s.sourceView source).release = some time ↔
      ∃ stall, s.phase source = .stalled stall ∧ stall.release = time := by
  dsimp only [Simulation.sourceView]
  cases s.phase source <;> simp [Phase.stall?]

/-- **The releases that wait tell who is stalled, and until when.** -/
theorem release_eq_some_iff (course : Course log ⟨s, r⟩) :
    (s.sourceView source).release = some time ↔ ∃ id, s.Awaits source time id := by
  rw [release_sourceView_iff]
  constructor
  · rintro ⟨stall, hstalled, rfl⟩
    exact awaits_of_stalled course hstalled
  · rintro ⟨id, hone, -⟩
    have hstalled : (s.phase source).isStalled = true := by
      by_contra hfree
      rw [releasesOf_eq_nil course.schedule.2 (by simpa using hfree)] at hone
      cases hone
    obtain ⟨stall, hphase⟩ := stalled_of_isStalled hstalled
    obtain ⟨id', hone', -⟩ := awaits_of_stalled course hphase
    rw [hone'] at hone
    simp only [releaseAt, Turn.dueAt, List.cons.injEq, Prod.mk.injEq, Option.some.injEq,
      Turn.mk.injEq] at hone
    exact ⟨stall, hphase, hone.1.1.1⟩

/-- Where no event waits, no source is stalled. -/
theorem pausedSources_of_isEmpty (course : Course log ⟨s, r⟩)
    (idle : s.calendar.isEmpty = true) : s.pausedSources = [] := by
  apply List.eq_nil_iff_forall_not_mem.2
  intro source hmem
  obtain ⟨stall, hphase⟩ := stalled_of_isStalled (List.mem_filter.1 hmem).2
  obtain ⟨id, hawaits⟩ := awaits_of_stalled course hphase
  have hentries : s.calendar.entries = [] := by simpa [Calendar.isEmpty] using idle
  have hwaits := hawaits.mem
  rw [hentries] at hwaits
  cases hwaits

end Waiting

/-! ## The end of a stall -/

/-- The release of a source is taken: it was the next event, the clock shows the instant it was
meant for, and the source is not stalled any more. -/
structure Released (source : Source) (time : Instant) (id : EventId)
    (s s' : Simulation (Action n)) : Prop where
  taken : ∃ rest, s.calendar.next? = some (releaseAt time id source, rest)
  now : s'.now = time
  ended : (s'.phase source).isStalled = false

section Taken

variable {log new : Log n} {st st' : Standing n} {source : Source} {time : Instant} {id : EventId}

/-- A release waits on, unless it is the next event and is taken. -/
theorem release_of_taken {c rest : Calendar (Action n)} {turn : Option Turn}
    {event : Event (Action n)} (taken : c.next? = some ((turn, event), rest))
    {e : Option Turn × Event (Action n)} (mem : e ∈ c.entries) :
    e = (turn, event) ∨ e ∈ rest.entries := by
  rwa [Calendar.next?_eq_some_iff.1 taken, List.mem_cons] at mem

/-- **A move leaves a release where it is, or takes it as the end of its stall.** -/
theorem move_keeps_release (course : Course log st) (move : Move log st new st')
    (mem : releaseAt time id source ∈ st.sim.calendar.entries) :
    releaseAt time id source ∈ st'.sim.calendar.entries ∨
      Released source time id st.sim st'.sim := by
  have hlive := course.ledger.release_live mem
  have hstalls := course.schedule.2
  cases move with
  | accept s s' r ticket admits =>
    have hlull : Lull log ⟨s, r⟩ [.accepted ticket] ⟨s', r⟩ := .accept admits
    exact .inl (hlull.kept _ mem)
  | stall s r source' release backlog known inTime active carried =>
    have hlull : Lull log ⟨s, r⟩ _ ⟨s.beginStall source' release backlog, r⟩ :=
      .stall known inTime active carried
    exact .inl (hlull.kept _ mem)
  | drop s turn event rest taken cancelled =>
    rcases release_of_taken taken mem with heq | hmem
    · cases heq
      rw [show s.isCancelled id = true from cancelled] at hlive
      cases hlive
    · exact .inl hmem
  | intercept s turn work rest stall taken live stalled =>
    rcases release_of_taken taken mem with heq | hmem
    · cases heq
    · exact .inl hmem
  | start s turn event work rest taken isWork live free =>
    rcases release_of_taken taken mem with heq | hmem
    · cases heq
      cases isWork
    · exact .inl hmem
  | release s turn id' source' rest stall taken live stalled =>
    rcases release_of_taken taken mem with heq | hmem
    · cases heq
      obtain ⟨k, hk, -, htimed, -⟩ := hstalls.release_taken taken
      cases hk
      have hproper := course.schedule.1.proper (.dueAt time id, .release id source)
        (htimed ▸ List.mem_cons_self)
      refine .inr ⟨⟨rest, taken⟩, hproper.advance, ?_⟩
      rw [Simulation.phase_setPhase, if_pos rfl]
      rfl
    · exact .inl hmem
  | stale s turn id' source' rest taken live free =>
    rcases release_of_taken taken mem with heq | hmem
    · cases heq
      obtain ⟨stall, hstalled⟩ := hstalls.stalled_of_release taken
      rw [hstalled] at free
      cases free
    · exact .inl hmem
  | close s r =>
    have hlull : Lull log ⟨s, some r⟩ _ ⟨s.closeReplay r.source r.release r.timers, none⟩ :=
      .close r
    exact .inl (hlull.kept _ mem)
  | _ => exact .inl mem

end Taken

/-! ## Histories -/

section History

variable {h new : List (Fin n × Happening n)} {m m' : Machine n} {i : Fin n} {source : Source}
  {time : Instant} {id : EventId}

/-- **What a step or a request does to a stall**: it goes on until the same release, or that release
is taken. -/
theorem Next.release (hist : History h m) (next : Next m new m')
    (awaits : (m.world.sim i).Awaits source time id) :
    (m'.world.sim i).Awaits source time id ∨
      Released source time id (m.world.sim i) (m'.world.sim i) := by
  have hcourse := (hist.next next).course i
  rcases (next.stride hist.grounded).moves i with hmove | along
  · exact (move_keeps_release (hist.course i) hmove awaits.mem).imp_left (awaits_of_mem hcourse)
  · exact .inl (awaits_of_mem hcourse (along.kept.2.2.subset awaits.mem))

/-- A stall goes on until its release is taken. -/
theorem Later.release {later : List (Fin n × Happening n)} (onward : Later m later m')
    (hist : History h m) (awaits : (m.world.sim i).Awaits source time id) :
    (m'.world.sim i).Awaits source time id ∨
      ∃ before m₁ now m₂ after, Later m before m₁ ∧ (m₁.world.sim i).Awaits source time id ∧
        Next m₁ now m₂ ∧ Released source time id (m₁.world.sim i) (m₂.world.sim i) ∧
        Later m₂ after m' ∧ later = before ++ now ++ after := by
  induction onward generalizing h with
  | refl m => exact .inl awaits
  | @next m m₁ m' new later next onward ih =>
    rcases next.release hist awaits with hawaits | hreleased
    · rcases ih (hist.next next) hawaits with hlast | ⟨before, m₂, now, m₃, after, hbefore, hfound⟩
      · exact .inl hlast
      · obtain ⟨hawaits₂, hnow, hreleased, hafter, rfl⟩ := hfound
        refine .inr ⟨new ++ before, m₂, now, m₃, after, .next next hbefore, hawaits₂, hnow,
          hreleased, hafter, ?_⟩
        simp
    · exact .inr ⟨[], m, new, m₁, later, .refl m, awaits, next, hreleased, onward, rfl⟩

/-- What is granted as a stall is the stall that the simulation then is in. -/
theorem stalled_of_next (next : Next m new m') {pause : Pause} (mem : (i, .stalled pause) ∈ new) :
    pause.since = (m.world.sim i).now ∧
      (m.world.sim i).stallUntil pause.source pause.release = .ok (m'.world.sim i) := by
  cases next with
  | step =>
    rcases mem_happenings mem with ⟨request, hcalled, hmem⟩ | ⟨_, _, hx⟩ | ⟨hx, -⟩
    · rcases mem_happenings_request hmem with
        ⟨_, hx⟩ | ⟨_, source, release, t, s', rfl, hs, hx, hw⟩
      · cases hx
      cases hx
      obtain ⟨run, work, handling, rest, hcontrol⟩ := control_of_call hcalled
      obtain ⟨w, control, callers⟩ := m
      cases hcontrol
      refine ⟨rfl, hs.trans (congrArg Except.ok ?_)⟩
      have hstep : (Machine.step ⟨w, .within run work (.perform i (.stall source release) handling
          rest), callers⟩).world = (w.setSim i s').note
            (.performed (.command i (.stall source release)) .done) := by
        simp only [Machine.step, Machine.stepAction, World.command, hw, Machine.settle,
          Outcome.error?]
      rw [hstep]
      exact (sim_setSim_self w i s').symm
    · cases hx
    · cases hx
  | request outcome request rested =>
    rcases mem_happenings_request mem with ⟨_, hx⟩ | ⟨_, source, release, t, s', rfl, hs, hx, hw⟩
    · cases hx
    cases hx
    refine ⟨rfl, hs.trans (congrArg Except.ok ?_)⟩
    simp only [Machine.request, World.command, hw, sim_setSim_self]

/-- A stall begins with a release of its own, under a new id. -/
theorem Next.stall (hist : History h m) (next : Next m new m') {pause : Pause}
    (mem : (i, .stalled pause) ∈ new) :
    (m.world.sim i).releasesOf pause.source = [] ∧
      (m'.world.sim i).Awaits pause.source pause.release (m.world.sim i).freshId := by
  obtain ⟨-, hgranted⟩ := stalled_of_next next mem
  obtain ⟨backlog, -, -, -, hcarried, hsim⟩ := stallUntil_eq_ok hgranted
  constructor
  · refine releasesOf_eq_nil (hist.course i).schedule.2 (isStalled_eq_false ?_)
    intro stall hstalled
    rw [hstalled] at hcarried
    cases hcarried
  · refine awaits_of_mem ((hist.next next).course i) ?_
    show _ ∈ (m'.world.sim i).calendar.entries
    rw [hsim]
    exact Calendar.mem_pushTimed.2 (.inl rfl)

/-- **The life of a stall.**  In every history, panics included, a source is stalled until an
instant if and only if it awaits this instant: exactly one release of it waits, for this instant and
not cancelled.  Two releases of a source never wait, and where no event waits no source is stalled.
A stall that is granted begins with a release under a new id, when no release of the source waits.
It goes on until this very release is taken, at the instant it is for. -/
theorem stall_lifecycle (hist : History h m) (i : Fin n) (source : Source) :
    (∀ time, ((m.world.sim i).sourceView source).release = some time ↔
      ∃ id, (m.world.sim i).Awaits source time id) ∧
    ((m.world.sim i).releasesOf source).length ≤ 1 ∧
    ((m.world.sim i).status.idle = true → (m.world.sim i).pausedSources = []) ∧
    (∀ new m' since time, Next m new m' → (i, .stalled ⟨source, since, time⟩) ∈ new →
      (m.world.sim i).releasesOf source = [] ∧
        (m'.world.sim i).Awaits source time (m.world.sim i).freshId) ∧
    (∀ later m' time id, Later m later m' → (m.world.sim i).Awaits source time id →
      (m'.world.sim i).Awaits source time id ∨
        ∃ before m₁ now m₂ after, Later m before m₁ ∧ (m₁.world.sim i).Awaits source time id ∧
          Next m₁ now m₂ ∧ Released source time id (m₁.world.sim i) (m₂.world.sim i) ∧
          Later m₂ after m' ∧ later = before ++ now ++ after) := by
  refine ⟨fun time => release_eq_some_iff (hist.course i), ?_, ?_, ?_, ?_⟩
  · exact length_releasesOf_le (hist.course i).schedule.2 source
  · exact fun idle => pausedSources_of_isEmpty (hist.course i) idle
  · exact fun new m' since time next mem => next.stall hist mem
  · exact fun later m' time id onward awaits => onward.release hist awaits

end History

/-- The source of the small world is stalled until ten, and awaits it. -/
theorem awaits_ten :
    (((stalledWorld .sourceAt .run 3).world.sim 0).sourceView (.index 0)).release = some ⟨10⟩ ∧
      ∃ id, ((stalledWorld .sourceAt .run 3).world.sim 0).Awaits (.index 0) ⟨10⟩ id := by
  have hstalled : (((stalledWorld .sourceAt .run 3).world.sim 0).sourceView (.index 0)).release =
      some ⟨10⟩ := rfl
  exact ⟨hstalled, ((stall_lifecycle (.stalled .sourceAt .run 3) 0 (.index 0)).1 ⟨10⟩).1 hstalled⟩

end StallSim
