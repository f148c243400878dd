import StallSim.Proofs.Clock
import StallSim.Proofs.Frames
import StallSim.Proofs.Lifecycle

/-!
# What passes a stall

A stall holds back the work that a source handed in itself, before the stall and while it lasts: it
is parked when its turn comes, or parked at once.  The calendar does not look at stalls, and work
that was handed in straight to it passes them.

* `Passes` — an accepted submission that did not go through its source.
* `Lasts` — a stall from its beginning on: how much of what happens happens while it lasts, and the
  release that ends it.

Principal results: `passes_of_started` — what starts for a stalled source passes the stall;
`not_started_of_released` — nothing starts in the step that takes a release; `Later.lasts`;
`stalled_source_rests` — while a stall lasts nothing starts that was handed in through its source.
-/

set_option autoImplicit false

namespace StallSim

variable {n : Nat}

/-- The work was accepted straight to the calendar. -/
def Passes (log : Log n) (work : Work (Action n)) : Prop :=
  ∃ ticket ∈ log.accepted, ticket.work = work ∧ ticket.routed = false

theorem Passes.mono {log new : Log n} {work : Work (Action n)} (passes : Passes log work) :
    Passes (log ++ new) work := by
  obtain ⟨ticket, hmem, hwork, hrouted⟩ := passes
  refine ⟨ticket, ?_, hwork, hrouted⟩
  rw [Log.accepted_append]
  exact List.mem_append_left _ hmem

section Moves

variable {log : Log n} {st st' : Standing n} {source : Source} {time start : Instant} {id : EventId}
  {work : Work (Action n)}

/-- Work that begins while its source is stalled passes the stall. -/
theorem passes_of_begins (course : Course log st) (begins : Begins st work start st')
    (stalled : (st.sim.phase work.source).isStalled = true) : Passes log work := by
  cases begins with
  | start s turn event work rest taken isWork live free =>
    obtain ⟨ticket, hentry, hwork⟩ := Event.ticket?_of_work? isWork turn
    have hmem := course.ledger.accepted_of_mem (mem_tickets_of_taken taken hentry)
    refine ⟨ticket, hmem, hwork, ?_⟩
    cases event with
    | direct w =>
      cases hentry
      rfl
    | routed w =>
      cases isWork
      rw [free rfl] at stalled
      cases stalled
    | release id source => cases isWork
  | drain s r key work backlog rest replaying taken live =>
    rw [course.schedule.2.source_of_replayed replaying taken, replaying] at stalled
    cases stalled

/-- No work begins when a release is taken. -/
theorem not_released_of_begins (begins : Begins st work start st')
    (stalled : (st.sim.phase source).isStalled = true) :
    ¬ Released source time id st.sim st'.sim := by
  rintro ⟨⟨rest', hnext⟩, -, hended⟩
  cases begins with
  | start s turn event work rest taken isWork live free =>
    rw [hnext] at taken
    cases taken
    cases isWork
  | drain s r key work backlog rest replaying taken live =>
    -- the source that is replayed is another one, and the stall is left as it is
    have hphase : ((s.setPhase r.source (.replaying rest)).phase source).isStalled = false := hended
    rw [Simulation.phase_setPhase] at hphase
    split at hphase
    · rename_i hsource
      rw [← hsource, replaying] at stalled
      cases stalled
    · rw [hphase] at stalled
      cases stalled

end Moves

section Steps

variable {h new : List (Fin n × Happening n)} {m m' : Machine n} {i : Fin n} {source : Source}
  {time start : Instant} {id : EventId} {work : Work (Action n)}

theorem isStalled_of_awaits (hist : History h m)
    (awaits : (m.world.sim i).Awaits source time id) :
    ((m.world.sim i).phase source).isStalled = true := by
  have hrelease := (release_eq_some_iff (hist.course i)).2 ⟨id, awaits⟩
  obtain ⟨stall, hstall, -⟩ := Option.map_eq_some_iff.1 hrelease
  rw [Phase.isStalled, hstall]
  rfl

/-- **What starts for a stalled source passes the stall.** -/
theorem passes_of_started (hist : History h m) (next : Next m new m')
    (awaits : (m.world.sim i).Awaits work.source time id)
    (started : (i, .started work start) ∈ new) : Passes (logOf i h) work :=
  passes_of_begins (hist.course i)
    ((move_of_started hist next started).begins (mem_logOf.2 started))
    (isStalled_of_awaits hist awaits)

/-- Nothing starts in the step that takes a release. -/
theorem not_started_of_released (hist : History h m) (next : Next m new m')
    (awaits : (m.world.sim i).Awaits source time id)
    (released : Released source time id (m.world.sim i) (m'.world.sim i)) :
    (i, .started work start) ∉ new := by
  intro started
  have hbegins := (move_of_started hist next started).begins (mem_logOf.2 started)
  exact not_released_of_begins hbegins (isStalled_of_awaits hist awaits) released

end Steps

/-! ## While a stall lasts -/

/-- A stall that ends with the release `id` at `time`: what happens `during` it, and `later`, from
the step on that takes the release. -/
inductive Lasts (i : Fin n) (source : Source) (time : Instant) (id : EventId) (m : Machine n) :
    List (Fin n × Happening n) → List (Fin n × Happening n) → Machine n → Prop where
  /-- The release has not been taken. -/
  | on {during : List (Fin n × Happening n)} {m' : Machine n} (onward : Later m during m')
      (awaits : (m'.world.sim i).Awaits source time id) : Lasts i source time id m during [] m'
  /-- The release was taken, in a step in which no action of the simulation starts. -/
  | ended {during now after : List (Fin n × Happening n)} {m₁ m₂ m' : Machine n}
      (onward : Later m during m₁) (awaits : (m₁.world.sim i).Awaits source time id)
      (next : Next m₁ now m₂)
      (released : Released source time id (m₁.world.sim i) (m₂.world.sim i))
      (quiet : ∀ work start, (i, .started work start) ∉ now) (later : Later m₂ after m') :
      Lasts i source time id m during (now ++ after) m'

section Lasting

variable {h new later : List (Fin n × Happening n)} {m m₁ m' : Machine n} {i : Fin n}
  {source : Source} {time : Instant} {id : EventId}

/-- A stall that lasts beyond a step lasts from before it. -/
theorem Lasts.cons {during rest : List (Fin n × Happening n)} (next : Next m new m₁)
    (lasts : Lasts i source time id m₁ during rest m') :
    Lasts i source time id m (new ++ during) rest m' := by
  cases lasts with
  | on onward awaits => exact .on (.next next onward) awaits
  | ended onward awaits taking released quiet after =>
    exact .ended (.next next onward) awaits taking released quiet after

/-- **However the world goes on, what starts for a source while its stall lasts passes the
stall.** -/
theorem Later.lasts (onward : Later m later m') (hist : History h m)
    (awaits : (m.world.sim i).Awaits source time id) :
    ∃ during rest, later = during ++ rest ∧ Lasts i source time id m during rest m' ∧
      ∀ work start, (i, .started work start) ∈ during → work.source = source →
        Passes (logOf i (h ++ during)) work := by
  induction onward generalizing h with
  | refl m =>
    refine ⟨[], [], rfl, .on (.refl m) awaits, ?_⟩
    intro work start hstart
    cases hstart
  | @next m m₁ m' new later next onward ih =>
    rcases next.release hist awaits with hawaits | hreleased
    · obtain ⟨during, rest, rfl, hlasts, hpasses⟩ := ih (hist.next next) hawaits
      refine ⟨new ++ during, rest, (List.append_assoc ..).symm, hlasts.cons next, ?_⟩
      intro work start hstart hsource
      rcases List.mem_append.1 hstart with hnow | hlater
      · subst hsource
        rw [logOf_append]
        exact (passes_of_started hist next awaits hnow).mono
      · have hpass := hpasses work start hlater hsource
        rwa [List.append_assoc] at hpass
    · refine ⟨[], new ++ later, rfl, ?_, ?_⟩
      · apply Lasts.ended (.refl m) awaits next hreleased ?_ onward
        intro work start
        exact not_started_of_released hist next awaits hreleased
      · intro work start hstart
        cases hstart

/-- A ticket tells for good whether its work passes stalls. -/
theorem not_passes {log new : Log n} {st : Standing n} (course : Course (log ++ new) st)
    {ticket : Ticket n} (accepted : ticket ∈ (log ++ new).accepted)
    (routed : ticket.routed = true) : ¬ Passes log ticket.work := by
  intro passes
  obtain ⟨other, hmem, hwork, hdirect⟩ : Passes (log ++ new) ticket.work := passes.mono
  have hsame : other = ticket := course.ledger.eq_of_id hmem accepted (by rw [hwork])
  rw [hsame, routed] at hdirect
  cases hdirect

/-- **A stalled source rests, but for the work that passes the stall.**  From the step on in which a
stall of a source until `time` is granted, until its own release is taken with the clock at `time`,
no action starts that was handed in through the source, be it before the stall or while it lasts;
whatever starts for the source in between was handed in straight to the calendar. -/
theorem stalled_source_rests (hist : History h m) (next : Next m new m₁) {since : Instant}
    (granted : (i, .stalled ⟨source, since, time⟩) ∈ new) (onward : Later m₁ later m') :
    ∃ during rest, later = during ++ rest ∧
      Lasts i source time (m.world.sim i).freshId m₁ during rest m' ∧
      (∀ ticket ∈ (logOf i (h ++ new ++ later)).accepted, ticket.work.source = source →
        ticket.routed = true → ∀ start, (i, .started ticket.work start) ∉ during) ∧
      ∀ work start, (i, .started work start) ∈ during → work.source = source →
        Passes (logOf i (h ++ new ++ during)) work := by
  have hbegun := hist.next next
  obtain ⟨during, rest, rfl, hlasts, hpasses⟩ := onward.lasts hbegun (next.stall hist granted).2
  refine ⟨during, rest, rfl, hlasts, ?_, hpasses⟩
  intro ticket haccepted hsource hrouted start hstart
  have hcourse := (hbegun.later onward).course i
  rw [← List.append_assoc, logOf_append] at haccepted hcourse
  exact not_passes hcourse haccepted hrouted (hpasses _ _ hstart hsource)

end Lasting

/-! ## A timer at five, and a stall until ten -/

/-- A timer that was handed in through its source does not start while the stall lasts. -/
theorem stalled_source_rests_until_ten :
    (0, .stalled ⟨.index 0, ⟨0⟩, ⟨10⟩⟩) ∈ (stalledWorld .sourceAt .run 1).happenings ∧
    ∃ during rest, (stalledWorld .sourceAt .run 2).story 5 = during ++ rest ∧
      Lasts 0 (.index 0) ⟨10⟩ ⟨2⟩ (stalledWorld .sourceAt .run 2) during rest
        (stalledWorld .sourceAt .run 7) ∧
      ∀ start, (0, .started ⟨⟨1⟩, .index 0, "", ⟨"", .done⟩⟩ start) ∉ during := by
  have hgranted : (0, .stalled ⟨.index 0, ⟨0⟩, ⟨10⟩⟩) ∈
      (stalledWorld .sourceAt .run 1).happenings := by
    rw [show (stalledWorld .sourceAt .run 1).happenings =
      [(0, .stalled ⟨.index 0, ⟨0⟩, ⟨10⟩⟩)] from rfl]
    exact List.mem_singleton.2 rfl
  obtain ⟨during, rest, hcut, hlasts, hrests, -⟩ :=
    stalled_source_rests (.stalled .sourceAt .run 1) (.step _) hgranted
      (.steps (stalledWorld .sourceAt .run 2) 5)
  refine ⟨hgranted, during, rest, hcut, hlasts, ?_⟩
  intro start
  refine hrests ⟨⟨⟨1⟩, .index 0, "", ⟨"", .done⟩⟩, some ⟨5⟩, true⟩ ?_ rfl rfl start
  rw [show (logOf 0 (stalledLog .sourceAt .run 1 ++ (stalledWorld .sourceAt .run 1).happenings ++
      (stalledWorld .sourceAt .run 2).story 5)).accepted =
    [⟨⟨⟨0⟩, .index 0, "", ⟨"", .perform 0 (.stall (.index 0) (.at ⟨10⟩)) ⟨true, none⟩ .done⟩⟩,
      none, true⟩, ⟨⟨⟨1⟩, .index 0, "", ⟨"", .done⟩⟩, some ⟨5⟩, true⟩] from rfl]
  exact List.mem_cons_of_mem _ List.mem_cons_self

/-- A timer that was handed in straight to the calendar starts while its source awaits the end of
the stall, and the action that asked for the stall has ended. -/
theorem direct_timer_passes_stall :
    ¬ ∀ (h new before later : List (Fin 1 × Happening 1)) (m m₁ m₂ m' : Machine 1) (i : Fin 1)
      (source : Source) (since time : Instant), History h m → Next m new m₁ →
      (i, .stalled ⟨source, since, time⟩) ∈ new → Later m₁ before m₂ → m₂.frames = [] →
      Later m₂ later m' → (m'.world.sim i).Awaits source time (m.world.sim i).freshId →
      ∀ work start, work.source = source → (i, .started work start) ∉ later := by
  intro hall
  have hgranted : (0, .stalled ⟨.index 0, ⟨0⟩, ⟨10⟩⟩) ∈
      (stalledWorld .directAt .run 1).happenings := by
    rw [show (stalledWorld .directAt .run 1).happenings =
      [(0, .stalled ⟨.index 0, ⟨0⟩, ⟨10⟩⟩)] from rfl]
    exact List.mem_singleton.2 rfl
  have hawaits : ((stalledWorld .directAt .run 4).world.sim 0).Awaits (.index 0) ⟨10⟩ ⟨2⟩ :=
    ⟨rfl, rfl⟩
  refine hall _ _ _ _ (stalledWorld .directAt .run 1) _ (stalledWorld .directAt .run 3)
    (stalledWorld .directAt .run 4) 0 (.index 0) ⟨0⟩ ⟨10⟩ (.stalled .directAt .run 1) (.step _)
    hgranted (.steps (stalledWorld .directAt .run 2) 1) rfl
    (.steps (stalledWorld .directAt .run 3) 1) hawaits
    ⟨⟨1⟩, .index 0, "", ⟨"", .done⟩⟩ ⟨5⟩ rfl ?_
  rw [show (stalledWorld .directAt .run 3).story 1 =
    [(0, .started ⟨⟨1⟩, .index 0, "", ⟨"", .done⟩⟩ ⟨5⟩)] from rfl]
  exact List.mem_singleton.2 rfl

end StallSim
