import StallSim.Proofs.Queues

/-!
# Stalls in the log

The log remembers every stall that was granted.  What a simulation holds back, and what it replays,
it does on account of one of them.

* `Covered` — a stall of the source lasts over an instant.
* `Chronicle` — stalls in the log are over or still on; timers that are parked or replayed were due
  while a stall lasted, or at its very end.

Principal result: `Course.chronicle`.
-/

set_option autoImplicit false

namespace StallSim

variable {n : Nat}

/-- A stall of the source began by the instant `t` and ends after it. -/
def Covered (pauses : List Pause) (source : Source) (t : Instant) : Prop :=
  ∃ p ∈ pauses, p.source = source ∧ p.since ≤ t ∧ t < p.release

/-- A stall of the source ends at the instant `t`. -/
def EndsAt (pauses : List Pause) (source : Source) (t : Instant) : Prop :=
  ∃ p ∈ pauses, p.source = source ∧ p.release = t

/-- What the stalls in the log have to do with where a simulation stands. -/
structure Chronicle (pauses : List Pause) (st : Standing n) : Prop where
  stalled : ∀ source stall, st.sim.phase source = .stalled stall →
    ∃ p ∈ pauses, p.source = source ∧ p.release = stall.release ∧ p.since ≤ st.sim.now
  ended : ∀ p ∈ pauses, p.release ≤ st.sim.now ∨
    ∃ stall, st.sim.phase p.source = .stalled stall ∧ stall.release = p.release
  parked : ∀ source stall, st.sim.phase source = .stalled stall → ∀ e ∈ stall.timers.toList,
    Covered pauses source e.1.due ∨ e.1.due = stall.release
  replay : ∀ r, st.replay = some r → EndsAt pauses r.source r.release ∧
    ∀ e ∈ r.timers.toList, e.2.source = r.source ∧
      (Covered pauses r.source e.1.due ∨ e.1.due = r.release)
  replayed : ∀ k event, (k, event) ∈ st.sim.calendar.timed.toList → k.band = .replayed →
    EndsAt pauses event.source k.time ∧ (Covered pauses event.source k.origin ∨ k.origin = k.time)

section Chronicle

variable {log new : Log n} {st st' : Standing n} {s s' : Simulation (Action n)} {source : Source}
  {r r' : Option (Replay n)} {pauses : List Pause}

/-- The clock goes on, the same sources are stalled, and nothing more is replayed. -/
theorem Chronicle.of_same (chronicle : Chronicle pauses ⟨s, r⟩) (now : s.now ≤ s'.now)
    (same : ∀ source stall, s'.phase source = .stalled stall ↔ s.phase source = .stalled stall)
    (timed : ∀ e ∈ s'.calendar.timed.toList, e ∈ s.calendar.timed.toList ∨ e.1.band = .ordinary)
    (replay : r' = r ∨ r' = none) : Chronicle pauses ⟨s', r'⟩ := by
  refine ⟨?_, ?_, ?_, ?_, ?_⟩
  · intro source stall hstalled
    obtain ⟨p, hp, hsource, hrelease, hsince⟩ :=
      chronicle.stalled source stall ((same source stall).1 hstalled)
    exact ⟨p, hp, hsource, hrelease, Std.le_trans hsince now⟩
  · intro p hp
    rcases chronicle.ended p hp with hover | ⟨stall, hstalled, hrelease⟩
    · exact .inl (Std.le_trans hover now)
    · exact .inr ⟨stall, (same p.source stall).2 hstalled, hrelease⟩
  · intro source stall hstalled
    exact chronicle.parked source stall ((same source stall).1 hstalled)
  · intro x hx
    rcases replay with rfl | rfl
    · exact chronicle.replay x hx
    · cases hx
  · intro k event hmem hband
    rcases timed _ hmem with hold | hordinary
    · exact chronicle.replayed k event hold hband
    · rw [hordinary] at hband
      cases hband

/-- Timers that are parked are due while the stall lasts, or when it ends. -/
theorem Chronicle.park (chronicle : Chronicle pauses ⟨s, r⟩) {stall : Stall (Action n)}
    (stalled : s.phase source = .stalled stall) (due : Option Instant) (work : Work (Action n))
    (held : ∀ t, due = some t → Covered pauses source t ∨ t = stall.release) :
    Chronicle pauses ⟨s.setPhase source (.stalled (stall.park due work)), r⟩ := by
  have hphase := Simulation.phase_setPhase s source
  have hrelease := stall.release_park due work
  refine ⟨?_, ?_, ?_, chronicle.replay, chronicle.replayed⟩
  · intro other x hx
    rw [hphase] at hx
    split at hx
    · rename_i heq
      cases hx
      rw [hrelease]
      exact heq ▸ chronicle.stalled source stall stalled
    · exact chronicle.stalled other x hx
  · intro p hp
    rcases chronicle.ended p hp with hover | ⟨x, hx, hend⟩
    · exact .inl hover
    · apply Or.inr
      rw [hphase]
      split
      · rename_i heq
        rw [← heq, show s.phase source = .stalled stall from stalled] at hx
        cases hx
        exact ⟨_, rfl, hrelease.trans hend⟩
      · exact ⟨x, hx, hend⟩
  · intro other x hx e he
    rw [hphase] at hx
    split at hx
    · rename_i heq
      cases hx
      rw [hrelease, ← heq]
      rcases Stall.mem_park_timers he with hold | ⟨t, hdue, rfl⟩
      · exact chronicle.parked source stall stalled e hold
      · exact held t hdue
    · exact chronicle.parked other x hx e he

/-- An instant between now and the end of a stall under way. -/
theorem Chronicle.covered_or_eq (chronicle : Chronicle pauses ⟨s, r⟩) {stall : Stall (Action n)}
    (stalled : s.phase source = .stalled stall) {t : Instant} (ahead : s.now ≤ t)
    (early : t ≤ stall.release) : Covered pauses source t ∨ t = stall.release := by
  obtain ⟨p, hp, hsource, hrelease, hsince⟩ := chronicle.stalled source stall stalled
  by_cases hlt : t < stall.release
  · exact .inl ⟨p, hp, hsource, Std.le_trans hsince ahead, hrelease ▸ hlt⟩
  · refine .inr (Instant.toNat_inj.1 ?_)
    rw [Instant.lt_def] at hlt
    rw [Instant.le_def] at early
    omega

/-- The next backlog of a source that is being replayed stalls nobody. -/
theorem stalled_replaying {backlog : Agenda EventId (Work (Action n))}
    (replaying : s.phase source = .replaying backlog)
    (backlog' : Agenda EventId (Work (Action n))) (other : Source) (x : Stall (Action n)) :
    (s.setPhase source (.replaying backlog')).phase other = .stalled x ↔
      s.phase other = .stalled x := by
  rw [Simulation.phase_setPhase]
  split
  · rename_i heq
    rw [← heq, replaying]
    constructor <;> intro h <;> cases h
  · exact Iff.rfl

/-- Where an accepted submission waits, it agrees with the stalls. -/
theorem Chronicle.lodge (chronicle : Chronicle pauses ⟨s, r⟩) {ticket : Ticket n}
    (inTime : ∀ t, ticket.due = some t → s.now ≤ t) (placed : Placed s ticket s') :
    Chronicle pauses ⟨s', r⟩ := by
  have hissued : Chronicle pauses ⟨s.issue, r⟩ :=
    chronicle.of_same (Std.le_refl _) (fun _ _ => Iff.rfl) (fun _ he => .inl he) (.inl rfl)
  cases placed with
  | immediate event entry =>
    exact chronicle.of_same (Std.le_refl _) (fun _ _ => Iff.rfl) (fun _ he => .inl he) (.inl rfl)
  | timed t event entry =>
    refine chronicle.of_same (Std.le_refl _) (fun _ _ => Iff.rfl) (fun e he => ?_) (.inl rfl)
    rcases Agenda.mem_insert.1 he with rfl | he
    · exact .inr rfl
    · exact .inl he
  | parked stall stalled routed early =>
    refine hissued.park stalled _ _ (fun t hdue => ?_)
    exact hissued.covered_or_eq stalled (inTime t hdue) (Nat.le_of_lt (early t hdue))
  | joined backlog replaying =>
    exact hissued.of_same (Std.le_refl _) (stalled_replaying (s := s.issue) replaying _)
      (fun _ he => .inl he) (.inl rfl)

/-- A stall that begins is remembered. -/
theorem Chronicle.beginStall (chronicle : Chronicle pauses ⟨s, r⟩) {release : Instant}
    {backlog : Agenda EventId (Work (Action n))}
    (carried : (s.phase source).carried = some backlog) :
    Chronicle (pauses ++ [⟨source, s.now, release⟩]) ⟨s.beginStall source release backlog, r⟩ := by
  have hphase : ∀ other, (s.beginStall source release backlog).phase other =
      if source = other then .stalled (.starting release backlog) else s.phase other :=
    fun other => Simulation.phase_setPhase s source other _
  have hmono : ∀ {t source'}, Covered pauses source' t →
      Covered (pauses ++ [⟨source, s.now, release⟩]) source' t :=
    fun ⟨p, hp, hrest⟩ => ⟨p, List.mem_append_left _ hp, hrest⟩
  have hends : ∀ {t source'}, EndsAt pauses source' t →
      EndsAt (pauses ++ [⟨source, s.now, release⟩]) source' t :=
    fun ⟨p, hp, hrest⟩ => ⟨p, List.mem_append_left _ hp, hrest⟩
  refine ⟨?_, ?_, ?_, ?_, ?_⟩
  · intro other x hx
    rw [hphase] at hx
    split at hx
    · rename_i heq
      cases hx
      exact ⟨_, List.mem_append_right _ (List.mem_singleton.2 rfl), heq, rfl, Std.le_refl s.now⟩
    · obtain ⟨p, hp, hrest⟩ := chronicle.stalled other x hx
      exact ⟨p, List.mem_append_left _ hp, hrest⟩
  · intro p hp
    dsimp only
    rw [hphase]
    rcases List.mem_append.1 hp with hp | hp
    · rcases chronicle.ended p hp with hover | ⟨x, hx, hend⟩
      · exact .inl hover
      · refine .inr ⟨x, ?_, hend⟩
        rw [if_neg]
        · exact hx
        · intro heq
          rw [heq, show s.phase p.source = .stalled x from hx] at carried
          cases carried
    · rw [List.mem_singleton.1 hp]
      exact .inr ⟨_, if_pos rfl, rfl⟩
  · intro other x hx e he
    rw [hphase] at hx
    split at hx
    · cases hx
      cases he
    · exact (chronicle.parked other x hx e he).imp hmono id
  · intro x hx
    obtain ⟨hend, htimers⟩ := chronicle.replay x hx
    refine ⟨hends hend, fun e he => ⟨(htimers e he).1, (htimers e he).2.imp hmono id⟩⟩
  · intro k event hmem hband
    rcases Agenda.mem_insert.1 hmem with heq | hmem
    · cases heq
      cases hband
    · obtain ⟨hend, hcovered⟩ := chronicle.replayed k event hmem hband
      exact ⟨hends hend, hcovered.imp hmono id⟩

theorem Chronicle.take (chronicle : Chronicle pauses ⟨s, none⟩) {turn : Option Turn}
    {event : Event (Action n)} {rest : Calendar (Action n)}
    (taken : s.calendar.next? = some ((turn, event), rest)) :
    Chronicle pauses ⟨s.take turn rest, none⟩ := by
  refine chronicle.of_same ?_ (fun _ _ => Iff.rfl)
    (fun e he => .inl (Calendar.timed_of_next? taken he)) (.inl rfl)
  cases turn with
  | none => exact Std.le_refl s.now
  | some k => exact Instant.le_advance s.now k.time

/-- The work of a stalled source whose turn comes is due while the stall lasts, or when it ends. -/
theorem Chronicle.intercept (chronicle : Chronicle pauses ⟨s, none⟩) (timely : Timely ⟨s, none⟩)
    (stalls : Stalls s) {turn : Option Turn} {work : Work (Action n)} {rest : Calendar (Action n)}
    {stall : Stall (Action n)} (taken : s.calendar.next? = some ((turn, .routed work), rest))
    (stalled : s.phase work.source = .stalled stall) :
    Chronicle pauses ⟨(s.take turn rest).setPhase work.source
      (.stalled (stall.park (turn.map Turn.origin) work)), none⟩ := by
  refine (chronicle.take taken).park stalled _ _ (fun t hdue => ?_)
  cases turn with
  | none => cases hdue
  | some k =>
    cases hdue
    obtain ⟨-, hk, hleast⟩ := Calendar.least_of_next? taken
    have hearly : k.time ≤ stall.release := by
      obtain ⟨l, hl⟩ := stalls.pending work.source stall stalled
      obtain ⟨x, hx, hrelease, -⟩ := stalls.release _ hl
      rw [stalled] at hx
      cases hx
      rw [hrelease]
      obtain ⟨id, hmem⟩ := Calendar.mem_releases.1 hl
      exact Turn.time_le_of_le (hleast _ hmem)
    have hproper : Proper s.now k (.routed work) := timely.proper _ hk
    have hown : k.origin = k.time → Covered pauses work.source k.origin ∨
        k.origin = stall.release := by
      intro heq
      exact chronicle.covered_or_eq stalled (heq ▸ hproper.now_le) (heq ▸ hearly)
    cases hband : k.band with
    | ordinary =>
      apply hown
      cases hproper with
      | due t event ahead => rfl
      | replayed origin work own past => cases hband
    | replayed =>
      rcases (chronicle.replayed k _ hk hband).2 with hcovered | heq
      · exact .inl hcovered
      · exact hown heq

/-- A release that is taken ends the stall, and its timers are replayed on account of it. -/
theorem Chronicle.release (chronicle : Chronicle pauses ⟨s, none⟩) (timely : Timely ⟨s, none⟩)
    (stalls : Stalls s) {turn : Option Turn} {id : EventId} {rest : Calendar (Action n)}
    {stall : Stall (Action n)}
    (taken : s.calendar.next? = some ((turn, .release id source), rest))
    (stalled : s.phase source = .stalled stall) :
    Chronicle pauses ⟨(s.take turn rest).setPhase source (.replaying stall.immediate),
      some ⟨source, stall.release, stall.timers⟩⟩ := by
  have htake := chronicle.take taken
  have hphase := Simulation.phase_setPhase (s.take turn rest) source
  have hnow : stall.release ≤ (s.take turn rest).now := by
    obtain ⟨hrelease, -⟩ := (timely.release stalls taken stalled).replay _ rfl
    exact hrelease ▸ Std.le_refl _
  have hfree : ∀ other x, ((s.take turn rest).setPhase source
      (.replaying stall.immediate)).phase other = .stalled x → source ≠ other ∧
        s.phase other = .stalled x := by
    intro other x hx
    rw [hphase] at hx
    split at hx
    · cases hx
    · rename_i hne
      exact ⟨hne, hx⟩
  refine ⟨fun other x hx => htake.stalled other x (hfree other x hx).2, ?_,
    fun other x hx => htake.parked other x (hfree other x hx).2, ?_, htake.replayed⟩
  · intro p hp
    rcases htake.ended p hp with hover | ⟨x, hx, hend⟩
    · exact .inl hover
    · by_cases heq : source = p.source
      · apply Or.inl
        rw [← heq, show (s.take turn rest).phase source = .stalled stall from stalled] at hx
        cases hx
        exact hend ▸ hnow
      · exact .inr ⟨x, by rw [hphase, if_neg heq]; exact hx, hend⟩
  · intro x hx
    cases hx
    obtain ⟨p, hp, hsource, hrelease, -⟩ := chronicle.stalled source stall stalled
    refine ⟨⟨p, hp, hsource, hrelease⟩, ?_⟩
    intro e he
    refine ⟨?_, chronicle.parked source stall stalled e he⟩
    have hown := stalls.own source
    rw [stalled] at hown
    exact (hown.timers e he).2

/-- A replay that ends leaves its timers to the calendar. -/
theorem Chronicle.close {r : Replay n} (chronicle : Chronicle pauses ⟨s, some r⟩) :
    Chronicle pauses ⟨s.closeReplay r.source r.release r.timers, none⟩ := by
  obtain ⟨hend, htimers⟩ := chronicle.replay r rfl
  have hnow : (s.closeReplay r.source r.release r.timers).now = s.now := by rw [closeReplay_eq]
  have hsame : ∀ other x, (s.closeReplay r.source r.release r.timers).phase other = .stalled x ↔
      s.phase other = .stalled x := by
    intro other x
    rw [phase_closeReplay]
    split
    · rename_i heq
      subst heq
      cases s.phase r.source <;> simp [Phase.closed]
    · exact Iff.rfl
  refine ⟨?_, ?_, ?_, fun x hx => (by cases hx), ?_⟩
  · intro other x hx
    rw [hnow]
    exact chronicle.stalled other x ((hsame other x).1 hx)
  · intro p hp
    rw [hnow]
    rcases chronicle.ended p hp with hover | ⟨x, hx, hrelease⟩
    · exact .inl hover
    · exact .inr ⟨x, (hsame _ x).2 hx, hrelease⟩
  · intro other x hx
    exact chronicle.parked other x ((hsame other x).1 hx)
  · intro k event hmem hband
    rw [closeReplay_eq] at hmem
    rcases mem_repostedTimers.1 hmem with ⟨timer, htimer, heq⟩ | hmem
    · cases heq
      obtain ⟨hsource, hcovered⟩ := htimers timer (List.mem_of_mem_filter htimer)
      rw [← hsource] at hend hcovered
      exact ⟨hend, hcovered⟩
    · exact chronicle.replayed k event hmem hband

theorem Chronicle.move (chronicle : Chronicle log.pauses st) (timely : Timely st)
    (stalls : Stalls st.sim) (move : Move log st new st') :
    Chronicle (log ++ new).pauses st' := by
  have hquiet : new.pauses = [] → Chronicle log.pauses st' →
      Chronicle (log ++ new).pauses st' := by
    intro hnew hsame
    rwa [Log.pauses_append, hnew, List.append_nil]
  cases move with
  | stall s r source release backlog known inTime active carried =>
    rw [Log.pauses_append]
    exact chronicle.beginStall carried
  | accept s s' r ticket admits =>
    exact hquiet rfl (chronicle.lodge admits.inTime (admits.eq ▸ placed_lodge s ticket))
  | drop s turn event rest taken cancelled =>
    exact hquiet rfl (chronicle.of_same (Std.le_refl _) (fun _ _ => Iff.rfl)
      (fun _ he => .inl (Calendar.timed_of_next? taken he)) (.inl rfl))
  | intercept s turn work rest stall taken live stalled =>
    exact hquiet rfl (chronicle.intercept timely stalls taken stalled)
  | start s turn event work rest taken isWork live free =>
    exact hquiet rfl ((chronicle.take taken).of_same (Std.le_refl _) (fun _ _ => Iff.rfl)
      (fun _ he => .inl he) (.inl rfl))
  | release s turn id source rest stall taken live stalled =>
    exact hquiet rfl (chronicle.release timely stalls taken stalled)
  | stale s turn id source rest taken live free => exact hquiet rfl (chronicle.take taken)
  | skip s r key work backlog rest replaying taken cancelled =>
    exact hquiet rfl (chronicle.of_same (Std.le_refl _) (stalled_replaying replaying rest)
      (fun _ he => .inl he) (.inl rfl))
  | drain s r key work backlog rest replaying taken live =>
    exact hquiet rfl (chronicle.of_same (Std.le_refl _)
      (stalled_replaying replaying rest) (fun _ he => .inl he) (.inl rfl))
  | close s r => exact hquiet rfl chronicle.close
  | unwind s r =>
    exact hquiet rfl (chronicle.of_same (Std.le_refl _) (fun _ _ => Iff.rfl)
      (fun _ he => .inl he) (.inr rfl))
  | _ =>
    exact hquiet rfl (chronicle.of_same (Std.le_refl _) (fun _ _ => Iff.rfl)
      (fun _ he => .inl he) (.inl rfl))

/-- **What is parked or replayed is so on account of a stall in the log.** -/
theorem Course.chronicle (course : Course log st) : Chronicle log.pauses st := by
  induction course with
  | create config =>
    exact ⟨fun _ _ hstalled => (by cases hstalled), fun _ hp => (by cases hp),
      fun _ _ hstalled => (by cases hstalled), fun _ hr => (by cases hr),
      fun _ _ hmem => (by cases hmem)⟩
  | move course move ih => exact ih.move course.schedule.1 course.schedule.2 move

end Chronicle

end StallSim
