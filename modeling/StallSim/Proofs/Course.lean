import StallSim.Proofs.History

/-!
# The course of one simulation

Seen on its own, a simulation of a world goes through moves: a submission is admitted, an event is
taken from the calendar, an action of a backlog starts, and so on.  Which actions of which
simulations make these calls does not matter to it, so everything that holds along every course
holds of every simulation in every history.

* `Standing` — a simulation with the replay that a run of it is in the middle of.
* `Simulation.lodge` — where an accepted submission waits, in one function of its ticket.
* `Move` — all that can happen to a simulation, one constructor for each kind.
* `Course` — the standings that a new simulation reaches, each with the log on the way.
* `Begins` — the two ways in which an action starts.

Principal results: `submitAt_admits` and its siblings, `stallUntil_eq_ok`, `move_dispatch`,
`move_nextReplayed` — every operation of a simulation is a move.
-/

set_option autoImplicit false

namespace StallSim

variable {n : Nat}

/-- A simulation, and the replay that a run of it is in the middle of. -/
structure Standing (n : Nat) where
  sim : Simulation (Action n)
  replay : Option (Replay n)

/-- What goes over into a new stall of a source: the rest of a backlog, if it is being replayed.
A stalled source cannot be stalled again. -/
def Phase.carried {α : Type} : Phase α → Option (Agenda EventId (Work α))
  | .running => some .empty
  | .stalled _ => none
  | .replaying backlog => some backlog

/-- The work of an event, if it is no release. -/
def Event.work? {α : Type} : Event α → Option (Work α)
  | .direct work => some work
  | .routed work => some work
  | .release _ _ => none

namespace Simulation

/-- Let the work of a ticket wait, where its route and its instant say. -/
def lodge (s : Simulation (Action n)) (ticket : Ticket n) : Simulation (Action n) :=
  match ticket.routed, ticket.due with
  | false, none => s.postNow (.direct ticket.work)
  | false, some t => s.postTimed (.dueAt t ticket.work.id) (.direct ticket.work)
  | true, none => s.routeNow ticket.work
  | true, some t => s.routeTimed t ticket.work

/-- A submission with this ticket is accepted, and then the simulation is `s'`. -/
structure Admits (s : Simulation (Action n)) (ticket : Ticket n) (s' : Simulation (Action n)) :
    Prop where
  fresh : ticket.work.id = s.freshId
  known : ticket.work.source ∈ s.sources
  inTime : ∀ t, ticket.due = some t → s.now ≤ t
  eq : s' = s.issue.lodge ticket

/-- The simulation after the event under `turn` was taken and `rest` is left. -/
def take {α : Type} (s : Simulation α) (turn : Option Turn) (rest : Calendar α) : Simulation α :=
  { s with
    calendar := rest
    now := match turn with
      | some k => s.now.advance k.time
      | none => s.now }

end Simulation

open Simulation

/-- What can happen to a simulation after `log`, and what it adds to the log. -/
inductive Move (log : Log n) : Standing n → Log n → Standing n → Prop where
  /-- Runs and actions begin and end, and the simulation is paused, unpaused or halted. -/
  | control (s : Simulation (Action n)) (r : Option (Replay n)) (paused halted running : Bool)
      (active : List Source) :
      Move log ⟨s, r⟩ []
        ⟨{ s with paused := paused, halted := halted, running := running, active := active }, r⟩
  | enableTrace (s : Simulation (Action n)) (r : Option (Replay n)) :
      Move log ⟨s, r⟩ [] ⟨s.enableTrace, r⟩
  | cancel (s : Simulation (Action n)) (r : Option (Replay n)) (ticket : Ticket n)
      (issued : ticket ∈ log.accepted) :
      Move log ⟨s, r⟩ [] ⟨s.cancel ticket.work.id, r⟩
  | accept (s s' : Simulation (Action n)) (r : Option (Replay n)) (ticket : Ticket n)
      (admits : s.Admits ticket s') : Move log ⟨s, r⟩ [.accepted ticket] ⟨s', r⟩
  | stall (s : Simulation (Action n)) (r : Option (Replay n)) (source : Source)
      (release : Instant) (backlog : Agenda EventId (Work (Action n)))
      (known : source ∈ s.sources) (inTime : s.now ≤ release) (active : s.active? = some source)
      (carried : (s.phase source).carried = some backlog) :
      Move log ⟨s, r⟩ [.stalled ⟨source, s.now, release⟩] ⟨s.beginStall source release backlog, r⟩
  /-- A cancelled event is dropped. -/
  | drop (s : Simulation (Action n)) (turn : Option Turn) (event : Event (Action n))
      (rest : Calendar (Action n)) (taken : s.calendar.next? = some ((turn, event), rest))
      (cancelled : s.isCancelled event.id = true) :
      Move log ⟨s, none⟩ [] ⟨{ s with calendar := rest }, none⟩
  /-- Routed work of a stalled source is parked. -/
  | intercept (s : Simulation (Action n)) (turn : Option Turn) (work : Work (Action n))
      (rest : Calendar (Action n)) (stall : Stall (Action n))
      (taken : s.calendar.next? = some ((turn, .routed work), rest))
      (live : s.isCancelled work.id = false) (stalled : s.phase work.source = .stalled stall) :
      Move log ⟨s, none⟩ []
        ⟨(s.take turn rest).setPhase work.source
          (.stalled (stall.park (turn.map Turn.origin) work)), none⟩
  /-- The action of a taken event starts. -/
  | start (s : Simulation (Action n)) (turn : Option Turn) (event : Event (Action n))
      (work : Work (Action n)) (rest : Calendar (Action n))
      (taken : s.calendar.next? = some ((turn, event), rest)) (isWork : event.work? = some work)
      (live : s.isCancelled work.id = false)
      (free : event = .routed work → (s.phase work.source).isStalled = false) :
      Move log ⟨s, none⟩ [.started work (s.take turn rest).now]
        ⟨(s.take turn rest).startAction work, none⟩
  /-- A stalled source is released, and its replay starts. -/
  | release (s : Simulation (Action n)) (turn : Option Turn) (id : EventId) (source : Source)
      (rest : Calendar (Action n)) (stall : Stall (Action n))
      (taken : s.calendar.next? = some ((turn, .release id source), rest))
      (live : s.isCancelled id = false) (stalled : s.phase source = .stalled stall) :
      Move log ⟨s, none⟩ []
        ⟨(s.take turn rest).setPhase source (.replaying stall.immediate),
          some ⟨source, stall.release, stall.timers⟩⟩
  /-- A release finds its source not stalled. -/
  | stale (s : Simulation (Action n)) (turn : Option Turn) (id : EventId) (source : Source)
      (rest : Calendar (Action n))
      (taken : s.calendar.next? = some ((turn, .release id source), rest))
      (live : s.isCancelled id = false) (free : (s.phase source).isStalled = false) :
      Move log ⟨s, none⟩ [] ⟨s.take turn rest, none⟩
  /-- Cancelled work of a backlog is dropped. -/
  | skip (s : Simulation (Action n)) (r : Replay n) (key : EventId) (work : Work (Action n))
      (backlog rest : Agenda EventId (Work (Action n)))
      (replaying : s.phase r.source = .replaying backlog)
      (taken : backlog.next? = some ((key, work), rest))
      (cancelled : s.isCancelled work.id = true) :
      Move log ⟨s, some r⟩ [] ⟨s.setPhase r.source (.replaying rest), some r⟩
  /-- The next action of a backlog starts. -/
  | drain (s : Simulation (Action n)) (r : Replay n) (key : EventId) (work : Work (Action n))
      (backlog rest : Agenda EventId (Work (Action n)))
      (replaying : s.phase r.source = .replaying backlog)
      (taken : backlog.next? = some ((key, work), rest))
      (live : s.isCancelled work.id = false) :
      Move log ⟨s, some r⟩ [.started work s.now]
        ⟨(s.setPhase r.source (.replaying rest)).startAction work, some r⟩
  /-- A replay ends, with its backlog exhausted or not. -/
  | close (s : Simulation (Action n)) (r : Replay n) :
      Move log ⟨s, some r⟩ [] ⟨s.closeReplay r.source r.release r.timers, none⟩
  /-- A panic leaves the run, and the replay it was in the middle of. -/
  | unwind (s : Simulation (Action n)) (r : Option (Replay n)) :
      Move log ⟨s, r⟩ [.unwound] ⟨s, none⟩

/-- The standings that a new simulation reaches, each with what happened on the way. -/
inductive Course : Log n → Standing n → Prop where
  | create (config : Config Source) : Course [] ⟨Simulation.create config, none⟩
  | move {log new : Log n} {st st' : Standing n} :
      Course log st → Move log st new st' → Course (log ++ new) st'

/-- A move that adds nothing to the log. -/
theorem Course.silent {log : Log n} {st st' : Standing n} (course : Course log st)
    (move : Move log st [] st') : Course log st' := by
  have h := Course.move course move
  rwa [List.append_nil] at h

/-- How an action starts: its event is taken from the calendar, or its work from a backlog. -/
inductive Begins : Standing n → Work (Action n) → Instant → Standing n → Prop where
  | start (s : Simulation (Action n)) (turn : Option Turn) (event : Event (Action n))
      (work : Work (Action n)) (rest : Calendar (Action n))
      (taken : s.calendar.next? = some ((turn, event), rest)) (isWork : event.work? = some work)
      (live : s.isCancelled work.id = false)
      (free : event = .routed work → (s.phase work.source).isStalled = false) :
      Begins ⟨s, none⟩ work (s.take turn rest).now ⟨(s.take turn rest).startAction work, none⟩
  | drain (s : Simulation (Action n)) (r : Replay n) (key : EventId) (work : Work (Action n))
      (backlog rest : Agenda EventId (Work (Action n)))
      (replaying : s.phase r.source = .replaying backlog)
      (taken : backlog.next? = some ((key, work), rest))
      (live : s.isCancelled work.id = false) :
      Begins ⟨s, some r⟩ work s.now
        ⟨(s.setPhase r.source (.replaying rest)).startAction work, some r⟩

/-- A move that an action starts in. -/
theorem Move.begins {log new : Log n} {st st' : Standing n} {work : Work (Action n)}
    {time : Instant} (move : Move log st new st') (start : .started work time ∈ new) :
    Begins st work time st' := by
  cases move with
  | start s turn event work' rest taken isWork live free =>
    cases List.mem_singleton.1 start
    exact .start s turn event work rest taken isWork live free
  | drain s r key work' backlog rest replaying taken live =>
    cases List.mem_singleton.1 start
    exact .drain s r key work backlog rest replaying taken live
  | accept s s' r ticket admits => cases List.mem_singleton.1 start
  | stall => cases List.mem_singleton.1 start
  | unwind => cases List.mem_singleton.1 start
  | _ => cases start

/-! ## Operations of a simulation are moves -/

section Operations

variable {s s' : Simulation (Action n)} {source : Source} {description : String}
  {action : Action n} {id : EventId}

theorem knows_iff : s.knows source = true ↔ source ∈ s.sources := by
  simp [Simulation.knows]

theorem submitDirectAt_admits {time : Instant}
    (h : s.submitDirectAt source time description action = .ok (id, s')) :
    s.Admits ⟨⟨id, source, description, action⟩, some time, false⟩ s' := by
  unfold submitDirectAt at h
  split at h
  · cases h
  · rename_i hnow
    split at h
    · rename_i hknown
      cases h
      rw [Instant.lt_def] at hnow
      exact ⟨rfl, knows_iff.1 hknown, fun _ ht => by cases ht; exact Nat.le_of_not_lt hnow, rfl⟩
    · cases h

theorem submitDirectNow_admits (h : s.submitDirectNow source description action = .ok (id, s')) :
    s.Admits ⟨⟨id, source, description, action⟩, none, false⟩ s' := by
  unfold submitDirectNow at h
  split at h
  · rename_i hknown
    cases h
    exact ⟨rfl, knows_iff.1 hknown, fun _ ht => (by cases ht), rfl⟩
  · cases h

theorem submitAt_admits {time : Instant}
    (h : s.submitAt source time description action = .ok (id, s')) :
    s.Admits ⟨⟨id, source, description, action⟩, some time, true⟩ s' := by
  unfold submitAt at h
  split at h
  · rename_i hknown
    split at h
    · cases h
    · rename_i hnow
      cases h
      rw [Instant.lt_def] at hnow
      exact ⟨rfl, knows_iff.1 hknown, fun _ ht => by cases ht; exact Nat.le_of_not_lt hnow, rfl⟩
  · cases h

theorem submitNow_admits (h : s.submitNow source description action = .ok (id, s')) :
    s.Admits ⟨⟨id, source, description, action⟩, none, true⟩ s' := by
  unfold submitNow at h
  split at h
  · rename_i hknown
    cases h
    exact ⟨rfl, knows_iff.1 hknown, fun _ ht => (by cases ht), rfl⟩
  · cases h

theorem stallUntil_eq_ok {release : Instant} (h : s.stallUntil source release = .ok s') :
    ∃ backlog, source ∈ s.sources ∧ s.now ≤ release ∧ s.active? = some source ∧
      (s.phase source).carried = some backlog ∧ s' = s.beginStall source release backlog := by
  unfold stallUntil at h
  split at h
  · rename_i hknown
    split at h
    · cases h
    · rename_i hnow
      rw [Instant.lt_def] at hnow
      split at h
      · rename_i hactive
        split at h
        · cases h
        · rename_i backlog hphase
          cases h
          exact ⟨backlog, knows_iff.1 hknown, Nat.le_of_not_lt hnow, hactive,
            by rw [hphase]; rfl, rfl⟩
        · rename_i hphase
          cases h
          exact ⟨.empty, knows_iff.1 hknown, Nat.le_of_not_lt hnow, hactive,
            by rw [hphase]; rfl, rfl⟩
      · cases h
  · cases h

end Operations

/-- What is added to the log, and where the simulation stands, after an event was taken. -/
def Simulation.Dispatch.after : Dispatch (Action n) → Option (Log n × Standing n)
  | .exhausted => none
  | .settled s => some ([], ⟨s, none⟩)
  | .start work s => some ([.started work s.now], ⟨s.startAction work, none⟩)
  | .replay source stall s => some ([], ⟨s, some ⟨source, stall.release, stall.timers⟩⟩)

/-- What follows from taking an event, with the simulation after it in one piece. -/
theorem dispatch_eq {s : Simulation (Action n)} {turn : Option Turn} {event : Event (Action n)}
    {rest : Calendar (Action n)} : s.calendar.next? = some ((turn, event), rest) →
    s.dispatch =
      if s.isCancelled event.id then .settled { s with calendar := rest }
      else
        match event with
        | .direct work => .start work (s.take turn rest)
        | .routed work =>
          match s.phase work.source with
          | .stalled stall =>
            .settled ((s.take turn rest).setPhase work.source
              (.stalled (stall.park (turn.map Turn.origin) work)))
          | _ => .start work (s.take turn rest)
        | .release _ source =>
          match s.phase source with
          | .stalled stall =>
            .replay source stall ((s.take turn rest).setPhase source (.replaying stall.immediate))
          | _ => .settled (s.take turn rest) := by
  intro h
  unfold dispatch
  rw [h]
  cases event with
  | direct work => cases turn <;> rfl
  | routed work =>
    dsimp only
    cases turn <;> cases s.phase work.source <;> rfl
  | release id source =>
    dsimp only
    cases turn <;> cases s.phase source <;> rfl

theorem isStalled_eq_false {α : Type} {phase : Phase α} (h : ∀ stall, phase ≠ .stalled stall) :
    phase.isStalled = false := by
  cases phase with
  | stalled stall => exact absurd rfl (h stall)
  | running => rfl
  | replaying backlog => rfl

/-- Taking an event is a move, whatever follows from it. -/
theorem move_dispatch (log : Log n) {s : Simulation (Action n)} {new : Log n} {st : Standing n}
    (h : s.dispatch.after = some (new, st)) : Move log ⟨s, none⟩ new st := by
  cases hnext : s.calendar.next? with
  | none =>
    unfold dispatch at h
    rw [hnext] at h
    cases h
  | some taken =>
    obtain ⟨⟨turn, event⟩, rest⟩ := taken
    rw [dispatch_eq hnext] at h
    split at h
    · rename_i hcancelled
      cases h
      exact .drop s turn event rest hnext hcancelled
    · rename_i hcancelled
      have hlive : s.isCancelled event.id = false := by simpa using hcancelled
      cases event with
      | direct work =>
        cases h
        exact .start s turn _ work rest hnext rfl hlive (fun h => by cases h)
      | routed work =>
        simp only at h
        split at h
        · rename_i stall hphase
          cases h
          exact .intercept s turn work rest stall hnext hlive hphase
        · rename_i hphase
          cases h
          exact .start s turn _ work rest hnext rfl hlive (fun _ => isStalled_eq_false hphase)
      | release id source =>
        simp only at h
        split at h
        · rename_i stall hphase
          cases h
          exact .release s turn id source rest stall hnext hlive hphase
        · rename_i hphase
          cases h
          exact .stale s turn id source rest hnext hlive (isStalled_eq_false hphase)

/-- Taking work from the backlog of a replay is a move, whether the work is cancelled or not. -/
theorem move_nextReplayed (log : Log n) {s s' : Simulation (Action n)} {r : Replay n}
    {work : Work (Action n)} (h : s.nextReplayed r.source = some (work, s')) :
    if s.isCancelled work.id then Move log ⟨s, some r⟩ [] ⟨s', some r⟩
    else Move log ⟨s, some r⟩ [.started work s'.now] ⟨s'.startAction work, some r⟩ := by
  unfold nextReplayed at h
  split at h
  · rename_i backlog hphase
    simp only [Option.map_eq_some_iff, Prod.mk.injEq] at h
    obtain ⟨⟨⟨key, v⟩, rest⟩, hnext, rfl, rfl⟩ := h
    split
    · rename_i hcancelled
      exact .skip s r key v backlog rest hphase hnext hcancelled
    · rename_i hlive
      exact .drain s r key v backlog rest hphase hnext (by simpa using hlive)
  · cases h

/-- The flags of a simulation: paused, halted, running. -/
def Simulation.flags {α : Type} (s : Simulation α) : Bool × Bool × Bool :=
  (s.paused, s.halted, s.running)

/-- Taking an event leaves the flags alone. -/
theorem flags_dispatch {s : Simulation (Action n)} {new : Log n} {st : Standing n}
    (h : s.dispatch.after = some (new, st)) : st.sim.flags = s.flags := by
  cases hnext : s.calendar.next? with
  | none =>
    unfold dispatch at h
    rw [hnext] at h
    cases h
  | some taken =>
    obtain ⟨⟨turn, event⟩, rest⟩ := taken
    rw [dispatch_eq hnext] at h
    split at h
    · cases h
      rfl
    · cases event with
      | direct work =>
        cases h
        rfl
      | routed work =>
        dsimp only at h
        split at h <;> cases h <;> rfl
      | release id source =>
        dsimp only at h
        split at h <;> cases h <;> rfl

theorem flags_nextReplayed {s s' : Simulation (Action n)} {source : Source}
    {work : Work (Action n)} (h : s.nextReplayed source = some (work, s')) :
    s'.flags = s.flags := by
  unfold nextReplayed at h
  split at h
  · simp only [Option.map_eq_some_iff, Prod.mk.injEq] at h
    obtain ⟨_, _, _, rfl⟩ := h
    rfl
  · cases h

theorem flags_lodge (s : Simulation (Action n)) (ticket : Ticket n) :
    (s.issue.lodge ticket).flags = s.flags := by
  unfold Simulation.lodge
  split
  · rfl
  · rfl
  · unfold Simulation.routeNow
    split <;> rfl
  · unfold Simulation.routeTimed
    split
    · split <;> rfl
    · rfl

/-! ## Closing a replay -/

/-- The timed events after timers of a stall were posted again for the instant `release`. -/
def repostedTimers (release : Instant) (timed : Agenda Turn (Event (Action n)))
    (timers : List (Origin × Work (Action n))) : Agenda Turn (Event (Action n)) :=
  timers.foldl (fun a e => a.insert (.replayedAt release e.1) (.routed e.2)) timed

/-- Posting immediate work again appends what is not cancelled. -/
theorem foldl_repostNow (works : List (Work (Action n))) (s : Simulation (Action n)) :
    works.foldl repostNow s =
      { s with calendar := { s.calendar with
          immediate := s.calendar.immediate ++
            (works.filter (fun work => !s.isCancelled work.id)).map .routed } } := by
  induction works generalizing s with
  | nil => simp
  | cons work works ih =>
    rw [List.foldl_cons, ih, List.filter_cons, repostNow]
    split
    · rename_i hcancelled
      simp [hcancelled]
    · rename_i hlive
      simp [hlive, postNow, Calendar.pushImmediate]
      rfl

/-- Posting timers again inserts what is not cancelled. -/
theorem foldl_repostTimer (release : Instant) (timers : List (Origin × Work (Action n)))
    (s : Simulation (Action n)) :
    timers.foldl (repostTimer release) s =
      { s with calendar := { s.calendar with
          timed := repostedTimers release s.calendar.timed
            (timers.filter (fun e => !s.isCancelled e.2.id)) } } := by
  induction timers generalizing s with
  | nil => rfl
  | cons e timers ih =>
    rw [List.foldl_cons, ih, List.filter_cons, repostTimer]
    split
    · rename_i hcancelled
      simp [hcancelled]
    · rename_i hlive
      simp [hlive, postTimed, Calendar.pushTimed, repostedTimers]
      rfl

/-- The immediate work that goes back to the calendar when a replay ends. -/
def leftover (s : Simulation (Action n)) (source : Source) : List (Work (Action n)) :=
  match s.phase source with
  | .replaying backlog => backlog.values.filter (fun work => !s.isCancelled work.id)
  | _ => []

/-- The phases after a replay ended: its source runs, unless it was stalled again. -/
def closedPhases (s : Simulation (Action n)) (source : Source) :
    Table Source (Phase (Action n)) :=
  match s.phase source with
  | .replaying _ => s.phases.set source .running
  | _ => s.phases

/-- The end of a replay touches the calendar and the phase of its source, and nothing else. -/
theorem closeReplay_eq (s : Simulation (Action n)) (source : Source) (release : Instant)
    (timers : Agenda Origin (Work (Action n))) :
    s.closeReplay source release timers =
      { s with
        phases := closedPhases s source
        calendar :=
          ⟨s.calendar.immediate ++ (leftover s source).map .routed,
            repostedTimers release s.calendar.timed
              (timers.toList.filter (fun e => !s.isCancelled e.2.id))⟩ } := by
  unfold closeReplay closedPhases leftover
  rw [foldl_repostTimer]
  cases s.phase source with
  | replaying backlog => simp [foldl_repostNow, setPhase, isCancelled]
  | running => simp [isCancelled]
  | stalled stall => simp [isCancelled]

end StallSim
