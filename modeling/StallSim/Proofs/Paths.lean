import StallSim.Proofs.Tickets

/-!
# Moves in a row

What one step of the world is to a simulation can be several moves in a row: a submission is
admitted and then the action ends, a panic leaves one run after the other.  Such rows are quiet: as
long as a step is more than one move, no event leaves the calendar, the clock stands still and no
action starts.

* `Along` — steps of one kind in a row, with what happened on the way.
* `Lull` — a move that takes nothing, one lemma for each kind of move that is always one.
* `Kept` — what is known of the simulations of a world and outlasts lulls.

Principal results: `Along.kept` — what a row of lulls leaves alone; `Course.along` — a course goes on
along any row of moves.
-/

set_option autoImplicit false

namespace StallSim

variable {n : Nat} {log new new' : Log n} {st st' st'' : Standing n}

/-- Steps of one kind in a row, each from the log and the standing that the last one led to. -/
inductive Along (step : Log n → Standing n → Log n → Standing n → Prop) (log : Log n)
    (st : Standing n) : Log n → Standing n → Prop where
  | refl : Along step log st [] st
  | next {new new' : Log n} {st' st'' : Standing n} :
      Along step log st new st' → step (log ++ new) st' new' st'' →
        Along step log st (new ++ new') st''

section Along

variable {step step' : Log n → Standing n → Log n → Standing n → Prop}

theorem Along.single (last : step log st new st') : Along step log st new st' := by
  rw [← List.append_nil log] at last
  exact .next .refl last

theorem Along.append (first : Along step log st new st')
    (later : Along step (log ++ new) st' new' st'') : Along step log st (new ++ new') st'' := by
  induction later with
  | refl =>
    rw [List.append_nil]
    exact first
  | next _ last ih =>
    rw [List.append_assoc] at last
    rw [← List.append_assoc]
    exact .next ih (List.append_assoc log new _ ▸ last)

theorem Along.mono (along : Along step log st new st')
    (imp : ∀ {log st new st'}, step log st new st' → step' log st new st') :
    Along step' log st new st' := by
  induction along with
  | refl => exact .refl
  | next _ last ih => exact .next ih (imp last)

end Along

/-- A course goes on along any row of moves. -/
theorem Course.along (course : Course log st) (along : Along (Move (n := n)) log st new st') :
    Course (log ++ new) st' := by
  induction along with
  | refl =>
    rw [List.append_nil]
    exact course
  | next _ move ih =>
    rw [← List.append_assoc]
    exact .move ih move

/-! ## Lulls -/

/-- An event that is taken does not stay. -/
theorem not_sublist_of_next? {c rest : Calendar (Action n)} {e : Option Turn × Event (Action n)}
    (taken : c.next? = some (e, rest)) : ¬ c.entries.Sublist rest.entries := by
  intro hstays
  have hlength := hstays.length_le
  rw [Calendar.next?_eq_some_iff.1 taken, List.length_cons] at hlength
  omega

/-- A move that takes nothing: the clock stands still, no action starts, and every event stays in
the calendar, in its order. -/
structure Lull (log : Log n) (st : Standing n) (new : Log n) (st' : Standing n) : Prop where
  move : Move log st new st'
  now : st'.sim.now = st.sim.now
  quiet : new.started = []
  stays : st.sim.calendar.entries.Sublist st'.sim.calendar.entries

theorem Lull.kept (lull : Lull log st new st') :
    ∀ e ∈ st.sim.calendar.entries, e ∈ st'.sim.calendar.entries :=
  fun _ hmem => lull.stays.subset hmem

theorem Calendar.sublist_pushImmediate (c : Calendar (Action n)) (event : Event (Action n)) :
    c.entries.Sublist (c.pushImmediate event).entries := by
  rw [Calendar.entries_pushImmediate]
  exact (List.sublist_cons_self _ _).append_left _

theorem Calendar.sublist_pushTimed (c : Calendar (Action n)) (turn : Turn)
    (event : Event (Action n)) : c.entries.Sublist (c.pushTimed turn event).entries := by
  rw [Calendar.entries_pushTimed]
  exact ((c.timed.sublist_insert turn event).map _).append_left _

theorem sublist_repostedTimers (release : Instant) (timed : Agenda Turn (Event (Action n)))
    (timers : List (Origin × Work (Action n))) :
    timed.toList.Sublist (repostedTimers release timed timers).toList := by
  induction timers generalizing timed with
  | nil => exact List.Sublist.refl _
  | cons e timers ih => exact (timed.sublist_insert _ _).trans (ih _)

theorem now_lodge (s : Simulation (Action n)) (ticket : Ticket n) :
    (s.issue.lodge ticket).now = s.now := by
  have hplaced := placed_lodge s ticket
  generalize s.issue.lodge ticket = s' at hplaced
  cases hplaced <;> rfl

namespace Lull

variable {s s' : Simulation (Action n)} {r : Option (Replay n)}

theorem control (paused halted running : Bool) (active : List Source) :
    Lull log ⟨s, r⟩ []
      ⟨{ s with paused := paused, halted := halted, running := running, active := active }, r⟩ :=
  ⟨.control _ _ _ _ _ _, rfl, rfl, .refl _⟩

theorem enableTrace : Lull log ⟨s, r⟩ [] ⟨s.enableTrace, r⟩ :=
  ⟨.enableTrace _ _, rfl, rfl, .refl _⟩

theorem cancel {ticket : Ticket n} (issued : ticket ∈ log.accepted) :
    Lull log ⟨s, r⟩ [] ⟨s.cancel ticket.work.id, r⟩ :=
  ⟨.cancel _ _ ticket issued, rfl, rfl, .refl _⟩

theorem accept {ticket : Ticket n} (admits : s.Admits ticket s') :
    Lull log ⟨s, r⟩ [.accepted ticket] ⟨s', r⟩ := by
  refine ⟨.accept _ _ _ _ admits, admits.eq ▸ now_lodge s ticket, rfl, ?_⟩
  have hplaced := placed_lodge s ticket
  rw [← admits.eq] at hplaced
  cases hplaced with
  | immediate event => exact Calendar.sublist_pushImmediate _ event
  | timed t event => exact Calendar.sublist_pushTimed _ _ event
  | parked stall => exact .refl _
  | joined backlog => exact .refl _

theorem stall {source : Source} {release : Instant} {backlog : Agenda EventId (Work (Action n))}
    (known : source ∈ s.sources) (inTime : s.now ≤ release) (active : s.active? = some source)
    (carried : (s.phase source).carried = some backlog) :
    Lull log ⟨s, r⟩ [.stalled ⟨source, s.now, release⟩]
      ⟨s.beginStall source release backlog, r⟩ :=
  ⟨.stall _ _ _ _ _ known inTime active carried, rfl, rfl,
    Calendar.sublist_pushTimed _ _ _⟩

theorem close (r : Replay n) :
    Lull log ⟨s, some r⟩ [] ⟨s.closeReplay r.source r.release r.timers, none⟩ := by
  have hnow : (s.closeReplay r.source r.release r.timers).now = s.now := by rw [closeReplay_eq]
  refine ⟨.close _ _, hnow, rfl, ?_⟩
  rw [closeReplay_eq]
  exact ((List.sublist_append_left _ _).map _).append ((sublist_repostedTimers _ _ _).map _)

theorem unwind : Lull log ⟨s, r⟩ [.unwound] ⟨s, none⟩ :=
  ⟨.unwind _ _, rfl, rfl, .refl _⟩

end Lull

/-- What a row of lulls leaves alone. -/
theorem Along.kept (along : Along (Lull (n := n)) log st new st') :
    st'.sim.now = st.sim.now ∧ new.started = [] ∧
      st.sim.calendar.entries.Sublist st'.sim.calendar.entries := by
  induction along with
  | refl => exact ⟨rfl, rfl, .refl _⟩
  | next _ lull ih =>
    obtain ⟨hnow, hquiet, hstays⟩ := ih
    refine ⟨lull.now.trans hnow, ?_, hstays.trans lull.stays⟩
    rw [Log.started_append, hquiet, lull.quiet]
    rfl

/-! ## What outlasts lulls -/

/-- What is known of each simulation of a world, after its log and where it stands. -/
structure Kept (n : Nat) where
  holds : Fin n → Log n → Standing n → Prop
  lull : ∀ {i log st new st'}, holds i log st → Lull log st new st' → holds i (log ++ new) st'

/-- Every simulation is on a course. -/
def Kept.courses : Kept n where
  holds _ := Course
  lull course lull := .move course lull.move

/-- Every simulation has gone through lulls only, since it stood there after that log. -/
def Kept.lullsFrom (log : Fin n → Log n) (st : Fin n → Standing n) : Kept n where
  holds i log' st' := ∃ new, log' = log i ++ new ∧ Along Lull (log i) (st i) new st'
  lull := by
    rintro i log' st' new st'' ⟨earlier, rfl, along⟩ lull
    exact ⟨earlier ++ new, List.append_assoc _ _ _, .next along lull⟩

/-- A lull that adds nothing to the log. -/
theorem Kept.silent (known : Kept n) {i : Fin n} (holds : known.holds i log st)
    (lull : Lull log st [] st') : known.holds i log st' := by
  have h := known.lull holds lull
  rwa [List.append_nil] at h

end StallSim
