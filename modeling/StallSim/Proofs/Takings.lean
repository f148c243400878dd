import StallSim.Proofs.Steps

/-!
# Events that are taken

A step takes at most one event from the calendar of a simulation.  A step that takes none leaves all
that waits there in its order.

* `Taking` — the moves that take an event.
* `Takes` — a step that takes an event from the calendar of one simulation.
* `Serves` — the world goes on, with the events that one simulation takes on the way.

Principal results: `move_takes` — every other move leaves the calendar in its order; `Takes.taking`
— a step that takes an event is a single move; `Later.serves`.
-/

set_option autoImplicit false

namespace StallSim

variable {n : Nat} {log new : Log n} {st st' : Standing n}

/-- The moves that take an event, with its turn, from the calendar. -/
inductive Taking : Option Turn × Event (Action n) → Standing n → Log n → Standing n → Prop where
  | drop (s : Simulation (Action n)) (e : Option Turn × Event (Action n))
      (rest : Calendar (Action n)) (taken : s.calendar.next? = some (e, rest))
      (cancelled : s.isCancelled e.2.id = true) :
      Taking e ⟨s, none⟩ [] ⟨{ s with calendar := rest }, none⟩
  | intercept (s : Simulation (Action n)) (turn : Option Turn) (work : Work (Action n))
      (rest : Calendar (Action n)) (stall : Stall (Action n))
      (taken : s.calendar.next? = some ((turn, .routed work), rest))
      (stalled : s.phase work.source = .stalled stall) :
      Taking (turn, .routed work) ⟨s, none⟩ []
        ⟨(s.take turn rest).setPhase work.source
          (.stalled (stall.park (turn.map Turn.origin) work)), none⟩
  | start (s : Simulation (Action n)) (turn : Option Turn) (event : Event (Action n))
      (work : Work (Action n)) (rest : Calendar (Action n))
      (taken : s.calendar.next? = some ((turn, event), rest))
      (isWork : event.work? = some work) :
      Taking (turn, event) ⟨s, none⟩ [.started work (s.take turn rest).now]
        ⟨(s.take turn rest).startAction work, none⟩
  | release (s : Simulation (Action n)) (turn : Option Turn) (id : EventId) (source : Source)
      (rest : Calendar (Action n)) (stall : Stall (Action n))
      (taken : s.calendar.next? = some ((turn, .release id source), rest))
      (stalled : s.phase source = .stalled stall) :
      Taking (turn, .release id source) ⟨s, none⟩ []
        ⟨(s.take turn rest).setPhase source (.replaying stall.immediate),
          some ⟨source, stall.release, stall.timers⟩⟩
  | stale (s : Simulation (Action n)) (turn : Option Turn) (id : EventId) (source : Source)
      (rest : Calendar (Action n))
      (taken : s.calendar.next? = some ((turn, .release id source), rest))
      (free : (s.phase source).isStalled = false) :
      Taking (turn, .release id source) ⟨s, none⟩ [] ⟨s.take turn rest, none⟩

theorem Taking.next? {e : Option Turn × Event (Action n)} (taking : Taking e st new st') :
    st.sim.calendar.next? = some (e, st'.sim.calendar) := by
  cases taking <;> assumption

/-- **A move takes an event, or leaves the calendar in its order.** -/
theorem move_takes (move : Move log st new st') :
    st.sim.calendar.entries.Sublist st'.sim.calendar.entries ∨ ∃ e, Taking e st new st' := by
  cases move with
  | accept s s' r ticket admits =>
    have hlull : Lull log ⟨s, r⟩ [.accepted ticket] ⟨s', r⟩ := .accept admits
    exact .inl hlull.stays
  | stall s r source release backlog known inTime active carried =>
    have hlull : Lull log ⟨s, r⟩ _ ⟨s.beginStall source release backlog, r⟩ :=
      .stall known inTime active carried
    exact .inl hlull.stays
  | close s r =>
    have hlull : Lull log ⟨s, some r⟩ _ ⟨s.closeReplay r.source r.release r.timers, none⟩ :=
      .close r
    exact .inl hlull.stays
  | drop s turn event rest taken cancelled => exact .inr ⟨_, .drop s _ rest taken cancelled⟩
  | intercept s turn work rest stall taken live stalled =>
    exact .inr ⟨_, .intercept s turn work rest stall taken stalled⟩
  | start s turn event work rest taken isWork live free =>
    exact .inr ⟨_, .start s turn event work rest taken isWork⟩
  | release s turn id source rest stall taken live stalled =>
    exact .inr ⟨_, .release s turn id source rest stall taken stalled⟩
  | stale s turn id source rest taken live free =>
    exact .inr ⟨_, .stale s turn id source rest taken free⟩
  | _ => exact .inl (.refl _)

/-! ## Steps -/

section Steps

variable {h later : List (Fin n × Happening n)} {m m' m'' : Machine n} {i : Fin n}
  {e : Option Turn × Event (Action n)}

/-- The simulation `i` takes the event `e`, with its turn, from its calendar. -/
def Takes (i : Fin n) (m m' : Machine n) (e : Option Turn × Event (Action n)) : Prop :=
  (m.world.sim i).calendar.next? = some (e, (m'.world.sim i).calendar)

/-- **A step that takes an event is a single move.** -/
theorem Takes.taking (takes : Takes i m m' e) (hist : History h m) (next : Next m later m') :
    Move (logOf i h) (m.standing i) (logOf i later) (m'.standing i) ∧
      Taking e (m.standing i) (logOf i later) (m'.standing i) := by
  rcases (next.stride hist.grounded).moves i with move | along
  · refine ⟨move, ?_⟩
    rcases move_takes move with hstays | ⟨d, taking⟩
    · exact absurd hstays (not_sublist_of_next? takes)
    · have heq := taking.next?.symm.trans takes
      cases heq
      exact taking
  · exact absurd along.kept.2.2 (not_sublist_of_next? takes)

/-- The world goes on, and the simulation `i` takes these events from its calendar on the way. -/
inductive Serves (i : Fin n) (m : Machine n) : List (Fin n × Happening n) →
    List (Option Turn × Event (Action n)) → Machine n → Prop where
  | refl : Serves i m [] [] m
  | pass {later new : List (Fin n × Happening n)} {taken : List (Option Turn × Event (Action n))}
      {m' m'' : Machine n} : Serves i m later taken m' → Next m' new m'' →
        (∀ e, ¬ Takes i m' m'' e) → Serves i m (later ++ new) taken m''
  | take {later new : List (Fin n × Happening n)} {taken : List (Option Turn × Event (Action n))}
      {m' m'' : Machine n} {e : Option Turn × Event (Action n)} : Serves i m later taken m' →
        Next m' new m'' → Takes i m' m'' e → Serves i m (later ++ new) (taken ++ [e]) m''

theorem Serves.history {taken : List (Option Turn × Event (Action n))}
    (serves : Serves i m later taken m') (hist : History h m) : History (h ++ later) m' := by
  induction serves with
  | refl =>
    rw [List.append_nil]
    exact hist
  | pass _ next _ ih =>
    rw [← List.append_assoc]
    exact ih.next next
  | take _ next _ ih =>
    rw [← List.append_assoc]
    exact ih.next next

/-- **However the world goes on, a simulation takes some events on the way.** -/
theorem Later.serves (onward : Later m later m') (i : Fin n) :
    ∃ taken, Serves i m later taken m' := by
  have hall : ∀ {before taken m₀}, Serves i m₀ before taken m →
      ∃ taken', Serves i m₀ (before ++ later) taken' m' := by
    induction onward with
    | refl m =>
      intro before taken m₀ serves
      rw [List.append_nil]
      exact ⟨taken, serves⟩
    | @next m m₁ m₂ new rest next _ ih =>
      intro before taken m₀ serves
      rw [← List.append_assoc]
      by_cases htakes : ∃ e, Takes i m m₁ e
      · obtain ⟨e, htakes⟩ := htakes
        exact ih (serves.take next htakes)
      · exact ih (serves.pass next (fun e he => htakes ⟨e, he⟩))
  obtain ⟨taken, serves⟩ := hall (.refl : Serves i m [] [] m)
  exact ⟨taken, serves⟩

end Steps

end StallSim
