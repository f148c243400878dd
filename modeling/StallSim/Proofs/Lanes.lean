import StallSim.Proofs.Pauses

/-!
# What a simulation holds for one source

The sources of a simulation share its calendar and its clock, and nothing else.  The lane of a
source is what is left of a simulation when the events and the phases of all others are taken away.

* `Lane`, `Simulation.lane` — the immediate and the timed events of one source, and its phase.
* `Elsewhere` — the simulation went on without the source: its lane is the same, and the clock stood
  still as long as the source had immediate events.

Principal results: `Elsewhere.lodge`, `Elsewhere.beginStall`, `Elsewhere.dispatch`,
`Elsewhere.nextReplayed`, `Elsewhere.closeReplay` — whatever happens on account of another source.
-/

set_option autoImplicit false

namespace StallSim

variable {n : Nat}

/-- What a simulation holds for one source. -/
@[ext] structure Lane (n : Nat) where
  immediate : List (Event (Action n))
  timed : List (Turn × Event (Action n))
  phase : Phase (Action n)

/-- The lane of a source. -/
def Simulation.lane (s : Simulation (Action n)) (source : Source) : Lane n where
  immediate := s.calendar.immediate.filter (fun event => event.source = source)
  timed := s.calendar.timed.toList.filter (fun e => e.2.source = source)
  phase := s.phase source

/-- A new entry that is filtered out leaves the other entries as they are. -/
theorem filter_insert_of_not {κ β : Type} [LE κ] [DecidableLE κ] [Std.IsLinearOrder κ]
    (agenda : Agenda κ β) {own : κ × β → Bool} {k : κ} {v : β} (other : own (k, v) = false) :
    (agenda.insert k v).toList.filter own = agenda.toList.filter own := by
  rw [Agenda.toList_insert, List.filter_append, List.filter_cons_of_neg (by simp [other]),
    ← List.filter_append, Agenda.upTo_append_beyond]

section Lane

variable {s s' : Simulation (Action n)} {source : Source}

theorem nextId_lodge (s : Simulation (Action n)) (ticket : Ticket n) :
    s.nextId < (s.issue.lodge ticket).nextId := by
  have hplaced := placed_lodge s ticket
  generalize s.issue.lodge ticket = s' at hplaced
  cases hplaced <;> exact Nat.lt_succ_self _

theorem lane_setPhase {other : Source} (ne : other ≠ source) (phase : Phase (Action n)) :
    (s.setPhase other phase).lane source = s.lane source := by
  refine Lane.ext_iff.2 ⟨rfl, rfl, ?_⟩
  show (s.setPhase other phase).phase source = s.phase source
  rw [Simulation.phase_setPhase, if_neg ne]

theorem lane_postNow {event : Event (Action n)} (ne : event.source ≠ source) :
    (s.postNow event).lane source = s.lane source := by
  refine Lane.ext_iff.2 ⟨?_, rfl, rfl⟩
  refine (List.filter_append ..).trans ?_
  rw [List.filter_cons_of_neg (by simpa using ne), List.filter_nil]
  exact List.append_nil _

theorem lane_postTimed {turn : Turn} {event : Event (Action n)} (ne : event.source ≠ source) :
    (s.postTimed turn event).lane source = s.lane source :=
  Lane.ext_iff.2 ⟨rfl, filter_insert_of_not _ (by simpa using ne), rfl⟩

/-- The events that are left when the event of another source was taken. -/
theorem filter_next? {c rest : Calendar (Action n)} {turn : Option Turn} {event : Event (Action n)}
    (taken : c.next? = some ((turn, event), rest)) (ne : event.source ≠ source) :
    rest.immediate.filter (fun event => event.source = source) =
        c.immediate.filter (fun event => event.source = source) ∧
      rest.timed.toList.filter (fun e => e.2.source = source) =
        c.timed.toList.filter (fun e => e.2.source = source) := by
  rcases Calendar.next?_cases taken with
    ⟨-, himmediate, htimed⟩ | ⟨k, -, himmediate, hrest, htimed, -⟩
  · rw [himmediate, htimed, List.filter_cons_of_neg (by simpa using ne)]
    exact ⟨rfl, rfl⟩
  · rw [himmediate, hrest, htimed, List.filter_cons_of_neg (by simpa using ne)]
    exact ⟨rfl, rfl⟩

/-- Timers of another source that are handed back are filtered out. -/
theorem filter_repostedTimers {other : Source} (ne : other ≠ source) (release : Instant)
    (live : List (Origin × Work (Action n))) (timed : Agenda Turn (Event (Action n)))
    (mine : ∀ e ∈ live, e.2.source = other) :
    (repostedTimers release timed live).toList.filter (fun e => e.2.source = source) =
      timed.toList.filter (fun e => e.2.source = source) := by
  induction live generalizing timed with
  | nil => rfl
  | cons e live ih =>
    obtain ⟨he, hlive⟩ := List.forall_mem_cons.1 mine
    have hne : (Event.routed e.2).source ≠ source := fun h => ne (he.symm.trans h)
    exact (ih _ hlive).trans (filter_insert_of_not _ (decide_eq_false hne))

end Lane

/-! ## Going on elsewhere -/

/-- The simulation went on, but not the source. -/
structure Elsewhere (source : Source) (s s' : Simulation (Action n)) : Prop where
  lane : s'.lane source = s.lane source
  nextId : s.nextId ≤ s'.nextId
  cancelled : s'.cancelled = s.cancelled
  sources : s'.sources = s.sources
  flags : s'.flags = s.flags
  active : s'.active = s.active
  now : s.now ≤ s'.now
  urgent : (s.lane source).immediate ≠ [] → s'.now = s.now

namespace Elsewhere

variable {s s' : Simulation (Action n)} {source other : Source} {log : Log n}

/-- The clock stands still. -/
theorem of_now (lane : s'.lane source = s.lane source) (nextId : s.nextId ≤ s'.nextId)
    (cancelled : s'.cancelled = s.cancelled) (sources : s'.sources = s.sources)
    (flags : s'.flags = s.flags) (active : s'.active = s.active) (now : s'.now = s.now) :
    Elsewhere source s s' :=
  ⟨lane, nextId, cancelled, sources, flags, active, now ▸ Nat.le_refl _, fun _ => now⟩

theorem trans {s'' : Simulation (Action n)} (first : Elsewhere source s s')
    (later : Elsewhere source s' s'') : Elsewhere source s s'' where
  lane := later.lane.trans first.lane
  nextId := Nat.le_trans first.nextId later.nextId
  cancelled := later.cancelled.trans first.cancelled
  sources := later.sources.trans first.sources
  flags := later.flags.trans first.flags
  active := later.active.trans first.active
  now := Nat.le_trans first.now later.now
  urgent h := (later.urgent (first.lane ▸ h)).trans (first.urgent h)

/-- What elsewhere is done within an action. -/
theorem endAction (onward : Elsewhere source s s') : Elsewhere source s.endAction s'.endAction :=
  { onward with active := congrArg List.tail onward.active }

theorem setPhase (s : Simulation (Action n)) (ne : other ≠ source) (phase : Phase (Action n)) :
    Elsewhere source s (s.setPhase other phase) :=
  of_now (lane_setPhase ne phase) (Nat.le_refl _) rfl rfl rfl rfl rfl

theorem lodge (s : Simulation (Action n)) {ticket : Ticket n} (ne : ticket.work.source ≠ source) :
    Elsewhere source s (s.issue.lodge ticket) := by
  have hissue : Elsewhere source s s.issue := of_now rfl (Nat.le_succ _) rfl rfl rfl rfl rfl
  have hevent : ∀ {turn : Option Turn} {event : Event (Action n)},
      event.ticket? turn = some ticket → event.source ≠ source := by
    intro turn event hentry
    cases event <;> cases hentry <;> exact ne
  have hplaced := placed_lodge s ticket
  generalize s.issue.lodge ticket = s' at hplaced
  cases hplaced with
  | immediate event entry running =>
    exact hissue.trans (of_now (lane_postNow (hevent entry)) (Nat.le_refl _) rfl rfl rfl rfl rfl)
  | timed t event entry =>
    exact hissue.trans (of_now (lane_postTimed (hevent entry)) (Nat.le_refl _) rfl rfl rfl rfl rfl)
  | parked stall stalled routed early => exact hissue.trans (setPhase _ ne _)
  | joined backlog replaying routed untimed => exact hissue.trans (setPhase _ ne _)

theorem beginStall (s : Simulation (Action n)) (ne : other ≠ source) (release : Instant)
    (backlog : Agenda EventId (Work (Action n))) :
    Elsewhere source s (s.beginStall other release backlog) := by
  have hne : (Event.release (α := Action n) s.freshId other).source ≠ source := ne
  have hissue : Elsewhere source s s.issue := of_now rfl (Nat.le_succ _) rfl rfl rfl rfl rfl
  have hstalled := hissue.trans (setPhase s.issue ne (.stalled (.starting release backlog)))
  exact hstalled.trans (of_now (lane_postTimed hne) (Nat.le_refl _) rfl rfl rfl rfl rfl)

/-! ### Events of another source -/

section Taken

variable {turn : Option Turn} {event : Event (Action n)} {rest : Calendar (Action n)}

theorem drop (taken : s.calendar.next? = some ((turn, event), rest)) (ne : event.source ≠ source) :
    Elsewhere source s { s with calendar := rest } := by
  obtain ⟨himmediate, htimed⟩ := filter_next? taken ne
  exact of_now (Lane.ext_iff.2 ⟨himmediate, htimed, rfl⟩) (Nat.le_refl _) rfl rfl rfl rfl rfl

/-- The clock moves on only if no source has immediate events. -/
theorem take (taken : s.calendar.next? = some ((turn, event), rest)) (ne : event.source ≠ source) :
    Elsewhere source s (s.take turn rest) := by
  have hdrop := drop taken ne
  refine ⟨hdrop.lane, Nat.le_refl _, rfl, rfl, rfl, rfl, ?_, fun hurgent => ?_⟩
  · cases turn with
    | none => exact Nat.le_refl _
    | some k => exact Instant.le_advance s.now k.time
  · rcases Calendar.next?_cases taken with ⟨rfl, -⟩ | ⟨k, -, himmediate, -⟩
    · rfl
    · refine absurd ?_ hurgent
      show s.calendar.immediate.filter _ = []
      rw [himmediate, List.filter_nil]

end Taken

/-- What taking an event of another source comes to. -/
inductive Dispatched (source : Source) (s : Simulation (Action n)) :
    Simulation.Dispatch (Action n) → Prop where
  | settled {s' : Simulation (Action n)} (elsewhere : Elsewhere source s s') :
      Dispatched source s (.settled s')
  | start {work : Work (Action n)} {s' : Simulation (Action n)} (ne : work.source ≠ source)
      (elsewhere : Elsewhere source s s') : Dispatched source s (.start work s')
  | replay {other : Source} {stall : Stall (Action n)} {s' : Simulation (Action n)}
      (ne : other ≠ source) (elsewhere : Elsewhere source s s') :
      Dispatched source s (.replay other stall s')

theorem dispatch {turn : Option Turn} {event : Event (Action n)} {rest : Calendar (Action n)}
    (taken : s.calendar.next? = some ((turn, event), rest)) (ne : event.source ≠ source) :
    Dispatched source s s.dispatch := by
  have htake := take taken ne
  rw [dispatch_eq taken]
  split
  · exact .settled (drop taken ne)
  · cases event with
    | direct work => exact .start ne htake
    | routed work =>
      dsimp only
      split
      · exact .settled (htake.trans (setPhase _ ne _))
      · exact .start ne htake
    | release id other =>
      dsimp only
      split
      · exact .replay ne (htake.trans (setPhase _ ne _))
      · exact .settled htake

/-! ### Replays of another source -/

theorem nextReplayed (own : (s.phase other).Of other) (ne : other ≠ source)
    {work : Work (Action n)} (next : s.nextReplayed other = some (work, s')) :
    work.source ≠ source ∧ Elsewhere source s s' := by
  unfold Simulation.nextReplayed at next
  split at next
  · rename_i backlog hphase
    simp only [Option.map_eq_some_iff, Prod.mk.injEq] at next
    obtain ⟨⟨e, rest⟩, hnext, rfl, rfl⟩ := next
    have hmem : e ∈ (s.phase other).parked := by
      rw [hphase, Phase.parked, Agenda.next?_eq_some_iff.1 hnext]
      exact List.mem_cons_self
    exact ⟨(own.parked e hmem).2 ▸ ne, setPhase s ne _⟩
  · cases next

theorem closeReplay (own : (s.phase other).Of other) (ne : other ≠ source) (release : Instant)
    {timers : Agenda Origin (Work (Action n))} (mine : ∀ e ∈ timers.toList, e.2.source = other) :
    Elsewhere source s (s.closeReplay other release timers) := by
  have hleftover : ∀ work ∈ leftover s other, work.source = other := by
    intro work hmem
    unfold leftover at hmem
    split at hmem
    · rename_i backlog hphase
      obtain ⟨e, he, rfl⟩ := List.mem_map.1 (List.mem_filter.1 hmem).1
      exact (own.parked e (by rw [hphase]; exact he)).2
    · cases hmem
  rw [closeReplay_eq]
  refine of_now (Lane.ext_iff.2 ⟨?_, ?_, ?_⟩) (Nat.le_refl _) rfl rfl rfl rfl rfl
  · show (s.calendar.immediate ++ (leftover s other).map Event.routed).filter _ =
      s.calendar.immediate.filter _
    refine (List.filter_append ..).trans ?_
    refine (congrArg (_ ++ ·) (List.filter_eq_nil_iff.2 fun event hmem => ?_)).trans
      (List.append_nil _)
    obtain ⟨work, hwork, rfl⟩ := List.mem_map.1 hmem
    have hne : (Event.routed work).source ≠ source :=
      fun h => ne ((hleftover work hwork).symm.trans h)
    simpa using hne
  · exact filter_repostedTimers ne release _ _ fun e he => mine e (List.mem_filter.1 he).1
  · show Simulation.phase { s with phases := closedPhases s other } source = s.phase source
    unfold closedPhases
    split
    · exact congrArg Lane.phase (lane_setPhase (s := s) ne .running)
    · rfl

end Elsewhere

end StallSim
