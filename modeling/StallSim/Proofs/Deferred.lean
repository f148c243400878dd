import StallSim.Proofs.Due

/-!
# What is deferred, and its replay

While a source is stalled, what is held back for it is listed in the order in which it will be
replayed.  Whatever follows, new submissions, cancellations and further stalls among it, that order
is kept; and unless the source is stalled again, what was listed starts at the instant of the
release.

* `Simulation.deferredTickets` — the work behind the list that an observer sees.

Principal results: `along_cut` — where in a row of moves an entry of the log comes from;
`deferred_predicts` — the list predicts the replay, in every history.
-/

set_option autoImplicit false

namespace StallSim

variable {n : Nat} {log new : Log n} {st st' : Standing n} {source : Source}
  {stall : Stall (Action n)} {ticket : Ticket n}

/-! ## The list -/

/-- The tickets of the work held back for a source that is not cancelled. -/
def Simulation.deferredTickets (s : Simulation (Action n)) (source : Source) : List (Ticket n) :=
  (s.phase source).tickets.filter (fun ticket => !s.isCancelled ticket.work.id)

/-- What an observer sees listed is the work of these tickets. -/
theorem ids_deferredEvents (s : Simulation (Action n)) (source : Source) :
    (s.deferredEvents source).map Pending.id =
      (s.deferredTickets source).map (fun ticket => ticket.work.id) := by
  unfold Simulation.deferredEvents Simulation.deferredTickets
  rw [deferred_eq, ← map_fst_phase_listing, List.filter_map, List.map_map, List.map_map]
  have hsame : (fun x : Ticket n × Option Instant => decide (x.1.work.id ∉ s.cancelled)) =
      (fun ticket : Ticket n => !s.isCancelled ticket.work.id) ∘ Prod.fst := by
    funext x
    simp [Simulation.isCancelled]
  rw [hsame]
  rfl

/-- What is parked for a source was handed in through it. -/
theorem Phase.Of.through (own : (Phase.stalled stall).Of source) (mem : ticket ∈ stall.tickets) :
    ticket.Through source := by
  rcases List.mem_append.1 mem with hmem | hmem
  · obtain ⟨work, hwork, rfl⟩ := List.mem_map.1 hmem
    obtain ⟨e, he, rfl⟩ := List.mem_map.1 hwork
    exact ⟨rfl, (own.parked e he).2⟩
  · obtain ⟨e, he, rfl⟩ := List.mem_map.1 hmem
    exact ⟨rfl, (own.timers e he).2⟩

/-- What is parked for a source is kept in the order of the source. -/
theorem Phase.Of.pairwise (own : (Phase.stalled stall).Of source) :
    stall.tickets.Pairwise Ticket.Precedes := by
  refine List.pairwise_append.2 ⟨?_, ?_, ?_⟩
  · refine List.pairwise_map.2 (List.pairwise_map.2 (stall.immediate.ordered.imp_of_mem ?_))
    intro a b ha hb hle
    show a.2.id ≤ b.2.id
    rwa [← (own.parked a ha).1, ← (own.parked b hb).1]
  · refine List.pairwise_map.2 (stall.timers.ordered.imp_of_mem ?_)
    intro a b ha hb hle
    show (⟨a.1.due, a.2.id⟩ : Origin) ≤ ⟨b.1.due, b.2.id⟩
    rwa [← (own.timers a ha).1, ← (own.timers b hb).1]
  · intro a ha b hb
    obtain ⟨_, -, rfl⟩ := List.mem_map.1 ha
    obtain ⟨_, -, rfl⟩ := List.mem_map.1 hb
    exact trivial

/-! ## The replay -/

/-- An entry of the log comes from one move of the row. -/
theorem along_cut {before after : Log n} {x : Happening n}
    (along : Along Move log st (before ++ x :: after) st') :
    ∃ st₁ st₂, Along Move log st before st₁ ∧ Move (log ++ before) st₁ [x] st₂ := by
  generalize hnew : before ++ x :: after = new at along
  induction along generalizing after with
  | refl => simp at hnew
  | @next new new' st' st'' along move ih =>
    rcases log_of_move move with rfl | ⟨y, rfl⟩
    · exact ih (hnew.trans (List.append_nil new))
    · rcases List.eq_nil_or_concat after with rfl | ⟨between, z, rfl⟩
      · obtain ⟨rfl, hlast⟩ := List.append_inj' hnew rfl
        cases hlast
        exact ⟨st', st'', along, move⟩
      · rw [List.concat_eq_append, ← List.cons_append, ← List.append_assoc] at hnew
        exact ih (List.append_inj' hnew rfl).1

/-- A stalled source has no backlog that anybody could leave. -/
theorem attended_of_stalled (stalled : st.sim.phase source = .stalled stall) :
    st.Attended source := by
  intro backlog hphase
  rw [stalled] at hphase
  cases hphase

section Replay

variable (course : Course log st) (stalled : st.sim.phase source = .stalled stall)

include course stalled

/-- What is listed waits, and is listed once. -/
theorem sublist_tickets : (st.sim.deferredTickets source).Sublist st.tickets := by
  have hparked := sublist_heldTickets course.ledger.rostered stalled
  unfold Simulation.deferredTickets
  rw [stalled]
  refine List.filter_sublist.trans (hparked.trans ?_)
  exact (List.sublist_append_right _ _).trans (List.sublist_append_left _ _)

/-- **What of the list starts does so in the order of the list.** -/
theorem deferred_in_order (along : Along Move log st new st') (calm : new.Calm) :
    (new.startedIds.filter
        (fun id => id ∈ (st.sim.deferredTickets source).map (fun ticket => ticket.work.id))).Sublist
      ((st.sim.deferredTickets source).map (fun ticket => ticket.work.id)) := by
  have hown := course.schedule.2.own source
  have hsublist := sublist_tickets course stalled
  have hstarted := (course.along along).ledger.nodup_startedIds
  rw [Log.startedIds_append, List.nodup_append] at hstarted
  have hlisted : st.sim.deferredTickets source =
      stall.tickets.filter (fun ticket => !st.sim.isCancelled ticket.work.id) := by
    rw [Simulation.deferredTickets, stalled]
    rfl
  rw [stalled] at hown
  have hthrough : ∀ ticket ∈ st.sim.deferredTickets source, ticket.Through source := by
    rw [hlisted]
    exact fun ticket hmem => hown.through (List.mem_of_mem_filter hmem)
  have htrails : Trails (st.sim.deferredTickets source) new st' :=
    trails_of_waiting course (fun ticket hmem => hsublist.subset hmem) hthrough
      (attended_of_stalled stalled) along calm
  refine htrails.sublist ?_ (course.ledger.nodup_tickets.sublist (hsublist.map _)) hstarted.2.1
  rw [hlisted]
  exact hown.pairwise.filter _

/-- **What of the list starts before another stall of the source does so at the release.** -/
theorem deferred_on_time (mem : ticket ∈ st.sim.deferredTickets source) {before after : Log n}
    {work : Work (Action n)} {time : Instant}
    (along : Along Move log st (before ++ .started work time :: after) st') (calm : before.Calm)
    (unstalled : source ∉ before.pauses.map Pause.source) (id : work.id = ticket.work.id) :
    time = stall.release := by
  obtain ⟨st₁, st₂, hbefore, hmove⟩ := along_cut along
  have hcourse := course.along hbefore
  have hown := course.schedule.2.own source
  rw [stalled] at hown
  have hparked : ticket ∈ stall.tickets := by
    rw [Simulation.deferredTickets, stalled] at mem
    exact List.mem_of_mem_filter mem
  have hwaits := (sublist_tickets course stalled).subset mem
  have haccepted := course.ledger.accepted_of_mem hwaits
  have haccepted' : ticket ∈ (log ++ before).accepted := by
    rw [Log.accepted_append]
    exact List.mem_append_left _ haccepted
  have hbound := (Bound.parked stall stalled rfl hparked).along course hbefore calm haccepted
    (hown.through hparked) (attended_of_stalled stalled) unstalled
  obtain ⟨other, hmem, rfl, -⟩ := first_of_move hcourse hmove (List.mem_singleton.2 rfl)
  obtain rfl : other = ticket :=
    hcourse.ledger.eq_of_id (hcourse.ledger.accepted_of_mem hmem) haccepted' id
  exact hbound.time_eq hcourse hmove (List.mem_singleton.2 rfl) haccepted' (hown.through hparked)

end Replay

/-- **The deferred events predict the replay.**  In every history, panics included, a source is
stalled until `release`, and its deferred events are listed.  None of them is cancelled, and none
has started.  However the world goes on without a panic, those of them that start do so in the order
of the list; and what of them starts before the source is stalled again, starts at `release`. -/
theorem deferred_predicts {h later : List (Fin n × Happening n)} {m m' : Machine n}
    (hist : History h m) (i : Fin n) (source : Source) {release : Instant}
    (stalled : ((m.world.sim i).sourceView source).release = some release)
    (onward : Later m later m') (free : PanicFree later) :
    (∀ event ∈ (m.world.sim i).deferredEvents source,
      (m.world.sim i).isCancelled event.id = false ∧ event.id ∉ (logOf i h).startedIds) ∧
    ((logOf i later).startedIds.filter
        (fun id => id ∈ ((m.world.sim i).deferredEvents source).map Pending.id)).Sublist
      (((m.world.sim i).deferredEvents source).map Pending.id) ∧
    ∀ event ∈ (m.world.sim i).deferredEvents source, ∀ (before after : Log n) work time,
      logOf i later = before ++ .started work time :: after → work.id = event.id →
      source ∉ before.pauses.map Pause.source → time = release := by
  have hcourse := hist.course i
  have halong := onward.along hist i
  have hcalm := free.calm i
  obtain ⟨stall, hstalled, rfl⟩ := release_sourceView_iff.1 stalled
  have hids := ids_deferredEvents (m.world.sim i) source
  have hticket : ∀ event ∈ (m.world.sim i).deferredEvents source,
      ∃ ticket ∈ (m.world.sim i).deferredTickets source, ticket.work.id = event.id := by
    intro event hmem
    have hid : event.id ∈ ((m.world.sim i).deferredEvents source).map Pending.id :=
      List.mem_map_of_mem hmem
    rw [hids] at hid
    exact List.mem_map.1 hid
  refine ⟨fun event hmem => ?_, ?_, fun event hmem before after work time hlog hid hunstalled => ?_⟩
  · obtain ⟨ticket, hmem', hid⟩ := hticket event hmem
    have hwaits := (sublist_tickets hcourse hstalled).subset hmem'
    rw [← hid]
    exact ⟨by simpa using (List.mem_filter.1 hmem').2, hcourse.ledger.unstarted_of_mem hwaits⟩
  · rw [hids]
    exact deferred_in_order hcourse hstalled halong hcalm
  · obtain ⟨ticket, hmem', hid'⟩ := hticket event hmem
    rw [hlog] at halong hcalm
    exact deferred_on_time hcourse hstalled hmem' halong (Log.calm_append.1 hcalm).1 hunstalled
      (hid.trans hid'.symm)

/-- The source of the small world is stalled until five; an action of it is parked, and a timer. -/
def twoParked : Machine 1 := threeWorld stallUntilFive .done (.sourceAt (.at ⟨3⟩)) 5

/-- An action and a timer that are parked are listed, and start at five, in the order of the
list. -/
theorem deferred_predicts_of_two :
    ((twoParked.world.sim 0).sourceView (.index 0)).release = some ⟨5⟩ ∧
    PanicFree (twoParked.story 6) ∧
    ((twoParked.world.sim 0).deferredEvents (.index 0)).map Pending.id = [⟨1⟩, ⟨2⟩] ∧
    (logOf 0 (twoParked.story 6)).startedIds = [⟨1⟩, ⟨2⟩] ∧
    (∀ event ∈ (twoParked.world.sim 0).deferredEvents (.index 0),
      (twoParked.world.sim 0).isCancelled event.id = false) ∧
    ((logOf 0 (twoParked.story 6)).startedIds.filter
      (fun id => id ∈ [(⟨1⟩ : EventId), ⟨2⟩])).Sublist [⟨1⟩, ⟨2⟩] ∧
    ∀ event ∈ (twoParked.world.sim 0).deferredEvents (.index 0), ∀ (before after : Log 1) work time,
      logOf 0 (twoParked.story 6) = before ++ .started work time :: after → work.id = event.id →
      Source.index 0 ∉ before.pauses.map Pause.source → time = ⟨5⟩ := by
  have hstalled : ((twoParked.world.sim 0).sourceView (.index 0)).release = some ⟨5⟩ := rfl
  have hfree : PanicFree (twoParked.story 6) := by decide
  have hids : ((twoParked.world.sim 0).deferredEvents (.index 0)).map Pending.id = [⟨1⟩, ⟨2⟩] := rfl
  obtain ⟨hlisted, horder, htime⟩ := deferred_predicts
    (.three stallUntilFive .done (.sourceAt (.at ⟨3⟩)) 5) 0 (.index 0) hstalled
    (.steps twoParked 6) hfree
  exact ⟨hstalled, hfree, hids, rfl, fun event hmem => (hlisted event hmem).1, hids ▸ horder, htime⟩

end StallSim
