import StallSim.Proofs.Conservation

/-!
# What a running action can see

An action that asks for the pending events of a simulation gets all the work that is still to be
done, with one exception: while the simulation is in the middle of a replay, the timers that the
stall has delayed are with the replay, and nobody sees them until it ends.

* `count_pendingEvents` — how often waiting work is listed.

Principal results: `pendingEvents_while_running` — what is listed, and when it is all there is;
`delayed_timer_unseen` — a timer that a replayed action does not see.
-/

set_option autoImplicit false

namespace StallSim

variable {n : Nat}

section Count

variable {log : Log n} {st : Standing n}

/-- Work that is still to be done is listed once, or is withheld. -/
theorem Exposes.count {listing : List (Ticket n × Option Instant)} {releases : List Pending}
    (exposes : Exposes log st listing releases) {ticket : Ticket n}
    (outstanding : Outstanding log st.sim ticket)
    (apart : ticket.work.id ∉ releases.map Pending.id) :
    (st.sim.pendingEvents.map Pending.id).count ticket.work.id = 1 ∧ ticket ∉ st.withheld ∨
      (st.sim.pendingEvents.map Pending.id).count ticket.work.id = 0 ∧ ticket ∈ st.withheld := by
  have hids : (st.sim.pendingEvents.map Pending.id).Perm
      (listing.map (fun x => x.1.work.id) ++ releases.map Pending.id) := by
    have hevents := exposes.events.map Pending.id
    rwa [List.map_append, List.map_map] at hevents
  obtain ⟨hlisted, -, hdisjoint⟩ := List.nodup_append.1 exposes.once
  rw [hids.count_eq, List.count_append, List.count_eq_zero_of_not_mem apart, Nat.add_zero]
  rcases (exposes.outstanding ticket).1 outstanding with hmem | hmem
  · obtain ⟨x, hx, rfl⟩ := List.mem_map.1 hmem
    have hid := List.mem_map_of_mem (f := fun x => x.1.work.id) hx
    refine .inl ⟨List.count_eq_one_of_mem hlisted hid, fun hheld => ?_⟩
    exact hdisjoint _ hid _ (List.mem_map_of_mem hheld) rfl
  · refine .inr ⟨List.count_eq_zero_of_not_mem fun hid => ?_, hmem⟩
    exact hdisjoint _ hid _ (List.mem_map_of_mem hmem) rfl

theorem count_pendingEvents (course : Course log st) (calm : log.Calm) {ticket : Ticket n}
    (outstanding : Outstanding log st.sim ticket) :
    (st.sim.pendingEvents.map Pending.id).count ticket.work.id = 1 ∧ ticket ∉ st.withheld ∨
      (st.sim.pendingEvents.map Pending.id).count ticket.work.id = 0 ∧ ticket ∈ st.withheld :=
  (exposes_of_course course calm).count outstanding
    (releaseEntry_ids course.ledger outstanding.accepted)

end Count

variable {h : List (Fin n × Happening n)} {m : Machine n} {i : Fin n}

/-- **What a running action sees of the work that is still to be done.**  In a history without a
panic, an action that asks for the pending events of a simulation is told them as they are: the work
that is still to be done and is not withheld, each once, and the releases of the stalled sources.
That is all work that is still to be done, if and only if no timer is withheld: the simulation is
not in the middle of a replay, or the stall that the replay ends has delayed no timer that is not
cancelled by now. -/
theorem pendingEvents_while_running (hist : History h m) (free : PanicFree h)
    (asks : m.call? = some (.command i .pending)) :
    m.step.world.journal = m.world.journal ++
        [.performed (.command i .pending) (.pending (m.world.sim i).pendingEvents)] ∧
      (∃ listing releases, Exposes (logOf i h) (m.standing i) listing releases) ∧
      ((∀ ticket, Outstanding (logOf i h) (m.world.sim i) ticket →
          ((m.world.sim i).pendingEvents.map Pending.id).count ticket.work.id = 1) ↔
        (m.standing i).withheld = []) := by
  have hcourse := hist.course i
  have hcalm := free.calm i
  refine ⟨?_, ⟨_, _, exposes_of_course hcourse hcalm⟩, ?_, ?_⟩
  · obtain ⟨run, work, handling, rest, hcontrol⟩ := control_of_call asks
    obtain ⟨w, control, callers⟩ := m
    cases hcontrol
    exact journal_settle w run work (.command i .pending) handling rest
      (.pending (w.sim i).pendingEvents) callers
  · intro hall
    apply List.eq_nil_iff_forall_not_mem.2
    intro ticket hmem
    have houtstanding := ((exposes_of_course hcourse hcalm).outstanding ticket).2 (.inr hmem)
    rcases count_pendingEvents hcourse hcalm houtstanding with ⟨-, hseen⟩ | ⟨hcount, -⟩
    · exact hseen hmem
    · exact absurd ((hall ticket houtstanding).symm.trans hcount) Nat.one_ne_zero
  · intro hnothing ticket houtstanding
    rcases count_pendingEvents hcourse hcalm houtstanding with ⟨hcount, -⟩ | ⟨-, hmem⟩
    · exact hcount
    · rw [hnothing] at hmem
      cases hmem

/-! ## An action that looks -/

/-- An action that asks for the pending events. -/
def looks : Script 1 := .perform lone .pending ⟨true, none⟩ .done

/-- A replayed action sees the work that is behind it in the backlog. -/
theorem backlog_seen_while_replayed :
    PanicFree (threeLog stallUntilFive looks .sourceNow 7) ∧
    (threeWorld stallUntilFive looks .sourceNow 7).call? = some (.command 0 .pending) ∧
    ∀ ticket, Outstanding (logOf 0 (threeLog stallUntilFive looks .sourceNow 7))
      ((threeWorld stallUntilFive looks .sourceNow 7).world.sim 0) ticket →
      (((threeWorld stallUntilFive looks .sourceNow 7).world.sim 0).pendingEvents.map
        Pending.id).count ticket.work.id = 1 := by
  have hfree : PanicFree (threeLog stallUntilFive looks .sourceNow 7) := by decide
  have hasks : (threeWorld stallUntilFive looks .sourceNow 7).call? =
      some (.command 0 .pending) := rfl
  refine ⟨hfree, hasks, ?_⟩
  exact (pendingEvents_while_running (.three _ _ _ _) hfree hasks).2.2.2 rfl

/-- A replayed action does not see a timer that the stall has delayed. -/
theorem delayed_timer_unseen :
    ¬ ∀ (h : List (Fin 1 × Happening 1)) (m : Machine 1) (i : Fin 1), History h m → PanicFree h →
      m.call? = some (.command i .pending) →
      ∀ ticket, Outstanding (logOf i h) (m.world.sim i) ticket →
        ((m.world.sim i).pendingEvents.map Pending.id).count ticket.work.id = 1 := by
  intro hall
  have hist := History.three stallUntilFive looks (.sourceAt (.at ⟨3⟩)) 7
  have hfree : PanicFree (threeLog stallUntilFive looks (.sourceAt (.at ⟨3⟩)) 7) := by decide
  have hheld : (⟨⟨⟨2⟩, .index 0, "", ⟨"", .done⟩⟩, some ⟨3⟩, true⟩ : Ticket 1) ∈
      ((threeWorld stallUntilFive looks (.sourceAt (.at ⟨3⟩)) 7).standing 0).withheld := by
    refine mem_withheld.2 ⟨?_, rfl⟩
    exact List.mem_singleton.2 rfl
  have houtstanding := ((exposes_of_course (hist.course 0) (hfree.calm 0)).outstanding _).2
    (.inr hheld)
  have hcount := hall _ _ 0 hist hfree rfl _ houtstanding
  have hnone : ((threeWorld stallUntilFive looks (.sourceAt (.at ⟨3⟩)) 7).world.sim 0).pendingEvents
      = [] := rfl
  rw [hnone] at hcount
  cases hcount

end StallSim
