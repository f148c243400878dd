import StallSim.Proofs.Course
import StallSim.Proofs.Reference

/-!
# A simulation and its mirror

A simulation in which no source was ever stalled is mirrored by a reference simulator: the same
clock, flags and counters, the same immediate work in the same order, and the same timed work, here
in an agenda and there in no order at all.

* `Queued` — the calendar of a simulation and the two lists of a reference simulator hold the same
  work, but for the way by which it was handed in.
* `Mirrors` — the reference simulator is in the same state.
* `Accepts`, `Dispatched` — both accept or refuse a submission alike; the same follows from taking
  the next event.

Principal results: `Queued.next` — the event that the calendar takes is the work that is first in
the lists; `Queued.pending` — both list the same pending work; `Mirrors.dispatch`,
`Mirrors.submitAt`, `Mirrors.submitDirectAt` — every operation, on the mirror as on the simulation.
-/

set_option autoImplicit false

namespace StallSim

open Reference (place first? without sorted)

variable {n : Nat}

/-! ## Timed work in no order -/

section Timed

variable {timed : List (Instant × Work (Action n))} {e : Instant × Work (Action n)}

/-- Work is known by its id. -/
def Apart (timed : List (Instant × Work (Action n))) : Prop :=
  (timed.map (fun e => e.2.id)).Nodup

theorem Apart.eq_of_id (apart : Apart timed) {d : Instant × Work (Action n)} (he : e ∈ timed)
    (hd : d ∈ timed) (id : e.2.id = d.2.id) : e = d :=
  List.inj_on_of_nodup_map apart he hd id

theorem dueAt_le_dueAt {d : Instant × Work (Action n)} :
    Turn.dueAt e.1 e.2.id ≤ Turn.dueAt d.1 d.2.id ↔ place e ≤ place d := by
  rw [Turn.le_iff_toNat, Origin.le_iff_toNat]
  simp only [Turn.dueAt, place, true_and]
  omega

/-- The work that is first is that which no other work is before. -/
theorem first?_eq_some_iff (apart : Apart timed) :
    first? timed = some e ↔ e ∈ timed ∧ ∀ d ∈ timed, place e ≤ place d := by
  have hfirst : ∀ {x}, first? timed = some x → x ∈ timed ∧ ∀ d ∈ timed, place x ≤ place d := by
    intro x hx
    exact ⟨List.mem_of_find?_eq_some hx, by simpa using List.find?_some hx⟩
  refine ⟨hfirst, fun ⟨hmem, hleast⟩ => ?_⟩
  cases hx : first? timed with
  | none => exact absurd (by simpa using hleast) (List.find?_eq_none.1 hx e hmem)
  | some d =>
    obtain ⟨hd, hbefore⟩ := hfirst hx
    have hplace : place d = place e := Std.le_antisymm (hbefore e hmem) (hleast d hd)
    rw [apart.eq_of_id hd hmem (congrArg Origin.id hplace)]

/-- Taking work out leaves all other work. -/
theorem perm_without (apart : Apart timed) (he : e ∈ timed) :
    timed.Perm (e :: without e.2.id timed) := by
  induction timed with
  | nil => cases he
  | cons d rest ih =>
    obtain ⟨hnew, hrest⟩ := List.nodup_cons.1 apart
    by_cases hid : d.2.id = e.2.id
    · obtain rfl : e = d := apart.eq_of_id he List.mem_cons_self hid.symm
      have hkept : without e.2.id rest = rest := by
        refine List.filter_eq_self.2 fun x hx => ?_
        have hx := List.mem_map_of_mem (f := fun x : Instant × Work (Action n) => x.2.id) hx
        exact decide_eq_true fun h => hnew (by rwa [h] at hx)
      have hcons : without e.2.id (e :: rest) = without e.2.id rest := by
        simp [without]
      rw [hcons, hkept]
    · have he : e ∈ rest := (List.mem_cons.1 he).resolve_left fun h => hid (h ▸ rfl)
      have hcons : without e.2.id (d :: rest) = d :: without e.2.id rest := by
        simp [without, hid]
      rw [hcons]
      exact ((ih hrest he).cons d).trans (.swap e d _)

theorem sorted_perm (timed : List (Instant × Work (Action n))) : (sorted timed).Perm timed :=
  List.perm_insertionSort _ timed

theorem pairwise_sorted (timed : List (Instant × Work (Action n))) :
    (sorted timed).Pairwise (fun a b => place a ≤ place b) := by
  have : Std.Total (fun a b : Instant × Work (Action n) => place a ≤ place b) :=
    ⟨fun a b => Std.le_total⟩
  have : IsTrans (Instant × Work (Action n)) (fun a b => place a ≤ place b) :=
    ⟨fun a b d => Std.le_trans⟩
  exact List.pairwise_insertionSort _ timed

end Timed

/-! ## The same work in both -/

/-- The work of an event, but for the way by which it was handed in. -/
def Event.plain? (event : Event (Action n)) : Option (Work (Action n)) :=
  event.work?.map Work.plain

/-- The calendar holds this immediate and this timed work, and nothing else. -/
structure Queued (c : Calendar (Action n)) (fifo : List (Work (Action n)))
    (timed : List (Instant × Work (Action n))) : Prop where
  immediate : c.immediate.map Event.plain? = fifo.map some
  timers : (c.timed.toList.map (fun e => (e.1, e.2.plain?))).Perm
    (timed.map (fun e => (Turn.dueAt e.1 e.2.id, some e.2)))
  apart : Apart timed

/-- What taking the next event comes to, for both. -/
inductive NextOf (c : Calendar (Action n)) (fifo : List (Work (Action n)))
    (timed : List (Instant × Work (Action n))) : Prop where
  | exhausted (none : c.next? = none) (noFifo : fifo = []) (noTimed : timed = [])
  | immediate (event : Event (Action n)) (work : Work (Action n)) (rest : List (Work (Action n)))
      (c' : Calendar (Action n)) (next : c.next? = some ((none, event), c'))
      (plain : event.plain? = some work) (head : fifo = work :: rest)
      (queued : Queued c' rest timed)
  | timed (event : Event (Action n)) (time : Instant) (work : Work (Action n))
      (c' : Calendar (Action n))
      (next : c.next? = some ((some (.dueAt time work.id), event), c'))
      (plain : event.plain? = some work) (noFifo : fifo = [])
      (first : first? timed = some (time, work))
      (queued : Queued c' [] (without work.id timed))

namespace Queued

variable {c : Calendar (Action n)} {fifo : List (Work (Action n))}
  {timed : List (Instant × Work (Action n))} {event : Event (Action n)} {work : Work (Action n)}

theorem empty : Queued (n := n) .empty [] [] := ⟨rfl, .nil, List.nodup_nil⟩

theorem pushImmediate (queued : Queued c fifo timed) (plain : event.plain? = some work) :
    Queued (c.pushImmediate event) (fifo ++ [work]) timed where
  immediate := by simp [Calendar.pushImmediate, queued.immediate, plain]
  timers := queued.timers
  apart := queued.apart

theorem pushTimed (queued : Queued c fifo timed) (plain : event.plain? = some work)
    (time : Instant) (fresh : ∀ e ∈ timed, e.2.id ≠ work.id) :
    Queued (c.pushTimed (.dueAt time work.id) event) fifo (timed ++ [(time, work)]) where
  immediate := queued.immediate
  timers := by
    have hinsert := (Agenda.toList_insert_perm c.timed (.dueAt time work.id) event).map
      (fun e => (e.1, e.2.plain?))
    rw [List.map_cons, plain] at hinsert
    rw [List.map_append]
    exact hinsert.trans ((queued.timers.cons _).trans (List.perm_append_singleton _ _).symm)
  apart := by
    have hperm := ((List.perm_append_singleton (time, work) timed).map (fun e => e.2.id))
    refine hperm.nodup_iff.2 (List.nodup_cons.2 ⟨fun hmem => ?_, queued.apart⟩)
    obtain ⟨e, he, hid⟩ := List.mem_map.1 hmem
    exact fresh e he hid

/-- The agenda of the calendar and the timed work, sorted, agree place by place. -/
theorem toList_eq_sorted (queued : Queued c fifo timed) :
    c.timed.toList.map (fun e => (e.1, e.2.plain?)) =
      (sorted timed).map (fun e => (Turn.dueAt e.1 e.2.id, some e.2)) := by
  have hsame := queued.timers.trans ((sorted_perm timed).symm.map _)
  have hagenda : (c.timed.toList.map (fun e => (e.1, e.2.plain?))).Pairwise
      (fun a b => a.1 ≤ b.1) := List.pairwise_map.2 c.timed.ordered
  have hsorted : ((sorted timed).map (fun e => (Turn.dueAt e.1 e.2.id, some e.2))).Pairwise
      (fun a b => a.1 ≤ b.1) :=
    List.pairwise_map.2 ((pairwise_sorted timed).imp dueAt_le_dueAt.2)
  refine hsame.eq_of_pairwise (fun a b ha hb hab hba => ?_) hagenda hsorted
  -- two turns go before each other only if they are those of one piece of work
  obtain ⟨d, hd, rfl⟩ := List.mem_map.1 (hsame.subset ha)
  obtain ⟨e, he, rfl⟩ := List.mem_map.1 hb
  have hturn : Turn.dueAt d.1 d.2.id = Turn.dueAt e.1 e.2.id := Std.le_antisymm hab hba
  rw [queued.apart.eq_of_id ((sorted_perm timed).subset hd) ((sorted_perm timed).subset he)
    (congrArg Turn.id hturn)]

/-- The event that the calendar takes is the work that is first in the lists. -/
theorem next (queued : Queued c fifo timed) : NextOf c fifo timed := by
  obtain ⟨immediate, agenda⟩ := c
  have himmediate := queued.immediate
  have htimers := queued.timers
  cases immediate with
  | cons event later =>
    cases fifo with
    | nil => cases himmediate
    | cons work rest =>
      obtain ⟨hplain, hrest⟩ := List.cons.inj himmediate
      exact .immediate event work rest _ rfl hplain rfl ⟨hrest, htimers, queued.apart⟩
  | nil =>
    obtain rfl : fifo = [] := by simpa using himmediate.symm
    cases hnext : agenda.next? with
    | none =>
      have hempty := Agenda.next?_eq_none_iff.1 hnext
      obtain rfl : timed = [] := by simpa [hempty] using htimers.length_eq.symm
      exact .exhausted (by simp [Calendar.next?, hnext]) rfl rfl
    | some found =>
      obtain ⟨⟨turn, event⟩, others⟩ := found
      have hlist := Agenda.next?_eq_some_iff.1 hnext
      simp only [hlist, List.map_cons] at htimers
      -- the head of the agenda is one of the timed; it is first since no turn goes before its own
      obtain ⟨⟨time, work⟩, hmem, hentry⟩ := List.mem_map.1 (htimers.subset List.mem_cons_self)
      obtain ⟨rfl, hplain⟩ := Prod.mk.inj hentry
      have hwithout := perm_without queued.apart hmem
      have hothers := htimers.trans (hwithout.map _)
      rw [List.map_cons, ← hplain] at hothers
      refine .timed event time work ⟨[], others⟩ (by simp [Calendar.next?, hnext]) hplain.symm rfl
        ((first?_eq_some_iff queued.apart).2 ⟨hmem, fun d hd => ?_⟩)
        ⟨rfl, hothers.cons_inv, ((hwithout.map _).nodup_iff.1 queued.apart).of_cons⟩
      refine dueAt_le_dueAt.1 ?_
      rcases List.mem_cons.1 (htimers.symm.subset (List.mem_map_of_mem hd)) with hhead | hlater
      · have hturn : Turn.dueAt d.1 d.2.id = Turn.dueAt time work.id := congrArg Prod.fst hhead
        exact hturn ▸ Std.le_refl _
      · obtain ⟨e, he, hkey⟩ := List.mem_map.1 hlater
        have hturn : e.1 = Turn.dueAt d.1 d.2.id := congrArg Prod.fst hkey
        exact hturn ▸ Agenda.le_of_next?_eq_some hnext he

end Queued

/-! ## The same view -/

/-- An event that brings work is no release. -/
theorem Event.of_plain? {event : Event (Action n)} {work : Work (Action n)}
    (plain : event.plain? = some work) :
    ∃ w : Work (Action n), work = w.plain ∧ (event = .direct w ∨ event = .routed w) := by
  cases event with
  | direct w => exact ⟨w, (Option.some.inj plain).symm, .inl rfl⟩
  | routed w => exact ⟨w, (Option.some.inj plain).symm, .inr rfl⟩
  | release id source => cases plain

theorem Event.eq_of_plain? {event : Event (Action n)} {work : Work (Action n)}
    (plain : event.plain? = some work) :
    event.id = work.id ∧ event.source = work.source ∧ event.description = work.description := by
  obtain ⟨w, rfl, rfl | rfl⟩ := Event.of_plain? plain <;> exact ⟨rfl, rfl, rfl⟩

/-- Events and work at the same places give the same listing. -/
theorem pending_eq (cancelled : List EventId) {entries : List (Option Turn × Event (Action n))}
    {waiting : List (Option Instant × Work (Action n))}
    (same : entries.map (fun e => (e.1.map Turn.time, e.2.plain?)) =
      waiting.map (fun e => (e.1, some e.2))) :
    (entries.filter (fun e => e.2.id ∉ cancelled)).map
        (fun e => Pending.mk e.2.id (e.1.map Turn.time) e.2.source e.2.description) =
      (waiting.filter (fun e => e.2.id ∉ cancelled)).map
        (fun e => Pending.mk e.2.id e.1 e.2.source e.2.description) := by
  induction entries generalizing waiting with
  | nil =>
    cases waiting with
    | nil => rfl
    | cons _ _ => cases same
  | cons entry later ih =>
    cases waiting with
    | nil => cases same
    | cons e rest =>
      obtain ⟨hhead, hrest⟩ := List.cons.inj same
      obtain ⟨htime, hplain⟩ := Prod.mk.inj hhead
      obtain ⟨hid, hsource, hdescription⟩ := Event.eq_of_plain? hplain
      simp only [List.filter_cons, hid]
      split
      · simp only [List.map_cons, htime, hid, hsource, hdescription, ih hrest]
      · exact ih hrest

/-- The reference simulator is in the same state as the simulation, none of whose sources was ever
stalled. -/
structure Mirrors (r : Reference.Simulation (Action n)) (s : Simulation (Action n)) : Prop where
  sources : r.sources = s.sources
  now : r.now = s.now
  nextId : r.nextId = s.nextId
  cancelled : r.cancelled = s.cancelled
  paused : r.paused = s.paused
  halted : r.halted = s.halted
  running : r.running = s.running
  processed : r.processed = s.processed
  trace : r.trace = s.trace
  active : r.active = s.active
  unstalled : s.phases = .empty
  queued : Queued s.calendar r.fifo r.timed
  ahead : ∀ e ∈ r.timed, r.now ≤ e.1
  issued : ∀ e ∈ r.timed, e.2.id.raw < r.nextId

/-- What both make of a submission. -/
inductive Accepts : Except Error (EventId × Simulation (Action n)) →
    Except Error (EventId × Reference.Simulation (Action n)) → Prop where
  | refused (e : Error) : Accepts (.error e) (.error e)
  | accepted (id : EventId) {s : Simulation (Action n)} {r : Reference.Simulation (Action n)}
      (mirrors : Mirrors r s) : Accepts (.ok (id, s)) (.ok (id, r))

/-- What both make of the next event. -/
inductive Dispatched : Simulation.Dispatch (Action n) → Reference.Dispatch (Action n) → Prop where
  | exhausted : Dispatched .exhausted .exhausted
  | dropped {s : Simulation (Action n)} {r : Reference.Simulation (Action n)}
      (mirrors : Mirrors r s) : Dispatched (.settled s) (.dropped r)
  | start (work : Work (Action n)) {s : Simulation (Action n)}
      {r : Reference.Simulation (Action n)} (mirrors : Mirrors r s) :
      Dispatched (.start work s) (.start work.plain r)

namespace Mirrors

variable {r : Reference.Simulation (Action n)} {s : Simulation (Action n)}

theorem create (config : Config Source) :
    Mirrors (n := n) (.create config) (.create config) :=
  ⟨rfl, rfl, rfl, rfl, rfl, rfl, rfl, rfl, rfl, rfl, rfl, .empty, List.forall_mem_nil _,
    List.forall_mem_nil _⟩

/-! ### Views -/

theorem phase (mirrors : Mirrors r s) (source : Source) : s.phase source = .running := by
  rw [Simulation.phase, mirrors.unstalled]
  rfl

theorem knows (mirrors : Mirrors r s) (source : Source) : r.knows source = s.knows source := by
  rw [Reference.Simulation.knows, Simulation.knows, mirrors.sources]

theorem isCancelled (mirrors : Mirrors r s) (id : EventId) :
    r.isCancelled id = s.isCancelled id := by
  rw [Reference.Simulation.isCancelled, Simulation.isCancelled, mirrors.cancelled]

theorem active? (mirrors : Mirrors r s) : r.active? = s.active? := by
  rw [Reference.Simulation.active?, Simulation.active?, mirrors.active]

/-- The calendar and the lists hold the same work at the same places. -/
theorem waiting (mirrors : Mirrors r s) :
    s.calendar.entries.map (fun e => (e.1.map Turn.time, e.2.plain?)) =
      r.waiting.map (fun e => (e.1, some e.2)) := by
  have himmediate := congrArg (List.map (fun work? => ((none : Option Instant), work?)))
    mirrors.queued.immediate
  have htimed := congrArg (List.map (fun e => (some e.1.time, e.2)))
    mirrors.queued.toList_eq_sorted
  rw [List.map_map, List.map_map] at himmediate htimed
  rw [Calendar.entries, Reference.Simulation.waiting, List.map_append, List.map_append,
    List.map_map, List.map_map, List.map_map, List.map_map]
  exact congrArg₂ _ himmediate htimed

theorem length_waiting (mirrors : Mirrors r s) : r.waiting.length = s.calendar.length := by
  have hlength := congrArg List.length mirrors.waiting
  rw [List.length_map, List.length_map] at hlength
  exact hlength.symm

theorem scheduledEvents (mirrors : Mirrors r s) : r.pendingEvents = s.scheduledEvents := by
  rw [Reference.Simulation.pendingEvents, mirrors.cancelled]
  exact (pending_eq s.cancelled mirrors.waiting).symm

/-- Nothing is held back for a source. -/
theorem pendingEvents (mirrors : Mirrors r s) : r.pendingEvents = s.pendingEvents := by
  have hdeferred : ∀ source, s.deferredEvents source = [] := by
    intro source
    rw [Simulation.deferredEvents, mirrors.phase]
    rfl
  simp [Simulation.pendingEvents, mirrors.scheduledEvents, hdeferred]

theorem pendingCount (mirrors : Mirrors r s) : r.pendingEvents.length = s.pendingCount := by
  rw [mirrors.scheduledEvents, Simulation.scheduledEvents, Calendar.pending, List.length_map]
  rfl

theorem status (mirrors : Mirrors r s) : r.status = s.status := by
  have hidle : r.waiting.isEmpty = s.calendar.isEmpty := by
    have hlength := mirrors.length_waiting
    rw [Bool.eq_iff_iff, Calendar.isEmpty, List.isEmpty_iff_length_eq_zero,
      List.isEmpty_iff_length_eq_zero, hlength, Calendar.length]
  have hstalled : s.pausedSources = [] := by
    simp [Simulation.pausedSources, mirrors.phase, Phase.isStalled, Phase.stall?]
  rw [Reference.Simulation.status, Simulation.status, mirrors.now, mirrors.processed,
    mirrors.pendingCount, hidle, mirrors.paused, mirrors.halted, mirrors.running, mirrors.active?,
    hstalled]

theorem sourceView (mirrors : Mirrors r s) (source : Source) :
    r.sourceView source = s.sourceView source := by
  simp [Reference.Simulation.sourceView, Simulation.sourceView, Simulation.deferredEvents,
    mirrors.phase, mirrors.now, mirrors.active?, mirrors.pendingCount, Phase.isStalled,
    Phase.stall?, Phase.deferred, Phase.held]

theorem text (mirrors : Mirrors r s) : r.text = s.text := by
  unfold Reference.Simulation.text Simulation.text
  rw [mirrors.now, mirrors.length_waiting, mirrors.paused, mirrors.halted]

theorem summary (mirrors : Mirrors r s) : r.summary = s.summary := by
  rw [Reference.Simulation.summary, Simulation.summary, mirrors.status, mirrors.pendingEvents,
    mirrors.trace, mirrors.text]

/-! ### Flags and counters -/

theorem pause (mirrors : Mirrors r s) : Mirrors r.pause s.pause := { mirrors with paused := rfl }

theorem unpause (mirrors : Mirrors r s) : Mirrors r.unpause s.unpause :=
  { mirrors with paused := rfl }

theorem halt (mirrors : Mirrors r s) : Mirrors r.halt s.halt := { mirrors with halted := rfl }

theorem enableTrace (mirrors : Mirrors r s) : Mirrors r.enableTrace s.enableTrace :=
  { mirrors with trace := congrArg (fun trace => some (Option.getD trace [])) mirrors.trace }

theorem cancel (mirrors : Mirrors r s) (id : EventId) : Mirrors (r.cancel id) (s.cancel id) :=
  { mirrors with cancelled := congrArg (addNew · id) mirrors.cancelled }

theorem endRun (mirrors : Mirrors r s) : Mirrors r.endRun s.endRun :=
  { mirrors with running := rfl }

theorem startAction (mirrors : Mirrors r s) (work : Work (Action n)) :
    Mirrors (r.startAction work.plain) (s.startAction work) :=
  { mirrors with
    processed := congrArg (· + 1) mirrors.processed
    trace := by
      rw [Reference.Simulation.startAction, Simulation.startAction, mirrors.trace, mirrors.now]
      rfl
    active := congrArg (work.source :: ·) mirrors.active }

theorem endAction (mirrors : Mirrors r s) : Mirrors r.endAction s.endAction :=
  { mirrors with active := congrArg List.tail mirrors.active }

theorem failAction (mirrors : Mirrors r s) : Mirrors r.failAction s.failAction :=
  mirrors.endAction.halt

/-! ### Submissions -/

section Submissions

variable (mirrors : Mirrors r s) {source : Source} {description : String} {action : Action n}

include mirrors

theorem plain_newWork :
    (Work.mk s.freshId source description action).plain =
      r.newWork source description action.plain := by
  rw [Work.plain, Reference.Simulation.newWork, Simulation.freshId, mirrors.nextId]

/-- Work that is handed in for an instant waits in both, whatever the way. -/
theorem accepts_timed (event : Event (Action n))
    (plain : event.plain? = some (Work.mk s.freshId source description action).plain)
    {time : Instant} (inTime : ¬ time < r.now) :
    Accepts (.ok (s.freshId, s.issue.postTimed (.dueAt time s.freshId) event))
      (.ok (⟨r.nextId⟩, { r with
        nextId := r.nextId + 1
        timed := r.timed ++ [(time, r.newWork source description action.plain)] })) := by
  have hid : EventId.mk r.nextId = s.freshId := congrArg EventId.mk mirrors.nextId
  rw [hid, ← mirrors.plain_newWork]
  refine .accepted _ { mirrors with nextId := ?_, queued := ?_, ahead := ?_, issued := ?_ }
  · exact congrArg (· + 1) mirrors.nextId
  · refine mirrors.queued.pushTimed plain time fun e he heq => ?_
    have hold := mirrors.issued e he
    rw [heq, Work.id_plain, ← hid] at hold
    exact Nat.lt_irrefl _ hold
  · simp only [List.forall_mem_append, List.forall_mem_singleton]
    exact ⟨mirrors.ahead, Std.not_lt.1 inTime⟩
  · simp only [List.forall_mem_append, List.forall_mem_singleton, Work.id_plain, ← hid]
    exact ⟨fun e he => Nat.lt_succ_of_lt (mirrors.issued e he), Nat.lt_succ_self _⟩

/-- Work that is handed in for now waits in both, whatever the way. -/
theorem accepts_now (event : Event (Action n))
    (plain : event.plain? = some (Work.mk s.freshId source description action).plain) :
    Accepts (.ok (s.freshId, s.issue.postNow event))
      (.ok (⟨r.nextId⟩, { r with
        nextId := r.nextId + 1
        fifo := r.fifo ++ [r.newWork source description action.plain] })) := by
  have hid : EventId.mk r.nextId = s.freshId := congrArg EventId.mk mirrors.nextId
  rw [hid, ← mirrors.plain_newWork]
  exact .accepted _ { mirrors with
    nextId := congrArg (· + 1) mirrors.nextId
    queued := mirrors.queued.pushImmediate plain
    issued := fun e he => Nat.lt_succ_of_lt (mirrors.issued e he) }

theorem submitDirectAt (time : Instant) :
    Accepts (s.submitDirectAt source time description action)
      (r.submitAt source time description action.plain) := by
  unfold Simulation.submitDirectAt Reference.Simulation.submitAt
  rw [mirrors.knows, ← mirrors.now]
  split
  · exact .refused _
  · rename_i hin
    split
    · exact mirrors.accepts_timed (.direct _) rfl hin
    · exact .refused _

/-- The two ways differ in which of two errors goes first, so the source is a configured one. -/
theorem submitAt (known : s.knows source = true) (time : Instant) :
    Accepts (s.submitAt source time description action)
      (r.submitAt source time description action.plain) := by
  have hrunning : s.issue.phase source = .running := mirrors.phase source
  unfold Simulation.submitAt Reference.Simulation.submitAt
  rw [mirrors.knows, ← mirrors.now, if_pos known, if_pos known]
  split
  · exact .refused _
  · rename_i hin
    simp only [Simulation.routeTimed, hrunning]
    exact mirrors.accepts_timed (.routed _) rfl hin

theorem submitDirectNow :
    Accepts (s.submitDirectNow source description action)
      (r.submitNow source description action.plain) := by
  unfold Simulation.submitDirectNow Reference.Simulation.submitNow
  rw [mirrors.knows]
  split
  · exact mirrors.accepts_now (.direct _) rfl
  · exact .refused _

theorem submitNow :
    Accepts (s.submitNow source description action)
      (r.submitNow source description action.plain) := by
  have hrunning : s.issue.phase source = .running := mirrors.phase source
  unfold Simulation.submitNow Reference.Simulation.submitNow
  rw [mirrors.knows]
  split
  · simp only [Simulation.routeNow, hrunning]
    exact mirrors.accepts_now (.routed _) rfl
  · exact .refused _

end Submissions

/-! ### Taking the next event -/

/-- The clock goes to the time of the work that is taken, and nothing that waits is behind it. -/
theorem take_timed (mirrors : Mirrors r s) {time : Instant} {work : Work (Action n)}
    {c : Calendar (Action n)} (first : first? r.timed = some (time, work))
    (queued : Queued c [] (without work.id r.timed)) :
    Mirrors { r with fifo := [], timed := without work.id r.timed, now := time }
      { s with calendar := c, now := s.now.advance time } := by
  obtain ⟨hmem, hleast⟩ := (first?_eq_some_iff mirrors.queued.apart).1 first
  refine { mirrors with now := ?_, queued := queued, ahead := ?_, issued := ?_ }
  · have hahead : r.now ≤ time := mirrors.ahead _ hmem
    rw [mirrors.now, Instant.le_def] at hahead
    rw [← Instant.toNat_inj, Instant.toNat_advance, Nat.max_eq_right hahead]
  · intro e he
    have hplace := Origin.le_iff_toNat.1 (hleast e (List.mem_of_mem_filter he))
    show time.toNat ≤ e.1.toNat
    simp only [place] at hplace
    omega
  · exact fun e he => mirrors.issued e (List.mem_of_mem_filter he)

/-- The next event is dropped if it was cancelled, and no release; its action starts, whichever way
it was handed in. -/
theorem dispatch (mirrors : Mirrors r s) : Dispatched s.dispatch r.dispatch := by
  unfold Simulation.dispatch Reference.Simulation.dispatch
  cases mirrors.queued.next with
  | exhausted hnone hfifo htimed =>
    rw [hnone, hfifo, htimed]
    exact .exhausted
  | immediate event work rest c' hnext hplain hhead hqueued =>
    have hid := (Event.eq_of_plain? hplain).1
    have htaken : Mirrors { r with fifo := rest } { s with calendar := c' } :=
      { mirrors with queued := hqueued }
    simp only [hnext, hhead, hid, mirrors.isCancelled]
    split
    · exact .dropped htaken
    · obtain ⟨w, rfl, rfl | rfl⟩ := Event.of_plain? hplain
      · exact .start w htaken
      · simp only [mirrors.phase]
        exact .start w htaken
  | timed event time work c' hnext hplain hfifo hfirst hqueued =>
    have hid := (Event.eq_of_plain? hplain).1
    simp only [hnext, hfifo, hfirst, hid, mirrors.isCancelled]
    split
    · exact .dropped { mirrors with
        queued := hqueued
        ahead := fun e he => mirrors.ahead e (List.mem_of_mem_filter he)
        issued := fun e he => mirrors.issued e (List.mem_of_mem_filter he) }
    · have htaken := mirrors.take_timed hfirst hqueued
      obtain ⟨w, rfl, rfl | rfl⟩ := Event.of_plain? hplain
      · exact .start w htaken
      · simp only [mirrors.phase]
        exact .start w htaken

end Mirrors

end StallSim
