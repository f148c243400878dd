import Mathlib.Data.List.AList
import StallSim.Calendar

/-!
# The calendar over an arena

The calendar keeps its events in the order in which they will be taken.  Here the same events lie in
an arena under their ids, in no order.  A queue has the ids of the immediate ones, a heap the turns
of the timed ones, and a cancelled event stays where it is.  An event can be taken and come back
later under its id, with another turn and another flag.

* `EventStore` — the arena, the queue and the heap; `EventStore.pop`, `EventStore.pending`,
  `EventStore.liveCount` — what is read off them.
* `StoreOp` — what can be done with a store or a calendar; `EventStore.Admits` — what is asked of a
  push.
* `EventStore.Delivers` — the events that come out if nothing else is done.
* `EventStore.Mirrors` — the store has the events of a calendar.

Principal results: `Mirrors.perform` — every operation keeps the store and the calendar together;
`store_exact` — after any sequence of operations.
-/

set_option autoImplicit false

namespace StallSim

variable {α : Type}

/-! ## The store -/

/-- An event, with the number of the flag by which it is cancelled. -/
structure Flagged (α : Type) where
  event : Event α
  flag : Nat

/-- Events in an arena. -/
structure EventStore (α : Type) where
  arena : AList (fun _ : EventId => Flagged α)
  /-- The ids of the immediate events, in the order in which they came. -/
  queue : List EventId
  /-- The turns of the timed events, in no order. -/
  heap : List Turn
  /-- How many ids were handed out. -/
  issued : Nat
  /-- The flags that were raised. -/
  raised : List Nat

/-- The least of the turns `k` and `turns`, and the others. -/
def leastTurn (k : Turn) : List Turn → Turn × List Turn
  | [] => (k, [])
  | d :: turns =>
    if k ≤ d then ((leastTurn k turns).1, d :: (leastTurn k turns).2)
    else ((leastTurn d turns).1, k :: (leastTurn d turns).2)

/-- Take the least turn from a heap. -/
def popLeast : List Turn → Option (Turn × List Turn)
  | [] => none
  | k :: turns => some (leastTurn k turns)

/-- The least turn goes before all others. -/
theorem leastTurn_spec (k : Turn) (turns : List Turn) :
    (k :: turns).Perm ((leastTurn k turns).1 :: (leastTurn k turns).2) ∧
      ∀ d ∈ k :: turns, (leastTurn k turns).1 ≤ d := by
  induction turns generalizing k with
  | nil =>
    refine ⟨.refl _, fun d hd => ?_⟩
    rw [List.mem_singleton.1 hd]
    exact Std.le_refl k
  | cons d turns ih =>
    by_cases hle : k ≤ d
    · obtain ⟨hperm, hleast⟩ := ih k
      simp only [leastTurn, if_pos hle]
      refine ⟨?_, fun e he => ?_⟩
      · exact (List.Perm.swap d k turns).trans ((hperm.cons d).trans (.swap _ _ _))
      · have hk := hleast k List.mem_cons_self
        rcases List.mem_cons.1 he with rfl | he
        · exact hk
        · rcases List.mem_cons.1 he with rfl | he
          · exact Std.le_trans hk hle
          · exact hleast e (List.mem_cons_of_mem k he)
    · obtain ⟨hperm, hleast⟩ := ih d
      have hlt : d ≤ k := (Std.le_total (a := d) (b := k)).resolve_right hle
      simp only [leastTurn, if_neg hle]
      refine ⟨(hperm.cons k).trans (.swap _ _ _), fun e he => ?_⟩
      rcases List.mem_cons.1 he with rfl | he
      · exact Std.le_trans (hleast d List.mem_cons_self) hlt
      · exact hleast e he

theorem popLeast_spec {heap rest : List Turn} {turn : Turn}
    (taken : popLeast heap = some (turn, rest)) :
    heap.Perm (turn :: rest) ∧ ∀ d ∈ heap, turn ≤ d := by
  cases heap with
  | nil => cases taken
  | cons k turns =>
    have hspec := leastTurn_spec k turns
    rwa [Option.some.inj taken] at hspec

namespace EventStore

/-- The store without events. -/
def empty : EventStore α := ⟨∅, [], [], 0, []⟩

/-- Hand out an id. -/
def issue (s : EventStore α) : EventStore α := { s with issued := s.issued + 1 }

/-- Raise a flag. -/
def raise (s : EventStore α) (flag : Nat) : EventStore α := { s with raised := flag :: s.raised }

/-- Let an event wait behind the other immediate ones. -/
def pushImmediate (s : EventStore α) (item : Flagged α) : EventStore α :=
  { s with queue := s.queue ++ [item.event.id], arena := s.arena.insert item.event.id item }

/-- Let an event wait for its turn. -/
def pushTimed (s : EventStore α) (turn : Turn) (item : Flagged α) : EventStore α :=
  { s with heap := turn :: s.heap, arena := s.arena.insert item.event.id item }

/-- Take ids from the queue until one of them is in the arena. -/
def takeQueued (arena : AList (fun _ : EventId => Flagged α)) :
    List EventId → Option (EventId × Flagged α) × List EventId
  | [] => (none, [])
  | id :: queue =>
    match arena.lookup id with
    | some item => (some (id, item), queue)
    | none => takeQueued arena queue

/-- Take turns from the heap until the id of one of them is in the arena. -/
def takeTimed (arena : AList (fun _ : EventId => Flagged α)) (heap : List Turn) :
    Option (Turn × Flagged α) × List Turn :=
  match _taken : popLeast heap with
  | none => (none, [])
  | some (turn, rest) =>
    match arena.lookup turn.id with
    | some item => (some (turn, item), rest)
    | none => takeTimed arena rest
termination_by heap.length
decreasing_by
  have hperm := (popLeast_spec _taken).1
  simp [hperm.length_eq]

/-- The next event with its turn, and the store without it. -/
def pop (s : EventStore α) : Option (Option Turn × Flagged α) × EventStore α :=
  match takeQueued s.arena s.queue with
  | (some (id, item), queue) =>
    (some (none, item), { s with arena := s.arena.erase id, queue := queue })
  | (none, queue) =>
    match takeTimed s.arena s.heap with
    | (some (turn, item), heap) =>
      (some (some turn, item),
        { s with arena := s.arena.erase turn.id, queue := queue, heap := heap })
    | (none, heap) => (none, { s with queue := queue, heap := heap })

/-- How many events wait, cancelled ones among them. -/
def length (s : EventStore α) : Nat := s.arena.entries.length

/-- How many events wait and will still run. -/
def liveCount (s : EventStore α) : Nat :=
  (s.arena.entries.filter (fun e => e.2.flag ∉ s.raised)).length

/-- The ids of the events that wait, with their times: the queue, then the heap in sorted order. -/
def view (s : EventStore α) : List (Option Instant × EventId) :=
  s.queue.map (fun id => (none, id)) ++
    (s.heap.mergeSort (fun a b => decide (a ≤ b))).map (fun turn => (some turn.time, turn.id))

/-- The events that wait and will still run, as an observer sees them. -/
def pending (s : EventStore α) : List Pending :=
  s.view.filterMap fun e =>
    match s.arena.lookup e.2 with
    | none => none
    | some item =>
      if item.flag ∈ s.raised then none
      else some ⟨e.2, e.1, item.event.source, item.event.description⟩

/-- The ids of the events that wait and are cancelled. -/
def cancelled (s : EventStore α) : List EventId :=
  (s.arena.entries.filter (fun e => e.2.flag ∈ s.raised)).map Sigma.fst

/-- The events that come out, one after the other, until there are none. -/
inductive Delivers : EventStore α → List (Option Turn × Flagged α) → Prop where
  | none {s : EventStore α} (last : s.pop.1 = none) : Delivers s []
  | next {s : EventStore α} {e : Option Turn × Flagged α} {later : List (Option Turn × Flagged α)}
      (first : s.pop.1 = some e) (rest : Delivers s.pop.2 later) : Delivers s (e :: later)

end EventStore

/-! ## Operations -/

/-- What can be done with a store, or with a calendar. -/
inductive StoreOp (α : Type) where
  | issue
  | pushImmediate (item : Flagged α)
  | pushTimed (turn : Turn) (item : Flagged α)
  | raise (flag : Nat)
  | pop

/-- Carry out an operation on a store. -/
def EventStore.perform (s : EventStore α) : StoreOp α → EventStore α
  | .issue => s.issue
  | .pushImmediate item => s.pushImmediate item
  | .pushTimed turn item => s.pushTimed turn item
  | .raise flag => s.raise flag
  | .pop => s.pop.2

/-- Carry out an operation on a calendar, which knows neither the ids that are handed out nor the
flags that are raised. -/
def Calendar.perform (c : Calendar α) : StoreOp α → Calendar α
  | .issue => c
  | .pushImmediate item => c.pushImmediate item.event
  | .pushTimed turn item => c.pushTimed turn item.event
  | .raise _ => c
  | .pop => (c.next?.map Prod.snd).getD c

/-- An event may be pushed under an id that was handed out and under which no event waits. -/
def EventStore.Free (s : EventStore α) (id : EventId) : Prop :=
  id.raw < s.issued ∧ id ∉ s.queue ++ s.heap.map Turn.id

/-- What is asked of an operation. -/
def EventStore.Admits (s : EventStore α) : StoreOp α → Prop
  | .pushImmediate item => s.Free item.event.id
  | .pushTimed turn item => s.Free item.event.id ∧ turn.id = item.event.id
  | _ => True

/-- The store admits the operations, one after the other. -/
def EventStore.AdmitsAll (s : EventStore α) : List (StoreOp α) → Prop
  | [] => True
  | op :: later => s.Admits op ∧ (s.perform op).AdmitsAll later

instance (s : EventStore α) (id : EventId) : Decidable (s.Free id) :=
  inferInstanceAs (Decidable (_ ∧ _))

instance (s : EventStore α) : (op : StoreOp α) → Decidable (s.Admits op)
  | .issue => isTrue trivial
  | .pushImmediate item => inferInstanceAs (Decidable (s.Free item.event.id))
  | .pushTimed _ item => inferInstanceAs (Decidable (s.Free item.event.id ∧ _))
  | .raise _ => isTrue trivial
  | .pop => isTrue trivial

instance EventStore.decidableAdmitsAll :
    (s : EventStore α) → (ops : List (StoreOp α)) → Decidable (s.AdmitsAll ops)
  | _, [] => isTrue trivial
  | s, op :: later =>
    have := decidableAdmitsAll (s.perform op) later
    inferInstanceAs (Decidable (s.Admits op ∧ (s.perform op).AdmitsAll later))

/-! ## The store and the calendar -/

/-- The store has the events of the calendar. -/
structure EventStore.Mirrors (s : EventStore α) (c : Calendar α) : Prop where
  queue : c.immediate.map Event.id = s.queue
  heap : (c.timed.toList.map Prod.fst).Perm s.heap
  turns : ∀ e ∈ c.timed.toList, e.1.id = e.2.id
  distinct : (c.entries.map (fun e => e.2.id)).Nodup
  arena : ∀ id, id ∈ s.arena ↔ id ∈ c.entries.map (fun e => e.2.id)
  found : ∀ e ∈ c.entries, ∃ flag, s.arena.lookup e.2.id = some ⟨e.2, flag⟩

namespace EventStore

variable {s : EventStore α} {c : Calendar α}

/-- The ids of the queue and of the heap are those of the calendar. -/
theorem Mirrors.ids (mirrors : Mirrors s c) :
    (c.entries.map (fun e => e.2.id)).Perm (s.queue ++ s.heap.map Turn.id) := by
  have hturns : c.timed.toList.map (fun e => e.2.id) =
      (c.timed.toList.map Prod.fst).map Turn.id := by
    rw [List.map_map]
    exact List.map_congr_left fun e he => (mirrors.turns e he).symm
  rw [Calendar.entries, List.map_append, List.map_map, List.map_map]
  refine List.Perm.append (.of_eq mirrors.queue) ?_
  exact (List.Perm.of_eq hturns).trans (mirrors.heap.map Turn.id)

theorem Mirrors.mem_iff (mirrors : Mirrors s c) (id : EventId) :
    id ∈ s.arena ↔ id ∈ s.queue ++ s.heap.map Turn.id := by
  rw [mirrors.arena, mirrors.ids.mem_iff]

theorem mirrors_empty : Mirrors (empty : EventStore α) .empty where
  queue := rfl
  heap := .refl _
  turns e he := by cases he
  distinct := List.nodup_nil
  arena id := by simp [empty, Calendar.empty, Calendar.entries]
  found e he := by simp [Calendar.empty, Calendar.entries] at he

/-- An event comes in under an id under which none waits. -/
theorem Mirrors.push (mirrors : Mirrors s c) {item : Flagged α}
    (free : item.event.id ∉ s.queue ++ s.heap.map Turn.id) {turn : Option Turn} {c' : Calendar α}
    (entries : c'.entries.Perm ((turn, item.event) :: c.entries)) {queue : List EventId}
    {heap : List Turn} (hqueue : c'.immediate.map Event.id = queue)
    (hheap : (c'.timed.toList.map Prod.fst).Perm heap)
    (turns : ∀ e ∈ c'.timed.toList, e.1.id = e.2.id) :
    Mirrors { s with queue := queue, heap := heap,
                     arena := s.arena.insert item.event.id item } c' := by
  have hids := entries.map (fun e => e.2.id)
  rw [List.map_cons] at hids
  have hnew : item.event.id ∉ c.entries.map (fun e => e.2.id) := by
    rwa [mirrors.ids.mem_iff]
  refine ⟨hqueue, hheap, turns, ?_, fun id => ?_, fun e he => ?_⟩
  · exact hids.nodup_iff.2 (List.nodup_cons.2 ⟨hnew, mirrors.distinct⟩)
  · rw [AList.mem_insert, mirrors.arena, hids.mem_iff, List.mem_cons]
  · rcases List.mem_cons.1 (entries.mem_iff.1 he) with rfl | hold
    · exact ⟨item.flag, AList.lookup_insert s.arena⟩
    · obtain ⟨flag, hflag⟩ := mirrors.found e hold
      have hne : e.2.id ≠ item.event.id := fun hsame =>
        hnew (hsame ▸ List.mem_map_of_mem hold)
      exact ⟨flag, (AList.lookup_insert_ne hne).trans hflag⟩

theorem Mirrors.pushImmediate (mirrors : Mirrors s c) {item : Flagged α}
    (free : s.Free item.event.id) :
    Mirrors (s.pushImmediate item) (c.pushImmediate item.event) := by
  have hentries : (c.pushImmediate item.event).entries.Perm ((none, item.event) :: c.entries) := by
    rw [Calendar.entries_pushImmediate]
    exact List.perm_middle
  refine mirrors.push free.2 hentries ?_ mirrors.heap mirrors.turns
  rw [Calendar.pushImmediate, List.map_append, mirrors.queue]
  rfl

theorem Mirrors.pushTimed (mirrors : Mirrors s c) {turn : Turn} {item : Flagged α}
    (free : s.Free item.event.id) (own : turn.id = item.event.id) :
    Mirrors (s.pushTimed turn item) (c.pushTimed turn item.event) := by
  have hinsert := c.timed.toList_insert_perm turn item.event
  have hentries : (c.pushTimed turn item.event).entries.Perm
      ((some turn, item.event) :: c.entries) := by
    rw [Calendar.entries_pushTimed]
    exact ((hinsert.map _).append_left _).trans List.perm_middle
  refine mirrors.push free.2 hentries mirrors.queue ?_ fun e he => ?_
  · exact (hinsert.map Prod.fst).trans (mirrors.heap.cons turn)
  · rcases Agenda.mem_insert.1 he with rfl | hold
    · exact own
    · exact mirrors.turns e hold

/-! ### Taking an event -/

/-- An event that goes out of the calendar goes out of the arena. -/
theorem Mirrors.erase (mirrors : Mirrors s c) {e : Option Turn × Event α} {rest : Calendar α}
    (entries : c.entries = e :: rest.entries) {queue : List EventId} {heap : List Turn}
    (hqueue : rest.immediate.map Event.id = queue)
    (hheap : (rest.timed.toList.map Prod.fst).Perm heap)
    (turns : ∀ e ∈ rest.timed.toList, e.1.id = e.2.id) :
    Mirrors { s with arena := s.arena.erase e.2.id, queue := queue, heap := heap } rest := by
  have hdistinct := mirrors.distinct
  rw [entries, List.map_cons, List.nodup_cons] at hdistinct
  refine ⟨hqueue, hheap, turns, hdistinct.2, fun id => ?_, fun d hd => ?_⟩
  · rw [AList.mem_erase, mirrors.arena, entries, List.map_cons, List.mem_cons]
    constructor
    · rintro ⟨hne, heq | hmem⟩
      · exact absurd heq hne
      · exact hmem
    · intro hmem
      exact ⟨fun heq => hdistinct.1 (heq ▸ hmem), .inr hmem⟩
  · obtain ⟨flag, hflag⟩ := mirrors.found d (entries ▸ List.mem_cons_of_mem e hd)
    have hne : d.2.id ≠ e.2.id := fun heq => hdistinct.1 (heq ▸ List.mem_map_of_mem hd)
    exact ⟨flag, (AList.lookup_erase_ne hne).trans hflag⟩

/-- What a store gives out next: the first of the queue, the least of the heap where the queue is
empty, or nothing. -/
inductive Pops (s : EventStore α) : Option (Option Turn × Flagged α) × EventStore α → Prop where
  | first (id : EventId) (queue : List EventId) (item : Flagged α)
      (queued : s.queue = id :: queue) (found : s.arena.lookup id = some item) :
      Pops s (some (none, item), { s with arena := s.arena.erase id, queue := queue })
  | least (turn : Turn) (heap : List Turn) (item : Flagged α) (empty : s.queue = [])
      (waits : s.heap.Perm (turn :: heap)) (least : ∀ d ∈ s.heap, turn ≤ d)
      (found : s.arena.lookup turn.id = some item) :
      Pops s (some (some turn, item), { s with arena := s.arena.erase turn.id, heap := heap })
  | nothing (queue : s.queue = []) (heap : s.heap = []) : Pops s (none, s)

/-- The next event of the calendar has come out of the store, and the rest is still in both. -/
structure Follows (s : EventStore α) (e : Option Turn × Event α) (rest : Calendar α) (flag : Nat) :
    Prop where
  found : s.arena.lookup e.2.id = some ⟨e.2, flag⟩
  out : s.pop.1 = some (e.1, ⟨e.2, flag⟩)
  arena : s.pop.2.arena = s.arena.erase e.2.id
  raised : s.pop.2.raised = s.raised
  mirrors : Mirrors s.pop.2 rest

theorem pop_first {id : EventId} {queue : List EventId} {item : Flagged α}
    (queued : s.queue = id :: queue) (found : s.arena.lookup id = some item) :
    s.pop = (some (none, item), { s with arena := s.arena.erase id, queue := queue }) := by
  simp only [pop, queued, takeQueued, found]

theorem pop_least {turn : Turn} {heap : List Turn} {item : Flagged α} (empty : s.queue = [])
    (least : popLeast s.heap = some (turn, heap)) (found : s.arena.lookup turn.id = some item) :
    s.pop = (some (some turn, item), { s with arena := s.arena.erase turn.id, heap := heap }) := by
  have htimed : takeTimed s.arena s.heap = (some (turn, item), heap) := by
    rw [takeTimed]
    split
    · rename_i hnone
      cases hnone.symm.trans least
    · rename_i hsome
      cases hsome.symm.trans least
      rw [found]
  obtain ⟨arena, queue, heap', issued, raised⟩ := s
  cases empty
  simp only [pop, takeQueued, htimed]

theorem pop_nothing (queue : s.queue = []) (heap : s.heap = []) : s.pop = (none, s) := by
  have htimed : takeTimed s.arena s.heap = (none, []) := by
    rw [heap, takeTimed]
    rfl
  obtain ⟨arena, queue', heap', issued, raised⟩ := s
  cases queue
  cases heap
  simp only [pop, takeQueued, htimed]

/-- The turn at the head of the calendar is the one that is taken from the heap. -/
theorem Mirrors.popLeast (mirrors : Mirrors s c) {e : Turn × Event α}
    {rest : Agenda Turn (Event α)} (taken : c.timed.next? = some (e, rest)) :
    ∃ heap, popLeast s.heap = some (e.1, heap) ∧ (rest.toList.map Prod.fst).Perm heap ∧
      s.heap.Perm (e.1 :: heap) ∧ ∀ d ∈ s.heap, e.1 ≤ d := by
  have hheap := mirrors.heap
  rw [Agenda.next?_eq_some_iff.1 taken, List.map_cons] at hheap
  have hfirst : ∀ d ∈ s.heap, e.1 ≤ d := by
    intro d hd
    rcases List.mem_cons.1 (hheap.mem_iff.2 hd) with rfl | hlater
    · exact Std.le_refl _
    · obtain ⟨f, hf, rfl⟩ := List.mem_map.1 hlater
      exact Agenda.le_of_next?_eq_some taken hf
  cases htaken : StallSim.popLeast s.heap with
  | none =>
    have hnil : s.heap = [] := by
      cases hturns : s.heap with
      | nil => rfl
      | cons k turns =>
        rw [hturns] at htaken
        cases htaken
    rw [hnil] at hheap
    cases hheap.length_eq
  | some found =>
    obtain ⟨turn, heap⟩ := found
    obtain ⟨hperm, hleast⟩ := popLeast_spec htaken
    have hsame : turn = e.1 :=
      Std.le_antisymm (hleast _ (hheap.mem_iff.1 List.mem_cons_self))
        (hfirst _ (hperm.mem_iff.2 List.mem_cons_self))
    subst hsame
    exact ⟨heap, rfl, (hheap.trans hperm).cons_inv, hperm, hfirst⟩

/-- The head of the queue comes out. -/
theorem Mirrors.takes_first {event : Event α} {immediate : List (Event α)}
    {timed : Agenda Turn (Event α)} (mirrors : Mirrors s ⟨event :: immediate, timed⟩) :
    Pops s s.pop ∧ ∃ flag, Follows s (none, event) ⟨immediate, timed⟩ flag := by
  have hqueue : s.queue = event.id :: immediate.map Event.id := mirrors.queue.symm
  obtain ⟨flag, hfound⟩ := mirrors.found (none, event) List.mem_cons_self
  have hpop := pop_first hqueue hfound
  have hentries : Calendar.entries ⟨event :: immediate, timed⟩ =
      (none, event) :: Calendar.entries ⟨immediate, timed⟩ := Calendar.next?_eq_some_iff.1 rfl
  refine ⟨?_, flag, hfound, ?_, ?_, ?_, ?_⟩ <;> rw [hpop]
  · exact .first _ _ _ hqueue hfound
  · exact mirrors.erase hentries rfl mirrors.heap mirrors.turns

/-- The event of the least turn comes out, if the queue is empty. -/
theorem Mirrors.takes_least {timed rest : Agenda Turn (Event α)} {e : Turn × Event α}
    (mirrors : Mirrors s ⟨[], timed⟩) (taken : timed.next? = some (e, rest)) :
    Pops s s.pop ∧ ∃ flag, Follows s (some e.1, e.2) ⟨[], rest⟩ flag := by
  have hlist : timed.toList = e :: rest.toList := Agenda.next?_eq_some_iff.1 taken
  have hentries : Calendar.entries ⟨[], timed⟩ =
      (some e.1, e.2) :: Calendar.entries ⟨[], rest⟩ := by
    simp [Calendar.entries, hlist]
  have hown : e.1.id = e.2.id := mirrors.turns e (hlist ▸ List.mem_cons_self)
  obtain ⟨heap, hleast, hperm, hwaits, hfirst⟩ := mirrors.popLeast taken
  obtain ⟨flag, hfound⟩ := mirrors.found (some e.1, e.2) (hentries ▸ List.mem_cons_self)
  have hfound' : s.arena.lookup e.1.id = some ⟨e.2, flag⟩ := hown ▸ hfound
  have hpop := pop_least mirrors.queue.symm hleast hfound'
  have hturns : ∀ d ∈ rest.toList, d.1.id = d.2.id := fun d hd =>
    mirrors.turns d (hlist ▸ List.mem_cons_of_mem e hd)
  refine ⟨?_, flag, hfound, ?_, ?_, ?_, ?_⟩ <;> rw [hpop]
  · exact .least e.1 heap _ mirrors.queue.symm hwaits hfirst hfound'
  · rw [hown]
  · rw [hown]
    exact mirrors.erase hentries mirrors.queue hperm hturns

/-- Nothing comes out of a store without events. -/
theorem Mirrors.takes_nothing {timed : Agenda Turn (Event α)} (mirrors : Mirrors s ⟨[], timed⟩)
    (none : timed.next? = none) : Pops s s.pop ∧ s.pop.1 = .none ∧ s.pop.2 = s := by
  have hlist : timed.toList = [] := Agenda.next?_eq_none_iff.1 none
  have hheap : s.heap = [] := by
    have hperm := mirrors.heap
    rw [show Calendar.timed _ = timed from rfl, hlist] at hperm
    exact hperm.symm.eq_nil
  rw [pop_nothing mirrors.queue.symm hheap]
  exact ⟨.nothing mirrors.queue.symm hheap, rfl, rfl⟩

/-- **What comes out of the store is what comes out of the calendar**, and no entry is skipped. -/
theorem Mirrors.pop (mirrors : Mirrors s c) :
    Pops s s.pop ∧ (c.next? = none → s.pop.1 = none ∧ s.pop.2 = s) ∧
      ∀ e rest, c.next? = some (e, rest) → ∃ flag, Follows s e rest flag := by
  obtain ⟨immediate, timed⟩ := c
  cases immediate with
  | cons event immediate =>
    obtain ⟨hpops, hfollows⟩ := mirrors.takes_first
    refine ⟨hpops, fun hnone => (by cases hnone), fun e rest htaken => ?_⟩
    cases htaken
    exact hfollows
  | nil =>
    cases htimed : timed.next? with
    | none =>
      have hnext : Calendar.next? ⟨[], timed⟩ = none := by simp [Calendar.next?, htimed]
      obtain ⟨hpops, hnothing⟩ := mirrors.takes_nothing htimed
      refine ⟨hpops, fun _ => hnothing, fun e rest htaken => ?_⟩
      cases hnext.symm.trans htaken
    | some taken =>
      obtain ⟨e, rest⟩ := taken
      have hnext : Calendar.next? ⟨[], timed⟩ = some ((some e.1, e.2), ⟨[], rest⟩) := by
        simp [Calendar.next?, htimed]
      obtain ⟨hpops, hfollows⟩ := mirrors.takes_least htimed
      refine ⟨hpops, fun hnone => (by cases hnext.symm.trans hnone), fun d rest' htaken => ?_⟩
      cases hnext.symm.trans htaken
      exact hfollows

/-- **Every operation keeps the store and the calendar together.** -/
theorem Mirrors.perform (mirrors : Mirrors s c) {op : StoreOp α} (admits : s.Admits op) :
    Mirrors (s.perform op) (c.perform op) := by
  cases op with
  | issue => exact ⟨mirrors.queue, mirrors.heap, mirrors.turns, mirrors.distinct, mirrors.arena,
      mirrors.found⟩
  | raise flag => exact ⟨mirrors.queue, mirrors.heap, mirrors.turns, mirrors.distinct,
      mirrors.arena, mirrors.found⟩
  | pushImmediate item => exact mirrors.pushImmediate admits
  | pushTimed turn item => exact mirrors.pushTimed admits.1 admits.2
  | pop =>
    obtain ⟨-, hnothing, hsome⟩ := mirrors.pop
    show Mirrors s.pop.2 ((c.next?.map Prod.snd).getD c)
    cases hnext : c.next? with
    | none =>
      rw [(hnothing hnext).2]
      exact mirrors
    | some taken =>
      obtain ⟨flag, hfollows⟩ := hsome taken.1 taken.2 hnext
      exact hfollows.mirrors

theorem Mirrors.performAll (mirrors : Mirrors s c) {ops : List (StoreOp α)}
    (admits : s.AdmitsAll ops) :
    Mirrors (ops.foldl EventStore.perform s) (ops.foldl Calendar.perform c) := by
  induction ops generalizing s c with
  | nil => exact mirrors
  | cons op later ih => exact ih (mirrors.perform admits.1) admits.2

/-! ## What is seen -/

/-- An event that waits is cancelled if its flag is raised. -/
theorem mem_cancelled {id : EventId} {item : Flagged α} (found : s.arena.lookup id = some item) :
    id ∈ s.cancelled ↔ item.flag ∈ s.raised := by
  have hmem := AList.mem_lookup_iff.1 (Option.mem_def.2 found)
  simp only [cancelled, List.mem_map, List.mem_filter, decide_eq_true_eq]
  constructor
  · rintro ⟨⟨id', item'⟩, ⟨hother, hraised⟩, rfl⟩
    have hsame := Option.mem_def.1 (AList.mem_lookup_iff.2 hother)
    cases found.symm.trans hsame
    exact hraised
  · intro hraised
    exact ⟨⟨id, item⟩, ⟨hmem, hraised⟩, rfl⟩

/-- The ids in the arena are those of the calendar. -/
theorem Mirrors.keys (mirrors : Mirrors s c) :
    s.arena.keys.Perm (c.entries.map (fun e => e.2.id)) :=
  (List.perm_ext_iff_of_nodup s.arena.keys_nodup mirrors.distinct).2 fun id => by
    rw [← AList.mem_keys]
    exact mirrors.arena id

/-- The turns of the heap, sorted, are those of the calendar. -/
theorem Mirrors.sorted (mirrors : Mirrors s c) :
    s.heap.mergeSort (fun a b => decide (a ≤ b)) = c.timed.toList.map Prod.fst := by
  have hperm := (List.mergeSort_perm s.heap (fun a b => decide (a ≤ b))).trans mirrors.heap.symm
  have hsorted : (s.heap.mergeSort (fun a b => decide (a ≤ b))).Pairwise (· ≤ ·) := by
    refine (List.pairwise_mergeSort ?_ ?_ s.heap).imp of_decide_eq_true
    · intro a b d hab hbd
      exact decide_eq_true (Std.le_trans (of_decide_eq_true hab) (of_decide_eq_true hbd))
    · intro a b
      rw [Bool.or_eq_true, decide_eq_true_eq, decide_eq_true_eq]
      exact Std.le_total
  have hordered : (c.timed.toList.map Prod.fst).Pairwise (· ≤ ·) :=
    List.pairwise_map.2 c.timed.ordered
  exact hperm.eq_of_pairwise (fun a b _ _ hab hba => Std.le_antisymm hab hba) hsorted hordered

/-- The queue and the sorted heap show the events of the calendar in their order. -/
theorem Mirrors.view (mirrors : Mirrors s c) :
    s.view = c.entries.map (fun e => (e.1.map Turn.time, e.2.id)) := by
  rw [EventStore.view, mirrors.sorted, ← mirrors.queue, Calendar.entries, List.map_append,
    List.map_map, List.map_map, List.map_map, List.map_map]
  refine congrArg _ (List.map_congr_left fun e he => ?_)
  exact congrArg (Prod.mk (some e.1.time)) (mirrors.turns e he)

/-- What an observer sees of the store is what an observer sees of the calendar. -/
theorem Mirrors.pending (mirrors : Mirrors s c) : s.pending = c.pending s.cancelled := by
  rw [EventStore.pending, mirrors.view, List.filterMap_map, Calendar.pending, Calendar.live,
    ← List.filterMap_eq_map, List.filterMap_filter]
  refine List.filterMap_congr fun e he => ?_
  obtain ⟨flag, hfound⟩ := mirrors.found e he
  have hcancelled := mem_cancelled hfound
  simp only [Function.comp_apply, hfound, hcancelled]
  by_cases hraised : flag ∈ s.raised <;> simp [hraised]

theorem Mirrors.length (mirrors : Mirrors s c) : s.length = c.length := by
  have hkeys := mirrors.keys.length_eq
  rwa [List.length_map, AList.keys, List.keys, List.length_map] at hkeys

/-- The events that will still run are counted right. -/
theorem Mirrors.liveCount (mirrors : Mirrors s c) : s.liveCount = (c.live s.cancelled).length := by
  have hcount : s.liveCount = (s.arena.keys.filter (fun id => id ∉ s.cancelled)).length := by
    rw [AList.keys, List.keys, List.filter_map, List.length_map, EventStore.liveCount]
    refine congrArg List.length (List.filter_congr fun e he => ?_)
    have hfound := Option.mem_def.1 (AList.mem_lookup_iff.2 he)
    simp only [Function.comp_apply, mem_cancelled hfound]
  rw [hcount, (mirrors.keys.filter _).length_eq, List.filter_map, List.length_map, Calendar.live]
  rfl

/-- **What comes out one after the other is what waits in the calendar**, each event with the flag
it has in the arena. -/
theorem Mirrors.delivers (mirrors : Mirrors s c) {delivered : List (Option Turn × Flagged α)}
    (delivers : s.Delivers delivered) :
    delivered.map (fun e => (e.1, e.2.event)) = c.entries ∧
      ∀ e ∈ delivered, s.arena.lookup e.2.event.id = some e.2 := by
  induction delivers generalizing c with
  | @none s last =>
    obtain ⟨-, -, hsome⟩ := mirrors.pop
    cases hnext : c.next? with
    | none => exact ⟨(Calendar.next?_eq_none_iff.1 hnext).symm, fun e he => by cases he⟩
    | some taken =>
      obtain ⟨flag, hfollows⟩ := hsome taken.1 taken.2 hnext
      cases last.symm.trans hfollows.out
  | @next s e later first rest ih =>
    obtain ⟨-, hnothing, hsome⟩ := mirrors.pop
    cases hnext : c.next? with
    | none => cases first.symm.trans (hnothing hnext).1
    | some taken =>
      obtain ⟨flag, hfollows⟩ := hsome taken.1 taken.2 hnext
      cases first.symm.trans hfollows.out
      obtain ⟨hlater, hfound⟩ := ih hfollows.mirrors
      refine ⟨?_, fun d hd => ?_⟩
      · rw [List.map_cons, hlater, Calendar.next?_eq_some_iff.1 hnext]
      · rcases List.mem_cons.1 hd with rfl | hd
        · exact hfollows.found
        · have hstill := hfound d hd
          rw [hfollows.arena] at hstill
          by_cases hsame : d.2.event.id = taken.1.2.id
          · rw [hsame, AList.lookup_erase] at hstill
            cases hstill
          · rwa [AList.lookup_erase_ne hsame] at hstill

/-- All the events come out. -/
theorem Mirrors.exists_delivers (mirrors : Mirrors s c) : ∃ delivered, s.Delivers delivered := by
  generalize hentries : c.entries = entries
  induction entries generalizing s c with
  | nil =>
    obtain ⟨-, hnothing, -⟩ := mirrors.pop
    exact ⟨[], .none (hnothing (Calendar.next?_eq_none_iff.2 hentries)).1⟩
  | cons e later ih =>
    obtain ⟨-, -, hsome⟩ := mirrors.pop
    cases hnext : c.next? with
    | none =>
      rw [Calendar.next?_eq_none_iff.1 hnext] at hentries
      cases hentries
    | some taken =>
      obtain ⟨flag, hfollows⟩ := hsome taken.1 taken.2 hnext
      have hrest := Calendar.next?_eq_some_iff.1 hnext
      obtain ⟨delivered, hdelivers⟩ := ih hfollows.mirrors
        (List.cons.inj (hrest.symm.trans hentries)).2
      exact ⟨_, .next hfollows.out hdelivers⟩

/-- What the three parts of a store have to do with each other, with what comes out of it and with
the calendar `c`. -/
structure Exact (s : EventStore α) (c : Calendar α) : Prop where
  /-- The ids in the arena are those in the queue with those in the heap, each once. -/
  keys : s.arena.keys.Perm (s.queue ++ s.heap.map Turn.id)
  once : (s.queue ++ s.heap.map Turn.id).Nodup
  length : s.length = s.queue.length + s.heap.length
  /-- What comes next is the first of the queue, or the least of the heap. -/
  pops : Pops s s.pop
  delivers : ∃ delivered, s.Delivers delivered
  /-- An observer sees what will come out and is not cancelled, in this order. -/
  pending : ∀ delivered, s.Delivers delivered → s.pending =
    (delivered.filter (fun e => e.2.flag ∉ s.raised)).map
      (fun e => ⟨e.2.event.id, e.1.map Turn.time, e.2.event.source, e.2.event.description⟩)
  liveCount : s.liveCount = s.pending.length
  /-- All this is as in the calendar. -/
  next : s.pop.1.map (fun e => (e.1, e.2.event)) = c.next?.map Prod.fst
  shows : s.pending = c.pending s.cancelled ∧ s.length = c.length ∧
    s.liveCount = (c.live s.cancelled).length

theorem Mirrors.exact (mirrors : Mirrors s c) : Exact s c := by
  have hkeys := mirrors.keys.trans mirrors.ids
  obtain ⟨hpops, hnothing, hsome⟩ := mirrors.pop
  refine ⟨hkeys, mirrors.ids.nodup_iff.1 mirrors.distinct, ?_, hpops, mirrors.exists_delivers,
    fun delivered delivers => ?_, ?_, ?_, mirrors.pending, mirrors.length, mirrors.liveCount⟩
  · have hlength := hkeys.length_eq
    rwa [AList.keys, List.keys, List.length_map, List.length_append, List.length_map] at hlength
  · obtain ⟨hentries, hfound⟩ := mirrors.delivers delivers
    rw [mirrors.pending, Calendar.pending, Calendar.live, ← hentries, List.filter_map, List.map_map]
    refine congrArg _ (List.filter_congr fun e he => ?_)
    simp only [Function.comp_apply, mem_cancelled (hfound e he)]
  · rw [mirrors.liveCount, mirrors.pending, Calendar.pending, List.length_map]
  · cases hnext : c.next? with
    | none => rw [(hnothing hnext).1, Option.map_none, Option.map_none]
    | some taken =>
      obtain ⟨flag, hfollows⟩ := hsome taken.1 taken.2 hnext
      rw [hfollows.out]
      rfl

/-- **The store over an arena is exact.**  Ids are handed out, events are pushed under ids that were
handed out and under which none waits, flags are raised and events are taken, in any order.  The
arena has the ids of the queue and of the heap, each once; what is taken next is the first of the
queue, or the event with the least turn, or nothing where neither has any; an observer sees what
would be taken one after the other, in that order and without what is cancelled.  The calendar that
goes through the same operations gives out the same events and shows the same to an observer. -/
theorem store_exact (ops : List (StoreOp α)) (admits : (empty : EventStore α).AdmitsAll ops) :
    Exact (ops.foldl EventStore.perform empty) (ops.foldl Calendar.perform .empty) :=
  (mirrors_empty.performAll admits).exact

/-- Work under the id `id`. -/
def sampleItem (id : Nat) : Flagged Unit := ⟨.routed ⟨⟨id⟩, .index 0, "", ()⟩, id⟩

/-- Of three events the second is taken and comes back as a replayed timer, and the third is
cancelled. -/
def comesBack : List (StoreOp Unit) :=
  [.issue, .issue, .issue, .pushTimed (.dueAt ⟨20⟩ ⟨0⟩) (sampleItem 0),
    .pushImmediate (sampleItem 1), .pop, .pushTimed (.replayedAt ⟨20⟩ ⟨⟨10⟩, ⟨1⟩⟩) (sampleItem 1),
    .pushImmediate (sampleItem 2), .raise 2]

/-- The replayed timer goes before the first event, and the cancelled one is not seen. -/
theorem store_exact_of_return :
    (empty : EventStore Unit).AdmitsAll comesBack ∧
      Exact (comesBack.foldl EventStore.perform empty) (comesBack.foldl Calendar.perform .empty) ∧
      (comesBack.foldl EventStore.perform (empty : EventStore Unit)).cancelled = [⟨2⟩] := by
  have hadmits : (empty : EventStore Unit).AdmitsAll comesBack := by decide
  exact ⟨hadmits, store_exact comesBack hadmits, by decide⟩

end EventStore

end StallSim
