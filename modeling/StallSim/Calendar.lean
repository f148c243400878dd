import StallSim.Agenda
import StallSim.Turn
import StallSim.Work

/-!
# The event calendar

Immediate events wait in the order in which they came; timed events wait in the order of their
turns.  All immediate events go before all timed ones.  A cancelled event keeps its place until it
is taken, so cancelling never disturbs the order.

* `Calendar.entries` — the view: every waiting event with its turn, `none` for an immediate one, in
  the order in which the events will be taken.
* `Calendar.pushImmediate`, `Calendar.pushTimed`, `Calendar.next?` — the operations.
* `Calendar.pending` — the events that will still run, as an observer sees them.

Principal results: `next?_eq_none_iff`, `next?_eq_some_iff` — taking an event takes the head of the
view; `entries_pushImmediate`, `entries_pushTimed` — where a pushed event stands in it.
-/

set_option autoImplicit false

namespace StallSim

/-- A waiting event as an observer sees it; `time` is `none` for immediate work. -/
structure Pending where
  id : EventId
  time : Option Instant
  source : Source
  description : String
  deriving DecidableEq

/-- The waiting events of a simulation. -/
structure Calendar (α : Type) where
  immediate : List (Event α)
  timed : Agenda Turn (Event α)

namespace Calendar

variable {α : Type}

/-- The calendar without events. -/
def empty : Calendar α := ⟨[], .empty⟩

/-- Let an event wait behind the other immediate ones. -/
def pushImmediate (c : Calendar α) (event : Event α) : Calendar α :=
  { c with immediate := c.immediate ++ [event] }

/-- Let an event wait for its turn. -/
def pushTimed (c : Calendar α) (turn : Turn) (event : Event α) : Calendar α :=
  { c with timed := c.timed.insert turn event }

/-- The next event with its turn, and the calendar without it. -/
def next? (c : Calendar α) : Option ((Option Turn × Event α) × Calendar α) :=
  match c.immediate with
  | event :: rest => some ((none, event), { c with immediate := rest })
  | [] => c.timed.next?.map (fun r => ((some r.1.1, r.1.2), { c with timed := r.2 }))

/-- The waiting events with their turns, in the order in which they will be taken. -/
def entries (c : Calendar α) : List (Option Turn × Event α) :=
  c.immediate.map (fun event => (none, event)) ++ c.timed.toList.map (fun e => (some e.1, e.2))

/-- How many events wait, cancelled ones among them. -/
def length (c : Calendar α) : Nat := c.entries.length

/-- No event waits, not even a cancelled one. -/
def isEmpty (c : Calendar α) : Bool := c.entries.isEmpty

/-- The waiting events whose ids are not cancelled. -/
def live (c : Calendar α) (cancelled : List EventId) : List (Option Turn × Event α) :=
  c.entries.filter (fun e => e.2.id ∉ cancelled)

/-- The events that will still run, in the order in which they will be taken. -/
def pending (c : Calendar α) (cancelled : List EventId) : List Pending :=
  (c.live cancelled).map
    (fun e => ⟨e.2.id, e.1.map Turn.time, e.2.source, e.2.description⟩)

/-! ## The view -/

theorem next?_eq_none_iff {c : Calendar α} : c.next? = none ↔ c.entries = [] := by
  obtain ⟨_ | ⟨event, rest⟩, timed⟩ := c <;>
    simp [next?, entries, Agenda.next?_eq_none_iff]

theorem entries_eq_cons_of_next? {c r : Calendar α} {e : Option Turn × Event α}
    (h : c.next? = some (e, r)) : c.entries = e :: r.entries := by
  obtain ⟨_ | ⟨event, rest⟩, timed⟩ := c
  · simp only [next?, Option.map_eq_some_iff, Prod.mk.injEq] at h
    obtain ⟨⟨d, later⟩, hnext, rfl, rfl⟩ := h
    simp [entries, Agenda.next?_eq_some_iff.1 hnext]
  · simp only [next?, Option.some.injEq, Prod.mk.injEq] at h
    obtain ⟨rfl, rfl⟩ := h
    rfl

/-- A calendar is determined by its view. -/
theorem entries_inj {c r : Calendar α} : c.entries = r.entries ↔ c = r := by
  refine ⟨fun h => ?_, fun h => h ▸ rfl⟩
  have himmediate : ∀ p : Calendar α,
      p.entries.filterMap (fun e => if e.1 = none then some e.2 else none) = p.immediate := by
    intro p
    simp only [entries, List.filterMap_append, List.filterMap_map, Function.comp_def]
    simp
  have htimed : ∀ p : Calendar α,
      p.entries.filterMap (fun e => e.1.map (fun k => (k, e.2))) = p.timed.toList := by
    intro p
    simp only [entries, List.filterMap_append, List.filterMap_map, Function.comp_def]
    simp
  have hi := (himmediate c).symm.trans ((congrArg _ h).trans (himmediate r))
  have ht := Agenda.ext ((htimed c).symm.trans ((congrArg _ h).trans (htimed r)))
  cases c
  cases r
  cases hi
  cases ht
  rfl

/-- Taking an event takes the head of the view and leaves the rest. -/
theorem next?_eq_some_iff {c r : Calendar α} {e : Option Turn × Event α} :
    c.next? = some (e, r) ↔ c.entries = e :: r.entries := by
  refine ⟨entries_eq_cons_of_next?, fun h => ?_⟩
  cases hn : c.next? with
  | none => rw [next?_eq_none_iff.1 hn] at h; cases h
  | some found =>
    obtain ⟨d, s⟩ := found
    have hd := entries_eq_cons_of_next? hn
    rw [h, List.cons.injEq, entries_inj] at hd
    obtain ⟨rfl, rfl⟩ := hd
    rfl

theorem entries_pushImmediate (c : Calendar α) (event : Event α) :
    (c.pushImmediate event).entries =
      c.immediate.map (fun event => (none, event)) ++
        (none, event) :: c.timed.toList.map (fun e => (some e.1, e.2)) := by
  simp [pushImmediate, entries]

theorem entries_pushTimed (c : Calendar α) (turn : Turn) (event : Event α) :
    (c.pushTimed turn event).entries =
      c.immediate.map (fun event => (none, event)) ++
        (c.timed.insert turn event).toList.map (fun e => (some e.1, e.2)) := rfl

end Calendar

end StallSim
