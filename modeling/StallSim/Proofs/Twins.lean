import Mathlib.Data.List.Forall2
import StallSim.Proofs.Lanes

/-!
# Twins

What a simulation does for one of its sources can be done by a simulation that does nothing else.
The two hand out different ids, but in the same order: each piece of work of the source has a twin
that is the same but for the id.

* `Pairing` — which ids of one simulation stand for which ids of another, in the same order.
* `TwinWork`, `TwinEvent`, `TwinTimed`, `TwinParked`, `TwinTimer`, `TwinPhase`, `TwinTaken` — the
  same but for the ids.

Principal results: `forall₂_insert` — twins that are put in agendas of twins stand at the same
place; `TwinPhase.park`.
-/

set_option autoImplicit false

namespace StallSim

open List (Forall₂)

variable {n : Nat}

/-! ## Pairings -/

/-- Which ids of one simulation stand for which ids of another.  They are in the same order. -/
structure Pairing where
  twin : EventId → EventId → Prop
  le_iff : ∀ {a a' b b' : EventId}, twin a a' → twin b b' → (a ≤ b ↔ a' ≤ b')

namespace Pairing

/-- The second pairing has all the pairs of the first. -/
instance : LE Pairing := ⟨fun p q => ∀ a b, p.twin a b → q.twin a b⟩

theorem le_refl (p : Pairing) : p ≤ p := fun _ _ twin => twin

theorem eq_iff (p : Pairing) {a a' b b' : EventId} (first : p.twin a a') (second : p.twin b b') :
    a = b ↔ a' = b' := by
  have hle := p.le_iff first second
  have hge := p.le_iff second first
  rw [EventId.le_def, EventId.le_def] at hle hge
  rw [← EventId.raw_inj, ← EventId.raw_inj]
  omega

/-- The second pairing has all the pairs of the first, and one more. -/
structure Grows (p q : Pairing) (a a' : EventId) : Prop where
  le : p ≤ q
  twin : q.twin a a'
  only : ∀ b b', q.twin b b' → p.twin b b' ∨ b = a

/-- The pairing without pairs. -/
def empty : Pairing := ⟨fun _ _ => False, fun h => h.elim⟩

/-- The pairing with one more pair, of ids that are greater than all others. -/
def extend (p : Pairing) (a a' : EventId)
    (greater : ∀ b b', p.twin b b' → b.raw < a.raw ∧ b'.raw < a'.raw) : Pairing where
  twin b b' := p.twin b b' ∨ b = a ∧ b' = a'
  le_iff := by
    rintro b b' d d' (hb | ⟨rfl, rfl⟩) (hd | ⟨rfl, rfl⟩)
    · exact p.le_iff hb hd
    · have := greater _ _ hb
      rw [EventId.le_def, EventId.le_def]
      omega
    · have := greater _ _ hd
      rw [EventId.le_def, EventId.le_def]
      omega
    · rw [EventId.le_def, EventId.le_def]
      omega

theorem grows_extend (p : Pairing) (a a' : EventId)
    (greater : ∀ b b', p.twin b b' → b.raw < a.raw ∧ b'.raw < a'.raw) :
    p.Grows (p.extend a a' greater) a a' :=
  ⟨fun _ _ twin => .inl twin, .inr ⟨rfl, rfl⟩, fun _ _ twin => twin.imp_right And.left⟩

end Pairing

/-! ## Twins -/

section Twins

variable (p : Pairing) (source : Source)

/-- The same work of the source, but for the ids. -/
inductive TwinWork : Work (Action n) → Work (Action n) → Prop where
  | mk {id id' : EventId} (twin : p.twin id id') (description : String) (action : Action n) :
      TwinWork ⟨id, source, description, action⟩ ⟨id', source, description, action⟩

/-- The same event of the source, but for the ids. -/
inductive TwinEvent : Event (Action n) → Event (Action n) → Prop where
  | routed {work work' : Work (Action n)} (works : TwinWork p source work work') :
      TwinEvent (.routed work) (.routed work')
  | release {id id' : EventId} (twin : p.twin id id') :
      TwinEvent (.release id source) (.release id' source)

/-- Twins that are due at the same turn, but for the ids. -/
inductive TwinTimed : Turn × Event (Action n) → Turn × Event (Action n) → Prop where
  | mk (time : Instant) (band : Band) (origin : Instant) {id id' : EventId} (twin : p.twin id id')
      {event event' : Event (Action n)} (events : TwinEvent p source event event') :
      TwinTimed (⟨time, band, origin, id⟩, event) (⟨time, band, origin, id'⟩, event')

/-- Twins that are parked as immediate work. -/
inductive TwinParked : EventId × Work (Action n) → EventId × Work (Action n) → Prop where
  | mk {id id' : EventId} (twin : p.twin id id') {work work' : Work (Action n)}
      (works : TwinWork p source work work') : TwinParked (id, work) (id', work')

/-- Twins that are parked as timers, first due at the same instant. -/
inductive TwinTimer : Origin × Work (Action n) → Origin × Work (Action n) → Prop where
  | mk (due : Instant) {id id' : EventId} (twin : p.twin id id') {work work' : Work (Action n)}
      (works : TwinWork p source work work') : TwinTimer (⟨due, id⟩, work) (⟨due, id'⟩, work')

/-- The same phase of the source, but for the ids. -/
inductive TwinPhase : Phase (Action n) → Phase (Action n) → Prop where
  | running : TwinPhase .running .running
  | stalled (release : Instant) {immediate immediate' : Agenda EventId (Work (Action n))}
      {timers timers' : Agenda Origin (Work (Action n))}
      (parked : Forall₂ (TwinParked p source) immediate.toList immediate'.toList)
      (held : Forall₂ (TwinTimer p source) timers.toList timers'.toList) :
      TwinPhase (.stalled ⟨release, immediate, timers⟩) (.stalled ⟨release, immediate', timers'⟩)
  | replaying {backlog backlog' : Agenda EventId (Work (Action n))}
      (parked : Forall₂ (TwinParked p source) backlog.toList backlog'.toList) :
      TwinPhase (.replaying backlog) (.replaying backlog')

/-- Twins that are taken from the calendar. -/
inductive TwinTaken : Option Turn × Event (Action n) → Option Turn × Event (Action n) → Prop where
  | immediate {event event' : Event (Action n)} (events : TwinEvent p source event event') :
      TwinTaken (none, event) (none, event')
  | timed {k k' : Turn} {event event' : Event (Action n)}
      (twins : TwinTimed p source (k, event) (k', event')) :
      TwinTaken (some k, event) (some k', event')

end Twins

section Twins

variable {p q : Pairing} {source : Source}

theorem TwinWork.twin {work work' : Work (Action n)} (works : TwinWork p source work work') :
    p.twin work.id work'.id := by
  cases works with
  | mk twin => exact twin

theorem TwinWork.source_eq {work work' : Work (Action n)} (works : TwinWork p source work work') :
    work.source = source ∧ work'.source = source := by
  cases works
  exact ⟨rfl, rfl⟩

theorem TwinEvent.twin {event event' : Event (Action n)}
    (events : TwinEvent p source event event') : p.twin event.id event'.id := by
  cases events with
  | routed works => exact works.twin
  | release twin => exact twin

theorem TwinEvent.source_eq {event event' : Event (Action n)}
    (events : TwinEvent p source event event') : event.source = source := by
  cases events with
  | routed works => exact works.source_eq.1
  | release twin => rfl

/-! ### More pairs -/

section Mono

variable (le : p ≤ q)

include le

theorem TwinWork.mono {work work' : Work (Action n)} (works : TwinWork p source work work') :
    TwinWork q source work work' := by
  cases works with
  | mk twin => exact .mk (le _ _ twin) _ _

theorem TwinEvent.mono {event event' : Event (Action n)}
    (events : TwinEvent p source event event') : TwinEvent q source event event' := by
  cases events with
  | routed works => exact .routed (works.mono le)
  | release twin => exact .release (le _ _ twin)

theorem TwinTimed.mono {e e' : Turn × Event (Action n)} (twins : TwinTimed p source e e') :
    TwinTimed q source e e' := by
  cases twins with
  | mk time band origin twin events => exact .mk time band origin (le _ _ twin) (events.mono le)

theorem TwinParked.mono {e e' : EventId × Work (Action n)} (twins : TwinParked p source e e') :
    TwinParked q source e e' := by
  cases twins with
  | mk twin works => exact .mk (le _ _ twin) (works.mono le)

theorem TwinTimer.mono {e e' : Origin × Work (Action n)} (twins : TwinTimer p source e e') :
    TwinTimer q source e e' := by
  cases twins with
  | mk due twin works => exact .mk due (le _ _ twin) (works.mono le)

theorem TwinPhase.mono {phase phase' : Phase (Action n)}
    (phases : TwinPhase p source phase phase') : TwinPhase q source phase phase' := by
  cases phases with
  | running => exact .running
  | stalled release parked held =>
    exact .stalled release (parked.imp fun _ _ h => h.mono le) (held.imp fun _ _ h => h.mono le)
  | replaying parked => exact .replaying (parked.imp fun _ _ h => h.mono le)

end Mono

/-! ### Agendas of twins -/

theorem forall₂_empty {κ β : Type} [LE κ] (R : κ × β → κ × β → Prop) :
    Forall₂ R (Agenda.empty : Agenda κ β).toList (Agenda.empty : Agenda κ β).toList :=
  .nil

/-- New entries stand at the same place among twins, if the keys of all compare alike.  The entries
that are not `own` have no twins. -/
theorem forall₂_insert {κ β : Type} [LE κ] [DecidableLE κ] [Std.IsLinearOrder κ]
    {R : κ × β → κ × β → Prop} {a b : Agenda κ β} (own : κ × β → Bool)
    (twins : Forall₂ R (a.toList.filter own) b.toList) {k k' : κ} {v v' : β}
    (new : R (k, v) (k', v')) (mine : own (k, v) = true)
    (alike : ∀ e e', R e e' → (e.1 ≤ k ↔ e'.1 ≤ k')) :
    Forall₂ R ((a.insert k v).toList.filter own) (b.insert k' v').toList := by
  have hpart : ∀ (before : Bool → Bool), Forall₂ R
      ((a.toList.filter (fun e => before (decide (e.1 ≤ k)))).filter own)
      (b.toList.filter (fun e => before (decide (e.1 ≤ k')))) := by
    intro before
    rw [List.filter_filter, List.filter_congr (fun _ _ => Bool.and_comm ..), ← List.filter_filter]
    refine List.rel_filter (fun e e' h => ?_) twins
    simp only [alike e e' h]
  rw [Agenda.toList_insert_eq_filter, Agenda.toList_insert_eq_filter, List.filter_append,
    List.filter_cons_of_pos mine]
  exact List.rel_append (hpart id) (.cons new (hpart not))

/-- The same where every entry has its twin. -/
theorem forall₂_insert_all {κ β : Type} [LE κ] [DecidableLE κ] [Std.IsLinearOrder κ]
    {R : κ × β → κ × β → Prop} {a b : Agenda κ β} (twins : Forall₂ R a.toList b.toList) {k k' : κ}
    {v v' : β} (new : R (k, v) (k', v')) (alike : ∀ e e', R e e' → (e.1 ≤ k ↔ e'.1 ≤ k')) :
    Forall₂ R (a.insert k v).toList (b.insert k' v').toList := by
  have hall : ∀ c : Agenda κ β, c.toList.filter (fun _ => true) = c.toList :=
    fun c => List.filter_eq_self.2 fun _ _ => rfl
  have hinsert := forall₂_insert (fun _ => true) ((hall a).symm ▸ twins) new rfl alike
  rwa [hall] at hinsert

theorem TwinParked.alike {id id' : EventId} (twin : p.twin id id')
    (e e' : EventId × Work (Action n)) (twins : TwinParked p source e e') :
    e.1 ≤ id ↔ e'.1 ≤ id' := by
  cases twins with
  | mk twin' works => exact p.le_iff twin' twin

theorem TwinTimer.alike {id id' : EventId} (twin : p.twin id id') (due : Instant)
    (e e' : Origin × Work (Action n)) (twins : TwinTimer p source e e') :
    e.1 ≤ ⟨due, id⟩ ↔ e'.1 ≤ ⟨due, id'⟩ := by
  cases twins with
  | mk due' twin' works => rw [Origin.le_iff, Origin.le_iff, p.le_iff twin' twin]

theorem TwinTimed.alike {id id' : EventId} (twin : p.twin id id') (time : Instant) (band : Band)
    (origin : Instant) (e e' : Turn × Event (Action n)) (twins : TwinTimed p source e e') :
    e.1 ≤ ⟨time, band, origin, id⟩ ↔ e'.1 ≤ ⟨time, band, origin, id'⟩ := by
  cases twins with
  | mk time' band' origin' twin' events => rw [Turn.le_iff, Turn.le_iff, p.le_iff twin' twin]

/-- Parking twins leaves twins. -/
theorem TwinPhase.park {stall stall' : Stall (Action n)}
    (phases : TwinPhase p source (.stalled stall) (.stalled stall')) {work work' : Work (Action n)}
    (works : TwinWork p source work work') (due : Option Instant) :
    TwinPhase p source (.stalled (stall.park due work)) (.stalled (stall'.park due work')) := by
  cases phases with
  | stalled release parked held =>
    cases due with
    | none =>
      exact .stalled release
        (forall₂_insert_all parked (.mk works.twin works) (TwinParked.alike works.twin)) held
    | some t =>
      exact .stalled release parked
        (forall₂_insert_all held (.mk t works.twin works) (TwinTimer.alike works.twin t))

end Twins

end StallSim
