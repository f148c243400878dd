import Mathlib.Data.List.Perm.Basic
import StallSim.Proofs.Twins

/-!
# Renumberings

Two simulations can hold the same work under different ids, and one of them can lack some work of
the other.  What a source does next depends on the order of ids only among work that came for now
and among timers that were first due at one instant; so the order of all other ids may change.

* `Renumbering` — the ids under which the second simulation knows the work of the first.
* `SameWork`, `SameEvent`, `SameImmediate`, `SameTimed`, `SameParked`, `SameTimer`, `SamePhase` —
  the same but for the ids.
* `Renumbered` — an agenda with the entries of another that the second simulation knows.

Principal results: `Renumbered.insert`, `Renumbered.insert_left` — what is put in both agendas, or
in the first one only; `renumbered_of_perm` — what is put in both in different orders;
`SamePhase.park`, `SamePhase.park_left`.
-/

set_option autoImplicit false

namespace StallSim

open List (Forall₂)

variable {n : Nat}

/-! ## Ids -/

/-- The ids under which a second simulation knows the work of a first one, `none` where it does not
know it.  `due` says of some work at which instant it is first due; two ids keep their order unless
they are due at different instants. -/
structure Renumbering where
  of : EventId → Option EventId
  due : EventId → Option Instant
  inj : ∀ {a b c : EventId}, of a = some c → of b = some c → a = b
  le_iff : ∀ {a b a' b' : EventId}, of a = some a' → of b = some b' →
    (∀ t u, due a = some t → due b = some u → t = u) → (a ≤ b ↔ a' ≤ b')

namespace Renumbering

variable (ρ : Renumbering)

/-- The id may be that of a timer that is first due at `t`. -/
def DueAt (id : EventId) (t : Instant) : Prop := ∀ u, ρ.due id = some u → u = t

/-- The second simulation knows the work. -/
def keeps (work : Work (Action n)) : Bool := (ρ.of work.id).isSome

/-- The second simulation knows the event; it knows the releases of all sources. -/
def keepsEvent : Event (Action n) → Bool
  | .direct work => ρ.keeps work
  | .routed work => ρ.keeps work
  | .release _ _ => true

variable {ρ}

theorem eq_iff {a b a' b' : EventId} (first : ρ.of a = some a') (second : ρ.of b = some b') :
    a = b ↔ a' = b' := by
  constructor
  · rintro rfl
    exact Option.some.inj (first.symm.trans second)
  · rintro rfl
    exact ρ.inj first second

theorem DueAt.of_none {id : EventId} (none : ρ.due id = none) (t : Instant) : ρ.DueAt id t := by
  intro u hu
  cases none.symm.trans hu

theorem le_iff_of_none {a b a' b' : EventId} (first : ρ.of a = some a')
    (second : ρ.of b = some b') (none : ρ.due b = none) : a ≤ b ↔ a' ≤ b' :=
  ρ.le_iff first second fun _ _ _ hu => by cases none.symm.trans hu

theorem le_iff_of_dueAt {a b a' b' : EventId} {t : Instant} (first : ρ.of a = some a')
    (second : ρ.of b = some b') (due : ρ.DueAt a t) (due' : ρ.DueAt b t) : a ≤ b ↔ a' ≤ b' :=
  ρ.le_iff first second fun u v hu hv => (due u hu).trans (due' v hv).symm

end Renumbering

/-! ## The same but for the ids -/

section Same

variable (ρ : Renumbering)

/-- The same work, but for the id. -/
inductive SameWork : Work (Action n) → Work (Action n) → Prop where
  | mk {id id' : EventId} (of : ρ.of id = some id') (source : Source) (description : String)
      (action : Action n) :
      SameWork ⟨id, source, description, action⟩ ⟨id', source, description, action⟩

/-- The same event, but for the id. -/
inductive SameEvent : Event (Action n) → Event (Action n) → Prop where
  | direct {work work' : Work (Action n)} (works : SameWork ρ work work') :
      SameEvent (.direct work) (.direct work')
  | routed {work work' : Work (Action n)} (works : SameWork ρ work work') :
      SameEvent (.routed work) (.routed work')
  | release {id id' : EventId} (of : ρ.of id = some id') (source : Source) :
      SameEvent (.release id source) (.release id' source)

/-- The same event, which waits for now. -/
structure SameImmediate (event event' : Event (Action n)) : Prop where
  events : SameEvent ρ event event'
  due : ρ.due event.id = none

/-- The same event, which waits for the same turn but for the id. -/
inductive SameTimed : Turn × Event (Action n) → Turn × Event (Action n) → Prop where
  | mk (time : Instant) (band : Band) (origin : Instant) {event event' : Event (Action n)}
      (events : SameEvent ρ event event') (due : ρ.DueAt event.id origin) :
      SameTimed (⟨time, band, origin, event.id⟩, event) (⟨time, band, origin, event'.id⟩, event')

/-- The same work, parked as immediate work. -/
inductive SameParked : EventId × Work (Action n) → EventId × Work (Action n) → Prop where
  | mk {work work' : Work (Action n)} (works : SameWork ρ work work')
      (due : ρ.due work.id = none) : SameParked (work.id, work) (work'.id, work')

/-- The same work, parked as a timer that is first due at the same instant. -/
inductive SameTimer : Origin × Work (Action n) → Origin × Work (Action n) → Prop where
  | mk (origin : Instant) {work work' : Work (Action n)} (works : SameWork ρ work work')
      (due : ρ.DueAt work.id origin) :
      SameTimer (⟨origin, work.id⟩, work) (⟨origin, work'.id⟩, work')

/-- The second agenda has the entries of the first that are `own`, and nothing else. -/
def Renumbered {κ β : Type} [LE κ] (R : κ × β → κ × β → Prop) (own : β → Bool)
    (a b : Agenda κ β) : Prop :=
  Forall₂ R (a.toList.filter (fun e => own e.2)) b.toList

/-- The same phase, but for the ids and without the work that the second simulation does not
know. -/
inductive SamePhase : Phase (Action n) → Phase (Action n) → Prop where
  | running : SamePhase .running .running
  | stalled (release : Instant) {immediate immediate' : Agenda EventId (Work (Action n))}
      {timers timers' : Agenda Origin (Work (Action n))}
      (parked : Renumbered (SameParked ρ) ρ.keeps immediate immediate')
      (held : Renumbered (SameTimer ρ) ρ.keeps timers timers') :
      SamePhase (.stalled ⟨release, immediate, timers⟩) (.stalled ⟨release, immediate', timers'⟩)
  | replaying {backlog backlog' : Agenda EventId (Work (Action n))}
      (parked : Renumbered (SameParked ρ) ρ.keeps backlog backlog') :
      SamePhase (.replaying backlog) (.replaying backlog')

end Same

section Same

variable {ρ : Renumbering} {work work' : Work (Action n)} {event event' : Event (Action n)}

theorem SameWork.of (works : SameWork ρ work work') : ρ.of work.id = some work'.id := by
  cases works with
  | mk of => exact of

theorem SameWork.source_eq (works : SameWork ρ work work') : work'.source = work.source := by
  cases works
  rfl

theorem SameWork.keeps (works : SameWork ρ work work') : ρ.keeps work = true := by
  rw [Renumbering.keeps, works.of]
  rfl

theorem SameEvent.of (events : SameEvent ρ event event') : ρ.of event.id = some event'.id := by
  cases events with
  | direct works => exact works.of
  | routed works => exact works.of
  | release of => exact of

theorem SameEvent.keeps (events : SameEvent ρ event event') : ρ.keepsEvent event = true := by
  cases events with
  | direct works => exact works.keeps
  | routed works => exact works.keeps
  | release of => rfl

theorem SameTimed.keeps {e e' : Turn × Event (Action n)}
    (same : SameTimed ρ e e') : ρ.keepsEvent e.2 = true := by
  cases same with
  | mk time band origin events due => exact events.keeps

/-! ### Where new entries stand -/

theorem SameParked.alike (works : SameWork ρ work work') (due : ρ.due work.id = none)
    (e e' : EventId × Work (Action n)) (same : SameParked ρ e e') :
    e.1 ≤ work.id ↔ e'.1 ≤ work'.id := by
  cases same with
  | mk others _ => exact Renumbering.le_iff_of_none others.of works.of due

theorem SameTimer.alike (works : SameWork ρ work work') (origin : Instant)
    (due : ρ.DueAt work.id origin) (e e' : Origin × Work (Action n)) (same : SameTimer ρ e e') :
    e.1 ≤ ⟨origin, work.id⟩ ↔ e'.1 ≤ ⟨origin, work'.id⟩ := by
  cases same with
  | mk origin' others due' =>
    rw [Origin.le_iff, Origin.le_iff]
    refine or_congr_right (and_congr_right fun horigin => ?_)
    subst horigin
    exact Renumbering.le_iff_of_dueAt others.of works.of due' due

theorem SameTimed.alike (time : Instant) (band : Band) (origin : Instant)
    (events : SameEvent ρ event event') (due : ρ.DueAt event.id origin)
    (e e' : Turn × Event (Action n)) (same : SameTimed ρ e e') :
    e.1 ≤ ⟨time, band, origin, event.id⟩ ↔ e'.1 ≤ ⟨time, band, origin, event'.id⟩ := by
  cases same with
  | mk time' band' origin' others due' =>
    rw [Turn.le_iff, Turn.le_iff]
    refine or_congr_right (and_congr_right fun _ => or_congr_right (and_congr_right fun _ =>
      or_congr_right (and_congr_right fun horigin => ?_)))
    dsimp only at horigin
    subst horigin
    exact Renumbering.le_iff_of_dueAt others.of events.of due' due

theorem SameTimed.le_iff (e e' d d' : Turn × Event (Action n))
    (first : SameTimed ρ e e') (second : SameTimed ρ d d') : e.1 ≤ d.1 ↔ e'.1 ≤ d'.1 := by
  cases second with
  | mk time band origin events due => exact SameTimed.alike time band origin events due e e' first

/-! ### Agendas -/

section Agendas

variable {κ β : Type} [LE κ] {R : κ × β → κ × β → Prop} {own : β → Bool} {a b : Agenda κ β}

theorem Renumbered.empty : Renumbered R own (.empty : Agenda κ β) .empty := .nil

variable [DecidableLE κ] [Std.IsLinearOrder κ]

/-- Something new that both know. -/
theorem Renumbered.insert (same : Renumbered R own a b) {k k' : κ} {v v' : β}
    (new : R (k, v) (k', v')) (mine : own v = true)
    (alike : ∀ e e', R e e' → (e.1 ≤ k ↔ e'.1 ≤ k')) :
    Renumbered R own (a.insert k v) (b.insert k' v') :=
  forall₂_insert _ same new mine alike

/-- Something new that only the first knows. -/
theorem Renumbered.insert_left (same : Renumbered R own a b) (k : κ) {v : β}
    (unknown : own v = false) : Renumbered R own (a.insert k v) b := by
  have hfilter : (a.insert k v).toList.filter (fun e => own e.2) =
      a.toList.filter (fun e => own e.2) := by
    rw [Agenda.toList_insert, List.filter_append, List.filter_cons_of_neg (by simp [unknown]),
      ← List.filter_append, Agenda.upTo_append_beyond]
  rw [Renumbered, hfilter]
  exact same

omit [DecidableLE κ] [Std.IsLinearOrder κ] in
/-- What comes next, if both know it. -/
theorem Renumbered.next? (same : Renumbered R own a b) {e : κ × β} {rest : Agenda κ β}
    (next : a.next? = some (e, rest)) (mine : own e.2 = true) :
    ∃ e' rest', b.next? = some (e', rest') ∧ R e e' ∧ Renumbered R own rest rest' := by
  unfold Renumbered at same
  rw [Agenda.next?_eq_some_iff.1 next, List.filter_cons_of_pos (by simpa using mine),
    List.forall₂_cons_left_iff] at same
  obtain ⟨e', later, hsame, hlater, hlist⟩ := same
  cases hnext : b.next? with
  | none =>
    rw [Agenda.next?_eq_none_iff.1 hnext] at hlist
    cases hlist
  | some found =>
    obtain ⟨d, rest'⟩ := found
    obtain ⟨rfl, rfl⟩ := List.cons.inj ((Agenda.next?_eq_some_iff.1 hnext).symm.trans hlist)
    exact ⟨_, _, rfl, hsame, hlater⟩

omit [DecidableLE κ] [Std.IsLinearOrder κ] in
/-- What comes next, if only the first knows it. -/
theorem Renumbered.next?_left (same : Renumbered R own a b) {e : κ × β} {rest : Agenda κ β}
    (next : a.next? = some (e, rest)) (unknown : own e.2 = false) : Renumbered R own rest b := by
  unfold Renumbered at same
  rwa [Agenda.next?_eq_some_iff.1 next, List.filter_cons_of_neg (by simp [unknown])] at same

omit [DecidableLE κ] [Std.IsLinearOrder κ] in
/-- Where the first has nothing, the second has nothing. -/
theorem Renumbered.next?_eq_none (same : Renumbered R own a b) (next : a.next? = none) :
    b.next? = none := by
  unfold Renumbered at same
  rw [Agenda.next?_eq_none_iff.1 next, List.filter_nil, List.forall₂_nil_left_iff] at same
  exact Agenda.next?_eq_none_iff.2 same

section Orders

omit [DecidableLE κ]

variable {ι : Type} {l : List ι} {f g : ι → κ × β}

/-- Agendas with the same entries are the same, in whatever order the entries came, if their keys
say in both alike which goes first. -/
theorem renumbered_of_perm (first : a.toList.Perm (l.map f)) (second : b.toList.Perm (l.map g))
    (same : ∀ x ∈ l, R (f x) (g x)) (mine : ∀ x ∈ l, own (f x).2 = true)
    (alike : ∀ e e' d d', R e e' → R d d' → (e.1 ≤ d.1 ↔ e'.1 ≤ d'.1))
    (distinct : ∀ x ∈ l, ∀ y ∈ l, (g x).1 = (g y).1 → g x = g y) : Renumbered R own a b := by
  obtain ⟨order, hforall, hperm⟩ := List.perm_comp_forall₂ first
    (List.forall₂_map_left_iff.2 (List.forall₂_same.2 fun x _ => rfl) :
      Forall₂ (fun e x => e = f x) (l.map f) l)
  have hlist : a.toList = order.map f := by
    rw [← List.forall₂_eq_eq_eq]
    exact List.forall₂_map_right_iff.2 hforall
  have hmem : ∀ x ∈ order, x ∈ l := fun x hx => hperm.mem_iff.1 hx
  -- in the order of the first agenda the entries of the second are in order as well
  have hordered : (order.map g).Pairwise (fun e d => e.1 ≤ d.1) := by
    have hfirst := a.ordered
    rw [hlist, List.pairwise_map] at hfirst
    rw [List.pairwise_map]
    exact hfirst.imp_of_mem fun hx hy hle =>
      (alike _ _ _ _ (same _ (hmem _ hx)) (same _ (hmem _ hy))).1 hle
  have hother : b.toList = order.map g := by
    refine (List.Perm.eq_of_pairwise ?_ hordered b.ordered
      ((hperm.map g).trans second.symm)).symm
    intro e d he hd hle hge
    obtain ⟨x, hx, rfl⟩ := List.mem_map.1 he
    obtain ⟨y, hy, rfl⟩ := List.mem_map.1 (second.mem_iff.1 hd)
    exact distinct x (hmem x hx) y hy (Std.le_antisymm hle hge)
  have hall : ∀ e ∈ a.toList, own e.2 = true := by
    intro e he
    obtain ⟨x, hx, rfl⟩ := List.mem_map.1 (first.mem_iff.1 he)
    exact mine x hx
  rw [Renumbered, List.filter_eq_self.2 hall, hlist, hother, List.forall₂_map_left_iff,
    List.forall₂_map_right_iff, List.forall₂_same]
  exact fun x hx => same x (hmem x hx)

end Orders

end Agendas

/-! ### Phases -/

/-- Work that is first due at `due`, or that came for now where there is no such instant. -/
def Renumbering.Fits (ρ : Renumbering) (id : EventId) : Option Instant → Prop
  | some t => ρ.DueAt id t
  | none => ρ.due id = none

theorem SamePhase.isStalled {phase phase' : Phase (Action n)} (phases : SamePhase ρ phase phase') :
    phase'.isStalled = phase.isStalled := by
  cases phases <;> rfl

/-- Both park the same work. -/
theorem SamePhase.park {stall stall' : Stall (Action n)}
    (phases : SamePhase ρ (.stalled stall) (.stalled stall')) (works : SameWork ρ work work')
    {due : Option Instant} (fits : ρ.Fits work.id due) :
    SamePhase ρ (.stalled (stall.park due work)) (.stalled (stall'.park due work')) := by
  cases phases with
  | stalled release parked held =>
    cases due with
    | none =>
      exact .stalled release
        (parked.insert (.mk works fits) works.keeps (SameParked.alike works fits)) held
    | some t =>
      exact .stalled release parked
        (held.insert (.mk t works fits) works.keeps (SameTimer.alike works t fits))

/-- The first parks work that the second does not know. -/
theorem SamePhase.park_left {stall : Stall (Action n)} {phase' : Phase (Action n)}
    (phases : SamePhase ρ (.stalled stall) phase') (unknown : ρ.keeps work = false)
    (due : Option Instant) : SamePhase ρ (.stalled (stall.park due work)) phase' := by
  cases phases with
  | stalled release parked held =>
    cases due with
    | none => exact .stalled release (parked.insert_left _ unknown) held
    | some t => exact .stalled release parked (held.insert_left _ unknown)

end Same

end StallSim
