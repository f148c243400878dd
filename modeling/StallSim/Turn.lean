import StallSim.Instant
import StallSim.Identity

/-!
# Turns

Whose turn comes first is decided by keys that compare part by part.

* `Origin` — the place of a timer among the timers of its source: by the instant it was first due,
  then by id.
* `Turn` — the place of a timed event in the calendar: earlier times first; at one time the
  replayed band before the ordinary band; within a band by the instant the event was first due,
  then by id.

Principal results: both orders are linear; `Origin.le_iff`, `Turn.le_iff` spell them out, and
`Origin.le_iff_toNat`, `Turn.le_iff_toNat` say them in numbers.
-/

set_option autoImplicit false

namespace StallSim

/-- The instant a timer was first due, and its id. -/
structure Origin where
  due : Instant
  id : EventId
  deriving DecidableEq

namespace Origin

/-- By the instant, then by the id. -/
instance : LE Origin := ⟨fun a b => a.due < b.due ∨ a.due = b.due ∧ a.id ≤ b.id⟩

theorem le_iff {a b : Origin} : a ≤ b ↔ a.due < b.due ∨ a.due = b.due ∧ a.id ≤ b.id := Iff.rfl

instance : DecidableLE Origin := fun a b =>
  inferInstanceAs (Decidable (a.due < b.due ∨ a.due = b.due ∧ a.id ≤ b.id))

theorem le_iff_toNat {a b : Origin} :
    a ≤ b ↔ a.due.toNat < b.due.toNat ∨ a.due.toNat = b.due.toNat ∧ a.id.raw ≤ b.id.raw := by
  rw [le_iff, Instant.lt_def, Instant.toNat_inj, EventId.le_def]

instance : Std.IsLinearOrder Origin where
  le_refl a := by
    rw [le_iff_toNat]
    omega
  le_trans a b c hab hbc := by
    rw [le_iff_toNat] at *
    omega
  le_antisymm a b hab hba := by
    obtain ⟨d, i⟩ := a
    obtain ⟨d', i'⟩ := b
    rw [le_iff_toNat] at hab hba
    simp only at hab hba
    rw [Origin.mk.injEq, ← Instant.toNat_inj, ← EventId.raw_inj]
    omega
  le_total a b := by
    rw [le_iff_toNat, le_iff_toNat]
    omega

end Origin

/-- The two bands of one instant: timers replayed by a release go before all others. -/
inductive Band where
  | replayed
  | ordinary
  deriving DecidableEq

/-- The place of a band. -/
def Band.rank : Band → Nat
  | .replayed => 0
  | .ordinary => 1

theorem Band.rank_inj {a b : Band} : a.rank = b.rank ↔ a = b := by
  cases a <;> cases b <;> simp [Band.rank]

/-- The place of a timed event in the calendar. -/
structure Turn where
  time : Instant
  band : Band
  origin : Instant
  id : EventId
  deriving DecidableEq

namespace Turn

/-- The turn of an event that is due at `time`. -/
def dueAt (time : Instant) (id : EventId) : Turn := ⟨time, .ordinary, time, id⟩

/-- The turn of a timer that a release at `time` replays. -/
def replayedAt (time : Instant) (origin : Origin) : Turn :=
  ⟨time, .replayed, origin.due, origin.id⟩

/-- By the time, then the band, then the instant first due, then the id. -/
instance : LE Turn := ⟨fun a b =>
  a.time < b.time ∨ a.time = b.time ∧
    (a.band.rank < b.band.rank ∨ a.band = b.band ∧
      (a.origin < b.origin ∨ a.origin = b.origin ∧ a.id ≤ b.id))⟩

theorem le_iff {a b : Turn} :
    a ≤ b ↔ a.time < b.time ∨ a.time = b.time ∧
      (a.band.rank < b.band.rank ∨ a.band = b.band ∧
        (a.origin < b.origin ∨ a.origin = b.origin ∧ a.id ≤ b.id)) := Iff.rfl

instance : DecidableLE Turn := fun a b =>
  inferInstanceAs (Decidable (a.time < b.time ∨ a.time = b.time ∧
    (a.band.rank < b.band.rank ∨ a.band = b.band ∧
      (a.origin < b.origin ∨ a.origin = b.origin ∧ a.id ≤ b.id))))

theorem le_iff_toNat {a b : Turn} :
    a ≤ b ↔ a.time.toNat < b.time.toNat ∨ a.time.toNat = b.time.toNat ∧
      (a.band.rank < b.band.rank ∨ a.band.rank = b.band.rank ∧
        (a.origin.toNat < b.origin.toNat ∨ a.origin.toNat = b.origin.toNat ∧
          a.id.raw ≤ b.id.raw)) := by
  rw [le_iff, Instant.lt_def, Instant.lt_def, Instant.toNat_inj,
    Instant.toNat_inj, Band.rank_inj, EventId.le_def]

instance : Std.IsLinearOrder Turn where
  le_refl a := by
    rw [le_iff_toNat]
    omega
  le_trans a b c hab hbc := by
    rw [le_iff_toNat] at *
    omega
  le_antisymm a b hab hba := by
    obtain ⟨t, l, o, i⟩ := a
    obtain ⟨t', l', o', i'⟩ := b
    rw [le_iff_toNat] at hab hba
    simp only at hab hba
    rw [Turn.mk.injEq, ← Instant.toNat_inj, ← Instant.toNat_inj, ← EventId.raw_inj,
      ← Band.rank_inj]
    omega
  le_total a b := by
    rw [le_iff_toNat, le_iff_toNat]
    omega

end Turn

end StallSim
