/-!
# Virtual time

An instant of the simulated clock is a tick count in a 64-bit word.  Time passes only when a
timed event is dispatched, so nothing here looks at a wall clock.

* `Instant.plus`, `Instant.since` — sums and differences; `none` where the word is too
  small or the order of the arguments is wrong, never a wrapped value.
* `Instant.plusSaturating` — the sum, or the last instant where there is none.
* `Instant.advance` — the clock moves forward or stays.

Principal results: `plus_eq_some_iff`, `since_eq_some_iff` — exactly when a sum or a difference
exists, and what it is; `toNat_advance` — advancing is the maximum.
-/

set_option autoImplicit false

namespace StallSim

/-- An instant on the virtual time line. -/
structure Instant where
  ticks : UInt64
  deriving DecidableEq

namespace Instant

/-- The start of the time line. -/
def zero : Instant := ⟨0⟩

/-- The last instant that a word can hold. -/
def last : Instant := ⟨18446744073709551615⟩

/-- The tick count as a number. -/
def toNat (t : Instant) : Nat := t.ticks.toNat

instance : LE Instant := ⟨fun a b => a.toNat ≤ b.toNat⟩

instance : LT Instant := ⟨fun a b => a.toNat < b.toNat⟩

instance : DecidableLE Instant := fun a b => Nat.decLe a.toNat b.toNat

instance : DecidableLT Instant := fun a b => Nat.decLt a.toNat b.toNat

instance : Ord Instant := ⟨fun a b => compare a.toNat b.toNat⟩

theorem le_def {a b : Instant} : a ≤ b ↔ a.toNat ≤ b.toNat := Iff.rfl

theorem lt_def {a b : Instant} : a < b ↔ a.toNat < b.toNat := Iff.rfl

theorem toNat_inj {a b : Instant} : a.toNat = b.toNat ↔ a = b :=
  ⟨fun h => congrArg Instant.mk (UInt64.toNat_inj.1 h), fun h => h ▸ rfl⟩

theorem toNat_lt (t : Instant) : t.toNat < UInt64.size := t.ticks.toNat_lt_size

instance : Std.IsLinearOrder Instant where
  le_refl a := Nat.le_refl a.toNat
  le_trans _ _ _ := Nat.le_trans
  le_antisymm _ _ hab hba := toNat_inj.1 (Nat.le_antisymm hab hba)
  le_total a b := Nat.le_total a.toNat b.toNat

instance : Std.LawfulOrderLT Instant where
  lt_iff a b := by simp only [le_def, lt_def]; omega

/-- The instant `delay` ticks later, if a word can hold it. -/
def plus (t : Instant) (delay : UInt64) : Option Instant :=
  if t.toNat + delay.toNat < UInt64.size then some ⟨t.ticks + delay⟩ else none

/-- The instant `delay` ticks later, or the last instant where a word cannot hold it. -/
def plusSaturating (t : Instant) (delay : UInt64) : Instant :=
  (t.plus delay).getD last

/-- The ticks from `earlier` to `t`, if `earlier` is not the later of the two. -/
def since (t earlier : Instant) : Option UInt64 :=
  if earlier ≤ t then some (t.ticks - earlier.ticks) else none

/-- The reading of a clock at `now` that is asked to show `t`: it never goes back. -/
def advance (now t : Instant) : Instant := if now < t then t else now

/-- The written form: `T=` and the tick count. -/
def text (t : Instant) : String := "T=" ++ toString t.toNat

theorem plus_eq_some_iff {t u : Instant} {delay : UInt64} :
    t.plus delay = some u ↔ t.toNat + delay.toNat = u.toNat := by
  have hu := toNat_lt u
  unfold plus
  split
  · rename_i h
    rw [Option.some.injEq, ← toNat_inj]
    have hs : (Instant.mk (t.ticks + delay)).toNat = t.toNat + delay.toNat := by
      simp only [toNat] at h ⊢
      rw [UInt64.toNat_add, Nat.mod_eq_of_lt h]
    rw [hs]
  · constructor
    · intro h
      cases h
    · intro h
      omega

theorem since_eq_some_iff {t earlier : Instant} {delay : UInt64} :
    t.since earlier = some delay ↔ earlier.toNat + delay.toNat = t.toNat := by
  unfold since
  split
  · rename_i h
    have hd : (t.ticks - earlier.ticks).toNat = t.toNat - earlier.toNat :=
      UInt64.toNat_sub_of_le _ _ (UInt64.le_iff_toNat_le.2 h)
    rw [Option.some.injEq, ← UInt64.toNat_inj, hd]
    rw [le_def] at h
    omega
  · rename_i h
    rw [le_def] at h
    constructor
    · intro hn
      cases hn
    · intro hs
      omega

theorem toNat_advance (now t : Instant) : (now.advance t).toNat = max now.toNat t.toNat := by
  unfold advance
  split <;> rename_i h <;> rw [lt_def] at h <;> omega

theorem le_advance (now t : Instant) : now ≤ now.advance t := by
  rw [le_def, toNat_advance]
  omega

end Instant

end StallSim
