import StallSim.Instant

/-!
# Configurations

A configuration names the sources of a simulation, the instant at which its clock starts, and
whether it starts paused.

* `distinct` — a list without repetitions, each member at its first place.
* `Config.ofSources`, `Config.withSource` — the builders keep the sources distinct;
  `Config.ofRecord` takes them as they are, so a repeated source stays.

Principal results: `mem_distinct`, `nodup_distinct` — the same members, each once;
`distinct_append` — adding members one by one to a distinct list gives the distinct list of all.
-/

set_option autoImplicit false

namespace StallSim

section Distinct

variable {σ : Type} [DecidableEq σ]

/-- Append `x` unless it is there. -/
def addNew (xs : List σ) (x : σ) : List σ := if x ∈ xs then xs else xs ++ [x]

/-- The members of a list in the order of their first places. -/
def distinct (xs : List σ) : List σ := xs.foldl addNew []

theorem mem_addNew {xs : List σ} {x y : σ} : y ∈ addNew xs x ↔ y ∈ xs ∨ y = x := by
  unfold addNew
  split
  · rename_i h
    constructor
    · exact Or.inl
    · rintro (h' | rfl)
      · exact h'
      · exact h
  · simp

theorem nodup_addNew {xs : List σ} (h : xs.Nodup) (x : σ) : (addNew xs x).Nodup := by
  unfold addNew
  split
  · exact h
  · rename_i hx
    rw [List.nodup_append]
    refine ⟨h, by simp, fun a ha b hb => ?_⟩
    rw [List.mem_singleton] at hb
    rintro rfl
    exact hx (hb ▸ ha)

theorem mem_foldl_addNew {xs acc : List σ} {y : σ} :
    y ∈ xs.foldl addNew acc ↔ y ∈ acc ∨ y ∈ xs := by
  induction xs generalizing acc with
  | nil => simp
  | cons x rest ih => rw [List.foldl_cons, ih, mem_addNew, List.mem_cons, or_assoc]

theorem nodup_foldl_addNew {xs acc : List σ} (h : acc.Nodup) : (xs.foldl addNew acc).Nodup := by
  induction xs generalizing acc with
  | nil => exact h
  | cons x rest ih => exact ih (nodup_addNew h x)

theorem mem_distinct {xs : List σ} {y : σ} : y ∈ distinct xs ↔ y ∈ xs := by
  rw [distinct, mem_foldl_addNew]
  simp

theorem nodup_distinct (xs : List σ) : (distinct xs).Nodup := nodup_foldl_addNew List.nodup_nil

/-- Adding members one by one keeps the list distinct and in the order of first places. -/
theorem distinct_append (xs ys : List σ) : distinct (xs ++ ys) = ys.foldl addNew (distinct xs) :=
  List.foldl_append

end Distinct

/-- What a simulation is made from. -/
structure Config (σ : Type) where
  initialTime : Instant
  startPaused : Bool
  sources : List σ
  deriving DecidableEq

namespace Config

variable {σ : Type}

/-- The configuration with exactly these sources: clock at zero, paused at first. -/
def ofRecord (sources : List σ) : Config σ := ⟨.zero, true, sources⟩

/-- The same configuration with the clock at `t` at first. -/
def startingAt (c : Config σ) (t : Instant) : Config σ := { c with initialTime := t }

/-- The same configuration, paused at first or not. -/
def startingPaused (c : Config σ) (paused : Bool) : Config σ := { c with startPaused := paused }

variable [DecidableEq σ]

/-- The configuration with these sources, each once. -/
def ofSources (sources : List σ) : Config σ := ofRecord (distinct sources)

/-- The same configuration with one more source, unless it is there. -/
def withSource (c : Config σ) (source : σ) : Config σ :=
  { c with sources := addNew c.sources source }

/-- Sources given one by one and sources given at once make the same list. -/
theorem sources_foldl_withSource (c : Config σ) (xs : List σ) :
    (xs.foldl withSource c).sources = xs.foldl addNew c.sources := by
  induction xs generalizing c with
  | nil => rfl
  | cons x rest ih => exact ih (c.withSource x)

end Config

end StallSim
