/-!
# Tables

A table holds one value for each key, in the order in which the keys first came.  The phases of the
sources, the bindings of handle names and the named procedures are tables.

* `Table.get?` — the value under a key.
* `Table.set` — give a key a value, in place of the one it had.
* `Table.mapValues` — other values under the same keys.

Principal results: `get?_set` — a key has the value it was last given; `get?_mapValues`.
-/

set_option autoImplicit false

namespace StallSim

/-- One value for each key. -/
structure Table (κ β : Type) where
  entries : List (κ × β)

namespace Table

variable {κ β : Type}

/-- The table without keys. -/
def empty : Table κ β := ⟨[]⟩

variable [DecidableEq κ]

/-- The value in a list of bindings under the key `k`: the first one wins. -/
def lookup (k : κ) : List (κ × β) → Option β
  | [] => none
  | e :: rest => if e.1 = k then some e.2 else lookup k rest

/-- The bindings with the key `k` bound to `v`. -/
def bind (k : κ) (v : β) : List (κ × β) → List (κ × β)
  | [] => [(k, v)]
  | e :: rest => if e.1 = k then (k, v) :: rest else e :: bind k v rest

theorem lookup_bind (k j : κ) (v : β) (entries : List (κ × β)) :
    lookup j (bind k v entries) = if k = j then some v else lookup j entries := by
  induction entries with
  | nil => simp [bind, lookup]
  | cons e rest ih =>
    by_cases he : e.1 = k
    · by_cases hk : k = j
      · simp [bind, lookup, he, hk]
      · simp [bind, lookup, he, hk]
    · simp only [bind, he, if_false, lookup, ih]
      by_cases hj : e.1 = j
      · have hk : k ≠ j := fun h => he (hj.trans h.symm)
        simp [hj, hk]
      · simp [hj]

/-- The value under a key. -/
def get? (t : Table κ β) (k : κ) : Option β := lookup k t.entries

/-- Give the key `k` the value `v`. -/
def set (t : Table κ β) (k : κ) (v : β) : Table κ β := ⟨bind k v t.entries⟩

@[simp] theorem get?_empty (k : κ) : (empty : Table κ β).get? k = none := rfl

/-- A key has the value it was last given. -/
theorem get?_set (t : Table κ β) (k j : κ) (v : β) :
    (t.set k v).get? j = if k = j then some v else t.get? j :=
  lookup_bind k j v t.entries

/-- The table with other values under the same keys. -/
def mapValues {γ : Type} (f : β → γ) (t : Table κ β) : Table κ γ :=
  ⟨t.entries.map (fun e => (e.1, f e.2))⟩

theorem get?_mapValues {γ : Type} (f : β → γ) (t : Table κ β) (k : κ) :
    (t.mapValues f).get? k = (t.get? k).map f := by
  obtain ⟨entries⟩ := t
  show lookup k (entries.map _) = (lookup k entries).map f
  induction entries with
  | nil => rfl
  | cons e rest ih =>
    simp only [List.map_cons, lookup, ih]
    split <;> rfl

end Table

end StallSim
