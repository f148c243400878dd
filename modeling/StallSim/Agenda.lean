/-!
# Agendas

An agenda holds entries in ascending order of their keys; entries under equal keys stay in the
order in which they came.  Timed events, parked immediate work and parked timers are all kept in
agendas, under different keys.

* `Agenda.toList` — the view: keys with their entries, least key first.
* `Agenda.insert`, `Agenda.next?` — the two operations; every other fact about an agenda is said
  through the view.

Principal results: `toList_insert` — inserting splits the view at the key; `mem_insert`;
`next?_eq_some_iff` — what comes next is the head of the view, which is least
(`le_of_next?_eq_some`).
-/

set_option autoImplicit false

namespace StallSim

/-- Entries in ascending order of their keys. -/
structure Agenda (κ β : Type) [LE κ] where
  toList : List (κ × β)
  ordered : toList.Pairwise (fun a b => a.1 ≤ b.1)

namespace Agenda

variable {κ β : Type} [LE κ]

/-- The agenda without entries. -/
def empty : Agenda κ β := ⟨[], List.Pairwise.nil⟩

@[simp] theorem toList_empty : (empty : Agenda κ β).toList = [] := rfl

@[ext] theorem ext {a b : Agenda κ β} (h : a.toList = b.toList) : a = b := by
  cases a
  cases b
  cases h
  rfl

/-- The entries without their keys, least key first. -/
def values (a : Agenda κ β) : List β := a.toList.map Prod.snd

/-- The least entry and the agenda of the others. -/
def next? (a : Agenda κ β) : Option ((κ × β) × Agenda κ β) :=
  match a with
  | ⟨[], _⟩ => none
  | ⟨e :: rest, h⟩ => some (e, ⟨rest, (List.pairwise_cons.1 h).2⟩)

theorem next?_eq_none_iff {a : Agenda κ β} : a.next? = none ↔ a.toList = [] := by
  obtain ⟨_ | ⟨e, rest⟩, h⟩ := a <;> simp [next?]

theorem next?_eq_some_iff {a b : Agenda κ β} {e : κ × β} :
    a.next? = some (e, b) ↔ a.toList = e :: b.toList := by
  obtain ⟨_ | ⟨d, rest⟩, h⟩ := a
  · simp [next?]
  · constructor
    · intro hn
      cases hn
      rfl
    · intro hl
      cases hl
      rfl

/-- What comes next is least. -/
theorem le_of_next?_eq_some {a b : Agenda κ β} {e d : κ × β} (h : a.next? = some (e, b))
    (hd : d ∈ b.toList) : e.1 ≤ d.1 := by
  have ho := a.ordered
  rw [next?_eq_some_iff.1 h] at ho
  exact (List.pairwise_cons.1 ho).1 d hd

variable [DecidableLE κ]

/-- The entries that stay before a new one under the key `k`. -/
def upTo (k : κ) (entries : List (κ × β)) : List (κ × β) :=
  entries.takeWhile (fun e => decide (e.1 ≤ k))

/-- The entries that stay behind a new one under the key `k`. -/
def beyond (k : κ) (entries : List (κ × β)) : List (κ × β) :=
  entries.dropWhile (fun e => decide (e.1 ≤ k))

theorem upTo_append_beyond (k : κ) (entries : List (κ × β)) :
    upTo k entries ++ beyond k entries = entries :=
  List.takeWhile_append_dropWhile

theorem le_of_mem_upTo {k : κ} {entries : List (κ × β)} {e : κ × β} (h : e ∈ upTo k entries) :
    e.1 ≤ k := by
  induction entries with
  | nil => cases h
  | cons d rest ih =>
    by_cases hd : d.1 ≤ k
    · simp only [upTo, List.takeWhile_cons, hd, decide_true, if_true, List.mem_cons] at h
      rcases h with rfl | h
      · exact hd
      · exact ih h
    · simp [upTo, hd] at h

variable [Std.IsLinearOrder κ]

theorem le_of_mem_beyond {k : κ} {entries : List (κ × β)} {e : κ × β}
    (ho : entries.Pairwise (fun a b => a.1 ≤ b.1)) (h : e ∈ beyond k entries) : k ≤ e.1 := by
  induction entries with
  | nil => cases h
  | cons d rest ih =>
    obtain ⟨hfirst, hrest⟩ := List.pairwise_cons.1 ho
    by_cases hd : d.1 ≤ k
    · simp only [beyond, List.dropWhile_cons, hd, decide_true, if_true] at h
      exact ih hrest h
    · have hk : k ≤ d.1 := (Std.le_total (a := k) (b := d.1)).resolve_right hd
      simp only [beyond, List.dropWhile_cons, hd, decide_false, Bool.false_eq_true, if_false,
        List.mem_cons] at h
      rcases h with rfl | h
      · exact hk
      · exact Std.le_trans hk (hfirst e h)

/-- Put `v` under the key `k`, behind the entries whose keys are not greater. -/
def insert (a : Agenda κ β) (k : κ) (v : β) : Agenda κ β where
  toList := upTo k a.toList ++ (k, v) :: beyond k a.toList
  ordered := by
    have ho := a.ordered
    have hsplit := ho
    rw [← upTo_append_beyond k a.toList, List.pairwise_append] at hsplit
    rw [List.pairwise_append, List.pairwise_cons]
    refine ⟨hsplit.1, ⟨fun e he => le_of_mem_beyond ho he, hsplit.2.1⟩, fun d hd e he => ?_⟩
    rcases List.mem_cons.1 he with rfl | he
    · exact le_of_mem_upTo hd
    · exact hsplit.2.2 d hd e he

theorem toList_insert (a : Agenda κ β) (k : κ) (v : β) :
    (a.insert k v).toList = upTo k a.toList ++ (k, v) :: beyond k a.toList := rfl

/-- A new entry parts the others: before it stay those whose keys are not greater. -/
theorem toList_insert_eq_filter (a : Agenda κ β) (k : κ) (v : β) :
    (a.insert k v).toList = a.toList.filter (fun e => decide (e.1 ≤ k)) ++
      (k, v) :: a.toList.filter (fun e => !decide (e.1 ≤ k)) := by
  have hparts : ∀ entries : List (κ × β), entries.Pairwise (fun a b => a.1 ≤ b.1) →
      upTo k entries = entries.filter (fun e => decide (e.1 ≤ k)) ∧
        beyond k entries = entries.filter (fun e => !decide (e.1 ≤ k)) := by
    intro entries ho
    induction entries with
    | nil => exact ⟨rfl, rfl⟩
    | cons d rest ih =>
      obtain ⟨hfirst, hrest⟩ := List.pairwise_cons.1 ho
      obtain ⟨hupTo, hbeyond⟩ := ih hrest
      by_cases hd : d.1 ≤ k
      · rw [upTo, beyond] at *
        simp [hd, hupTo, hbeyond]
      · -- the keys of the rest are not less than that of `d`, so none of them goes before `k`
        have hnone : ∀ e ∈ rest, ¬ e.1 ≤ k := fun e he hle => hd (Std.le_trans (hfirst e he) hle)
        have hempty : rest.filter (fun e => decide (e.1 ≤ k)) = [] := by simpa using hnone
        have hself : rest.filter (fun e => !decide (e.1 ≤ k)) = rest := by simpa using hnone
        simp [upTo, beyond, hd, hempty, hself]
  obtain ⟨hupTo, hbeyond⟩ := hparts a.toList a.ordered
  rw [toList_insert, hupTo, hbeyond]

theorem toList_insert_perm (a : Agenda κ β) (k : κ) (v : β) :
    (a.insert k v).toList.Perm ((k, v) :: a.toList) := by
  rw [toList_insert]
  refine List.perm_middle.trans ?_
  rw [upTo_append_beyond]

theorem mem_insert {a : Agenda κ β} {k : κ} {v : β} {e : κ × β} :
    e ∈ (a.insert k v).toList ↔ e = (k, v) ∨ e ∈ a.toList := by
  rw [(toList_insert_perm a k v).mem_iff, List.mem_cons]

/-- Where a new entry stands, if it is known which entries have keys that are not greater. -/
theorem toList_insert_of_split {a : Agenda κ β} {k : κ} (v : β) {before behind : List (κ × β)}
    (split : a.toList = before ++ behind) (le : ∀ e ∈ before, e.1 ≤ k)
    (not_le : ∀ e ∈ behind, ¬ e.1 ≤ k) :
    (a.insert k v).toList = before ++ (k, v) :: behind := by
  have hle : ∀ e ∈ before, decide (e.1 ≤ k) = true := fun e he => decide_eq_true (le e he)
  rw [toList_insert, split, upTo, beyond, List.takeWhile_append_of_pos hle,
    List.dropWhile_append_of_pos hle]
  cases behind with
  | nil => simp
  | cons d behind =>
    have hfirst : ¬ d.1 ≤ k := not_le d List.mem_cons_self
    simp [hfirst]

/-- The first entries stay the first, if their keys are not greater than that of the new one. -/
theorem prefix_insert {a : Agenda κ β} {k : κ} (v : β) {first : List (κ × β)}
    (heads : first <+: a.toList) (le : ∀ e ∈ first, e.1 ≤ k) :
    first <+: (a.insert k v).toList := by
  obtain ⟨others, hsplit⟩ := heads
  have hle : ∀ e ∈ first, decide (e.1 ≤ k) = true := fun e he => decide_eq_true (le e he)
  rw [toList_insert, ← hsplit, upTo, List.takeWhile_append_of_pos hle, List.append_assoc]
  exact List.prefix_append _ _

/-- The entries that are there stay in their order. -/
theorem sublist_insert (a : Agenda κ β) (k : κ) (v : β) :
    a.toList.Sublist (a.insert k v).toList := by
  have hsub : (upTo k a.toList ++ beyond k a.toList).Sublist (a.insert k v).toList :=
    (List.sublist_cons_self _ _).append_left _
  rwa [upTo_append_beyond] at hsub

end Agenda

end StallSim
