import Mathlib.Algebra.GroupWithZero.Nat
import Mathlib.Algebra.Order.BigOperators.Group.Finset
import Mathlib.Data.Fintype.Basic
import Mathlib.Order.Lattice.Nat
import StallSim.Proofs.Finality

/-!
# Finite programs

A program is finite if no action hands itself in again, neither directly nor through others: the
actions that an action submits are then smaller than itself, and so are those that they submit.
Procedures are expanded where they are called, and only the simulations in question count: those
that are run, and those that their actions run.

* `Script.Ends` — a script is finite, with all that it submits to these simulations.
* `Script.callFree` — a script that calls no procedure.
* `Script.cost` — how many operations a finite script comes to, with all that it submits.

Principal results: `ends_of_callFree` — a script without procedures is finite; `cost_submit`,
`cost_perform`, `cost_call`, `cost_whenBefore` — every operation uses up some of the cost, what is
submitted by it included.
-/

set_option autoImplicit false

namespace StallSim

variable {n : Nat}

/-- The script is finite, with all that it submits to the simulations `among`; it runs no other
simulation than these. -/
inductive Script.Ends (procedures : Table String (Script n)) (among : Finset (Fin n)) :
    Script n → Prop where
  | done : Ends procedures among .done
  | submit {submission : Submission n} {body rest : Script n} {handling : Handling}
      (submitted : submission.sim ∈ among → Ends procedures among body)
      (later : Ends procedures among rest) :
      Ends procedures among (.submit submission body handling rest)
  | perform {i : Fin n} {command : Command n} {handling : Handling} {rest : Script n}
      (closed : command.AsksForRun → i ∈ among) (later : Ends procedures among rest) :
      Ends procedures among (.perform i command handling rest)
  | call {name : String} {rest : Script n}
      (expanded : Ends procedures among ((procedures.get? name).getD .done ++ rest)) :
      Ends procedures among (.call name rest)
  | whenBefore {i : Fin n} {limit : Instant} {body rest : Script n}
      (inTime : Ends procedures among (body ++ rest)) (tooLate : Ends procedures among rest) :
      Ends procedures among (.whenBefore i limit body rest)
  | fail {failure : Failure} {context : Option String} :
      Ends procedures among (.fail failure context)
  | panic {message : String} : Ends procedures among (.panic message)

/-! ## Scripts without procedures -/

/-- The script calls no procedure, nor does what it submits. -/
def Script.callFree : Script n → Bool
  | .done | .fail _ _ | .panic _ => true
  | .submit _ body _ rest | .whenBefore _ _ body rest => body.callFree && rest.callFree
  | .perform _ _ _ rest => rest.callFree
  | .call _ _ => false

section CallFree

variable {procedures : Table String (Script n)} {a b : Script n}

theorem ends_append (free : a.callFree = true) (ends : b.Ends procedures Finset.univ) :
    (a ++ b).Ends procedures Finset.univ := by
  induction a generalizing b with
  | done => exact ends
  | submit submission body handling rest ihBody ihRest =>
    simp only [Script.callFree, Bool.and_eq_true] at free
    have hbody := ihBody free.1 (.done : Script.done.Ends procedures Finset.univ)
    rw [Script.append_done] at hbody
    exact .submit (fun _ => hbody) (ihRest free.2 ends)
  | perform i command handling rest ih => exact .perform (fun _ => Finset.mem_univ i) (ih free ends)
  | call name rest => cases free
  | whenBefore i limit body rest ihBody ihRest =>
    simp only [Script.callFree, Bool.and_eq_true] at free
    have hrest := ihRest free.2 ends
    exact .whenBefore (ihBody free.1 hrest) hrest
  | fail failure context => exact .fail
  | panic message => exact .panic

/-- **A script that calls no procedure is finite**, for it is data. -/
theorem ends_of_callFree (free : a.callFree = true) : a.Ends procedures Finset.univ := by
  have hends := ends_append free (.done : Script.done.Ends procedures Finset.univ)
  rwa [Script.append_done] at hends

end CallFree

/-! ## Costs -/

/-- The script comes to at most so many operations; an action that is submitted counts twice more,
for its submission and its start. -/
inductive Script.Costs (procedures : Table String (Script n)) (among : Finset (Fin n)) :
    Script n → Nat → Prop where
  | done : Costs procedures among .done 1
  | submit {submission : Submission n} {body rest : Script n} {handling : Handling} {a b : Nat}
      (submitted : submission.sim ∈ among → Costs procedures among body a)
      (later : Costs procedures among rest b) :
      Costs procedures among (.submit submission body handling rest) (a + b + 2)
  | perform {i : Fin n} {command : Command n} {handling : Handling} {rest : Script n} {b : Nat}
      (later : Costs procedures among rest b) :
      Costs procedures among (.perform i command handling rest) (b + 1)
  | call {name : String} {rest : Script n} {b : Nat}
      (expanded : Costs procedures among ((procedures.get? name).getD .done ++ rest) b) :
      Costs procedures among (.call name rest) (b + 1)
  | whenBefore {i : Fin n} {limit : Instant} {body rest : Script n} {a b : Nat}
      (inTime : Costs procedures among (body ++ rest) a)
      (tooLate : Costs procedures among rest b) :
      Costs procedures among (.whenBefore i limit body rest) (a + b + 1)
  | fail {failure : Failure} {context : Option String} :
      Costs procedures among (.fail failure context) 1
  | panic {message : String} : Costs procedures among (.panic message) 1

/-- The least bound on the operations that a finite script comes to. -/
noncomputable def Script.cost (procedures : Table String (Script n)) (among : Finset (Fin n))
    (s : Script n) : Nat :=
  sInf {k | s.Costs procedures among k}

section Costs

variable {procedures : Table String (Script n)} {among : Finset (Fin n)} {s body rest : Script n}
  {handling : Handling}

theorem Script.Ends.costs (ends : s.Ends procedures among) : ∃ k, s.Costs procedures among k := by
  induction ends with
  | done => exact ⟨1, .done⟩
  | @submit submission body rest handling _ _ ihBody ihRest =>
    obtain ⟨b, hrest⟩ := ihRest
    by_cases hamong : submission.sim ∈ among
    · obtain ⟨a, hbody⟩ := ihBody hamong
      exact ⟨a + b + 2, .submit (fun _ => hbody) hrest⟩
    · exact ⟨0 + b + 2, .submit (fun h => absurd h hamong) hrest⟩
  | perform _ _ ih =>
    obtain ⟨b, hrest⟩ := ih
    exact ⟨b + 1, .perform hrest⟩
  | call _ ih =>
    obtain ⟨b, hexpanded⟩ := ih
    exact ⟨b + 1, .call hexpanded⟩
  | whenBefore _ _ ihTaken ihPassed =>
    obtain ⟨a, htaken⟩ := ihTaken
    obtain ⟨b, hpassed⟩ := ihPassed
    exact ⟨a + b + 1, .whenBefore htaken hpassed⟩
  | fail => exact ⟨1, .fail⟩
  | panic => exact ⟨1, .panic⟩

theorem Script.Ends.costs_cost (ends : s.Ends procedures among) :
    s.Costs procedures among (s.cost procedures among) :=
  Nat.sInf_mem ends.costs

theorem Script.Costs.cost_le {k : Nat} (costs : s.Costs procedures among k) :
    s.cost procedures among ≤ k :=
  Nat.sInf_le costs

/-- Even to end is an operation. -/
theorem cost_pos (ends : s.Ends procedures among) : 0 < s.cost procedures among := by
  have hcosts := ends.costs_cost
  generalize s.cost procedures among = k at hcosts
  cases hcosts <;> omega

theorem cost_submit {submission : Submission n}
    (ends : (Script.submit submission body handling rest).Ends procedures among) :
    rest.cost procedures among +
        (if submission.sim ∈ among then body.cost procedures among + 1 else 0) <
      (Script.submit submission body handling rest).cost procedures among := by
  have hcosts := ends.costs_cost
  generalize (Script.submit submission body handling rest).cost procedures among = k at hcosts ⊢
  cases hcosts with
  | submit submitted later =>
    have hlater := later.cost_le
    split
    · rename_i hamong
      have hbody := (submitted hamong).cost_le
      omega
    · omega

theorem cost_perform {i : Fin n} {command : Command n}
    (ends : (Script.perform i command handling rest).Ends procedures among) :
    rest.cost procedures among <
      (Script.perform i command handling rest).cost procedures among := by
  have hcosts := ends.costs_cost
  generalize (Script.perform i command handling rest).cost procedures among = k at hcosts ⊢
  cases hcosts with
  | perform later =>
    have hlater := later.cost_le
    omega

theorem cost_call {name : String}
    (ends : (Script.call name rest).Ends procedures among) :
    ((procedures.get? name).getD .done ++ rest).cost procedures among <
      (Script.call name rest).cost procedures among := by
  have hcosts := ends.costs_cost
  generalize (Script.call name rest).cost procedures among = k at hcosts ⊢
  cases hcosts with
  | call expanded =>
    have hexpanded := expanded.cost_le
    omega

theorem cost_whenBefore {i : Fin n} {limit : Instant}
    (ends : (Script.whenBefore i limit body rest).Ends procedures among) :
    (body ++ rest).cost procedures among <
        (Script.whenBefore i limit body rest).cost procedures among ∧
      rest.cost procedures among <
        (Script.whenBefore i limit body rest).cost procedures among := by
  have hcosts := ends.costs_cost
  generalize (Script.whenBefore i limit body rest).cost procedures among = k at hcosts ⊢
  cases hcosts with
  | whenBefore inTime tooLate =>
    have hinTime := inTime.cost_le
    have htooLate := tooLate.cost_le
    omega

end Costs

end StallSim
