import StallSim.Proofs.Lockstep

/-!
# Runs without stalls are runs of the reference simulator

As long as no source is stalled, it makes no difference by which way work is handed in, and a
simulation does what the reference simulator does: it takes the immediate work in the order in which
it came, then the timed work by time and id, and drops what was cancelled without moving the clock.

* `Performed` — both answer requests alike, or neither gets through with them.

Principal result: `run_eq_reference` — the report of a scenario, and all that can be seen of it at
any moment, are those of the reference simulator on its plain form; so they are the same for all
scenarios with one plain form.
-/

set_option autoImplicit false

namespace StallSim

variable {n : Nat}

/-! ## Requests -/

/-- What requests come to on both sides. -/
inductive Performed : Option (List (Answer n) × World n) →
    Option (List (Answer n) × Reference.World n) → Prop where
  | unfinished : Performed none none
  | answered (answers : List (Answer n)) {w : World n} {v : Reference.World n}
      (mirrors : WorldMirrors v w) :
      Performed (some (answers, w)) (some (answers.map Answer.plain, v))

namespace WorldMirrors

variable {v : Reference.World n} {w : World n}

theorem summaries (mirrors : WorldMirrors v w) :
    v.sims.map Reference.Simulation.summary = w.sims.map Simulation.summary := by
  refine Vector.ext fun i hi => ?_
  rw [Vector.getElem_map, Vector.getElem_map]
  exact (mirrors.sims ⟨i, hi⟩).summary

/-- The same requests are orderly on both sides, with all operations that they cause. -/
theorem orderly (mirrors : WorldMirrors v w) (fuel : Nat) (requests : List (Request n)) :
    v.orderly fuel (requests.map Request.plain) = w.orderly fuel requests := by
  induction requests generalizing v w with
  | nil => rfl
  | cons request later ih =>
    rw [List.map_cons, Reference.World.orderly, World.orderly, mirrors.admits]
    -- behind a request that is not orderly the two may part, but then both have their answer
    cases hbegins : request.orderly w with
    | false => rfl
    | true =>
      have hbegun := lockstep_request mirrors request hbegins
      rw [hbegun.orderlyFor]
      cases hfor : (Machine.request w request).orderlyFor fuel with
      | false => rfl
      | true =>
        have hrun := hbegun.run fuel hfor
        rw [hrun.result?, ih hrun.world]

section Orderly

variable {fuel : Nat} {request : Request n} {requests : List (Request n)}

/-- The run that answers a request is the same on both sides. -/
theorem lockstep (mirrors : WorldMirrors v w)
    (orderly : w.orderly fuel (request :: requests) = true) :
    Lockstep ((Reference.Machine.request v request.plain).run fuel)
      ((Machine.request w request).run fuel) := by
  simp only [World.orderly, Bool.and_eq_true] at orderly
  exact (lockstep_request mirrors request orderly.1.1).run fuel orderly.1.2

theorem orderly_later (orderly : w.orderly fuel (request :: requests) = true)
    (answered : ((Machine.request w request).run fuel).result?.isSome = true) :
    ((Machine.request w request).run fuel).world.orderly fuel requests = true := by
  simp only [World.orderly, Bool.and_eq_true, answered] at orderly
  simpa using orderly.2

theorem performAll (mirrors : WorldMirrors v w) (orderly : w.orderly fuel requests = true) :
    Performed (w.performAll fuel requests)
      (v.performAll fuel (requests.map Request.plain)) := by
  induction requests generalizing v w with
  | nil => exact .answered [] mirrors
  | cons request later ih =>
    have hrun := mirrors.lockstep orderly
    have hlater := orderly_later orderly
    rw [List.map_cons, Reference.World.performAll, World.performAll, Reference.World.perform,
      World.perform]
    generalize (Machine.request w request).run fuel = m at hrun hlater ⊢
    generalize (Reference.Machine.request v request.plain).run fuel = r at hrun ⊢
    rw [hrun.result?]
    cases hresult : m.result? with
    | none => exact .unfinished
    | some outcome =>
      have hperformed := ih hrun.world (hlater (by rw [hresult]; rfl))
      have hjournal : r.world.journal.drop v.journal.length =
          (m.world.journal.drop w.journal.length).map Record.plain := by
        rw [hrun.world.journal, mirrors.journal, List.length_map, List.map_drop]
      simp only [Option.map_some, Request.sim_plain, (hrun.world.sims request.sim).status,
        hjournal]
      generalize m.world.performAll fuel later = a at hperformed ⊢
      generalize r.world.performAll fuel (later.map Request.plain) = b at hperformed ⊢
      cases hperformed with
      | unfinished => exact .unfinished
      | answered answers hmirrors => exact .answered (_ :: answers) hmirrors

end Orderly

end WorldMirrors

namespace Lockstep

variable {r : Reference.Machine n} {m : Machine n}

theorem reach {fuel : Nat} {requests : List (Request n)} (lockstep : Lockstep r m)
    (orderly : m.world.orderly fuel requests = true) :
    Lockstep (r.reach fuel (requests.map Request.plain)) (m.reach fuel requests) := by
  induction requests generalizing r m with
  | nil => exact lockstep
  | cons request later ih =>
    have hrun := lockstep.world.lockstep orderly
    rw [List.map_cons, Reference.Machine.reach, Machine.reach, hrun.result?]
    split
    · rename_i hanswered
      exact ih hrun (WorldMirrors.orderly_later orderly hanswered)
    · exact hrun

/-- What can be seen is the same on both sides. -/
theorem sight (lockstep : Lockstep r m) : r.sight = m.sight.plain := by
  rw [Reference.Machine.sight, Machine.sight, Sight.plain, lockstep.result?,
    lockstep.world.journal, lockstep.world.summaries]

end Lockstep

/-! ## Scenarios -/

section Scenarios

variable (fuel : Nat) (scenario : Scenario n)

theorem orderly_eq_reference : scenario.orderly fuel = Reference.orderly fuel scenario.plain :=
  ((WorldMirrors.create scenario.configs scenario.procedures).orderly fuel scenario.requests).symm

variable {fuel scenario}

theorem report_eq_reference (orderly : scenario.orderly fuel = true) :
    (scenario.run fuel).map Report.plain = Reference.run fuel scenario.plain := by
  have hmirrors := WorldMirrors.create scenario.configs scenario.procedures
  have hperformed := hmirrors.performAll orderly
  simp only [Scenario.run, Reference.run, Scenario.plain]
  generalize World.performAll fuel _ scenario.requests = a at hperformed ⊢
  generalize Reference.World.performAll fuel _ (scenario.requests.map Request.plain) = b
    at hperformed ⊢
  cases hperformed with
  | unfinished => rfl
  | answered answers mirrors =>
    simp only [Option.map_some, mirrors.summaries]
    rfl

theorem sight_eq_reference (orderly : scenario.orderly fuel = true) :
    (scenario.reach fuel).sight.plain = (Reference.reach fuel scenario.plain).sight := by
  have hrest : Lockstep (.atRest (.create scenario.configs scenario.plain.procedures))
      (.atRest (.create scenario.configs scenario.procedures)) :=
    ⟨WorldMirrors.create scenario.configs scenario.procedures, rfl, rfl, List.forall_mem_nil _⟩
  exact (hrest.reach orderly).sight.symm

end Scenarios

/-- **Runs without stalls are runs of the reference simulator, whichever way work is handed in.**
If a scenario, in `fuel` steps for each request, hands in work for configured sources only and
stalls no source, then its report is that of the reference simulator on its plain form, and so is
what can be seen of it where it gets to, be it finished or not.  Every other scenario with the same
plain form gives the same report, and the same can be seen of it. -/
theorem run_eq_reference (fuel : Nat) (scenario : Scenario n)
    (orderly : scenario.orderly fuel = true) :
    (scenario.run fuel).map Report.plain = Reference.run fuel scenario.plain ∧
      (scenario.reach fuel).sight.plain = (Reference.reach fuel scenario.plain).sight ∧
      ∀ other : Scenario n, other.plain = scenario.plain →
        (other.run fuel).map Report.plain = (scenario.run fuel).map Report.plain ∧
          (other.reach fuel).sight.plain = (scenario.reach fuel).sight.plain := by
  refine ⟨report_eq_reference orderly, sight_eq_reference orderly, fun other same => ?_⟩
  have hother : other.orderly fuel = true := by
    rw [orderly_eq_reference, same, ← orderly_eq_reference, orderly]
  rw [report_eq_reference hother, sight_eq_reference hother, same, report_eq_reference orderly,
    sight_eq_reference orderly]
  exact ⟨rfl, rfl⟩

/-- Two actions of one source that are due at five, one by each way, and one of another source that
is due at once and cancels the first of them; the second asks in vain for a stall of the other
source, and hands in an action of its own that fails. -/
def mixedScenario : Scenario 1 where
  configs := #v[⟨.zero, false, [.index 0, .index 1]⟩]
  procedures := .empty
  requests :=
    [.submit ⟨lone, .index 0, .sourceAt (.at ⟨5⟩), "first", some "h"⟩ .done,
      .submit ⟨lone, .index 0, .directAt (.at ⟨5⟩), "second", none⟩
        (.submit ⟨lone, .index 1, .sourceNow, "last", none⟩ (.fail (.plain "broken") none)
          ⟨true, none⟩
          (.perform lone (.stall (.index 1) (.at ⟨9⟩)) ⟨false, none⟩ .done)),
      .submit ⟨lone, .index 1, .directNow, "cancel", none⟩
        (.perform lone (.cancel "h") ⟨true, none⟩ .done),
      .command lone .run]

/-- The first action is cancelled in time, and the run ends with the failure of the last. -/
theorem run_eq_reference_mixed :
    mixedScenario.orderly 20 = true ∧
      ((mixedScenario.reach 20).result?.bind Outcome.error?).map Error.message =
        some "event E#3 (last) failed" ∧
      (mixedScenario.run 20).map Report.plain = Reference.run 20 mixedScenario.plain ∧
      (mixedScenario.plain.run 20).map Report.plain =
        (mixedScenario.run 20).map Report.plain := by
  have horderly : mixedScenario.orderly 20 = true := by decide +kernel
  obtain ⟨hreport, -, hother⟩ := run_eq_reference 20 mixedScenario horderly
  exact ⟨horderly, by decide +kernel, hreport, (hother _ mixedScenario.plain_plain).1⟩

end StallSim
