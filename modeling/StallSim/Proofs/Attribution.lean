import StallSim.Proofs.Failing

/-!
# Which action a failed run names

A run that ends because an action failed names an action by its id and its description.  It is the
action of this run that failed, with one exception: an action that ends with the error of another
failed action, such as one that a run of another simulation has returned, hands this error on, and
then the run names that other action.

* `Failure.Foreign` — a failure that comes from another action.

Principal results: `report_names_iff` — the exception; `failed_run_names_iff` — in every history;
`nested_failure_renamed` — a run that names an action of another simulation.
-/

set_option autoImplicit false

namespace StallSim

variable {n : Nat}

/-- Below all contexts, the failure is that of a failed action, and not of the one with this id and
this description. -/
def Failure.Foreign (failure : Failure) (event : EventId) (description : String) : Prop :=
  ∃ other text cause, failure.error? = some (.actionFailed other text cause) ∧
    ¬ (other = event ∧ text = description)

/-- What is reported of a failure names the action, unless the failure comes from another one. -/
theorem Failure.report_names_iff (failure : Failure) (event : EventId) (description : String) :
    (∃ cause, failure.report event description = .actionFailed event description cause) ↔
      ¬ failure.Foreign event description := by
  unfold Failure.report Failure.Foreign
  split
  · rename_i other text cause hbelow
    rw [hbelow]
    constructor
    · rintro ⟨cause', hreport⟩ ⟨other', text', cause'', hfound, hdiffer⟩
      cases hfound
      cases hreport
      exact hdiffer ⟨rfl, rfl⟩
    · intro hown
      have hsame : other = event ∧ text = description :=
        Classical.byContradiction fun hdiffer => hown ⟨other, text, cause, rfl, hdiffer⟩
      obtain ⟨rfl, rfl⟩ := hsame
      exact ⟨cause, rfl⟩
  · rename_i e hnot hbelow
    refine ⟨?_, fun _ => ⟨_, rfl⟩⟩
    rintro - ⟨other, text, cause, hfound, -⟩
    rw [hbelow] at hfound
    exact hnot other text cause (Option.some.inj hfound)
  · rename_i hbelow
    refine ⟨?_, fun _ => ⟨_, rfl⟩⟩
    rintro - ⟨other, text, cause, hfound, -⟩
    rw [hbelow] at hfound
    cases hfound

/-- **Which action a failed run names.**  An action ends with a failure, in whatever way it was
started: taken from the calendar or from a backlog, handed in through its source or not.  It was
accepted under the id by which it goes, its run ends with an error, and this error is a failed
action, with some cause.  The id and the description in it are those of the action if and only if
the failure does not come from another failed action. -/
theorem failed_run_names_iff {h : List (Fin n × Happening n)} {m : Machine n} (hist : History h m)
    {run : Run n} {work : Work (Action n)} {failure : Failure}
    (failing : m.failing? = some (run, work, failure)) :
    (∃ ticket ∈ (logOf run.sim h).accepted, ticket.work = work) ∧
    ∃ event description cause, RunFails m run (.actionFailed event description cause) ∧
      (event = work.id ∧ description = work.description ↔
        ¬ failure.Foreign work.id work.description) := by
  obtain ⟨w, callers, -, hframes, -, -⟩ := step_of_failing failing
  have hmem : (run, work) ∈ m.frames := hframes ▸ List.mem_cons_self
  refine ⟨accepted_of_frame hist hmem, ?_⟩
  obtain ⟨event, description, cause, hreport⟩ :=
    failure.report_eq_actionFailed work.id work.description
  refine ⟨event, description, cause, hreport ▸ runFails_of_failing failing, ?_⟩
  rw [← Failure.report_names_iff, hreport]
  constructor
  · rintro ⟨rfl, rfl⟩
    exact ⟨cause, rfl⟩
  · rintro ⟨cause', heq⟩
    cases heq
    exact ⟨rfl, rfl⟩

/-- The run names an action that fails by itself when it is replayed. -/
theorem replayed_failure_named :
    (threeWorld stallUntilFive failingScript .sourceNow 7).failing? =
        some (secondReplayed, secondWork failingScript, .plain "") ∧
      ∃ cause, RunFails (threeWorld stallUntilFive failingScript .sourceNow 7) secondReplayed
        (.actionFailed ⟨1⟩ "" cause) := by
  obtain ⟨-, event, description, cause, hfails, hnames⟩ :=
    failed_run_names_iff (.three _ _ _ _) failing_secondReplayed
  have hown : ¬ (Failure.plain "").Foreign ⟨1⟩ "" := by
    rintro ⟨_, _, _, hfound, -⟩
    cases hfound
  obtain ⟨rfl, rfl⟩ := hnames.2 hown
  exact ⟨failing_secondReplayed, cause, hfails⟩

/-! ## The failure of a run in a run -/

/-- Two simulations with one source each. -/
def twoSmallWorlds : World 2 where
  sims := #v[Simulation.create ⟨.zero, false, [.index 0]⟩,
    Simulation.create ⟨.zero, false, [.index 0]⟩]
  handles := .empty
  procedures := .empty
  journal := []

theorem History.twoSmall : History [] (Machine.atRest twoSmallWorlds) := by
  have hcreate := History.create
    #v[⟨.zero, false, [.index 0]⟩, ⟨.zero, false, [.index 0]⟩] (.empty : Table String (Script 2))
  have hworld : World.create
      #v[⟨.zero, false, [.index 0]⟩, ⟨.zero, false, [.index 0]⟩] .empty = twoSmallWorlds := by
    simp [World.create, twoSmallWorlds]
  exact hworld ▸ hcreate

/-- An action of the one simulation fails.  An action of the other simulation, which is not the
first that is handed in there, attempts to run the one. -/
def nestedFailure : List (Request 2) :=
  [.submit ⟨1, .index 0, .sourceNow, "inner", none⟩ (.fail (.plain "") none),
    .submit ⟨0, .index 0, .sourceNow, "first", none⟩ .done,
    .submit ⟨0, .index 0, .sourceNow, "outer", none⟩ (.perform 1 .run ⟨true, none⟩ .done),
    .command 0 .run]

/-- The action that runs the other simulation ends with the failure of that run, and its own run
then names the action that failed there. -/
theorem nested_failure_renamed :
    ¬ ∀ (h : List (Fin 2 × Happening 2)) (m : Machine 2) (run : Run 2) (work : Work (Action 2))
      (failure : Failure), History h m → m.failing? = some (run, work, failure) →
      ∃ cause, RunFails m run (.actionFailed work.id work.description cause) := by
  intro hall
  have hist := (History.twoSmall.ask nestedFailure rfl).steps 6
  obtain ⟨cause, hfails⟩ := hall _ _ ⟨0, 0, none, none⟩ ⟨⟨1⟩, .index 0, "outer", ⟨"outer", _⟩⟩
    (.error (.actionFailed ⟨0⟩ "inner" (.plain ""))) hist rfl
  have hanswer := hfails.answer
  cases hanswer

end StallSim
