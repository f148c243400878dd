import StallSim.Proofs.Attribution

/-!
# How much of a failure the error of a run keeps

A run that ends because an action failed gives the failure as the cause of its error.  Somebody who
reads the messages from the outermost to the innermost finds those of the failure again, with one
exception: an error of the scheduler that was put in context becomes the cause without its contexts.

* `Failure.contexts`, `Failure.core` — a failure taken apart: the texts around it, and what they are
  around.
* `Failure.kept` — the part of a failure that a run reports as the cause.

Principal results: `report_of_own` — the cause is this part; `chain_kept_iff` — when it has all the
messages; `cause_whole_iff` — in every history, whatever way the action was started; `context_lost`
— a refusal that loses its context.
-/

set_option autoImplicit false

namespace StallSim

variable {n : Nat}

namespace Failure

/-! ## A failure and its contexts -/

/-- The texts of the contexts around a failure, outermost first. -/
def contexts : Failure → List String
  | .plain _ => []
  | .error _ => []
  | .context text inner => text :: inner.contexts

/-- What a failure is below all contexts. -/
def core : Failure → Failure
  | .plain text => .plain text
  | .error e => .error e
  | .context _ inner => inner.core

/-- The messages are those of the contexts, then those of what is below them. -/
theorem chain_eq_contexts : ∀ failure : Failure,
    failure.chain = failure.contexts ++ failure.core.chain
  | .plain _ => rfl
  | .error _ => rfl
  | .context text inner => by
    simp only [chain, contexts, core, List.cons_append, inner.chain_eq_contexts]

theorem core_of_error? {e : Error} : ∀ failure : Failure, failure.error? = some e →
    failure.core = .error e
  | .plain _, below => by cases below
  | .error _, below => congrArg Failure.error (Option.some.inj below)
  | .context _ inner, below => core_of_error? inner below

/-! ## The cause that is reported -/

/-- What a run reports of a failure: an error of the scheduler by itself, anything else as a
whole. -/
def kept (failure : Failure) : Failure :=
  match failure.error? with
  | some e => .error e
  | none => failure

/-- The failure comes from no failed action. -/
def Own (failure : Failure) : Prop :=
  ∀ other text cause, failure.error? ≠ some (.actionFailed other text cause)

/-- The error of a run names the event, and has as its cause what is kept of the failure. -/
theorem report_of_own {failure : Failure} (own : failure.Own) (event : EventId)
    (description : String) :
    failure.report event description = .actionFailed event description failure.kept := by
  unfold report kept
  split
  · rename_i other text cause below
    exact absurd below (own other text cause)
  · rename_i below
    simp only [below]
  · rename_i below
    simp only [below]

/-- An error that has been reported may be reported again, on its way out of a routed event or of
any number of them. -/
theorem foldl_report (failure : Failure) (event : EventId) (description : String)
    (again : List (EventId × String)) :
    again.foldl (fun e wrapper => (Failure.error e).report wrapper.1 wrapper.2)
        (failure.report event description) = failure.report event description := by
  induction again with
  | nil => rfl
  | cons wrapper again ih => rw [List.foldl_cons, report_report, ih]

/-- The messages of a failure, told from what is kept of it: an error of the scheduler is short of
its contexts. -/
theorem chain_eq_kept (failure : Failure) :
    failure.chain =
      (if failure.error?.isSome then failure.contexts else []) ++ failure.kept.chain := by
  unfold kept
  cases below : failure.error? with
  | none => rfl
  | some e =>
    rw [failure.chain_eq_contexts, failure.core_of_error? below]
    rfl

/-- **When all the messages are kept**: for anything but an error of the scheduler, and for an error
of the scheduler without contexts. -/
theorem chain_kept_iff (failure : Failure) :
    failure.kept.chain = failure.chain ↔ failure.error? = none ∨ failure.contexts = [] := by
  have hsplit := failure.chain_eq_kept
  cases below : failure.error? with
  | none => simpa [below] using hsplit.symm
  | some e =>
    rw [below, Option.isSome_some, if_pos rfl] at hsplit
    constructor
    · intro hsame
      rw [hsame] at hsplit
      exact .inr (List.self_eq_append_left.1 hsplit)
    · rintro (hnone | hbare)
      · cases hnone
      · rw [hsplit, hbare, List.nil_append]

end Failure

/-! ## The error of a run -/

/-- **When the cause of a failure is kept whole.**  An action ends with a failure that comes from no
other failed action, in whatever way it was started: taken from the calendar or from a backlog,
handed in through its source or not.  Its run returns a failed action with the id and the
description of the action, and stays with this error however often it is wrapped on the way.  The
messages of the cause are those of the failure, less the contexts around an error of the scheduler;
so they are exactly those of the failure if and only if it is no error of the scheduler or has no
contexts. -/
theorem cause_whole_iff {h : List (Fin n × Happening n)} {m : Machine n} (hist : History h m)
    {run : Run n} {work : Work (Action n)} {failure : Failure}
    (failing : m.failing? = some (run, work, failure)) (own : failure.Own) :
    (∃ ticket ∈ (logOf run.sim h).accepted, ticket.work = work) ∧
    ∃ cause, RunFails m run (.actionFailed work.id work.description cause) ∧
      (∀ again : List (EventId × String),
        again.foldl (fun e wrapper => (Failure.error e).report wrapper.1 wrapper.2)
            (.actionFailed work.id work.description cause) =
          .actionFailed work.id work.description cause) ∧
      failure.chain =
        (if failure.error?.isSome then failure.contexts else []) ++ cause.chain ∧
      (cause.chain = failure.chain ↔ failure.error? = none ∨ failure.contexts = []) := by
  obtain ⟨w, callers, -, hframes, -, -⟩ := step_of_failing failing
  have hmem : (run, work) ∈ m.frames := hframes ▸ List.mem_cons_self
  have hreport := Failure.report_of_own own work.id work.description
  refine ⟨accepted_of_frame hist hmem, failure.kept, ?_, ?_, ?_, ?_⟩
  · exact hreport ▸ runFails_of_failing failing
  · exact hreport ▸ failure.foldl_report work.id work.description
  · exact failure.chain_eq_kept
  · exact failure.chain_kept_iff

/-- An action that says what it was about when it fails. -/
def failingInContext : Script 1 := .fail (.context "flushing" (.plain "disk full")) (some "saving")

/-- The second of three actions fails in two contexts while it is replayed; both are kept. -/
theorem cause_whole_of_replayed :
    (threeWorld stallUntilFive failingInContext .sourceNow 7).failing? =
        some (secondReplayed, secondWork failingInContext,
          .context "saving" (.context "flushing" (.plain "disk full"))) ∧
      ∃ cause, RunFails (threeWorld stallUntilFive failingInContext .sourceNow 7) secondReplayed
        (.actionFailed ⟨1⟩ "" cause) ∧ cause.chain = ["saving", "flushing", "disk full"] := by
  have hfailing : (threeWorld stallUntilFive failingInContext .sourceNow 7).failing? =
      some (secondReplayed, secondWork failingInContext,
        .context "saving" (.context "flushing" (.plain "disk full"))) := rfl
  obtain ⟨-, cause, hfails, -, -, hwhole⟩ :=
    cause_whole_iff (.three stallUntilFive failingInContext .sourceNow 7) hfailing
      (fun _ _ _ below => by cases below)
  exact ⟨hfailing, cause, hfails, hwhole.2 (.inl rfl)⟩

/-! ## A refusal in context -/

/-- An action is handed in that hands in another one, for a source that the simulation does not
know, and puts the refusal in context.  Then the simulation is told to run. -/
def refusalInContext : List (Request 1) :=
  [.submit ⟨lone, .index 0, .sourceNow, "A", none⟩
      (.submit ⟨lone, .index 1, .sourceNow, "B", none⟩ .done ⟨true, some "saving"⟩ .done),
    .command lone .run]

/-- The run returns the refusal as the cause, and the context is lost. -/
theorem context_lost :
    ¬ ∀ (h : List (Fin 1 × Happening 1)) (m : Machine 1) (run : Run 1) (work : Work (Action 1))
      (failure : Failure), History h m → m.failing? = some (run, work, failure) → failure.Own →
      ∃ cause, RunFails m run (.actionFailed work.id work.description cause) ∧
        cause.chain = failure.chain := by
  intro hall
  have hist := (History.small.ask refusalInContext rfl).steps 1
  obtain ⟨cause, hfails, hchain⟩ := hall _ _ ⟨lone, 0, none, none⟩
    ⟨⟨0⟩, .index 0, "A", ⟨"A", _⟩⟩ (.context "saving" (.error (.unknownSource "1"))) hist rfl
    (fun _ _ _ below => by cases below)
  have hanswer := hfails.answer
  cases hanswer
  -- one message against two
  cases congrArg List.length hchain

end StallSim
