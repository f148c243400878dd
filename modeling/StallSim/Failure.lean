import StallSim.Instant
import StallSim.Identity

/-!
# Errors and failures

`Error` says why the scheduler refused a request or gave up a run.  `Failure` is what an
action ends with when it does not succeed: a plain message, an error of the scheduler, or a
failure that somebody put in context.  The two hold each other: a run that gives up keeps the
failure of the action that ended it.

* `Error.message` — the wording of each error, in one place.
* `Error.causes`, `Failure.chain` — the messages from the outermost to the innermost.
* `Failure.error?` — the error of the scheduler below all contexts.
* `Failure.report` — the error that a run reports when the action of an event fails.

Principal results: `error?_within`, `chain_within` — what a context changes, and what not;
`report_report` — an error that is reported once more stays as it is.
-/

set_option autoImplicit false

namespace StallSim

/-- Why a request to stall a source is refused. -/
inductive StallRefusal where
  | inPast (requested current : Instant)
  | notActive (active : Option String)
  | alreadyStalled (release : Instant)
  deriving DecidableEq

/-- The wording of a refusal. -/
def StallRefusal.message : StallRefusal → String
  | .inPast requested current =>
    "release time " ++ requested.text ++ " is before current time " ++ current.text
  | .notActive (some active) => "called while " ++ active ++ " is executing"
  | .notActive none => "called outside any executing event"
  | .alreadyStalled release => "source is already paused until " ++ release.text

mutual

/-- Why a request was refused or a run given up.  Sources stand here under their labels. -/
inductive Error where
  | tooEarly (requested current : Instant)
  | stallRefused (source : String) (reason : StallRefusal)
  | noneActive
  | unknownSource (source : String)
  | actionFailed (event : EventId) (description : String) (cause : Failure)
  | halted

/-- What an action that does not succeed ends with. -/
inductive Failure where
  | plain (text : String)
  | error (error : Error)
  | context (text : String) (inner : Failure)

end

/-- The wording of an error. -/
def Error.message : Error → String
  | .tooEarly requested current =>
    "cannot schedule event at " ++ requested.text ++ " when current time is " ++ current.text
  | .stallRefused source reason =>
    "invalid delay for source " ++ source ++ ": " ++ reason.message
  | .noneActive => "no event is currently executing"
  | .unknownSource source =>
    "source type " ++ source ++ " is not registered with this executor"
  | .actionFailed event description _ =>
    "event " ++ event.text ++ " (" ++ description ++ ") failed"
  | .halted => "executor has been halted"

mutual

/-- The messages below an error, outermost first.  Only a failed action has any. -/
def Error.causes : Error → List String
  | .actionFailed _ _ cause => cause.chain
  | _ => []

/-- The messages of a failure, outermost first. -/
def Failure.chain : Failure → List String
  | .plain text => [text]
  | .error e => e.message :: e.causes
  | .context text inner => text :: inner.chain

end

namespace Failure

/-- The error of the scheduler that a failure comes from, seen through all contexts. -/
def error? : Failure → Option Error
  | .plain _ => none
  | .error e => some e
  | .context _ inner => inner.error?

/-- Put a failure in context, if there is any. -/
def within (failure : Failure) : Option String → Failure
  | none => failure
  | some text => .context text failure

/-- The error that a run reports when the action of the event `event` fails.  A failed action
below is passed on as it is; any other error of the scheduler becomes the cause by itself, without
the contexts around it; a plain failure becomes the cause as a whole. -/
def report (failure : Failure) (event : EventId) (description : String) : Error :=
  match failure.error? with
  | some (.actionFailed inner text cause) => .actionFailed inner text cause
  | some e => .actionFailed event description (.error e)
  | none => .actionFailed event description failure

/-- Contexts do not change which error of the scheduler a failure comes from. -/
theorem error?_within (failure : Failure) (context : Option String) :
    (failure.within context).error? = failure.error? := by
  cases context <;> rfl

/-- A context adds its text as the outermost message. -/
theorem chain_within (failure : Failure) (context : Option String) :
    (failure.within context).chain = context.toList ++ failure.chain := by
  cases context <;> simp [within, chain]

/-- What a run reports is always a failed action. -/
theorem report_eq_actionFailed (failure : Failure) (event : EventId) (description : String) :
    ∃ inner text cause, failure.report event description = .actionFailed inner text cause := by
  unfold report
  split <;> exact ⟨_, _, _, rfl⟩

/-- An error that is reported once more, for whatever event, stays as it is.  So it makes no
difference how often the failure of an action is wrapped on its way out of the run. -/
theorem report_report (failure : Failure) (event other : EventId) (description text : String) :
    (Failure.error (failure.report event description)).report other text =
      failure.report event description := by
  obtain ⟨inner, innerText, cause, hreport⟩ := failure.report_eq_actionFailed event description
  rw [hreport]
  rfl

end Failure

end StallSim
