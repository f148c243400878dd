import StallSim.Failure

/-!
# Scripts

An action is data: a script of operations on the simulations of a world.  A script can submit
further actions, work with handles, control runs of its own and of other simulations, observe, and
end with a failure or a panic.  It decides by the clock and by refusals only, not by what else it
observes, and it cannot catch a panic: one that it causes leaves every action that is under way.

* `Submission`, `Command`, `Operation` — what can be asked of a simulation.
* `Handling` — what an action makes of an operation that is refused.
* `Script` — operations in order; `Script.append` puts one script before another.
* `Request` — what can be asked from outside all actions.
-/

set_option autoImplicit false

namespace StallSim

/-- When something is due: at an instant, or some ticks after the moment of the request. -/
inductive Due where
  | at (time : Instant)
  | plus (delay : UInt64)

/-- The instant meant at `now`, if a word can hold it. -/
def Due.resolve (now : Instant) : Due → Option Instant
  | .at time => some time
  | .plus delay => now.plus delay

/-- How an action is handed in: through its source or straight to the calendar, and when it is
due. -/
inductive Route where
  | sourceAt (due : Due)
  | sourceIn (delay : UInt64)
  | sourceNow
  | directAt (due : Due)
  | directNow

/-- A request to run an action, in a world of `n` simulations.  The handle of an accepted
submission is bound to the name `handle`, if there is one. -/
structure Submission (n : Nat) where
  sim : Fin n
  source : Source
  route : Route
  label : String
  handle : Option String

/-- A request that submits nothing. -/
inductive Command (n : Nat) where
  | cancel (handle : String)
  | inspect (handle : String)
  | stall (source : Source) (release : Due)
  | pause
  | halt
  | enableTrace
  | run
  | runFor (limit : Nat)
  | resume
  | status
  | clock
  | active
  | knows (source : Source)
  | sources
  | source (source : Source)
  | pending
  | scheduled
  | trace
  | sameTrace (other : Fin n)
  | describe

/-- What can be asked of a simulation, without the actions that a submission brings. -/
inductive Operation (n : Nat) where
  | submit (submission : Submission n)
  | command (sim : Fin n) (command : Command n)

/-- What an action makes of a refusal: with `attempt` the action ends with it, put in `context` if
there is one; without `attempt` the action goes on. -/
structure Handling where
  attempt : Bool
  context : Option String

/-- The operations of an action, in order. -/
inductive Script (n : Nat) where
  /-- The action succeeds. -/
  | done
  /-- Submit an action whose script is `body`. -/
  | submit (submission : Submission n) (body : Script n) (handling : Handling) (rest : Script n)
  | perform (sim : Fin n) (command : Command n) (handling : Handling) (rest : Script n)
  /-- Perform the operations of a named procedure in place. -/
  | call (procedure : String) (rest : Script n)
  /-- Perform `body` in place if the clock of `sim` shows an instant before `limit`. -/
  | whenBefore (sim : Fin n) (limit : Instant) (body : Script n) (rest : Script n)
  /-- The action ends without success. -/
  | fail (failure : Failure) (context : Option String)
  /-- The action is abandoned, and every run it is part of. -/
  | panic (message : String)

namespace Script

variable {n : Nat}

/-- The operations of `a`, then those of `b`; nothing follows a failure or a panic. -/
def append : Script n → Script n → Script n
  | .done, b => b
  | .submit submission body handling rest, b => .submit submission body handling (rest.append b)
  | .perform sim command handling rest, b => .perform sim command handling (rest.append b)
  | .call procedure rest, b => .call procedure (rest.append b)
  | .whenBefore sim limit body rest, b => .whenBefore sim limit body (rest.append b)
  | .fail failure context, _ => .fail failure context
  | .panic message, _ => .panic message

instance : Append (Script n) := ⟨append⟩

theorem done_append (b : Script n) : done ++ b = b := rfl

theorem append_done (a : Script n) : a ++ done = a := by
  show a.append done = a
  induction a with
  | done => rfl
  | submit _ _ _ _ _ ih => simp only [append, ih]
  | perform _ _ _ _ ih => simp only [append, ih]
  | call _ _ ih => simp only [append, ih]
  | whenBefore _ _ _ _ _ ih => simp only [append, ih]
  | fail => rfl
  | panic => rfl

end Script

/-- The action of a submission: its script, and the label under which its start is noted. -/
structure Action (n : Nat) where
  label : String
  script : Script n

/-- A request from outside all actions. -/
inductive Request (n : Nat) where
  | submit (submission : Submission n) (body : Script n)
  | command (sim : Fin n) (command : Command n)

/-- The simulation a request is about. -/
def Request.sim {n : Nat} : Request n → Fin n
  | .submit submission _ => submission.sim
  | .command sim _ => sim

end StallSim
