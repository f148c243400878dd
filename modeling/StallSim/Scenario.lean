import StallSim.Machine

/-!
# Scenarios

A scenario sets up simulations and makes requests from outside, one after the other.  Each request
is answered before the next one is made.

* `World.perform` — answer one request; the journal entries it caused come with the answer.
* `Scenario.run` — answer all requests and look at every simulation at the end.

A request can start actions that submit ever new actions, so the steps of a request are bounded by
`fuel`; a scenario that needs more has no report.
-/

set_option autoImplicit false

namespace StallSim

/-- The answer to a request, with the state of its simulation and the journal entries it caused. -/
structure Answer (n : Nat) where
  outcome : Outcome
  status : Status
  journal : List (Record n)

/-- What can be seen of a simulation in the end. -/
structure Summary where
  status : Status
  pending : List Pending
  trace : Option Trace
  text : String

/-- The summary of a simulation. -/
def Simulation.summary {α : Type} (s : Simulation α) : Summary where
  status := s.status
  pending := s.pendingEvents
  trace := s.trace
  text := s.text

namespace World

variable {n : Nat}

/-- Answer one request in at most `fuel` steps. -/
def perform (fuel : Nat) (w : World n) (request : Request n) : Option (Answer n × World n) :=
  let m := (Machine.request w request).run fuel
  m.result?.map (fun outcome =>
    (⟨outcome, (m.world.sim request.sim).status, m.world.journal.drop w.journal.length⟩, m.world))

/-- Answer requests one after the other. -/
def performAll (fuel : Nat) (w : World n) : List (Request n) → Option (List (Answer n) × World n)
  | [] => some ([], w)
  | request :: rest =>
    match w.perform fuel request with
    | none => none
    | some (answer, w) => (w.performAll fuel rest).map (fun r => (answer :: r.1, r.2))

end World

/-- Simulations to set up, the procedures their actions share, and the requests to make. -/
structure Scenario (n : Nat) where
  configs : Vector (Config Source) n
  procedures : Table String (Script n)
  requests : List (Request n)

/-- The answers to all requests, and what can be seen in the end. -/
structure Report (n : Nat) where
  answers : List (Answer n)
  summaries : Vector Summary n

/-- The report of a scenario, if `fuel` steps are enough for each request. -/
def Scenario.run {n : Nat} (fuel : Nat) (scenario : Scenario n) : Option (Report n) :=
  ((World.create scenario.configs scenario.procedures).performAll fuel scenario.requests).map
    (fun r => ⟨r.1, r.2.sims.map Simulation.summary⟩)

end StallSim
