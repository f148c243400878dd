import StallSim.Machine

/-!
# Histories of a world

A history is everything that users of a world can do and see, in order: requests from outside and
the operations of actions, each with what it made happen to which simulation.

* `Ticket` — an accepted submission: the work, the instant it was asked for, and whether it went
  through its source or straight to the calendar.
* `Pause` — a stall of a source, with the instants between which it lasts.
* `Happening` — a submission was accepted, a source was stalled, an action started, or a panic left
  an action.
* `Machine.happenings`, `Request.happenings` — what the next step, or a request, makes happen.  An
  acceptance and a stall are read off the answer of the operation, a start off the journal.
* `Next`, `Later`, `History` — one step or one request; any number of them; the machines that a new
  world reaches, each with the log of what happened on the way.
* `Machine.ask`, `Machine.steps` — histories that are played out, as that of `stalledWorld`.
-/

set_option autoImplicit false

namespace StallSim

variable {n : Nat}

/-- An accepted submission.  `due` is the instant that was asked for, `none` for immediate work;
`routed` work was handed in through its source. -/
structure Ticket (n : Nat) where
  work : Work (Action n)
  due : Option Instant
  routed : Bool

/-- A stall of a source, asked for at `since` until `release`. -/
structure Pause where
  source : Source
  since : Instant
  release : Instant

/-- What can happen to a simulation. -/
inductive Happening (n : Nat) where
  | accepted (ticket : Ticket n)
  | stalled (pause : Pause)
  | started (work : Work (Action n)) (time : Instant)
  /-- A panic left the run that was under way. -/
  | unwound

/-- What happened to one simulation, in order. -/
abbrev Log (n : Nat) := List (Happening n)

namespace Log

/-- The submissions that were accepted. -/
def accepted (log : Log n) : List (Ticket n) :=
  log.filterMap fun
    | .accepted ticket => some ticket
    | _ => none

/-- The stalls that were granted. -/
def pauses (log : Log n) : List Pause :=
  log.filterMap fun
    | .stalled pause => some pause
    | _ => none

/-- The work whose actions started. -/
def started (log : Log n) : List (Work (Action n)) :=
  log.filterMap fun
    | .started work _ => some work
    | _ => none

/-- The ids of the work whose actions started. -/
def startedIds (log : Log n) : List EventId := log.started.map Work.id

/-- No panic has left a run. -/
def Calm (log : Log n) : Prop := Happening.unwound ∉ log

@[simp] theorem accepted_append (a b : Log n) : (a ++ b).accepted = a.accepted ++ b.accepted :=
  List.filterMap_append

@[simp] theorem pauses_append (a b : Log n) : (a ++ b).pauses = a.pauses ++ b.pauses :=
  List.filterMap_append

@[simp] theorem started_append (a b : Log n) : (a ++ b).started = a.started ++ b.started :=
  List.filterMap_append

theorem calm_append {a b : Log n} : Log.Calm (a ++ b) ↔ a.Calm ∧ b.Calm := by
  simp [Calm]

end Log

/-! ## What an operation makes happen -/

/-- The work goes through its source. -/
def Route.isRouted : Route → Bool
  | .sourceAt _ | .sourceIn _ | .sourceNow => true
  | .directAt _ | .directNow => false

/-- The instant asked for at `now`; `none` for immediate work. -/
def Route.due (now : Instant) : Route → Option Instant
  | .sourceAt due | .directAt due => due.resolve now
  | .sourceIn delay => some (now.plusSaturating delay)
  | .sourceNow | .directNow => none

/-- The description under which work labelled `label` is kept. -/
def Route.description (label : String) : Route → String
  | .sourceIn _ => ""
  | _ => label

/-- The ticket of a submission that is accepted at `now` under the id `id`. -/
def Submission.ticket (submission : Submission n) (body : Script n) (now : Instant)
    (id : EventId) : Ticket n where
  work := ⟨id, submission.source, submission.route.description submission.label,
    ⟨submission.label, body⟩⟩
  due := submission.route.due now
  routed := submission.route.isRouted

/-- What a submission makes happen. -/
def World.acceptance (w : World n) (submission : Submission n) (body : Script n) :
    List (Fin n × Happening n) :=
  match (w.submit submission body).2 with
  | .accepted id =>
    [(submission.sim, .accepted (submission.ticket body (w.sim submission.sim).now id))]
  | _ => []

/-- What a request to stall a source makes happen. -/
def World.stalling (w : World n) (i : Fin n) (source : Source) (release : Due) :
    List (Fin n × Happening n) :=
  match (w.stall i source release).2, release.resolve (w.sim i).now with
  | .done, some t => [(i, .stalled ⟨source, (w.sim i).now, t⟩)]
  | _, _ => []

/-- What a request makes happen by itself, before any action starts. -/
def Request.happenings (w : World n) : Request n → List (Fin n × Happening n)
  | .submit submission body => w.acceptance submission body
  | .command i (.stall source release) => w.stalling i source release
  | .command _ _ => []

/-- The start that an entry of the journal tells of. -/
def Record.start? : Record n → Option (Fin n × Happening n)
  | .started sim work time _ _ => some (sim, .started work time)
  | _ => none

namespace Machine

/-- The operation that an action calls in the next step. -/
def call? (m : Machine n) : Option (Request n) :=
  match m.control with
  | .within _ _ (.submit submission body _ _) => some (.submit submission body)
  | .within _ _ (.perform i command _ _) => some (.command i command)
  | _ => none

/-- The runs under way, innermost first. -/
def runs (m : Machine n) : List (Run n) :=
  match m.control with
  | .between run => run :: m.callers.map Caller.run
  | .within run _ _ => run :: m.callers.map Caller.run
  | .returned _ => m.callers.map Caller.run

/-- The action at work panics in the next step. -/
def Panics (m : Machine n) : Prop :=
  ∃ run work message, m.control = .within run work (.panic message)

/-- The actions that the next step starts. -/
def starts (m : Machine n) : List (Fin n × Happening n) :=
  (m.step.world.journal.drop m.world.journal.length).filterMap Record.start?

/-- The runs that a panic leaves in the next step. -/
def unwinds (m : Machine n) : List (Fin n × Happening n) :=
  match m.control with
  | .within _ _ (.panic _) => m.runs.map (fun run => (run.sim, .unwound))
  | _ => []

/-- What the next step makes happen. -/
def happenings (m : Machine n) : List (Fin n × Happening n) :=
  (m.call?.map (Request.happenings m.world)).getD [] ++ m.starts ++ m.unwinds

/-- The machine of a world in which nobody waits for anything. -/
def atRest (w : World n) : Machine n := ⟨w, .returned .done, []⟩

end Machine

/-! ## Histories -/

/-- The world goes on: by a step, or by a request from outside once the last one is answered. -/
inductive Next : Machine n → List (Fin n × Happening n) → Machine n → Prop where
  | step (m : Machine n) : Next m m.happenings m.step
  | request (m : Machine n) (outcome : Outcome) (request : Request n)
      (rested : m.result? = some outcome) :
      Next m (request.happenings m.world) (Machine.request m.world request)

/-- The machines that a new world reaches, each with what happened on the way. -/
inductive History : List (Fin n × Happening n) → Machine n → Prop where
  | create (configs : Vector (Config Source) n) (procedures : Table String (Script n)) :
      History [] (Machine.atRest (World.create configs procedures))
  | next {h new : List (Fin n × Happening n)} {m m' : Machine n} :
      History h m → Next m new m' → History (h ++ new) m'

/-- The world goes on, however long. -/
inductive Later : Machine n → List (Fin n × Happening n) → Machine n → Prop where
  | refl (m : Machine n) : Later m [] m
  | next {m m' m'' : Machine n} {new later : List (Fin n × Happening n)} :
      Next m new m' → Later m' later m'' → Later m (new ++ later) m''

theorem Later.snoc {m m' m'' : Machine n} {later new : List (Fin n × Happening n)}
    (onward : Later m later m') (next : Next m' new m'') : Later m (later ++ new) m'' := by
  induction onward with
  | refl m =>
    rw [List.nil_append, ← List.append_nil new]
    exact .next next (.refl _)
  | next first _ ih =>
    rw [List.append_assoc]
    exact .next first (ih next)

theorem History.later {h later : List (Fin n × Happening n)} {m m' : Machine n}
    (hist : History h m) (onward : Later m later m') : History (h ++ later) m' := by
  induction onward generalizing h with
  | refl m =>
    rw [List.append_nil]
    exact hist
  | next next _ ih =>
    rw [← List.append_assoc]
    exact ih (hist.next next)

/-- What happened to the simulation `i`. -/
def logOf (i : Fin n) (h : List (Fin n × Happening n)) : Log n :=
  h.filterMap (fun x => if x.1 = i then some x.2 else none)

/-- No action has panicked. -/
def PanicFree (h : List (Fin n × Happening n)) : Prop := ∀ x ∈ h, x.2 ≠ .unwound

/-- A panic left a run. -/
def Happening.isUnwound : Happening n → Bool
  | .unwound => true
  | _ => false

theorem panicFree_iff {h : List (Fin n × Happening n)} :
    PanicFree h ↔ h.all (fun x => !x.2.isUnwound) = true := by
  rw [List.all_eq_true]
  refine forall₂_congr fun x _ => ?_
  cases x.2 <;> simp [Happening.isUnwound]

instance (h : List (Fin n × Happening n)) : Decidable (PanicFree h) :=
  decidable_of_iff _ panicFree_iff.symm

theorem logOf_append (i : Fin n) (a b : List (Fin n × Happening n)) :
    logOf i (a ++ b) = logOf i a ++ logOf i b :=
  List.filterMap_append

theorem mem_logOf {i : Fin n} {h : List (Fin n × Happening n)} {x : Happening n} :
    x ∈ logOf i h ↔ (i, x) ∈ h := by
  simp only [logOf, List.mem_filterMap, Option.ite_none_right_eq_some, Option.some.injEq]
  constructor
  · rintro ⟨⟨j, y⟩, hy, rfl, rfl⟩
    exact hy
  · intro hx
    exact ⟨(i, x), hx, rfl, rfl⟩

theorem PanicFree.calm {h : List (Fin n × Happening n)} (free : PanicFree h) (i : Fin n) :
    (logOf i h).Calm := fun hmem => free (i, .unwound) (mem_logOf.1 hmem) rfl

/-! ## Courses of events, played out -/

namespace Machine

/-- The machine after a number of steps. -/
def steps : Nat → Machine n → Machine n
  | 0, m => m
  | k + 1, m => steps k m.step

theorem steps_of_result? {m : Machine n} {outcome : Outcome} (result : m.result? = some outcome)
    (k : Nat) : m.steps k = m := by
  induction k with
  | zero => rfl
  | succ k ih => rw [steps, step_of_result? result, ih]

theorem steps_add (m : Machine n) (a b : Nat) : m.steps (a + b) = (m.steps a).steps b := by
  induction a generalizing m with
  | zero => rw [Nat.zero_add, steps]
  | succ a ih => rw [Nat.succ_add, steps, steps, ih]

/-- To go on until there is a result is to make a number of steps. -/
theorem run_eq_steps (fuel : Nat) (m : Machine n) : run fuel m = m.steps fuel := by
  induction fuel generalizing m with
  | zero => rfl
  | succ fuel ih =>
    rw [run, steps]
    cases hresult : m.result? with
    | none => exact ih m.step
    | some outcome =>
      rw [step_of_result? hresult, steps_of_result? hresult]
      rfl

/-- What happens in a number of steps. -/
def story : Nat → Machine n → List (Fin n × Happening n)
  | 0, _ => []
  | k + 1, m => m.happenings ++ story k m.step

/-- The machine after requests that are made one after the other. -/
def ask : List (Request n) → Machine n → Machine n
  | [], m => m
  | request :: later, m => ask later (Machine.request m.world request)

/-- What these requests make happen. -/
def asked : List (Request n) → Machine n → List (Fin n × Happening n)
  | [], _ => []
  | request :: later, m =>
    request.happenings m.world ++ asked later (Machine.request m.world request)

/-- Each of the requests is made once the last one is answered. -/
def answers : List (Request n) → Machine n → Bool
  | [], _ => true
  | request :: later, m => m.result?.isSome && answers later (Machine.request m.world request)

end Machine

theorem Later.steps (m : Machine n) (k : Nat) : Later m (m.story k) (m.steps k) := by
  induction k generalizing m with
  | zero => exact .refl m
  | succ k ih => exact .next (.step m) (ih m.step)

theorem Later.append {m m' m'' : Machine n} {first second : List (Fin n × Happening n)}
    (onward : Later m first m') (further : Later m' second m'') :
    Later m (first ++ second) m'' := by
  induction onward with
  | refl m => exact further
  | next next _ ih =>
    rw [List.append_assoc]
    exact .next next (ih further)

theorem Later.ask (m : Machine n) (requests : List (Request n))
    (answers : m.answers requests = true) : Later m (m.asked requests) (m.ask requests) := by
  induction requests generalizing m with
  | nil => exact .refl m
  | cons request later ih =>
    rw [Machine.answers, Bool.and_eq_true, Option.isSome_iff_exists] at answers
    obtain ⟨⟨outcome, hrested⟩, hlater⟩ := answers
    exact .next (.request m outcome request hrested) (ih _ hlater)

theorem History.steps {h : List (Fin n × Happening n)} {m : Machine n} (hist : History h m)
    (k : Nat) : History (h ++ m.story k) (m.steps k) :=
  hist.later (.steps m k)

theorem History.ask {h : List (Fin n × Happening n)} {m : Machine n} (hist : History h m)
    (requests : List (Request n)) (answers : m.answers requests = true) :
    History (h ++ m.asked requests) (m.ask requests) :=
  hist.later (.ask m requests answers)

/-- The simulation of a world that has one. -/
def lone : Fin 1 := 0

/-- A simulation with one source, with nothing submitted. -/
def smallWorld : World 1 where
  sims := #v[Simulation.create ⟨.zero, false, [.index 0]⟩]
  handles := .empty
  procedures := .empty
  journal := []

theorem create_small : World.create #v[⟨.zero, false, [.index 0]⟩] .empty = smallWorld := by
  simp [World.create, smallWorld]

theorem History.small : History [] (Machine.atRest smallWorld) := by
  have hcreate := History.create #v[⟨.zero, false, [.index 0]⟩] (.empty : Table String (Script 1))
  exact create_small ▸ hcreate

/-- The source of the small world is stalled until ten by an action that is due at once; another
action of it is handed in for five; then the simulation is told to run. -/
def stallAndTimer (route : Due → Route) (command : Command 1) : List (Request 1) :=
  [.submit ⟨0, .index 0, .sourceNow, "", none⟩
      (.perform 0 (.stall (.index 0) (.at ⟨10⟩)) ⟨true, none⟩ .done),
    .submit ⟨0, .index 0, route (.at ⟨5⟩), "", none⟩ .done,
    .command 0 command]

/-- The small world after these requests and a number of steps. -/
def stalledWorld (route : Due → Route) (command : Command 1) (k : Nat) : Machine 1 :=
  ((Machine.atRest smallWorld).ask (stallAndTimer route command)).steps k

/-- What has happened by then. -/
def stalledLog (route : Due → Route) (command : Command 1) (k : Nat) :
    List (Fin 1 × Happening 1) :=
  (Machine.atRest smallWorld).asked (stallAndTimer route command) ++
    ((Machine.atRest smallWorld).ask (stallAndTimer route command)).story k

theorem History.stalled (route : Due → Route) (command : Command 1) (k : Nat) :
    History (stalledLog route command k) (stalledWorld route command k) :=
  (History.small.ask (stallAndTimer route command) rfl).steps k

/-- An action that stalls the source of the small world until five. -/
def stallUntilFive : Script 1 := .perform lone (.stall (.index 0) (.at ⟨5⟩)) ⟨true, none⟩ .done

/-- Three actions of the source of the small world are handed in: `first`, `second`, and one that
does nothing and goes by `route`.  Then the simulation is told to run. -/
def threeActions (first second : Script 1) (route : Route) : List (Request 1) :=
  [.submit ⟨lone, .index 0, .sourceNow, "", none⟩ first,
    .submit ⟨lone, .index 0, .sourceNow, "", none⟩ second,
    .submit ⟨lone, .index 0, route, "", none⟩ .done,
    .command lone .run]

/-- The small world after these requests and a number of steps. -/
def threeWorld (first second : Script 1) (route : Route) (k : Nat) : Machine 1 :=
  ((Machine.atRest smallWorld).ask (threeActions first second route)).steps k

/-- What has happened by then. -/
def threeLog (first second : Script 1) (route : Route) (k : Nat) :
    List (Fin 1 × Happening 1) :=
  (Machine.atRest smallWorld).asked (threeActions first second route) ++
    ((Machine.atRest smallWorld).ask (threeActions first second route)).story k

theorem History.three (first second : Script 1) (route : Route) (k : Nat) :
    History (threeLog first second route k) (threeWorld first second route k) :=
  (History.small.ask (threeActions first second route) rfl).steps k

end StallSim
