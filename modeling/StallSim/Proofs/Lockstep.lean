import StallSim.Proofs.Mirror

/-!
# Worlds in lockstep

A world whose programs are orderly and the reference world with the plain programs make the same
steps: after each of them they are in the same state, about to do the same.

* `WorldMirrors` — every simulation has its mirror, and the journals agree but for the way by which
  work is handed in.
* `Lockstep` — so do what comes next and the actions that wait; no run is in the middle of a replay.

Principal results: `WorldMirrors.submit`, `WorldMirrors.command` — every operation that is orderly;
`Lockstep.orderly` — both sides say of the same operations that they are; `Lockstep.step`,
`Lockstep.run` — a step, and any number of them.
-/

set_option autoImplicit false

namespace StallSim

variable {n : Nat}

/-! ## Worlds -/

/-- Every simulation has its mirror, and all else is the same with the programs plain. -/
structure WorldMirrors (v : Reference.World n) (w : World n) : Prop where
  sims : ∀ i, Mirrors (v.sim i) (w.sim i)
  handles : v.handles = w.handles
  procedures : v.procedures = w.procedures.mapValues Script.plain
  journal : v.journal = w.journal.map Record.plain

/-- The run, known not to be in the middle of a replay. -/
def Run.plain (run : Run n) : Reference.Run n := ⟨run.sim, run.start, run.limit⟩

/-- What both make of a command. -/
inductive Replies : World n × Reply n → Reference.World n × Reference.Reply n → Prop where
  | outcome {w : World n} {v : Reference.World n} (outcome : Outcome) (mirrors : WorldMirrors v w) :
      Replies (w, .outcome outcome) (v, .outcome outcome)
  | run {w : World n} {v : Reference.World n} (run : Run n) (idle : run.replay = none)
      (mirrors : WorldMirrors v w) : Replies (w, .run run) (v, .run run.plain)

theorem Replies.answer {w : World n} {v : Reference.World n} {a b : Outcome}
    (mirrors : WorldMirrors v w) (same : b = a) : Replies (w, .outcome a) (v, .outcome b) :=
  same ▸ .outcome b mirrors

namespace WorldMirrors

variable {v : Reference.World n} {w : World n}

theorem create (configs : Vector (Config Source) n) (procedures : Table String (Script n)) :
    WorldMirrors (.create configs (procedures.mapValues Script.plain))
      (.create configs procedures) where
  sims i := by
    show Mirrors (configs.map Reference.Simulation.create)[i.val] (configs.map .create)[i.val]
    rw [Vector.getElem_map, Vector.getElem_map]
    exact .create configs[i.val]
  handles := rfl
  procedures := rfl
  journal := rfl

theorem setSim (mirrors : WorldMirrors v w) {i : Fin n} {r : Reference.Simulation (Action n)}
    {s : Simulation (Action n)} (sim : Mirrors r s) :
    WorldMirrors (v.setSim i r) (w.setSim i s) where
  sims j := by
    rw [Reference.World.sim_setSim, World.sim_setSim]
    split
    · exact sim
    · exact mirrors.sims j
  handles := mirrors.handles
  procedures := mirrors.procedures
  journal := mirrors.journal

theorem note (mirrors : WorldMirrors v w) (record : Record n) :
    WorldMirrors (v.note record.plain) (w.note record) :=
  { mirrors with
    journal := by
      rw [Reference.World.note, World.note, mirrors.journal, List.map_append]
      rfl }

theorem bindHandle (mirrors : WorldMirrors v w) (name : Option String) (handle : Handle n) :
    WorldMirrors (v.bindHandle name handle) (w.bindHandle name handle) := by
  cases name with
  | none => exact mirrors
  | some name => exact { mirrors with handles := congrArg (·.set name handle) mirrors.handles }

theorem procedure (mirrors : WorldMirrors v w) (name : String) :
    v.procedure name = (w.procedure name).plain := by
  rw [Reference.World.procedure, World.procedure, mirrors.procedures, Table.get?_mapValues]
  cases w.procedures.get? name <;> rfl

/-! ### Submissions -/

theorem accept (mirrors : WorldMirrors v w) (submission : Submission n)
    {a : Except Error (EventId × Simulation (Action n))}
    {b : Except Error (EventId × Reference.Simulation (Action n))} (accepts : Accepts a b) :
    WorldMirrors (v.accept submission.plain b).1 (w.accept submission a).1 ∧
      (v.accept submission.plain b).2 = (w.accept submission a).2 := by
  cases accepts with
  | refused e => exact ⟨mirrors, rfl⟩
  | accepted id sim => exact ⟨(mirrors.setSim sim).bindHandle submission.handle _, rfl⟩

/-- A submission for a configured source, made straight to the calendar in the mirror. -/
theorem submit (mirrors : WorldMirrors v w) (submission : Submission n) (body : Script n)
    (known : (w.sim submission.sim).knows submission.source = true) :
    WorldMirrors (v.submit submission.plain body.plain).1 (w.submit submission body).1 ∧
      (v.submit submission.plain body.plain).2 = (w.submit submission body).2 := by
  have hsim := mirrors.sims submission.sim
  obtain ⟨i, source, route, label, handle⟩ := submission
  cases route with
  | sourceAt due =>
    simp only [Reference.World.submit, World.submit, Submission.plain, Route.plain, hsim.now]
    cases due.resolve (w.sim i).now with
    | none => exact ⟨mirrors, rfl⟩
    | some t =>
      exact mirrors.accept ⟨i, source, .sourceAt due, label, handle⟩ (hsim.submitAt known t)
  | sourceIn delay =>
    simp only [Reference.World.submit, World.submit, Submission.plain, Route.plain, hsim.now]
    exact mirrors.accept ⟨i, source, .sourceIn delay, label, handle⟩ (hsim.submitAt known _)
  | sourceNow => exact mirrors.accept _ hsim.submitNow
  | directAt due =>
    simp only [Reference.World.submit, World.submit, Submission.plain, Route.plain, hsim.now]
    cases due.resolve (w.sim i).now with
    | none => exact ⟨mirrors, rfl⟩
    | some t =>
      exact mirrors.accept ⟨i, source, .directAt due, label, handle⟩ (hsim.submitDirectAt t)
  | directNow => exact mirrors.accept _ hsim.submitDirectNow

/-! ### Commands -/

theorem update (mirrors : WorldMirrors v w) (i : Fin n)
    {f : Reference.Simulation (Action n) → Reference.Simulation (Action n)}
    {g : Simulation (Action n) → Simulation (Action n)}
    (keeps : ∀ {r s}, Mirrors r s → Mirrors (f r) (g s)) :
    WorldMirrors (v.update i f) (w.update i g) :=
  mirrors.setSim (keeps (mirrors.sims i))

theorem cancel (mirrors : WorldMirrors v w) (name : String) :
    WorldMirrors (v.cancel name).1 (w.cancel name).1 ∧ (v.cancel name).2 = (w.cancel name).2 := by
  simp only [Reference.World.cancel, World.cancel, mirrors.handles]
  cases w.handles.get? name with
  | none => exact ⟨mirrors, rfl⟩
  | some handle =>
    refine ⟨mirrors.update handle.sim (·.cancel handle.id), ?_⟩
    simp only [(mirrors.sims handle.sim).isCancelled]

theorem inspect (mirrors : WorldMirrors v w) (name : String) : v.inspect name = w.inspect name := by
  simp only [Reference.World.inspect, World.inspect, mirrors.handles]
  cases w.handles.get? name with
  | none => rfl
  | some handle => simp only [(mirrors.sims handle.sim).isCancelled]

/-- A request to stall a source is answered alike, and without effect if it is not granted. -/
theorem stall (mirrors : WorldMirrors v w) (i : Fin n) (source : Source) (release : Due) :
    v.stall i source release = (w.stall i source release).2 ∧
      ((w.stall i source release).2 ≠ .done → (w.stall i source release).1 = w) := by
  have hsim := mirrors.sims i
  simp only [Reference.World.stall, World.stall, Simulation.stallUntil, hsim.now, hsim.knows,
    hsim.active?, hsim.phase]
  cases release.resolve (w.sim i).now with
  | none => exact ⟨rfl, fun _ => rfl⟩
  | some t => 
    dsimp only
    split
    · split
      · exact ⟨rfl, fun _ => rfl⟩
      · split
        · exact ⟨rfl, fun hgranted => absurd rfl hgranted⟩
        · exact ⟨rfl, fun _ => rfl⟩
    · exact ⟨rfl, fun _ => rfl⟩

theorem beginRun (mirrors : WorldMirrors v w) (i : Fin n) (limit : Option Nat) :
    Replies (w.beginRun i limit) (v.beginRun i limit) := by
  have hsim := mirrors.sims i
  simp only [Reference.World.beginRun, World.beginRun, Reference.Simulation.startRun,
    Simulation.startRun, hsim.halted, hsim.running, hsim.paused]
  by_cases hhalted : (w.sim i).halted
  · simp only [if_pos hhalted]
    exact .outcome _ mirrors
  · by_cases hbusy : ((w.sim i).running || (w.sim i).paused) = true
    · simp only [if_neg hhalted, if_pos hbusy]
      exact .outcome _ mirrors
    · simp only [if_neg hhalted, if_neg hbusy, hsim.processed]
      exact .run ⟨i, (w.sim i).processed, limit, none⟩ rfl
        (mirrors.setSim { hsim with
          paused := rfl, halted := rfl, running := rfl, processed := rfl })

theorem activeSource (mirrors : WorldMirrors v w) (i : Fin n) :
    Reference.World.activeSource (v.sim i) = World.activeSource (w.sim i) := by
  have hsim := mirrors.sims i
  unfold Reference.World.activeSource World.activeSource
  rw [hsim.active?]
  cases (w.sim i).active? with
  | none => rfl
  | some source =>
    exact congrArg (fun stack => Outcome.active source (List.length stack)) hsim.active

theorem viewSource (mirrors : WorldMirrors v w) (i : Fin n) (source : Source) :
    Reference.World.viewSource (v.sim i) source = World.viewSource (w.sim i) source := by
  have hsim := mirrors.sims i
  simp only [Reference.World.viewSource, World.viewSource, hsim.knows, hsim.sourceView]

/-- The same requests are orderly on both sides. -/
theorem admits (mirrors : WorldMirrors v w) (request : Request n) :
    v.admits request.plain = request.orderly w := by
  cases request with
  | submit submission body => exact (mirrors.sims submission.sim).knows submission.source
  | command i asked =>
    cases asked <;> try rfl
    rename_i source release
    have houtcome := (mirrors.stall i source release).1
    simp only [Request.plain, Reference.World.admits, Request.orderly]
    generalize v.stall i source release = outcome at houtcome ⊢
    subst houtcome
    cases (w.stall i source release).2 <;> rfl

/-- Every command but a granted request to stall a source. -/
theorem command (mirrors : WorldMirrors v w) (i : Fin n) (asked : Command n)
    (orderly : Request.orderly w (.command i asked) = true) :
    Replies (w.command i asked) (v.command i asked) := by
  have hsim := mirrors.sims i
  cases asked with
  | cancel name => exact .answer (mirrors.cancel name).1 (mirrors.cancel name).2
  | inspect name => exact .answer mirrors (mirrors.inspect name)
  | stall source release =>
    obtain ⟨houtcome, hsame⟩ := mirrors.stall i source release
    have hrefused : (w.stall i source release).2 ≠ .done := by
      intro hdone
      simp [Request.orderly, hdone] at orderly
    simp only [World.command, hsame hrefused]
    exact .answer mirrors houtcome
  | pause => exact .outcome _ (mirrors.update i Mirrors.pause)
  | halt => exact .outcome _ (mirrors.update i Mirrors.halt)
  | enableTrace => exact .outcome _ (mirrors.update i Mirrors.enableTrace)
  | run => exact mirrors.beginRun i none
  | runFor limit => exact mirrors.beginRun i (some limit)
  | resume => exact (mirrors.update i Mirrors.unpause).beginRun i none
  | status => exact .answer mirrors (congrArg Outcome.status hsim.status)
  | clock => exact .answer mirrors (congrArg (fun now => Outcome.clock now now) hsim.now)
  | active => exact .answer mirrors (mirrors.activeSource i)
  | knows source => exact .answer mirrors (congrArg Outcome.flag (hsim.knows source))
  | sources => exact .answer mirrors (congrArg Outcome.sources hsim.sources)
  | source source => exact .answer mirrors (mirrors.viewSource i source)
  | pending => exact .answer mirrors (congrArg Outcome.pending hsim.pendingEvents)
  | scheduled => exact .answer mirrors (congrArg Outcome.pending hsim.scheduledEvents)
  | trace => exact .answer mirrors (congrArg Outcome.trace hsim.trace)
  | sameTrace other =>
    have hother := mirrors.sims other
    exact .answer mirrors (by rw [hsim.trace, hother.trace])
  | describe => exact .answer mirrors (congrArg Outcome.text hsim.text)

/-- A panic leaves the same runs on both sides. -/
theorem unwind (mirrors : WorldMirrors v w) (runs : List (Run n)) :
    WorldMirrors (Reference.Machine.unwind v (runs.map Run.plain)) (Machine.unwind w runs) := by
  induction runs generalizing v w with
  | nil => exact mirrors
  | cons run later ih => exact ih (mirrors.update run.sim fun sim => sim.endAction.endRun)

end WorldMirrors

/-! ## Machines -/

/-- The waiting action with a plain script. -/
def Caller.plain (c : Caller n) : Reference.Caller n :=
  ⟨c.run.plain, c.work.plain, c.operation.plain, c.handling, c.rest.plain⟩

/-- What comes next, with plain scripts. -/
def Control.plain : Control n → Reference.Control n
  | .between run => .between run.plain
  | .within run work script => .within run.plain work.plain script.plain
  | .returned outcome => .returned outcome

/-- The reference machine is in the same state and about to do the same. -/
structure Lockstep (r : Reference.Machine n) (m : Machine n) : Prop where
  world : WorldMirrors r.world m.world
  control : r.control = m.control.plain
  callers : r.callers = m.callers.map Caller.plain
  idle : ∀ run ∈ m.runs, run.replay = none

theorem map_run_plain (callers : List (Caller n)) :
    (callers.map Caller.plain).map Reference.Caller.run =
      (callers.map Caller.run).map Run.plain := by
  rw [List.map_map, List.map_map]
  rfl

section Action

variable {v : Reference.World n} {w : World n} {run : Run n} {callers : List (Caller n)}

/-- Nobody is in the middle of a replay. -/
def NoReplay (run : Run n) (callers : List (Caller n)) : Prop :=
  ∀ r ∈ run :: callers.map Caller.run, r.replay = none

theorem lockstep_enter (mirrors : WorldMirrors v w) (idle : NoReplay run callers)
    (work : Work (Action n)) :
    Lockstep (.enter v run.plain work.plain (callers.map Caller.plain))
      (.enter w run work callers) := by
  have hsim := (mirrors.sims run.sim).startAction work
  refine ⟨?_, rfl, rfl, idle⟩
  simp only [Reference.Machine.enter, Run.plain, hsim.now, hsim.active?, hsim.active]
  exact (mirrors.setSim (i := run.sim) hsim).note (.started run.sim work _ _ _)

theorem lockstep_abort (mirrors : WorldMirrors v w) (idle : NoReplay run callers)
    (work : Work (Action n)) (failure : Failure) :
    Lockstep (.abort v run.plain work.plain failure (callers.map Caller.plain))
      (.abort w run work failure callers) := by
  have hsim := (mirrors.sims run.sim).failAction.endRun
  have hidle : run.replay = none := idle run List.mem_cons_self
  simp only [Machine.abort, hidle]
  exact ⟨mirrors.setSim hsim, rfl, rfl, fun r hr => idle r (List.mem_cons_of_mem _ hr)⟩

theorem lockstep_settle (mirrors : WorldMirrors v w) (idle : NoReplay run callers)
    (work : Work (Action n)) (operation : Operation n) (handling : Handling) (rest : Script n)
    (outcome : Outcome) :
    Lockstep (.settle v run.plain work.plain operation.plain handling rest.plain outcome
        (callers.map Caller.plain))
      (.settle w run work operation handling rest outcome callers) := by
  have hnoted := mirrors.note (.performed operation outcome)
  unfold Reference.Machine.settle Machine.settle
  cases outcome.error? with
  | none => exact ⟨hnoted, rfl, rfl, idle⟩
  | some e =>
    dsimp only
    split
    · exact lockstep_abort hnoted idle work _
    · exact ⟨hnoted, rfl, rfl, idle⟩

theorem lockstep_stepRun (mirrors : WorldMirrors v w) (idle : NoReplay run callers) :
    Lockstep (.stepRun v run.plain (callers.map Caller.plain)) (.stepRun w run callers) := by
  have hsim := mirrors.sims run.sim
  have hidle : run.replay = none := idle run List.mem_cons_self
  have hconclude : Lockstep
      ⟨v.setSim run.sim (v.sim run.sim).endRun,
        .returned (.count ((w.sim run.sim).processed - run.start)), callers.map Caller.plain⟩
      ⟨w.setSim run.sim (w.sim run.sim).endRun,
        .returned (.count ((w.sim run.sim).processed - run.start)), callers⟩ :=
    ⟨mirrors.setSim hsim.endRun, rfl, rfl, fun r hr => idle r (List.mem_cons_of_mem _ hr)⟩
  have hstopped : (v.sim run.sim).isStopped = (w.sim run.sim).isStopped := by
    rw [Reference.Simulation.isStopped, Simulation.isStopped, hsim.paused, hsim.halted]
  simp only [Reference.Machine.stepRun, Machine.stepRun, hidle, Run.plain, hstopped,
    hsim.processed]
  split
  · exact hconclude
  · -- no release waits, so an event is dropped or its action starts
    have hdispatch := hsim.dispatch
    generalize (w.sim run.sim).dispatch = d at hdispatch ⊢
    generalize (v.sim run.sim).dispatch = e at hdispatch ⊢
    cases hdispatch with
    | exhausted => exact hconclude
    | dropped sim => exact ⟨mirrors.setSim sim, rfl, rfl, idle⟩
    | start work sim => exact lockstep_enter (mirrors.setSim sim) idle work

theorem lockstep_stepAction (mirrors : WorldMirrors v w) (idle : NoReplay run callers)
    (work : Work (Action n)) (script : Script n)
    (orderly : Machine.orderly ⟨w, .within run work script, callers⟩ = true) :
    Lockstep (.stepAction v run.plain work.plain script.plain (callers.map Caller.plain))
      (.stepAction w run work script callers) := by
  cases script with
  | done => exact ⟨mirrors.update run.sim Mirrors.endAction, rfl, rfl, idle⟩
  | submit submission body handling rest =>
    obtain ⟨hmirrors, houtcome⟩ := mirrors.submit submission body orderly
    simp only [Script.plain, Reference.Machine.stepAction, houtcome]
    exact lockstep_settle hmirrors idle work (.submit submission) handling rest _
  | perform i asked handling rest =>
    have hreplies := mirrors.command i asked orderly
    simp only [Script.plain, Reference.Machine.stepAction, Machine.stepAction]
    generalize w.command i asked = a at hreplies ⊢
    generalize v.command i asked = b at hreplies ⊢
    cases hreplies with
    | outcome outcome hmirrors =>
      exact lockstep_settle hmirrors idle work (.command i asked) handling rest outcome
    | run inner hinner hmirrors =>
      exact ⟨hmirrors, rfl, rfl, List.forall_mem_cons.2 ⟨hinner, idle⟩⟩
  | call name rest =>
    simp only [Script.plain, Reference.Machine.stepAction, mirrors.procedure, ← Script.plain_append]
    exact ⟨mirrors, rfl, rfl, idle⟩
  | whenBefore i limit body rest =>
    simp only [Script.plain, Reference.Machine.stepAction, (mirrors.sims i).now,
      ← Script.plain_append, ← apply_ite]
    exact ⟨mirrors, rfl, rfl, idle⟩
  | fail failure context => exact lockstep_abort (mirrors.note (.failed failure)) idle work _
  | panic message =>
    have hunwind := mirrors.unwind (run :: callers.map Caller.run)
    rw [List.map_cons, ← map_run_plain] at hunwind
    exact ⟨hunwind, rfl, rfl, List.forall_mem_nil _⟩

end Action

namespace Lockstep

variable {r : Reference.Machine n} {m : Machine n}

/-- The same calls are orderly on both sides. -/
theorem orderly (lockstep : Lockstep r m) : r.orderly = m.orderly := by
  have hcall : r.call? = m.call?.map Request.plain := by
    rw [Reference.Machine.call?, Machine.call?, lockstep.control]
    obtain ⟨w, control, callers⟩ := m
    cases control with
    | within run work script => cases script <;> rfl
    | between run => rfl
    | returned outcome => rfl
  rw [Reference.Machine.orderly, Machine.orderly, hcall]
  cases m.call? with
  | none => rfl
  | some request => exact lockstep.world.admits request

theorem result? (lockstep : Lockstep r m) : r.result? = m.result? := by
  obtain ⟨w, control, callers⟩ := m
  rw [Reference.Machine.result?, Machine.result?, lockstep.control, lockstep.callers]
  cases control <;> cases callers <;> rfl

theorem step (lockstep : Lockstep r m) (orderly : m.orderly = true) : Lockstep r.step m.step := by
  obtain ⟨w, control, callers⟩ := m
  obtain ⟨v, rcontrol, rcallers⟩ := r
  obtain ⟨hworld, rfl, rfl, hidle⟩ := lockstep
  cases control with
  | between run => exact lockstep_stepRun hworld hidle
  | within run work script => exact lockstep_stepAction hworld hidle work script orderly
  | returned outcome =>
    cases callers with
    | nil => exact ⟨hworld, rfl, rfl, hidle⟩
    | cons c later =>
      exact lockstep_settle hworld hidle c.work c.operation c.handling c.rest outcome

theorem orderlyFor (lockstep : Lockstep r m) (fuel : Nat) :
    r.orderlyFor fuel = m.orderlyFor fuel := by
  induction fuel generalizing r m with
  | zero => rfl
  | succ fuel ih =>
    rw [Reference.Machine.orderlyFor, Machine.orderlyFor, lockstep.orderly]
    cases horderly : m.orderly with
    | false => rfl
    | true => rw [ih (lockstep.step horderly)]

theorem run (lockstep : Lockstep r m) (fuel : Nat) (orderly : m.orderlyFor fuel = true) :
    Lockstep (r.run fuel) (m.run fuel) := by
  induction fuel generalizing r m with
  | zero => exact lockstep
  | succ fuel ih =>
    rw [Machine.orderlyFor, Bool.and_eq_true] at orderly
    rw [Reference.Machine.run, Machine.run, lockstep.result?]
    split
    · exact lockstep
    · exact ih (lockstep.step orderly.1) orderly.2

end Lockstep

/-- A request that is orderly is begun alike. -/
theorem lockstep_request {v : Reference.World n} {w : World n} (mirrors : WorldMirrors v w)
    (request : Request n) (orderly : request.orderly w = true) :
    Lockstep (.request v request.plain) (.request w request) := by
  cases request with
  | submit submission body =>
    obtain ⟨hmirrors, houtcome⟩ := mirrors.submit submission body orderly
    simp only [Request.plain, Reference.Machine.request, houtcome]
    exact ⟨hmirrors, rfl, rfl, List.forall_mem_nil _⟩
  | command i asked =>
    have hreplies := mirrors.command i asked orderly
    simp only [Request.plain, Reference.Machine.request, Machine.request]
    generalize w.command i asked = a at hreplies ⊢
    generalize v.command i asked = b at hreplies ⊢
    cases hreplies with
    | outcome outcome hmirrors => exact ⟨hmirrors, rfl, rfl, List.forall_mem_nil _⟩
    | run inner hinner hmirrors => exact ⟨hmirrors, rfl, rfl, List.forall_mem_singleton.2 hinner⟩

end StallSim
