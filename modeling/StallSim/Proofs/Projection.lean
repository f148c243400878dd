import StallSim.Proofs.Paths

/-!
# Each simulation of a world on its own

The runs under way belong to different simulations, so each simulation has at most one replay in
the middle of which it can be.  Taken with that replay, every simulation of every history is on a
course: whatever a step does to it is a move.

* `replayIn`, `Machine.standing` — the replay and the standing of one simulation.
* `Grounded` — the runs belong to different simulations that are running, handles stand for
  accepted submissions, and of every simulation something is known that outlasts lulls: that it is
  on its course, for one.

Principal results: `Grounded.submit`, `Grounded.command`, `Grounded.settle`, `Grounded.abort`,
`Grounded.unwind` — everything that steps and requests are made of keeps the world grounded.
-/

set_option autoImplicit false

namespace StallSim

variable {n : Nat} {known : Kept n} {h : List (Fin n × Happening n)} {w : World n}
  {runs : List (Run n)}

/-- The replay that the run of the simulation `i` is in the middle of. -/
def replayIn (i : Fin n) : List (Run n) → Option (Replay n)
  | [] => none
  | run :: runs => if run.sim = i then run.replay else replayIn i runs

/-- The standing of the simulation `i`. -/
def Machine.standing (m : Machine n) (i : Fin n) : Standing n := ⟨m.world.sim i, replayIn i m.runs⟩

theorem replayIn_eq_none {i : Fin n} (absent : i ∉ runs.map Run.sim) : replayIn i runs = none := by
  induction runs with
  | nil => rfl
  | cons run runs ih =>
    rw [List.map_cons, List.mem_cons, not_or] at absent
    rw [replayIn, if_neg (Ne.symm absent.1), ih absent.2]

/-- The log entries of one simulation as entries of a world. -/
def tag (i : Fin n) (new : Log n) : List (Fin n × Happening n) := new.map (fun x => (i, x))

theorem logOf_tag (i j : Fin n) (new : Log n) :
    logOf j (tag i new) = if i = j then new else [] := by
  unfold logOf tag
  rw [List.filterMap_map]
  show new.filterMap (fun x => if i = j then some x else none) = _
  split
  · simp
  · simp

/-- What holds of a world and the runs under way in it, after the history `h`. -/
structure Grounded (known : Kept n) (h : List (Fin n × Happening n)) (w : World n)
    (runs : List (Run n)) : Prop where
  distinct : (runs.map Run.sim).Nodup
  running : ∀ run ∈ runs, (w.sim run.sim).running = true
  handles : ∀ name handle, w.handles.get? name = some handle →
    ∃ ticket ∈ (logOf handle.sim h).accepted, ticket.work.id = handle.id
  course : ∀ i, known.holds i (logOf i h) ⟨w.sim i, replayIn i runs⟩

namespace Grounded

theorem note (g : Grounded known h w runs) (record : Record n) :
    Grounded known h (w.note record) runs :=
  ⟨g.distinct, g.running, g.handles, g.course⟩

theorem cast_log (g : Grounded known h w runs) {h' : List (Fin n × Happening n)} (eq : h = h') :
    Grounded known h' w runs := eq ▸ g

/-- A ticket stays in the log. -/
theorem handles_append (g : Grounded known h w runs) (new : List (Fin n × Happening n))
    (name : String) (handle : Handle n) (hget : w.handles.get? name = some handle) :
    ∃ ticket ∈ (logOf handle.sim (h ++ new)).accepted, ticket.work.id = handle.id := by
  obtain ⟨ticket, hmem, hid⟩ := g.handles name handle hget
  refine ⟨ticket, ?_, hid⟩
  rw [logOf_append, Log.accepted_append]
  exact List.mem_append_left _ hmem

/-- One simulation goes on, and with it the replay of its run. -/
theorem update (g : Grounded known h w runs) {runs' : List (Run n)} {i : Fin n}
    {s : Simulation (Action n)} {new : Log n} (sims : runs'.map Run.sim = runs.map Run.sim)
    (running : s.running = (w.sim i).running)
    (others : ∀ j, j ≠ i → replayIn j runs' = replayIn j runs)
    (course : known.holds i (logOf i h ++ new) ⟨s, replayIn i runs'⟩) :
    Grounded known (h ++ tag i new) (w.setSim i s) runs' where
  distinct := sims ▸ g.distinct
  running run hrun := by
    have hmem : run.sim ∈ runs.map Run.sim := sims ▸ List.mem_map_of_mem hrun
    obtain ⟨old, hold, hsim⟩ := List.mem_map.1 hmem
    have hrunning := g.running old hold
    rw [hsim] at hrunning
    rw [World.sim_setSim]
    split
    · rename_i hi
      rw [running, hi, hrunning]
    · exact hrunning
  handles := g.handles_append _
  course j := by
    rw [logOf_append, logOf_tag, World.sim_setSim]
    split
    · rename_i hij
      exact hij ▸ course
    · rename_i hij
      rw [List.append_nil, others j (Ne.symm hij)]
      exact g.course j

/-- One simulation goes on while the runs stay as they are. -/
theorem lull (g : Grounded known h w runs) {i : Fin n} {s : Simulation (Action n)} {new : Log n}
    (running : s.running = (w.sim i).running)
    (lull : Lull (logOf i h) ⟨w.sim i, replayIn i runs⟩ new ⟨s, replayIn i runs⟩) :
    Grounded known (h ++ tag i new) (w.setSim i s) runs :=
  g.update rfl running (fun _ _ => rfl) (known.lull (g.course i) lull)

/-- A lull without a happening. -/
theorem silent (g : Grounded known h w runs) {i : Fin n} {s : Simulation (Action n)}
    (running : s.running = (w.sim i).running)
    (lull : Lull (logOf i h) ⟨w.sim i, replayIn i runs⟩ [] ⟨s, replayIn i runs⟩) :
    Grounded known h (w.setSim i s) runs :=
  (g.lull running lull).cast_log (List.append_nil h)

/-- A run starts: its simulation was not running. -/
theorem push (g : Grounded known h w runs) {i : Fin n} {s : Simulation (Action n)}
    (start : (w.sim i).startRun = .ok (some s)) (limit : Option Nat) :
    Grounded known h (w.setSim i s) (⟨i, s.processed, limit, none⟩ :: runs) := by
  unfold Simulation.startRun at start
  split at start
  · cases start
  split at start
  · cases start
  rename_i hfree
  cases start
  have habsent : i ∉ runs.map Run.sim := by
    intro hmem
    obtain ⟨run, hrun, hsim⟩ := List.mem_map.1 hmem
    have := g.running run hrun
    rw [hsim] at this
    simp [this] at hfree
  refine ⟨List.nodup_cons.2 ⟨habsent, g.distinct⟩, ?_, g.handles, ?_⟩
  · intro run hrun
    rw [World.sim_setSim]
    split
    · rfl
    · rename_i hi
      rcases List.mem_cons.1 hrun with rfl | hrun
      · exact absurd rfl hi
      · exact g.running run hrun
  · intro j
    rw [World.sim_setSim, replayIn]
    split
    · rename_i hij
      subst hij
      have hcourse := g.course i
      rw [replayIn_eq_none habsent] at hcourse
      exact known.silent hcourse (.control _ _ _ _)
    · exact g.course j

/-- The innermost run ends, and with it any replay it was in the middle of. -/
theorem pop {run : Run n} (g : Grounded known h w (run :: runs)) {s : Simulation (Action n)}
    {new : Log n} (course : known.holds run.sim (logOf run.sim h ++ new) ⟨s, none⟩) :
    Grounded known (h ++ tag run.sim new) (w.setSim run.sim s) runs := by
  obtain ⟨habsent, hdistinct⟩ := List.nodup_cons.1 g.distinct
  refine ⟨hdistinct, ?_, g.handles_append _, ?_⟩
  · intro other hother
    have hne : run.sim ≠ other.sim := by
      intro heq
      exact habsent (heq ▸ List.mem_map_of_mem hother)
    rw [World.sim_setSim, if_neg hne]
    exact g.running other (List.mem_cons_of_mem _ hother)
  · intro j
    rw [logOf_append, logOf_tag, World.sim_setSim]
    split
    · rename_i hij
      subst hij
      rw [replayIn_eq_none habsent]
      exact course
    · rename_i hij
      have hcourse := g.course j
      rw [replayIn, if_neg hij] at hcourse
      rw [List.append_nil]
      exact hcourse

/-- The innermost run ends without a happening. -/
theorem finish {run : Run n} (g : Grounded known h w (run :: runs)) {s : Simulation (Action n)}
    (course : known.holds run.sim (logOf run.sim h) ⟨s, none⟩) :
    Grounded known h (w.setSim run.sim s) runs := by
  rw [← List.append_nil (logOf run.sim h)] at course
  exact (g.pop course).cast_log (List.append_nil h)

end Grounded

/-! ## Operations -/

namespace World

/-- A submission is refused out of hand, or its simulation is asked; what that accepts it admits
under the ticket of the submission. -/
theorem submit_eq (w : World n) (submission : Submission n) (body : Script n) :
    w.submit submission body = (w, .overflow) ∨
    ∃ answer, w.submit submission body = w.accept submission answer ∧
      ∀ id s', answer = .ok (id, s') →
        (w.sim submission.sim).Admits
          (submission.ticket body (w.sim submission.sim).now id) s' := by
  obtain ⟨i, source, route, label, handle⟩ := submission
  cases route with
  | sourceAt due =>
    cases hdue : due.resolve (w.sim i).now with
    | none => exact .inl (by simp only [submit, hdue])
    | some t =>
      refine .inr ⟨_, by simp only [submit, hdue]; rfl, fun id s' hs => ?_⟩
      simpa [Submission.ticket, Route.due, Route.isRouted, Route.description, hdue] using
        submitAt_admits hs
  | sourceIn delay => exact .inr ⟨_, rfl, fun id s' hs => submitAt_admits hs⟩
  | sourceNow => exact .inr ⟨_, rfl, fun id s' hs => submitNow_admits hs⟩
  | directAt due =>
    cases hdue : due.resolve (w.sim i).now with
    | none => exact .inl (by simp only [submit, hdue])
    | some t =>
      refine .inr ⟨_, by simp only [submit, hdue]; rfl, fun id s' hs => ?_⟩
      simpa [Submission.ticket, Route.due, Route.isRouted, Route.description, hdue] using
        submitDirectAt_admits hs
  | directNow => exact .inr ⟨_, rfl, fun id s' hs => submitDirectNow_admits hs⟩

/-- An accepted submission is admitted with its ticket; any other leaves the world as it is. -/
theorem submit_cases (w : World n) (submission : Submission n) (body : Script n) :
    ((w.submit submission body).1 = w ∧ w.acceptance submission body = []) ∨
    ∃ ticket s', (w.sim submission.sim).Admits ticket s' ∧
      w.acceptance submission body = tag submission.sim [.accepted ticket] ∧
      (w.submit submission body).1 =
        (w.setSim submission.sim s').bindHandle submission.handle
          ⟨submission.sim, ticket.work.id⟩ := by
  unfold acceptance
  rcases w.submit_eq submission body with hsubmit | ⟨answer, hsubmit, hadmits⟩
  · rw [hsubmit]
    exact .inl ⟨rfl, rfl⟩
  · rw [hsubmit]
    cases answer with
    | error e => exact .inl ⟨rfl, rfl⟩
    | ok accepted =>
      obtain ⟨id, s'⟩ := accepted
      exact .inr ⟨_, s', hadmits id s' rfl, rfl, rfl⟩

/-- A stall that is granted is the move of a simulation; any other leaves the world as it is. -/
theorem stall_cases (w : World n) (i : Fin n) (source : Source) (release : Due) :
    ((w.stall i source release).1 = w ∧ w.stalling i source release = []) ∨
    ∃ t s', (w.sim i).stallUntil source t = .ok s' ∧
      w.stalling i source release = tag i [.stalled ⟨source, (w.sim i).now, t⟩] ∧
      w.stall i source release = (w.setSim i s', .done) := by
  unfold stalling
  cases hdue : release.resolve (w.sim i).now with
  | none => refine .inl ⟨?_, ?_⟩ <;> simp only [stall, hdue]
  | some t =>
    cases hs : (w.sim i).stallUntil source t with
    | error e => refine .inl ⟨?_, ?_⟩ <;> simp only [stall, hdue, hs]
    | ok s' =>
      simp only [stall, hdue, hs]
      exact .inr ⟨t, s', hs, rfl, rfl⟩

end World

namespace Grounded

/-- A move of an accepted submission, with the handle that is bound to it. -/
theorem submit (g : Grounded known h w runs) (submission : Submission n) (body : Script n) :
    Grounded known (h ++ w.acceptance submission body) (w.submit submission body).1 runs := by
  rcases w.submit_cases submission body with ⟨hw, hnew⟩ | ⟨ticket, s', hadmits, hnew, hw⟩
  · rw [hw, hnew, List.append_nil]
    exact g
  · rw [hw, hnew]
    have hmoved := g.lull (s := s') (by
      rw [hadmits.eq]
      exact congrArg (fun f => f.2.2) (flags_lodge _ _))
      (.accept hadmits)
    cases submission.handle with
    | none => exact hmoved
    | some name =>
      refine ⟨hmoved.distinct, hmoved.running, ?_, hmoved.course⟩
      intro other handle hget
      simp only [World.bindHandle, Table.get?_set] at hget
      split at hget
      · cases hget
        refine ⟨ticket, ?_, rfl⟩
        rw [logOf_append, logOf_tag, if_pos rfl, Log.accepted_append]
        exact List.mem_append_right _ (List.mem_singleton.2 rfl)
      · exact hmoved.handles other handle hget

theorem stall (g : Grounded known h w runs) (i : Fin n) (source : Source) (release : Due) :
    Grounded known (h ++ w.stalling i source release) (w.stall i source release).1 runs := by
  rcases w.stall_cases i source release with ⟨hw, hnew⟩ | ⟨t, s', hs, hnew, hw⟩
  · rw [hw, hnew, List.append_nil]
    exact g
  · rw [hw, hnew]
    obtain ⟨backlog, hknown, htime, hactive, hcarried, rfl⟩ := stallUntil_eq_ok hs
    exact g.lull rfl (.stall hknown htime hactive hcarried)

theorem cancel (g : Grounded known h w runs) (name : String) :
    Grounded known h (w.cancel name).1 runs := by
  unfold World.cancel
  cases hget : w.handles.get? name with
  | none => exact g
  | some handle =>
    obtain ⟨ticket, hmem, hid⟩ := g.handles name handle hget
    exact g.silent (i := handle.sim) rfl (hid ▸ .cancel hmem)

theorem beginRun (g : Grounded known h w runs) (i : Fin n) (limit : Option Nat) :
    match w.beginRun i limit with
    | (w', .outcome _) => Grounded known h w' runs
    | (w', .run run) => Grounded known h w' (run :: runs) := by
  unfold World.beginRun
  cases hstart : (w.sim i).startRun with
  | error e => exact g
  | ok started =>
    cases started with
    | none => exact g
    | some s => exact g.push hstart limit

/-- A command is carried out at once, or a run starts that it has to wait for. -/
theorem command (g : Grounded known h w runs) (i : Fin n) (command : Command n) :
    match w.command i command with
    | (w', .outcome _) =>
      Grounded known (h ++ (Request.command i command).happenings w) w' runs
    | (w', .run run) =>
      Grounded known (h ++ (Request.command i command).happenings w) w' (run :: runs) := by
  cases command with
  | stall source release => exact g.stall i source release
  | cancel name => exact (g.cancel name).cast_log (List.append_nil h).symm
  | pause =>
    have hmoved := g.silent (i := i) (s := (w.sim i).pause) rfl (.control true _ _ _)
    exact hmoved.cast_log (List.append_nil h).symm
  | halt =>
    have hmoved := g.silent (i := i) (s := (w.sim i).halt) rfl (.control _ true _ _)
    exact hmoved.cast_log (List.append_nil h).symm
  | enableTrace =>
    have hmoved := g.silent (i := i) (s := (w.sim i).enableTrace) rfl .enableTrace
    exact hmoved.cast_log (List.append_nil h).symm
  | run =>
    have hrun := g.beginRun i none
    rw [show (h ++ (Request.command i Command.run).happenings w) = h from List.append_nil h]
    exact hrun
  | runFor limit =>
    rw [show (h ++ (Request.command i (Command.runFor limit)).happenings w) = h from
      List.append_nil h]
    exact g.beginRun i (some limit)
  | resume =>
    rw [show (h ++ (Request.command i Command.resume).happenings w) = h from List.append_nil h]
    have hmoved := g.silent (i := i) (s := (w.sim i).unpause) rfl (.control false _ _ _)
    exact hmoved.beginRun i none
  | _ => exact g.cast_log (List.append_nil h).symm

/-! ### Steps -/

section Steps

variable {run : Run n} {callers : List (Caller n)} {work : Work (Action n)}

theorem course_head (g : Grounded known h w (run :: runs)) :
    known.holds run.sim (logOf run.sim h) ⟨w.sim run.sim, run.replay⟩ := by
  have hcourse := g.course run.sim
  rwa [replayIn, if_pos rfl] at hcourse

/-- An action that fails halts its simulation, closes the replay it is part of, and ends the run. -/
theorem abort (g : Grounded known h w (run :: callers.map Caller.run)) (work : Work (Action n))
    (failure : Failure) :
    Grounded known h (Machine.abort w run work failure callers).world
      (Machine.abort w run work failure callers).runs := by
  have hfailed : known.holds run.sim (logOf run.sim h)
      ⟨(w.sim run.sim).failAction, run.replay⟩ :=
    known.silent g.course_head (.control _ _ _ _)
  unfold Machine.abort
  cases hr : run.replay with
  | none =>
    rw [hr] at hfailed
    exact g.finish (known.silent hfailed (.control _ _ false _))
  | some r =>
    rw [hr] at hfailed
    exact g.finish (known.silent (known.silent hfailed (.close r)) (.control _ _ false _))

/-- An operation of an action is answered: the action goes on, or ends with the refusal. -/
theorem settle (g : Grounded known h w (run :: callers.map Caller.run)) (operation : Operation n)
    (handling : Handling) (rest : Script n) (outcome : Outcome) :
    Grounded known h (Machine.settle w run work operation handling rest outcome callers).world
      (Machine.settle w run work operation handling rest outcome callers).runs := by
  unfold Machine.settle
  dsimp only
  split
  · split
    · exact (g.note _).abort work _
    · exact g.note _
  · exact g.note _

/-- A panic leaves every run. -/
theorem unwind (g : Grounded known h w runs) :
    Grounded known (h ++ runs.map (fun run => (run.sim, .unwound))) (Machine.unwind w runs) [] := by
  unfold Machine.unwind
  induction runs generalizing h w with
  | nil => exact g.cast_log (List.append_nil h).symm
  | cons run runs ih =>
    have hleft : known.holds run.sim (logOf run.sim h ++ [.unwound])
        ⟨(w.sim run.sim).endAction.endRun, none⟩ :=
      known.silent (known.lull g.course_head .unwind) (.control _ _ false _)
    have hrest := ih (g.pop hleft)
    rw [List.append_assoc] at hrest
    exact hrest

end Steps

end Grounded

/-! ## What a step writes in the journal -/

section Journal

theorem journal_submit (w : World n) (submission : Submission n) (body : Script n) :
    (w.submit submission body).1.journal = w.journal := by
  rcases w.submit_cases submission body with ⟨hw, -⟩ | ⟨ticket, s', -, -, hw⟩
  · rw [hw]
  · rw [hw]
    cases submission.handle <;> rfl

theorem journal_beginRun (w : World n) (i : Fin n) (limit : Option Nat) :
    (w.beginRun i limit).1.journal = w.journal := by
  unfold World.beginRun
  cases (w.sim i).startRun with
  | error e => rfl
  | ok started => cases started <;> rfl

theorem journal_command (w : World n) (i : Fin n) (command : Command n) :
    (w.command i command).1.journal = w.journal := by
  cases command with
  | stall source release =>
    dsimp only [World.command]
    rcases w.stall_cases i source release with ⟨hw, -⟩ | ⟨t, s', -, -, hw⟩
    · rw [hw]
    · rw [hw]
      rfl
  | cancel name =>
    dsimp only [World.command, World.cancel]
    split <;> rfl
  | run => exact journal_beginRun w i none
  | runFor limit => exact journal_beginRun w i (some limit)
  | resume => exact journal_beginRun (w.update i Simulation.unpause) i none
  | _ => rfl

theorem journal_settle (w : World n) (run : Run n) (work : Work (Action n))
    (operation : Operation n) (handling : Handling) (rest : Script n) (outcome : Outcome)
    (callers : List (Caller n)) :
    (Machine.settle w run work operation handling rest outcome callers).world.journal =
      w.journal ++ [.performed operation outcome] := by
  unfold Machine.settle
  dsimp only
  split
  · split <;> rfl
  · rfl

theorem journal_unwind (w : World n) (runs : List (Run n)) :
    (Machine.unwind w runs).journal = w.journal := by
  unfold Machine.unwind
  induction runs generalizing w with
  | nil => rfl
  | cons run runs ih =>
    rw [List.foldl_cons]
    exact ih (w.update run.sim (fun s => s.endAction.endRun))

end Journal

end StallSim
