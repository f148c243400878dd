import StallSim.Proofs.Resembling
import StallSim.Proofs.Splitting
import StallSim.Proofs.Stopping

/-!
# A machine follows another

Two machines are at work in worlds that resemble each other.  Where the first makes a step for work
that the second does not know, the second waits; else both make the same step.  So it goes on as
long as no such work starts.

* `SameRun`, `SameCaller` — the same run and the same waiting action, but for the ids.
* `Follows` — the second machine follows the first.
* `Known` — all that starts is known to both.
* `Session` — requests are made from outside, each once the last one is answered.
* `Agrees`, `SameResult` — what can be seen of both is the same, but for the ids.

Principal results: `Follows.step` — one step; `Follows.request` — a request from outside;
`Follows.session`, `Resembles.session` — any number of them; `Follows.rested` — the answers are the
same.
-/

set_option autoImplicit false

namespace StallSim

open List (Forall₂)

variable {n : Nat}

/-! ## Runs and waiting actions -/

section Same

variable (ρs : Naming n)

/-- The same replay, but for the ids, or none in either case. -/
inductive SameReplay (ρ : Renumbering) : Option (Replay n) → Option (Replay n) → Prop where
  | idle : SameReplay ρ none none
  | replaying (source : Source) (release : Instant)
      {timers timers' : Agenda Origin (Work (Action n))}
      (held : Renumbered (SameTimer ρ) ρ.keeps timers timers') :
      SameReplay ρ (some ⟨source, release, timers⟩) (some ⟨source, release, timers'⟩)

/-- The same run, but for the ids in the replay it is in the middle of. -/
inductive SameRun : Run n → Run n → Prop where
  | mk (i : Fin n) (start : Nat) (limit : Option Nat) {r r' : Option (Replay n)}
      (replays : SameReplay (ρs i) r r') : SameRun ⟨i, start, limit, r⟩ ⟨i, start, limit, r'⟩

/-- The same action waits for the same operation, but for the ids. -/
inductive SameCaller : Caller n → Caller n → Prop where
  | mk {run run' : Run n} (runs : SameRun ρs run run') {work work' : Work (Action n)}
      (works : SameWork (ρs run.sim) work work') (operation : Operation n) (handling : Handling)
      (rest : Script n) :
      SameCaller ⟨run, work, operation, handling, rest⟩ ⟨run', work', operation, handling, rest⟩

end Same

/-- The second machine follows the first.  `j` is the simulation that was asked last from
outside. -/
inductive Follows (ρs : Naming n) (past past' : List (Record n)) (j : Fin n) :
    Machine n → Machine n → Prop where
  /-- Both go on with the same run. -/
  | between {w v : World n} (worlds : Resembles ρs past past' w v) {run run' : Run n}
      (runs : SameRun ρs run run') {callers callers' : List (Caller n)}
      (waiting : Forall₂ (SameCaller ρs) callers callers') :
      Follows ρs past past' j ⟨w, .between run, callers⟩ ⟨v, .between run', callers'⟩
  /-- The clock of the first has moved on to work that was held back; the run is not over. -/
  | late {w v : World n} (shared : Shared ρs past past' w v) {run : Run n}
      (idle : run.replay = none) (copy : Copy (ρs run.sim) (w.sim run.sim) (v.sim run.sim))
      (others : ∀ i, i ≠ run.sim → Level (ρs i) (w.sim i) (v.sim i))
      (going : run.isOver (w.sim run.sim) = false) {callers callers' : List (Caller n)}
      (waiting : Forall₂ (SameCaller ρs) callers callers') :
      Follows ρs past past' j ⟨w, .between run, callers⟩ ⟨v, .between run, callers'⟩
  /-- Both go on with the same action. -/
  | within {w v : World n} (worlds : Resembles ρs past past' w v) {run run' : Run n}
      (runs : SameRun ρs run run') {work work' : Work (Action n)}
      (works : SameWork (ρs run.sim) work work') (script : Script n)
      {callers callers' : List (Caller n)} (waiting : Forall₂ (SameCaller ρs) callers callers') :
      Follows ρs past past' j ⟨w, .within run work script, callers⟩
        ⟨v, .within run' work' script, callers'⟩
  /-- A run has ended, or a panic has left all runs. -/
  | returned {w v : World n} (worlds : Resembles ρs past past' w v) {o o' : Outcome}
      (outcomes : ∀ i, SameOutcome ρs i o o') {callers callers' : List (Caller n)}
      (waiting : Forall₂ (SameCaller ρs) callers callers') :
      Follows ρs past past' j ⟨w, .returned o, callers⟩ ⟨v, .returned o', callers'⟩
  /-- A request from outside was answered at once. -/
  | answered {w v : World n} (worlds : Resembles ρs past past' w v) {o o' : Outcome}
      (outcomes : SameOutcome ρs j o o') :
      Follows ρs past past' j ⟨w, .returned o, []⟩ ⟨v, .returned o', []⟩

section Steps

variable {ρs : Naming n} {past past' : List (Record n)} {j : Fin n} {w v : World n}
  {run run' : Run n} {work work' : Work (Action n)} {callers callers' : List (Caller n)}

theorem SameRun.sim_eq (runs : SameRun ρs run run') : run'.sim = run.sim := by
  cases runs
  rfl

theorem SameRun.of_idle (idle : run.replay = none) : SameRun ρs run run := by
  obtain ⟨i, start, limit, replay⟩ := run
  subst idle
  exact .mk i start limit .idle

theorem SameWork.renames {i : Fin n} (works : SameWork (ρs i) work work') :
    Renames ρs work.id work'.id :=
  ⟨i, works.of⟩

/-! ## Around an action -/

/-- Both start the same action. -/
theorem follows_enter (worlds : Resembles ρs past past' w v) (runs : SameRun ρs run run')
    (works : SameWork (ρs run.sim) work work')
    (waiting : Forall₂ (SameCaller ρs) callers callers') :
    Follows ρs past past' j (Machine.enter w run work callers)
      (Machine.enter v run' work' callers') := by
  have hlevel := (worlds.level run.sim).startAction works
  have hscript : work'.action = work.action := by
    cases works
    rfl
  have hactive : ((v.sim run.sim).startAction work').active =
      ((w.sim run.sim).startAction work).active := hlevel.active
  unfold Machine.enter
  simp only [runs.sim_eq, Simulation.active?, hactive, hscript]
  rw [show ((v.sim run.sim).startAction work').now = ((w.sim run.sim).startAction work).now from
    hlevel.now]
  exact .within ((worlds.setSim hlevel).note (.started run.sim works _ _ _)) runs works _ waiting

/-- The same action ends with the same failure. -/
theorem follows_abort (worlds : Resembles ρs past past' w v) (runs : SameRun ρs run run')
    (works : SameWork (ρs run.sim) work work') {failure failure' : Failure}
    (failures : SameFailure ρs failure failure')
    (waiting : Forall₂ (SameCaller ρs) callers callers') :
    Follows ρs past past' j (Machine.abort w run work failure callers)
      (Machine.abort v run' work' failure' callers') := by
  have hlevel := (worlds.level run.sim).failAction
  have hdescription : work'.description = work.description := by
    cases works
    rfl
  have herror : ∀ i, SameOutcome ρs i (.refused (failure.report work.id work.description))
      (.refused (failure'.report work'.id work.description)) :=
    fun i => .refused (failures.report works.renames _)
  unfold Machine.abort
  dsimp only
  rw [hdescription]
  cases runs with
  | mk i start limit replays =>
    cases replays with
    | idle => exact .returned (worlds.setSim hlevel.endRun) herror waiting
    | replaying source release held =>
      exact .returned (worlds.setSim (hlevel.closeReplay source release held).endRun) herror waiting

/-- The same operation of the same action has the same answer. -/
theorem follows_settle (worlds : Resembles ρs past past' w v) (runs : SameRun ρs run run')
    (works : SameWork (ρs run.sim) work work') (operation : Operation n) (handling : Handling)
    (rest : Script n) {o o' : Outcome} (outcomes : SameOutcome ρs operation.sim o o')
    (waiting : Forall₂ (SameCaller ρs) callers callers') :
    Follows ρs past past' j (Machine.settle w run work operation handling rest o callers)
      (Machine.settle v run' work' operation handling rest o' callers') := by
  have herror := outcomes.error?
  have hnoted := worlds.note (.performed operation outcomes)
  unfold Machine.settle
  dsimp only
  generalize o.error? = e at herror
  generalize o'.error? = e' at herror
  cases herror with
  | none => exact .within hnoted runs works rest waiting
  | some errors =>
    dsimp only
    split
    · exact follows_abort hnoted runs works
        (SameFailure.within (.error errors) handling.context) waiting
    · exact .within hnoted runs works rest waiting

/-- A panic leaves the same actions and the same runs. -/
theorem Resembles.unwind {runs runs' : List (Run n)} (same : Forall₂ (SameRun ρs) runs runs')
    (worlds : Resembles ρs past past' w v) :
    Resembles ρs past past' (Machine.unwind w runs) (Machine.unwind v runs') := by
  unfold Machine.unwind
  induction same generalizing w v with
  | nil => exact worlds
  | cons first _ ih =>
    rw [List.foldl_cons, List.foldl_cons]
    refine ih ?_
    rw [first.sim_eq]
    exact worlds.setSim (worlds.level _).endAction.endRun

theorem runs_of_callers (waiting : Forall₂ (SameCaller ρs) callers callers') :
    Forall₂ (SameRun ρs) (callers.map Caller.run) (callers'.map Caller.run) := by
  induction waiting with
  | nil => exact .nil
  | cons first _ ih =>
    cases first with
    | mk runs works operation handling rest => exact .cons runs ih

/-- **A step of an action, made by both.** -/
theorem follows_within (worlds : Resembles ρs past past' w v) (runs : SameRun ρs run run')
    (works : SameWork (ρs run.sim) work work') (script : Script n)
    (waiting : Forall₂ (SameCaller ρs) callers callers')
    (given : ∀ f context, script = .fail f context → ρs.given f) :
    Follows ρs past past' j (Machine.stepAction w run work script callers)
      (Machine.stepAction v run' work' script callers') := by
  cases script with
  | done =>
    unfold Machine.stepAction
    dsimp only
    rw [runs.sim_eq]
    exact .between (worlds.setSim (worlds.level _).endAction) runs waiting
  | submit submission body handling rest =>
    obtain ⟨hworlds, houtcomes⟩ := worlds.submit submission body
    exact follows_settle hworlds runs works (.submit submission) handling rest houtcomes waiting
  | perform i command handling rest =>
    have hreply := worlds.command i command
    unfold Machine.stepAction
    dsimp only
    generalize w.command i command = a at hreply
    generalize v.command i command = b at hreply
    cases hreply with
    | outcome worlds outcomes =>
      exact follows_settle worlds runs works (.command i command) handling rest outcomes waiting
    | run worlds start limit =>
      exact .between worlds (.mk i start limit .idle)
        (.cons (.mk runs works (.command i command) handling rest) waiting)
  | call name rest =>
    unfold Machine.stepAction
    dsimp only
    rw [worlds.procedure]
    exact .within worlds runs works _ waiting
  | whenBefore i limit body rest =>
    unfold Machine.stepAction
    dsimp only
    rw [(worlds.level i).now]
    exact .within worlds runs works _ waiting
  | fail failure context =>
    exact follows_abort (worlds.note (.failed failure)) runs works
      (SameFailure.within (.given (given failure context rfl)) context) waiting
  | panic message =>
    exact .returned (worlds.unwind (.cons runs (runs_of_callers waiting)))
      (fun _ => .anonymous rfl) .nil

/-! ## Between two actions -/

theorem isOver_eq {ρ : Renumbering} {s t : Simulation (Action n)} (copy : Copy ρ s t)
    (run : Run n) : run.isOver t = run.isOver s := by
  obtain ⟨hpaused, hhalted, -⟩ := Level.flags_eq copy
  rw [Run.isOver, Run.isOver, Simulation.isStopped, Simulation.isStopped, copy.processed, hpaused,
    hhalted]

/-- Taking an event decides neither over the flags nor over the count. -/
theorem isOver_settled {s s' : Simulation (Action n)} (run : Run n)
    (settled : s.dispatch = .settled s') : run.isOver s' = run.isOver s := by
  have hafter : s.dispatch.after = some (([] : Log n), ⟨s', none⟩) := by rw [settled]; rfl
  have htaken : s.dispatch.sim? = some s' := by rw [settled]; rfl
  have hflags := flags_dispatch hafter
  have htally := tally_dispatch htaken
  simp only [Simulation.flags, Simulation.tally, Prod.mk.injEq] at hflags htally
  rw [Run.isOver, Run.isOver, Simulation.isStopped, Simulation.isStopped, htally.1, hflags.1,
    hflags.2.1]

/-- The step starts nothing but what both know. -/
def Known (ρs : Naming n) (new : List (Fin n × Happening n)) : Prop :=
  ∀ i work time, (i, .started work time) ∈ new → (ρs i).keeps work = true

theorem known_append {first second : List (Fin n × Happening n)} :
    Known ρs (first ++ second) ↔ Known ρs first ∧ Known ρs second := by
  constructor
  · intro known
    exact ⟨fun i work time hmem => known i work time (List.mem_append_left _ hmem),
      fun i work time hmem => known i work time (List.mem_append_right _ hmem)⟩
  · rintro ⟨hfirst, hsecond⟩ i work time hmem
    exact (List.mem_append.1 hmem).elim (hfirst i work time) (hsecond i work time)

/-- What the first machine alone would start is known. -/
theorem not_enter_of_known {s : Simulation (Action n)} (unknown : (ρs run.sim).keeps work = false)
    (step : Machine.stepRun w run callers = Machine.enter (w.setSim run.sim s) run work callers)
    (known : Known ρs (Machine.happenings ⟨w, .between run, callers⟩)) : False := by
  obtain ⟨-, active, depth, hjournal⟩ := enter_setSim w run s work callers
  have hstart : (run.sim, Happening.started work s.now) ∈
      Machine.happenings ⟨w, .between run, callers⟩ := by
    rw [happenings_between (step ▸ hjournal)]
    exact List.mem_singleton_self _
  cases unknown.symm.trans (known _ _ _ hstart)

/-- Both runs end. -/
theorem follows_exhausted (level : Level (ρs run.sim) (w.sim run.sim) (v.sim run.sim))
    (shared : Shared ρs past past' w v)
    (others : ∀ i, i ≠ run.sim → Level (ρs i) (w.sim i) (v.sim i))
    (waiting : Forall₂ (SameCaller ρs) callers callers') :
    Follows ρs past past' j (.goOn w run callers .exhausted) (.goOn v run callers' .exhausted) := by
  rw [Machine.goOn, Machine.goOn, level.processed]
  exact .returned (.of_level (shared.setSim run.sim _ _) (level_setSim level.endRun others))
    (fun _ => .anonymous rfl) waiting

/-- The clock of the first may have moved on. -/
theorem follows_late {s : Simulation (Action n)}
    (shared : Shared ρs past past' (w.setSim run.sim s) v) (idle : run.replay = none)
    (copy : Copy (ρs run.sim) s (v.sim run.sim))
    (others : ∀ i, i ≠ run.sim → Level (ρs i) (w.sim i) (v.sim i)) (going : run.isOver s = false)
    (waiting : Forall₂ (SameCaller ρs) callers callers') :
    Follows ρs past past' j ⟨w.setSim run.sim s, .between run, callers⟩
      ⟨v, .between run, callers'⟩ := by
  refine .late shared idle ?_ (fun i hi => ?_) ?_ waiting
  · rw [sim_setSim_self]
    exact copy
  · rw [World.sim_setSim, if_neg (Ne.symm hi)]
    exact others i hi
  · rw [sim_setSim_self]
    exact going

/-- **A run that goes on** takes the same event in both, or one that only the first knows. -/
theorem follows_dispatch {log : Log n} (course : Course log ⟨w.sim run.sim, none⟩)
    (shared : Shared ρs past past' w v) (idle : run.replay = none)
    (copy : Copy (ρs run.sim) (w.sim run.sim) (v.sim run.sim))
    (others : ∀ i, i ≠ run.sim → Level (ρs i) (w.sim i) (v.sim i))
    (going : run.isOver (w.sim run.sim) = false)
    (waiting : Forall₂ (SameCaller ρs) callers callers')
    (step : Machine.stepRun w run callers = .goOn w run callers (w.sim run.sim).dispatch)
    (known : Known ρs (Machine.happenings ⟨w, .between run, callers⟩)) :
    Follows ρs past past' j (.goOn w run callers (w.sim run.sim).dispatch)
        ⟨v, .between run, callers'⟩ ∨
      Follows ρs past past' j (.goOn w run callers (w.sim run.sim).dispatch)
        (.goOn v run callers' (v.sim run.sim).dispatch) := by
  have hset : ∀ {s t : Simulation (Action n)}, Level (ρs run.sim) s t →
      Resembles ρs past past' (w.setSim run.sim s) (v.setSim run.sim t) :=
    fun level => .of_level (shared.setSim run.sim _ _) (level_setSim level others)
  have hsame : SameRun ρs run run := .of_idle idle
  obtain ⟨htimely, hstalls⟩ := course.schedule
  rcases copy.dispatch htimely hstalls with ⟨hdispatch, hexhausted⟩ | hghost
  · right
    generalize hd : (w.sim run.sim).dispatch = d at hdispatch hexhausted
    generalize (v.sim run.sim).dispatch = e at hdispatch
    cases hdispatch with
    | exhausted => exact follows_exhausted (hexhausted rfl) shared others waiting
    | settled later =>
      refine follows_late (shared.setSim run.sim _ _) idle ?_ (fun i hi => ?_)
        ((isOver_settled run hd).trans going) waiting
      · rw [sim_setSim_self]
        exact later
      · rw [World.sim_setSim, if_neg (Ne.symm hi)]
        exact others i hi
    | start works level => exact follows_enter (hset level) hsame works waiting
    | replay source release held level =>
      exact .between (hset level) (.mk run.sim run.start run.limit
        (.replaying source release held)) waiting
  · left
    generalize hd : (w.sim run.sim).dispatch = d at hghost step
    cases hghost with
    | settled later =>
      exact follows_late (shared.setSim_left run.sim _) idle later others
        ((isOver_settled run hd).trans going) waiting
    | start work unknown s => exact (not_enter_of_known unknown step known).elim

/-- **A step between two actions, outside of a replay**: made by both, or by the first alone. -/
theorem follows_idle {log : Log n} (course : Course log ⟨w.sim run.sim, none⟩)
    (shared : Shared ρs past past' w v) (idle : run.replay = none)
    (copy : Copy (ρs run.sim) (w.sim run.sim) (v.sim run.sim))
    (others : ∀ i, i ≠ run.sim → Level (ρs i) (w.sim i) (v.sim i))
    (ended : run.isOver (w.sim run.sim) = true →
      Level (ρs run.sim) (w.sim run.sim) (v.sim run.sim))
    (waiting : Forall₂ (SameCaller ρs) callers callers')
    (known : Known ρs (Machine.happenings ⟨w, .between run, callers⟩)) :
    Follows ρs past past' j (Machine.stepRun w run callers) ⟨v, .between run, callers'⟩ ∨
      Follows ρs past past' j (Machine.stepRun w run callers)
        (Machine.stepRun v run callers') := by
  have hstep : Machine.stepRun w run callers = _ := stepRun_idle idle
  rw [stepRun_idle (w := v) idle, isOver_eq copy]
  cases hover : run.isOver (w.sim run.sim) with
  | true =>
    rw [hstep, hover, if_pos rfl, if_pos rfl]
    exact .inr (follows_exhausted (ended hover) shared others waiting)
  | false =>
    rw [hover, if_neg Bool.false_ne_true] at hstep
    rw [hstep, if_neg Bool.false_ne_true]
    exact follows_dispatch course shared idle copy others hover waiting hstep known

/-- The step of a run whose replay is exhausted. -/
theorem stepRun_of_exhausted {r : Replay n} (underWay : run.replay = some r)
    (exhausted : (w.sim run.sim).nextReplayed r.source = none) :
    Machine.stepRun w run callers =
      ⟨w.setSim run.sim ((w.sim run.sim).closeReplay r.source r.release r.timers),
        .between { run with replay := none }, callers⟩ := by
  unfold Machine.stepRun
  simp only [underWay, exhausted]

/-- **A step of a replay**: made by both, or by the first alone. -/
theorem follows_replaying (worlds : Resembles ρs past past' w v) (runs : SameRun ρs run run')
    {r : Replay n} (replay : run.replay = some r)
    (waiting : Forall₂ (SameCaller ρs) callers callers')
    (known : Known ρs (Machine.happenings ⟨w, .between run, callers⟩)) :
    Follows ρs past past' j (Machine.stepRun w run callers) ⟨v, .between run', callers'⟩ ∨
      Follows ρs past past' j (Machine.stepRun w run callers)
        (Machine.stepRun v run' callers') := by
  obtain ⟨i, start, limit, replays⟩ := runs
  cases replays with
  | idle => cases replay
  | @replaying source release timers timers' held =>
    have hruns : SameRun ρs ⟨i, start, limit, some ⟨source, release, timers⟩⟩
        ⟨i, start, limit, some ⟨source, release, timers'⟩⟩ :=
      .mk i start limit (.replaying source release held)
    have hlevel := worlds.level i
    have hreplayed := hlevel.nextReplayed source
    generalize hnext : (w.sim i).nextReplayed source = next at hreplayed
    generalize hnext' : (v.sim i).nextReplayed source = next' at hreplayed
    cases hreplayed with
    | exhausted =>
      rw [stepRun_of_exhausted rfl hnext, stepRun_of_exhausted rfl hnext']
      exact .inr (.between (worlds.setSim (hlevel.closeReplay source release held))
        (.mk i start limit .idle) waiting)
    | next works level =>
      right
      rw [stepRun_of_next rfl callers hnext, stepRun_of_next rfl callers' hnext',
        hlevel.cancelled _ _ works.of]
      split
      · exact .between (worlds.setSim level) hruns waiting
      · exact follows_enter (worlds.setSim level) hruns works waiting
    | ghost work unknown level =>
      left
      have hstepped : Machine.stepRun w ⟨i, start, limit, some ⟨source, release, timers⟩⟩ callers =
          _ := stepRun_of_next rfl callers hnext
      split at hstepped
      · rw [hstepped]
        exact .between (worlds.setSim_left level) hruns waiting
      · exact (not_enter_of_known unknown hstepped known).elim

end Steps

/-! ## Steps and requests -/

section Runs

variable {ρs : Naming n} {past past' : List (Record n)} {i j : Fin n}
  {h : List (Fin n × Happening n)} {m m' u : Machine n}

theorem History.course_between {w : World n} {run : Run n} {callers : List (Caller n)}
    (hist : History h ⟨w, .between run, callers⟩) :
    Course (logOf run.sim h) ⟨w.sim run.sim, run.replay⟩ := by
  have hcourse := hist.course run.sim
  simp only [Machine.standing, Machine.runs, replayIn, if_true] at hcourse
  exact hcourse

/-- **The second machine makes the step of the first, or none.** -/
theorem Follows.step (follows : Follows ρs past past' j m u) (hist : History h m)
    (known : Known ρs m.happenings)
    (given : ∀ f, .failed f ∈ m.step.world.journal → ρs.given f) :
    Follows ρs past past' j m.step u ∨ Follows ρs past past' j m.step u.step := by
  cases follows with
  | @between w v worlds run run' runs callers callers' waiting =>
    cases hreplay : run.replay with
    | some r => exact follows_replaying worlds runs hreplay waiting known
    | none =>
      have hcourse := hist.course_between
      rw [hreplay] at hcourse
      obtain ⟨i, start, limit, replays⟩ := runs
      cases replays with
      | replaying source release held => cases hreplay
      | idle =>
        exact follows_idle hcourse worlds.toShared rfl (worlds.level i).toCopy
          (fun k _ => worlds.level k) (fun _ => worlds.level i) waiting known
  | @late w v shared run idle copy others going callers callers' waiting =>
    have hcourse := hist.course_between
    rw [idle] at hcourse
    refine follows_idle hcourse shared idle copy others (fun ended => ?_) waiting known
    cases going.symm.trans ended
  | within worlds runs works script waiting =>
    refine .inr (follows_within worlds runs works script waiting fun f context hscript => ?_)
    subst hscript
    exact given f (List.mem_append_right _ List.mem_cons_self)
  | returned worlds outcomes waiting =>
    cases waiting with
    | nil => exact .inr (.returned worlds outcomes .nil)
    | cons first later =>
      cases first with
      | mk runs works operation handling rest =>
        exact .inr (follows_settle worlds runs works operation handling rest (outcomes _) later)
  | answered worlds outcomes => exact .inr (.answered worlds outcomes)

/-- A machine that has answered is followed by one that has given the same answer. -/
theorem Follows.rested (follows : Follows ρs past past' j m u) {o : Outcome}
    (rested : m.result? = some o) :
    ∃ o', u.result? = some o' ∧ SameOutcome ρs j o o' ∧
      Resembles ρs past past' m.world u.world := by
  cases follows with
  | returned worlds outcomes waiting =>
    cases waiting with
    | nil =>
      cases rested
      exact ⟨_, rfl, outcomes j, worlds⟩
    | cons first later => cases rested
  | answered worlds outcomes =>
    cases rested
    exact ⟨_, rfl, outcomes, worlds⟩
  | _ => cases rested

/-- **The same request is made of both.** -/
theorem Follows.request {w v : World n} (worlds : Resembles ρs past past' w v)
    (request : Request n) :
    Follows ρs past past' request.sim (Machine.request w request) (Machine.request v request) := by
  cases request with
  | submit submission body =>
    obtain ⟨hworlds, houtcomes⟩ := worlds.submit submission body
    exact .answered hworlds houtcomes
  | command i command =>
    have hreply := worlds.command i command
    unfold Machine.request
    dsimp only
    generalize w.command i command = a at hreply
    generalize v.command i command = b at hreply
    cases hreply with
    | outcome worlds outcomes => exact .answered worlds outcomes
    | run worlds start limit => exact .between worlds (.mk i start limit .idle) .nil

/-- The world goes on with these requests from outside, each made once the last one is answered. -/
inductive Session : Machine n → List (Request n) → List (Fin n × Happening n) → Machine n →
    Prop where
  | refl (m : Machine n) : Session m [] [] m
  | step (m : Machine n) {m' : Machine n} {requests : List (Request n)}
      {later : List (Fin n × Happening n)} (rest : Session m.step requests later m') :
      Session m requests (m.happenings ++ later) m'
  | request (m : Machine n) {m' : Machine n} {o : Outcome} (rested : m.result? = some o)
      (request : Request n) {requests : List (Request n)} {later : List (Fin n × Happening n)}
      (rest : Session (Machine.request m.world request) requests later m') :
      Session m (request :: requests) (request.happenings m.world ++ later) m'

theorem Session.later {requests : List (Request n)} {later : List (Fin n × Happening n)}
    (session : Session m requests later m') : Later m later m' := by
  induction session with
  | refl m => exact .refl m
  | step m rest ih => exact .next (.step m) ih
  | request m rested request rest ih => exact .next (.request m _ request rested) ih

/-- A session adds to the journal. -/
theorem Session.journal {requests : List (Request n)} {later : List (Fin n × Happening n)}
    (session : Session m requests later m') : m.world.journal <+: m'.world.journal := by
  induction session with
  | refl m => exact List.prefix_refl _
  | step m rest ih => exact (journal_step m).trans ih
  | request m rested request rest ih =>
    have hsame : (Machine.request m.world request).world.journal = m.world.journal := by
      cases request with
      | submit submission body => exact journal_submit m.world submission body
      | command i command =>
        have hcommand := journal_command m.world i command
        unfold Machine.request
        dsimp only
        generalize m.world.command i command = r at hcommand
        obtain ⟨w, outcome | run⟩ := r <;> exact hcommand
    rwa [hsame] at ih

theorem Session.append {m'' : Machine n} {first second : List (Request n)}
    {later further : List (Fin n × Happening n)} (session : Session m first later m')
    (onward : Session m' second further m'') :
    Session m (first ++ second) (later ++ further) m'' := by
  induction session with
  | refl m => exact onward
  | step m rest ih =>
    rw [List.append_assoc]
    exact .step m (ih onward)
  | request m rested request rest ih =>
    rw [List.append_assoc]
    exact .request m rested request (ih onward)

theorem Session.steps (m : Machine n) (k : Nat) : Session m [] (m.story k) (m.steps k) := by
  induction k generalizing m with
  | zero => exact .refl m
  | succ k ih => exact .step m (ih m.step)

theorem Session.ask (m : Machine n) (requests : List (Request n))
    (answers : m.answers requests = true) :
    Session m requests (m.asked requests) (m.ask requests) := by
  induction requests generalizing m with
  | nil => exact .refl m
  | cons request later ih =>
    rw [Machine.answers, Bool.and_eq_true, Option.isSome_iff_exists] at answers
    obtain ⟨⟨outcome, hrested⟩, hlater⟩ := answers
    exact .request m hrested request (ih _ hlater)

/-- The simulation that the last of the requests is about, or `i` if there is none. -/
def askedLast (i : Fin n) : List (Request n) → Fin n
  | [] => i
  | request :: requests => askedLast request.sim requests

/-- What a machine has in common with one that follows it. -/
theorem Follows.copies (follows : Follows ρs past past' j m u) :
    Shared ρs past past' m.world u.world ∧
      ∀ i, Copy (ρs i) (m.world.sim i) (u.world.sim i) := by
  cases follows with
  | between worlds => exact ⟨worlds.toShared, fun i => (worlds.level i).toCopy⟩
  | within worlds => exact ⟨worlds.toShared, fun i => (worlds.level i).toCopy⟩
  | returned worlds => exact ⟨worlds.toShared, fun i => (worlds.level i).toCopy⟩
  | answered worlds => exact ⟨worlds.toShared, fun i => (worlds.level i).toCopy⟩
  | @late w v shared run idle copy others =>
    refine ⟨shared, fun i => ?_⟩
    by_cases hi : i = run.sim
    · exact hi ▸ copy
    · exact (others i hi).toCopy

/-- The ids under which the second world knows the work of the first; the failures that actions gave
themselves are those that stand in the journal of `m`. -/
def Naming.upTo (ids : Fin n → Renumbering) (m : Machine n) : Naming n :=
  ⟨ids, fun f => .failed f ∈ m.world.journal⟩

/-- What can be seen of the worlds of two machines is the same, but for the ids. -/
structure Agrees (ρs : Naming n) (past past' : List (Record n)) (m u : Machine n) :
    Prop where
  /-- From `past` and `past'` on the same actions have started, in the same order and at the same
  instants, and their operations were answered alike. -/
  journal : ∃ new new', m.world.journal = past ++ new ∧ u.world.journal = past' ++ new' ∧
    Forall₂ (SameRecord ρs) new new'
  trace : ∀ i, SameTrace (ρs i) (m.world.sim i).trace (u.world.sim i).trace
  processed : ∀ i, (u.world.sim i).processed = (m.world.sim i).processed
  /-- When a request was answered, the clocks, the flags, the counts and the stalled sources are the
  same; the number of events that wait may differ. -/
  status : ∀ o, m.result? = some o → ∀ i,
    { (u.world.sim i).status with
        pending := (m.world.sim i).status.pending, idle := (m.world.sim i).status.idle } =
      (m.world.sim i).status

/-- When the first has answered a request to the simulation `i`, the second has given the same
answer. -/
def SameResult (ρs : Naming n) (i : Fin n) (m u : Machine n) : Prop :=
  ∀ o, m.result? = some o → ∃ o', u.result? = some o' ∧ SameOutcome ρs i o o'

theorem Resembles.agrees (worlds : Resembles ρs past past' m.world u.world) :
    Agrees ρs past past' m u where
  journal := worlds.journal
  trace i := (worlds.level i).trace
  processed i := (worlds.level i).processed
  status _ _ i := Resembles.status (worlds.level i)

theorem Follows.agrees (follows : Follows ρs past past' j m u) : Agrees ρs past past' m u where
  journal := follows.copies.1.journal
  trace i := (follows.copies.2 i).trace
  processed i := (follows.copies.2 i).processed
  status _ rested i := by
    obtain ⟨-, -, -, hworlds⟩ := follows.rested rested
    exact Resembles.status (hworlds.level i)

theorem Follows.sameResult (follows : Follows ρs past past' j m u) : SameResult ρs j m u :=
  fun _ rested => (follows.rested rested).imp fun _ h => ⟨h.1, h.2.1⟩

/-- **The second machine follows the first through every session.** -/
theorem Follows.session (follows : Follows ρs past past' j m u) (hist : History h m)
    {requests : List (Request n)} {later : List (Fin n × Happening n)}
    (session : Session m requests later m') (known : Known ρs later)
    (given : ∀ f, .failed f ∈ m'.world.journal → ρs.given f) :
    ∃ later' u', Session u requests later' u' ∧
      Follows ρs past past' (askedLast j requests) m' u' := by
  induction session generalizing h j u with
  | refl m => exact ⟨[], u, .refl u, follows⟩
  | step m rest ih =>
    obtain ⟨hfirst, hrest⟩ := known_append.1 known
    rcases follows.step hist hfirst fun f hmem => given f (rest.journal.subset hmem) with
      hstays | hgoes
    · exact ih hstays (hist.next (.step m)) hrest given
    · obtain ⟨later', u', hsession, hfollows⟩ := ih hgoes (hist.next (.step m)) hrest given
      exact ⟨_, u', .step u hsession, hfollows⟩
  | request m rested request rest ih =>
    obtain ⟨-, hrest⟩ := known_append.1 known
    obtain ⟨o', hrested, -, hworlds⟩ := follows.rested rested
    obtain ⟨later', u', hsession, hfollows⟩ :=
      ih (Follows.request hworlds request) (hist.next (.request m _ request rested)) hrest given
    exact ⟨_, u', .request u hrested request hsession, hfollows⟩

/-- When both machines have answered all requests, the second follows the first through every
session. -/
theorem Resembles.session (worlds : Resembles ρs past past' m.world u.world) (hist : History h m)
    (rested : m.result?.isSome) (rested' : u.result?.isSome) {requests : List (Request n)}
    {later : List (Fin n × Happening n)} (session : Session m requests later m')
    (known : Known ρs later) (given : ∀ f, .failed f ∈ m'.world.journal → ρs.given f) :
    ∃ later' u', Session u requests later' u' ∧ Agrees ρs past past' m' u' ∧
      ∀ request more, requests = request :: more →
        SameResult ρs (askedLast request.sim more) m' u' := by
  induction session generalizing h with
  | refl m => exact ⟨[], u, .refl u, worlds.agrees, fun request more hnone => by cases hnone⟩
  | step m rest ih =>
    obtain ⟨o, hresult⟩ := Option.isSome_iff_exists.1 rested
    have hstays : m.step = m := Machine.step_of_result? hresult
    refine ih ?_ (hist.next (.step m)) ?_
      (known_append.1 known).2 given
    · rw [hstays]
      exact worlds
    · rw [hstays]
      exact rested
  | request m result request rest ih =>
    obtain ⟨o', hresult'⟩ := Option.isSome_iff_exists.1 rested'
    obtain ⟨later', u', hsession, hfollows⟩ := (Follows.request worlds request).session
      (hist.next (.request m _ request result)) rest
      (known_append.1 known).2 given
    refine ⟨_, u', .request u hresult' request hsession, hfollows.agrees, ?_⟩
    rintro request' more ⟨⟩
    exact hfollows.sameResult

end Runs

end StallSim
