import StallSim.Proofs.Failing
import StallSim.Proofs.Shares

/-!
# The machine of one source follows the machine of several

While an action of another source is at work, or another source is replayed, the second machine
waits; else both make the same step.

* `Companion` — the second machine follows the first.
* `Fails` — the run has ended otherwise than with the number of its actions.
* `AllKeep` — every action that was accepted keeps to its source.

Principal results: `Companion.step` — one step; `Companion.run` — any number of them.
-/

set_option autoImplicit false

namespace StallSim

open List (Forall₂)

variable {n : Nat}

/-- The run has ended, but not with the number of actions it has started. -/
def Fails (m : Machine 1) : Prop :=
  ∃ outcome, m.result? = some outcome ∧ ∀ k, outcome ≠ .count k

/-- Both runs are in the middle of no replay, or of replays of the source. -/
inductive TwinReplay (p : Pairing) (source : Source) :
    Option (Replay n) → Option (Replay n) → Prop where
  | idle : TwinReplay p source none none
  | replaying (release : Instant) {timers timers' : Agenda Origin (Work (Action n))}
      (held : Forall₂ (TwinTimer p source) timers.toList timers'.toList) :
      TwinReplay p source (some ⟨source, release, timers⟩) (some ⟨source, release, timers'⟩)

theorem TwinReplay.mono {p q : Pairing} {source : Source} (le : p ≤ q)
    {replay replay' : Option (Replay n)} (replays : TwinReplay p source replay replay') :
    TwinReplay q source replay replay' := by
  cases replays with
  | idle => exact .idle
  | replaying release held => exact .replaying release (held.imp fun _ _ h => h.mono le)

/-- No run has a limit. -/
def Unlimited (run run' : Run n) : Prop := run.limit = none ∧ run'.limit = none

section Machines

variable (owner : String → Source) (calls : Source → String → Prop) (source : Source)

/-- The second machine follows the first as far as the source goes. -/
inductive Companion : Machine 1 → Machine 1 → Prop where
  /-- Both are between two actions, and the source is not replayed. -/
  | away {p : Pairing} {w v : World 1} {run run' : Run 1}
      (shares : Shares owner calls p source w v)
      (beside : Alongside p source (w.sim lone) (v.sim lone))
      (other : ∀ r, run.replay = some r → r.source ≠ source) (idle : run'.replay = none)
      (unlimited : Unlimited run run') :
      Companion ⟨w, .between run, []⟩ ⟨v, .between run', []⟩
  /-- The first is within an action of another source. -/
  | astray {p : Pairing} {w v : World 1} {run run' : Run 1} {work : Work (Action 1)}
      {script : Script 1} (shares : Shares owner calls p source w v)
      (beside : Alongside p source (w.sim lone).endAction (v.sim lone))
      (ne : work.source ≠ source) (keeps : script.KeepsTo owner calls work.source)
      (other : ∀ r, run.replay = some r → r.source ≠ source) (idle : run'.replay = none)
      (unlimited : Unlimited run run') :
      Companion ⟨w, .within run work script, []⟩ ⟨v, .between run', []⟩
  /-- Both are in a replay of the source. -/
  | replayed {p : Pairing} {w v : World 1} {run run' : Run 1}
      (shares : Shares owner calls p source w v)
      (abreast : Abreast p source (w.sim lone) (v.sim lone)) (release : Instant)
      {timers timers' : Agenda Origin (Work (Action 1))}
      (held : Forall₂ (TwinTimer p source) timers.toList timers'.toList)
      (replay : run.replay = some ⟨source, release, timers⟩)
      (replay' : run'.replay = some ⟨source, release, timers'⟩) (unlimited : Unlimited run run') :
      Companion ⟨w, .between run, []⟩ ⟨v, .between run', []⟩
  /-- Both are within an action of the source. -/
  | within {p : Pairing} {w v : World 1} {run run' : Run 1} {work work' : Work (Action 1)}
      {script : Script 1} (shares : Shares owner calls p source w v)
      (abreast : Abreast p source (w.sim lone) (v.sim lone))
      (works : TwinWork p source work work') (keeps : script.KeepsTo owner calls source)
      (replays : TwinReplay p source run.replay run'.replay) (unlimited : Unlimited run run') :
      Companion ⟨w, .within run work script, []⟩ ⟨v, .within run' work' script, []⟩
  /-- Both have ended. -/
  | ended {w v : World 1} {outcome outcome' : Outcome}
      (starts : startsOf source w.journal = startsOf source v.journal) :
      Companion ⟨w, .returned outcome, []⟩ ⟨v, .returned outcome', []⟩

end Machines

section Steps

variable {owner : String → Source} {calls : Source → String → Prop} {source : Source}
  {p : Pairing} {w v : World 1} {run run' : Run 1} {work work' : Work (Action 1)}

/-! ### Within an action -/

theorem fails_abort (w : World 1) (run : Run 1) (work : Work (Action 1)) (failure : Failure) :
    Fails (Machine.abort w run work failure []) :=
  ⟨_, rfl, fun _ h => by cases h⟩

theorem fails_settle {operation : Operation 1} {handling : Handling} {outcome : Outcome}
    {failure : Failure} (failed : handling.failure? outcome = some failure) (rest : Script 1) :
    Fails (Machine.settle w run work operation handling rest outcome []) := by
  rw [settle_of_failure failed]
  exact fails_abort _ _ _ _

/-- A step of an action of another source, while the second machine waits. -/
theorem companion_astray (shares : Shares owner calls p source w v)
    (beside : Alongside p source (w.sim lone).endAction (v.sim lone)) (ne : work.source ≠ source)
    {script : Script 1} (keeps : script.KeepsTo owner calls work.source)
    (other : ∀ r, run.replay = some r → r.source ≠ source) (idle : run'.replay = none)
    (unlimited : Unlimited run run') :
    Fails (Machine.stepAction w run work script []) ∨
      Companion owner calls source (Machine.stepAction w run work script [])
        ⟨v, .between run', []⟩ := by
  have hanswered : ∀ {w' : World 1} {operation : Operation 1} {handling : Handling}
      {rest : Script 1} {outcome : Outcome}, rest.KeepsTo owner calls work.source →
      Shares owner calls p source w' v →
      Alongside p source (w'.sim lone).endAction (v.sim lone) →
      Fails (Machine.settle w' run work operation handling rest outcome []) ∨
        Companion owner calls source
          (Machine.settle w' run work operation handling rest outcome [])
          ⟨v, .between run', []⟩ := by
    intro w' operation handling rest outcome hrest hshares hbeside
    cases hfailure : handling.failure? outcome with
    | some failure => exact .inl (fails_settle hfailure rest)
    | none =>
      rw [settle_of_success hfailure]
      exact .inr (.astray (hshares.note rfl) hbeside ne hrest other idle unlimited)
  cases script with
  | done =>
    have hsim : run.sim = lone := Subsingleton.elim _ _
    have hnext : (w.sim lone).nextId ≤ (w.sim lone).endAction.nextId := Nat.le_refl _
    right
    refine .away (p := p) ?_ ?_ other idle unlimited
    · simp only [World.update, hsim]
      exact shares.setSim lone hnext
    · simp only [World.update, hsim, sim_setSim_lone]
      exact beside
  | submit submission body handling rest =>
    have hfresh : ∀ b, ¬ p.twin (w.sim lone).freshId b :=
      fun b twin => Nat.lt_irrefl _ (beside.issued _ _ twin).1
    obtain ⟨hshares, honward, -⟩ := elsewhere_submit shares hfresh keeps.1 ne body
    exact hanswered keeps.2.2 hshares (beside.elsewhere honward.endAction)
  | perform i command handling rest =>
    obtain ⟨w', outcome, hcommand, hshares, hbeside⟩ :=
      elsewhere_command shares beside keeps.1 ne i
    simp only [Machine.stepAction, hcommand]
    exact hanswered keeps.2 hshares hbeside
  | call name rest =>
    exact .inr (.astray shares beside ne ((shares.keeps _ _ keeps.1).append keeps.2) other idle
      unlimited)
  | whenBefore i limit body rest =>
    right
    refine .astray shares beside ne ?_ other idle unlimited
    split
    · exact keeps.1.append keeps.2
    · exact keeps.2
  | fail failure context => exact .inl (fails_abort _ _ _ _)
  | panic message => exact .inl ⟨_, rfl, fun _ h => by cases h⟩

/-- A step of an action of the source, made by both. -/
theorem companion_within (shares : Shares owner calls p source w v)
    (abreast : Abreast p source (w.sim lone) (v.sim lone)) (works : TwinWork p source work work')
    {script : Script 1} (keeps : script.KeepsTo owner calls source)
    (replays : TwinReplay p source run.replay run'.replay) (unlimited : Unlimited run run') :
    Fails (Machine.stepAction w run work script []) ∨
      Companion owner calls source (Machine.stepAction w run work script [])
        (Machine.stepAction v run' work' script []) := by
  have hanswered : ∀ {a b : World 1 × Outcome} {operation : Operation 1} {handling : Handling}
      {rest : Script 1}, rest.KeepsTo owner calls source →
      Together owner calls p source a b →
      Fails (Machine.settle a.1 run work operation handling rest a.2 []) ∨
        Companion owner calls source
          (Machine.settle a.1 run work operation handling rest a.2 [])
          (Machine.settle b.1 run' work' operation handling rest b.2 []) := by
    intro a b operation handling rest hrest htogether
    obtain ⟨⟨q, hle, hshares, habreast⟩, herror⟩ := htogether
    cases hfailure : handling.failure? a.2 with
    | some failure => exact .inl (fails_settle hfailure rest)
    | none =>
      rw [settle_of_success hfailure, settle_of_success ((failure?_congr herror).trans hfailure)]
      exact .inr (.within (hshares.note_both rfl) habreast (works.mono hle) hrest
        (replays.mono hle) unlimited)
  cases script with
  | done =>
    have hsim : run.sim = lone := Subsingleton.elim _ _
    have hsim' : run'.sim = lone := Subsingleton.elim _ _
    have hnext : (w.sim lone).nextId ≤ (w.sim lone).endAction.nextId := Nat.le_refl _
    have hshares := (shares.setSim lone hnext).setSim_right lone (v.sim lone).endAction
    have habreast : Abreast p source ((w.setSim lone (w.sim lone).endAction).sim lone)
        ((v.setSim lone (v.sim lone).endAction).sim lone) := by
      rw [sim_setSim_lone, sim_setSim_lone]
      exact abreast.endAction
    right
    simp only [Machine.stepAction, World.update, hsim, hsim']
    generalize hr : run.replay = r at replays
    generalize hr' : run'.replay = r' at replays
    cases replays with
    | idle =>
      exact .away hshares habreast.toAlongside (fun r h => by cases hr.symm.trans h) hr' unlimited
    | replaying release held => exact .replayed hshares habreast release held hr hr' unlimited
  | submit submission body handling rest =>
    exact hanswered keeps.2.2 (together_submit shares abreast keeps.1 body)
  | perform i command handling rest =>
    obtain ⟨w', v', outcome, outcome', hw, hv, htogether⟩ :=
      together_command shares abreast keeps.1 i
    simp only [Machine.stepAction, hw, hv]
    exact hanswered keeps.2 htogether
  | call name rest =>
    have hprocedure : v.procedure name = w.procedure name := by
      rw [World.procedure, World.procedure, shares.procedures]
    right
    simp only [Machine.stepAction, hprocedure]
    exact .within shares abreast works ((shares.keeps _ _ keeps.1).append keeps.2) replays unlimited
  | whenBefore i limit body rest =>
    obtain rfl : i = lone := Subsingleton.elim _ _
    right
    simp only [Machine.stepAction, abreast.now]
    refine .within shares abreast works ?_ replays unlimited
    split
    · exact keeps.1.append keeps.2
    · exact keeps.2
  | fail failure context => exact .inl (fails_abort _ _ _ _)
  | panic message => exact .inl ⟨_, rfl, fun _ h => by cases h⟩

/-! ### Between two actions -/

/-- The simulation went on elsewhere, and no action started. -/
theorem companion_stays (run : Run 1) (shares : Shares owner calls p source w v)
    (beside : Alongside p source (w.sim lone) (v.sim lone)) {s : Simulation (Action 1)}
    (onward : Elsewhere source (w.sim lone) s)
    (other : ∀ r, run.replay = some r → r.source ≠ source) (idle : run'.replay = none)
    (unlimited : Unlimited run run') (i : Fin 1) :
    Companion owner calls source ⟨w.setSim i s, .between run, []⟩ ⟨v, .between run', []⟩ := by
  refine .away (p := p) (shares.setSim i onward.nextId) ?_ other idle unlimited
  rw [sim_setSim_lone]
  exact beside.elsewhere onward

/-- An action of another source starts. -/
theorem companion_strays (shares : Shares owner calls p source w v)
    (beside : Alongside p source (w.sim lone) (v.sim lone)) {s : Simulation (Action 1)}
    (onward : Elsewhere source (w.sim lone) s) (ne : work.source ≠ source)
    (keeps : work.action.script.KeepsTo owner calls work.source)
    (other : ∀ r, run.replay = some r → r.source ≠ source) (idle : run'.replay = none)
    (unlimited : Unlimited run run') (i : Fin 1) :
    Companion owner calls source (Machine.enter (w.setSim i s) run work [])
      ⟨v, .between run', []⟩ := by
  obtain rfl : i = run.sim := Subsingleton.elim _ _
  have hnext : (w.sim lone).nextId ≤ (s.startAction work).nextId := onward.nextId
  have hquiet : ∀ active depth,
      startsOf source [Record.started run.sim work s.now active depth] = [] := by
    intro active depth
    simp only [startsOf, List.filterMap_cons, if_neg ne, List.filterMap_nil]
  rw [enter_eq]
  refine .astray ((shares.setSim run.sim hnext).note (hquiet _ _)) ?_ ne keeps other idle unlimited
  rw [sim_note_setSim_lone]
  exact { beside.elsewhere onward with }

/-- An action of the source starts in both. -/
theorem companion_starts (shares : Shares owner calls p source w v)
    {s t : Simulation (Action 1)} (abreast : Abreast p source s t)
    (nextId : (w.sim lone).nextId ≤ s.nextId) (works : TwinWork p source work work')
    (keeps : work.action.script.KeepsTo owner calls work.source)
    (replays : TwinReplay p source run.replay run'.replay) (unlimited : Unlimited run run')
    (i j : Fin 1) :
    Companion owner calls source (Machine.enter (w.setSim i s) run work [])
      (Machine.enter (v.setSim j t) run' work' []) := by
  obtain rfl : i = run.sim := Subsingleton.elim _ _
  obtain rfl : j = run'.sim := Subsingleton.elim _ _
  have hnext : (w.sim lone).nextId ≤ (s.startAction work).nextId := nextId
  have hsame : ∀ active active' depth depth',
      startsOf source [Record.started run.sim work s.now active depth] =
        startsOf source [Record.started run'.sim work' t.now active' depth'] := by
    intro active active' depth depth'
    cases works
    simp only [startsOf, List.filterMap_cons, abreast.now]
  have hscript : work'.action.script = work.action.script := by
    cases works
    rfl
  rw [enter_eq, enter_eq, hscript]
  refine .within (((shares.setSim run.sim hnext).setSim_right run'.sim
    (t.startAction work')).note_both (hsame _ _ _ _)) ?_ works (works.source_eq.1 ▸ keeps) replays
    unlimited
  rw [sim_note_setSim_lone, sim_note_setSim_lone]
  exact abreast.startAction works

/-- A run without a limit, and not in the middle of a replay, goes on after what taking an event
comes to. -/
def afterDispatch (w : World n) (run : Run n) : Simulation.Dispatch (Action n) → Machine n
  | .exhausted =>
    ⟨w.setSim run.sim (w.sim run.sim).endRun,
      .returned (.count ((w.sim run.sim).processed - run.start)), []⟩
  | .settled s => ⟨w.setSim run.sim s, .between run, []⟩
  | .start work s => Machine.enter (w.setSim run.sim s) run work []
  | .replay source stall s =>
    ⟨w.setSim run.sim s,
      .between { run with replay := some ⟨source, stall.release, stall.timers⟩ }, []⟩

theorem stepRun_eq_afterDispatch {w : World n} {run : Run n} (idle : run.replay = none)
    (unlimited : run.limit = none) :
    Machine.stepRun w run [] =
      afterDispatch w run
        (if (w.sim run.sim).isStopped then .exhausted else (w.sim run.sim).dispatch) := by
  have hlimit : ∀ started : Nat, run.limit.any (fun limit => decide (limit ≤ started)) = false := by
    intro started
    rw [unlimited, Option.any_none]
  unfold Machine.stepRun
  simp only [idle, hlimit, Bool.false_or]
  by_cases hstopped : (w.sim run.sim).isStopped = true
  · rw [if_pos hstopped, if_pos hstopped]
    rfl
  · rw [if_neg hstopped, if_neg hstopped]
    cases (w.sim run.sim).dispatch <;> rfl

/-- The replay of another source goes on or ends, while the second machine waits. -/
theorem companion_replays_elsewhere {log : Log 1} {r : Replay 1}
    (course : Course log ⟨w.sim lone, some r⟩) (shares : Shares owner calls p source w v)
    (beside : Alongside p source (w.sim lone) (v.sim lone)) (replay : run.replay = some r)
    (ne : r.source ≠ source) (idle : run'.replay = none) (unlimited : Unlimited run run')
    (keep : ∀ f ∈ (Machine.stepRun w run []).frames,
      f.2.action.script.KeepsTo owner calls f.2.source) :
    Companion owner calls source (Machine.stepRun w run []) ⟨v, .between run', []⟩ := by
  have hsim : run.sim = lone := Subsingleton.elim _ _
  have hown := course.schedule.2.own r.source
  have hother : ∀ r', run.replay = some r' → r'.source ≠ source := by
    intro r' hr'
    cases replay.symm.trans hr'
    exact ne
  unfold Machine.stepRun at keep ⊢
  simp only [replay] at keep ⊢
  rw [hsim] at keep ⊢
  cases hnext : (w.sim lone).nextReplayed r.source with
  | none =>
    have hmine := (course.chronicle.replay r rfl).2
    have honward := Elsewhere.closeReplay hown ne r.release fun e he => (hmine e he).1
    exact companion_stays ⟨lone, run.start, run.limit, none⟩ shares beside honward
      (fun _ h => by cases h) idle ⟨unlimited.1, unlimited.2⟩ lone
  | some found =>
    obtain ⟨work, s⟩ := found
    obtain ⟨hne, honward⟩ := Elsewhere.nextReplayed hown ne hnext
    simp only [hnext] at keep ⊢
    split
    · exact companion_stays run shares beside honward hother idle unlimited lone
    · rename_i hlive
      rw [if_neg hlive] at keep
      exact companion_strays shares beside honward hne (keep (run, work) List.mem_cons_self)
        hother idle unlimited lone

/-- The first machine takes an event of another source, while the second waits. -/
theorem companion_dispatches_elsewhere {d : Simulation.Dispatch (Action 1)}
    (shares : Shares owner calls p source w v)
    (beside : Alongside p source (w.sim lone) (v.sim lone))
    (dispatched : Elsewhere.Dispatched source (w.sim lone) d) (idle : run.replay = none)
    (idle' : run'.replay = none) (unlimited : Unlimited run run')
    (keep : ∀ f ∈ (afterDispatch w run d).frames,
      f.2.action.script.KeepsTo owner calls f.2.source) :
    Companion owner calls source (afterDispatch w run d) ⟨v, .between run', []⟩ := by
  have hother : ∀ r, run.replay = some r → r.source ≠ source := by
    intro r hr
    cases idle.symm.trans hr
  cases dispatched with
  | settled onward => exact companion_stays run shares beside onward hother idle' unlimited run.sim
  | @start work s ne onward =>
    exact companion_strays shares beside onward ne (keep (run, work) List.mem_cons_self) hother
      idle' unlimited run.sim
  | @replay other stall s ne onward =>
    refine companion_stays { run with replay := some ⟨other, stall.release, stall.timers⟩ } shares
      beside onward ?_ idle' ⟨unlimited.1, unlimited.2⟩ run.sim
    rintro r ⟨⟩
    exact ne

/-- Both machines take an event of the source. -/
theorem companion_dispatches {d e : Simulation.Dispatch (Action 1)}
    (shares : Shares owner calls p source w v) (dispatches : TwinDispatch p source d e)
    (ids : ∀ new st, d.after = some (new, st) → (w.sim lone).nextId ≤ st.sim.nextId)
    (idle : run.replay = none) (idle' : run'.replay = none) (unlimited : Unlimited run run')
    (keep : ∀ f ∈ (afterDispatch w run d).frames,
      f.2.action.script.KeepsTo owner calls f.2.source) :
    Companion owner calls source (afterDispatch w run d) (afterDispatch v run' e) := by
  cases dispatches with
  | @settled s t later =>
    refine .away (p := p) ((shares.setSim run.sim (ids _ _ rfl)).setSim_right run'.sim t) ?_
      (fun r hr => by cases idle.symm.trans hr) idle' unlimited
    rw [sim_setSim_lone, sim_setSim_lone]
    exact later
  | @start work work' works s t abreast =>
    refine companion_starts shares abreast (ids _ _ rfl) works
      (keep (run, work) List.mem_cons_self) ?_ unlimited run.sim run'.sim
    rw [idle, idle']
    exact .idle
  | @replay release immediate immediate' timers timers' held s t abreast =>
    refine .replayed (p := p) ((shares.setSim run.sim (ids _ _ rfl)).setSim_right run'.sim t) ?_
      release held rfl rfl ⟨unlimited.1, unlimited.2⟩
    rw [sim_setSim_lone, sim_setSim_lone]
    exact abreast

/-- A step between two actions while the source is not replayed: the second machine waits, or it
makes the same step. -/
theorem companion_away {log : Log 1} (course : Course log ⟨w.sim lone, run.replay⟩)
    (shares : Shares owner calls p source w v)
    (beside : Alongside p source (w.sim lone) (v.sim lone))
    (other : ∀ r, run.replay = some r → r.source ≠ source) (idle' : run'.replay = none)
    (unlimited : Unlimited run run')
    (keep : ∀ f ∈ (Machine.stepRun w run []).frames,
      f.2.action.script.KeepsTo owner calls f.2.source) :
    Companion owner calls source (Machine.stepRun w run []) ⟨v, .between run', []⟩ ∨
      Companion owner calls source (Machine.stepRun w run []) (Machine.stepRun v run' []) := by
  have hsim : run.sim = lone := Subsingleton.elim _ _
  have hsim' : run'.sim = lone := Subsingleton.elim _ _
  cases idle : run.replay with
  | some r =>
    rw [idle] at course
    exact .inl (companion_replays_elsewhere course shares beside idle (other r idle) idle' unlimited
      keep)
  | none =>
    rw [idle] at course
    have hflags := beside.flags
    simp only [Simulation.flags, Prod.mk.injEq] at hflags
    have hstopped : (v.sim lone).isStopped = (w.sim lone).isStopped := by
      rw [Simulation.isStopped, Simulation.isStopped, hflags.1, hflags.2.1]
    have hended : Companion owner calls source (afterDispatch w run .exhausted)
        (afterDispatch v run' .exhausted) := .ended shares.starts
    rw [stepRun_eq_afterDispatch idle unlimited.1] at keep ⊢
    rw [stepRun_eq_afterDispatch idle' unlimited.2, hsim', hstopped]
    rw [hsim] at keep ⊢
    split
    · exact .inr hended
    · rename_i hgoing
      rw [if_neg hgoing] at keep
      cases hnext : (w.sim lone).calendar.next? with
      | none =>
        right
        simp only [Simulation.dispatch, hnext, beside.exhausted hnext]
        exact hended
      | some taken =>
        obtain ⟨⟨turn, event⟩, rest⟩ := taken
        by_cases hmine : event.source = source
        · exact .inr (companion_dispatches shares
            (beside.dispatch course.schedule.1 hnext hmine)
            (fun _ _ after => nextId_le_of_move (move_dispatch log after)) idle idle' unlimited
            keep)
        · exact .inl (companion_dispatches_elsewhere shares beside
            (Elsewhere.dispatch hnext hmine) idle idle' unlimited keep)

/-- A step of a replay of the source, made by both. -/
theorem companion_replayed (shares : Shares owner calls p source w v)
    (abreast : Abreast p source (w.sim lone) (v.sim lone)) {release : Instant}
    {timers timers' : Agenda Origin (Work (Action 1))}
    (held : Forall₂ (TwinTimer p source) timers.toList timers'.toList)
    (replay : run.replay = some ⟨source, release, timers⟩)
    (replay' : run'.replay = some ⟨source, release, timers'⟩) (unlimited : Unlimited run run')
    (keep : ∀ f ∈ (Machine.stepRun w run []).frames,
      f.2.action.script.KeepsTo owner calls f.2.source) :
    Companion owner calls source (Machine.stepRun w run []) (Machine.stepRun v run' []) := by
  have hsim : run.sim = lone := Subsingleton.elim _ _
  have hsim' : run'.sim = lone := Subsingleton.elim _ _
  have hreplayed := abreast.nextReplayed
  have hids : ∀ work s, (w.sim lone).nextReplayed source = some (work, s) →
      (w.sim lone).nextId ≤ s.nextId := by
    intro work s hnext
    have hmove := move_nextReplayed (r := ⟨source, release, timers⟩) [] hnext
    split at hmove <;> exact nextId_le_of_move hmove
  unfold Machine.stepRun at keep ⊢
  simp only [replay, replay'] at keep ⊢
  rw [hsim] at keep ⊢
  rw [hsim']
  generalize (w.sim lone).nextReplayed source = a at hreplayed hids keep ⊢
  generalize (v.sim lone).nextReplayed source = b at hreplayed ⊢
  cases hreplayed with
  | exhausted =>
    have hclosed := abreast.closeReplay release held
    have hmove : Move [] ⟨w.sim lone, some ⟨source, release, timers⟩⟩ []
        ⟨(w.sim lone).closeReplay source release timers, none⟩ := .close _ _
    have hnext := nextId_le_of_move hmove
    refine .away (p := p) ((shares.setSim lone hnext).setSim_right lone _) ?_
      (fun _ h => by cases h) rfl ⟨unlimited.1, unlimited.2⟩
    rw [sim_setSim_lone, sim_setSim_lone]
    exact hclosed.toAlongside
  | @next work work' works s t later =>
    dsimp only at keep ⊢
    rw [abreast.cancelled _ _ works.twin]
    split
    · refine .replayed (p := p) ((shares.setSim lone (hids _ _ rfl)).setSim_right lone t) ?_ release
        held replay replay' unlimited
      rw [sim_setSim_lone, sim_setSim_lone]
      exact later
    · rename_i hlive
      rw [abreast.cancelled _ _ works.twin, if_neg hlive] at keep
      refine companion_starts shares later (hids _ _ rfl) works
        (keep (run, work) List.mem_cons_self) ?_ unlimited lone lone
      rw [replay, replay']
      exact .replaying release held

end Steps

/-! ### Steps and runs -/

/-- Every accepted action keeps to its source. -/
def AllKeep (owner : String → Source) (calls : Source → String → Prop)
    (h : List (Fin n × Happening n)) : Prop :=
  ∀ i, ∀ ticket ∈ (logOf i h).accepted,
    ticket.work.action.script.KeepsTo owner calls ticket.work.source

section Runs

variable {owner : String → Source} {calls : Source → String → Prop} {source : Source}
  {h new : List (Fin 1 × Happening 1)} {m u : Machine 1}

/-- What a request makes accepted is the action that it hands in. -/
theorem accepted_of_request {request : Request n} {w : World n} {i : Fin n} {ticket : Ticket n}
    (mem : (i, .accepted ticket) ∈ request.happenings w) :
    ∃ submission body now id, request = .submit submission body ∧
      ticket = submission.ticket body now id := by
  cases request with
  | submit submission body =>
    refine ⟨submission, body, ?_⟩
    dsimp only [Request.happenings, World.acceptance] at mem
    split at mem
    · cases List.mem_singleton.1 mem
      exact ⟨_, _, rfl, rfl⟩
    · cases mem
  | command j command =>
    rcases mem_happenings_request mem with ⟨_, -⟩ | ⟨_, _, _, _, _, -, -, hx, -⟩
    · cases command with
      | stall source release =>
        dsimp only [Request.happenings] at mem
        rcases w.stall_cases j source release with ⟨-, hnew⟩ | ⟨_, _, -, hnew, -⟩ <;>
          rw [hnew] at mem <;> simp [tag] at mem
      | _ => cases mem
    · cases hx

theorem AllKeep.append (keep : AllKeep owner calls h)
    (accepted : ∀ i ticket, (i, .accepted ticket) ∈ new →
      ticket.work.action.script.KeepsTo owner calls ticket.work.source) :
    AllKeep owner calls (h ++ new) := by
  intro i ticket hmem
  rw [logOf_append, Log.accepted_append] at hmem
  rcases List.mem_append.1 hmem with hmem | hmem
  · exact keep i ticket hmem
  · obtain ⟨x, hx, hticket⟩ := List.mem_filterMap.1 hmem
    cases x with
    | accepted ticket' =>
      cases hticket
      exact accepted i ticket (mem_logOf.1 hx)
    | _ => cases hticket

/-- An action that keeps to its source is handed in. -/
theorem AllKeep.submit (keep : AllKeep owner calls h) {submission : Submission 1} {body : Script 1}
    (keeps : body.KeepsTo owner calls submission.source) (w : World 1) :
    AllKeep owner calls (h ++ (Request.submit submission body).happenings w) := by
  refine keep.append fun i ticket hmem => ?_
  obtain ⟨_, _, now, id, hrequest, rfl⟩ := accepted_of_request hmem
  cases hrequest
  exact keeps

namespace Companion

theorem keep (companion : Companion owner calls source m u) (keep : AllKeep owner calls h) :
    AllKeep owner calls (h ++ m.happenings) := by
  refine keep.append fun i ticket hmem => ?_
  rcases mem_happenings hmem with ⟨request, hcall, hrequest⟩ | ⟨_, _, hx⟩ | ⟨hx, -⟩
  · obtain ⟨submission, body, now, id, rfl, rfl⟩ := accepted_of_request hrequest
    -- the action at work hands in the work of its source
    have hkeeps : ∀ {other : Source} {run : Run 1} {work : Work (Action 1)} {script : Script 1}
        {w : World 1}, script.KeepsTo owner calls other →
        Machine.call? ⟨w, .within run work script, []⟩ = some (.submit submission body) →
        body.KeepsTo owner calls submission.source := by
      intro other run work script w keeps hcall
      cases script <;> cases hcall
      exact keeps.1.source_eq.symm ▸ keeps.2.1
    cases companion with
    | astray shares beside ne keeps other idle unlimited => exact hkeeps keeps hcall
    | within shares abreast works keeps replays unlimited => exact hkeeps keeps hcall
    | _ => cases hcall
  · cases hx
  · cases hx

/-- **One step of the first machine is a step of the second, or none**, unless it ends the run
without success. -/
theorem step (companion : Companion owner calls source m u) (hist : History h m)
    (keep : AllKeep owner calls h) :
    Fails m.step ∨ Companion owner calls source m.step u ∨
      Companion owner calls source m.step u.step := by
  have hstarted : ∀ f ∈ m.step.frames, f.2.action.script.KeepsTo owner calls f.2.source := by
    intro f hf
    obtain ⟨ticket, hmem, hwork⟩ := accepted_of_frame (hist.next (.step m)) hf
    exact hwork ▸ companion.keep keep f.1.sim ticket hmem
  have hcourse := hist.course lone
  cases companion with
  | @away p w v run run' shares beside other idle unlimited =>
    have hsim : run.sim = lone := Subsingleton.elim _ _
    have hstanding : Machine.standing ⟨w, .between run, []⟩ lone = ⟨w.sim lone, run.replay⟩ := by
      simp only [Machine.standing, Machine.runs, replayIn, if_pos hsim]
    rw [hstanding] at hcourse
    exact .inr (companion_away hcourse shares beside other idle unlimited hstarted)
  | astray shares beside ne keeps other idle unlimited =>
    exact (companion_astray shares beside ne keeps other idle unlimited).imp_right .inl
  | replayed shares abreast release held replay replay' unlimited =>
    exact .inr (.inr (companion_replayed shares abreast held replay replay' unlimited hstarted))
  | within shares abreast works keeps replays unlimited =>
    exact (companion_within shares abreast works keeps replays unlimited).imp_right .inr
  | ended starts => exact .inr (.inl (.ended starts))

/-- **The second machine follows the first to the end of its run**, unless that ends without
success. -/
theorem run (companion : Companion owner calls source m u) (hist : History h m)
    (keep : AllKeep owner calls h) (fuel : Nat) {k : Nat}
    (counted : (m.run fuel).result? = some (.count k)) :
    ∃ j, Companion owner calls source (m.run fuel) (u.run j) := by
  induction fuel generalizing h m u with
  | zero => exact ⟨0, companion⟩
  | succ fuel ih =>
    rw [Machine.run] at counted ⊢
    split
    · exact ⟨0, companion⟩
    · rename_i hopen
      rw [if_neg hopen] at counted
      rcases companion.step hist keep with ⟨outcome, hresult, hfails⟩ | hstays | hgoes
      · rw [Machine.run_of_result? hresult, hresult] at counted
        cases counted
        exact absurd rfl (hfails k)
      · exact ih hstays (hist.next (.step m)) (companion.keep keep) counted
      · obtain ⟨j, hj⟩ := ih hgoes (hist.next (.step m)) (companion.keep keep) counted
        refine ⟨j + 1, ?_⟩
        have hrun : u.run (j + 1) = u.step.run j := by
          rw [Machine.run]
          cases hresult : u.result? with
          | none => rfl
          | some outcome =>
            rw [Machine.step_of_result? hresult, Machine.run_of_result? hresult]
            rfl
        exact hrun ▸ hj

/-- When the first has come to its end, so has the second. -/
theorem rested (companion : Companion owner calls source m u) {outcome : Outcome}
    (result : m.result? = some outcome) :
    u.result?.isSome = true ∧
      startsOf source m.world.journal = startsOf source u.world.journal := by
  cases companion with
  | ended starts => exact ⟨rfl, starts⟩
  | _ => cases result

end Companion

end Runs

end StallSim
