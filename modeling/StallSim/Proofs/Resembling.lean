import StallSim.Proofs.Copies

/-!
# Worlds that resemble each other

Each simulation of one world is copied by that of another, and the handles, the answers and the
entries of the journal are the same but for the ids.  An operation of an action is carried out by
both, and is answered alike.

* `Naming` — the ids under which the second world knows the work of the first, and the failures that
  actions give themselves.
* `SameError`, `SameFailure`, `SameOutcome`, `SameRecord`, `SameHandle` — the same but for the ids.
  How much waits, and what, may differ.
* `Submission.refusal?` — why a submission is not accepted; `submit_eq_refusal` — else it waits
  where its ticket says.
* `Shared`, `Resembles` — what two worlds have in common.

Principal results: `Resembles.submit`, `Resembles.command`.
-/

set_option autoImplicit false

namespace StallSim

open List (Forall₂)

variable {n : Nat}

/-! ## Names -/

/-- How two worlds name the same things: the ids under which each simulation of the second knows the
work of the first, and the failures that actions give themselves by their scripts.  Those are the
same in both, whatever ids stand in them. -/
structure Naming (n : Nat) where
  ids : Fin n → Renumbering
  given : Failure → Prop

instance : CoeFun (Naming n) fun _ => Fin n → Renumbering := ⟨Naming.ids⟩

/-- The answer names no submission. -/
def Outcome.isAnonymous : Outcome → Bool
  | .accepted _ | .handle _ _ _ | .trace _ => false
  | .refused e => e.isAnonymous
  | _ => true

/-! ## Errors and answers -/

section Same

variable (ρs : Naming n)

/-- Some simulation knows the work `a` under the id `b`. -/
def Renames (a b : EventId) : Prop := ∃ i, (ρs i).of a = some b

mutual

/-- The same error, but for the ids of the events that failed. -/
inductive SameError : Error → Error → Prop where
  | anonymous {e : Error} (anonymous : e.isAnonymous = true) : SameError e e
  | given {f : Failure} (given : ρs.given f) {e : Error} (error : f.error? = some e) :
      SameError e e
  | actionFailed {a b : EventId} (renames : Renames ρs a b) (description : String)
      {cause cause' : Failure} (causes : SameFailure cause cause') :
      SameError (.actionFailed a description cause) (.actionFailed b description cause')

/-- The same failure, but for the ids of the events that failed. -/
inductive SameFailure : Failure → Failure → Prop where
  | given {f : Failure} (given : ρs.given f) : SameFailure f f
  | error {e e' : Error} (errors : SameError e e') : SameFailure (.error e) (.error e')
  | context (text : String) {inner inner' : Failure} (inners : SameFailure inner inner') :
      SameFailure (.context text inner) (.context text inner')

end

/-- The same answer of the simulation `i`, but for the ids, and for what is shown of the work that
waits.  Nothing is bound to a handle of work that is not known, and nobody is answered who did not
hand it in. -/
inductive SameOutcome (i : Fin n) : Outcome → Outcome → Prop where
  | anonymous {o : Outcome} (anonymous : o.isAnonymous = true) : SameOutcome i o o
  | accepted {a b : EventId} (of : (ρs i).of a = some b) :
      SameOutcome i (.accepted a) (.accepted b)
  | omitted {a : EventId} (unknown : (ρs i).of a = none) : SameOutcome i (.accepted a) .done
  | handle {a b : EventId} (renames : Renames ρs a b) (before after : Bool) :
      SameOutcome i (.handle a before after) (.handle b before after)
  | unbound {a : EventId} {j : Fin n} (unknown : (ρs j).of a = none) (before after : Bool) :
      SameOutcome i (.handle a before after) .unbound
  | status {a b : Status} (same : { b with pending := a.pending, idle := a.idle } = a) :
      SameOutcome i (.status a) (.status b)
  | source {a b : SourceView} (same : { b with deferred := a.deferred, pending := a.pending } = a) :
      SameOutcome i (.source a) (.source b)
  | pending (a b : List Pending) : SameOutcome i (.pending a) (.pending b)
  | trace {a b : Option Trace} (traces : SameTrace (ρs i) a b) :
      SameOutcome i (.trace a) (.trace b)
  /-- Two simulations may have the same trace in one world and not in the other. -/
  | flag (a b : Bool) : SameOutcome i (.flag a) (.flag b)
  | text (a b : String) : SameOutcome i (.text a) (.text b)
  | refused {e e' : Error} (errors : SameError ρs e e') :
      SameOutcome i (.refused e) (.refused e')

/-- The simulation that an operation is about. -/
def Operation.sim : Operation n → Fin n
  | .submit submission => submission.sim
  | .command i _ => i

/-- The same entry of the journal, but for the ids. -/
inductive SameRecord : Record n → Record n → Prop where
  | started (i : Fin n) {work work' : Work (Action n)} (works : SameWork (ρs i) work work')
      (time : Instant) (active : Option Source) (depth : Nat) :
      SameRecord (.started i work time active depth) (.started i work' time active depth)
  | performed (operation : Operation n) {o o' : Outcome}
      (outcomes : SameOutcome ρs operation.sim o o') :
      SameRecord (.performed operation o) (.performed operation o')
  | failed (failure : Failure) : SameRecord (.failed failure) (.failed failure)

/-- What a name is bound to: the same work, or nothing where the work is not known. -/
inductive SameHandle : Option (Handle n) → Option (Handle n) → Prop where
  | free : SameHandle none none
  | bound {i : Fin n} {a b : EventId} (of : (ρs i).of a = some b) :
      SameHandle (some ⟨i, a⟩) (some ⟨i, b⟩)
  | unknown {i : Fin n} {a : EventId} (unknown : (ρs i).of a = none) :
      SameHandle (some ⟨i, a⟩) none

end Same

section Errors

variable {ρs : Naming n} {i : Fin n}

theorem SameFailure.error? {f f' : Failure} (failures : SameFailure ρs f f') :
    Option.Rel (SameError ρs) f.error? f'.error? := by
  match failures with
  | .given hgiven =>
    cases herror : f.error? with
    | none => exact .none
    | some e => exact .some (.given hgiven herror)
  | .error errors => exact .some errors
  | .context text inners => exact inners.error?

theorem SameFailure.within {f f' : Failure} (failures : SameFailure ρs f f')
    (context : Option String) : SameFailure ρs (f.within context) (f'.within context) := by
  cases context with
  | none => exact failures
  | some text => exact .context text failures

/-- The failure of the same action is reported alike. -/
theorem SameFailure.report {f f' : Failure} (failures : SameFailure ρs f f') {a b : EventId}
    (renames : Renames ρs a b) (description : String) :
    SameError ρs (f.report a description) (f'.report b description) := by
  -- below all contexts both failures come from one error
  have hself : ∀ {e : Error}, SameError ρs e e → f.error? = some e → f'.error? = some e →
      SameError ρs (f.report a description) (f'.report b description) := by
    intro e errors hf hf'
    rw [Failure.report, Failure.report, hf, hf']
    cases e with
    | actionFailed inner text cause => exact errors
    | _ => exact .actionFailed renames description (.error errors)
  have herror := failures.error?
  generalize hf : f.error? = e at herror
  generalize hf' : f'.error? = e' at herror
  cases herror with
  | none =>
    rw [Failure.report, Failure.report, hf, hf']
    exact .actionFailed renames description failures
  | some errors =>
    cases errors with
    | anonymous anonymous => exact hself (.anonymous anonymous) hf hf'
    | given given error => exact hself (.given given error) hf hf'
    | actionFailed inner text causes =>
      rw [Failure.report, Failure.report, hf, hf']
      exact .actionFailed inner text causes

theorem SameOutcome.error? {o o' : Outcome} (outcomes : SameOutcome ρs i o o') :
    Option.Rel (SameError ρs) o.error? o'.error? := by
  cases outcomes with
  | anonymous anonymous =>
    cases o with
    | refused e => exact .some (.anonymous anonymous)
    | _ => exact .none
  | refused errors => exact .some errors
  | _ => exact .none

end Errors

/-! ## Submissions -/

/-- Why a simulation does not accept a submission. -/
def Submission.refusal? (submission : Submission n) (s : Simulation (Action n)) :
    Option Outcome :=
  let unknown : Option Outcome :=
    if s.knows submission.source then none
    else some (.refused (.unknownSource submission.source.label))
  let early (t : Instant) : Option Outcome :=
    if t < s.now then some (.refused (.tooEarly t s.now)) else none
  match submission.route with
  | .sourceAt due =>
    match due.resolve s.now with
    | some t => unknown.or (early t)
    | none => some .overflow
  | .sourceIn delay => unknown.or (early (s.now.plusSaturating delay))
  | .sourceNow => unknown
  | .directAt due =>
    match due.resolve s.now with
    | some t => (early t).or unknown
    | none => some .overflow
  | .directNow => unknown

/-- Binding a handle changes the handles only. -/
theorem frame_bindHandle (w : World n) (name : Option String) (handle : Handle n) :
    (w.bindHandle name handle).sims = w.sims ∧
      (w.bindHandle name handle).procedures = w.procedures ∧
      (w.bindHandle name handle).journal = w.journal := by
  cases name <;> exact ⟨rfl, rfl, rfl⟩

theorem get?_bindHandle (w : World n) (name : Option String) (handle : Handle n) (other : String) :
    (w.bindHandle name handle).handles.get? other =
      if name = some other then some handle else w.handles.get? other := by
  cases name with
  | none => rfl
  | some name =>
    simp only [World.bindHandle, Table.get?_set, Option.some.injEq]

/-- A submission is refused without naming another. -/
theorem isAnonymous_of_refusal? {submission : Submission n} {s : Simulation (Action n)}
    {outcome : Outcome} (refusal : submission.refusal? s = some outcome) :
    outcome.isAnonymous = true := by
  have hearly : ∀ t, ∀ o ∈ (if t < s.now then
      some (Outcome.refused (.tooEarly t s.now)) else none), o.isAnonymous = true := by
    intro t o ho
    split at ho <;> cases ho
    rfl
  have hunknown : ∀ o ∈ (if s.knows submission.source then none else
      some (Outcome.refused (.unknownSource submission.source.label))),
      o.isAnonymous = true := by
    intro o ho
    split at ho <;> cases ho
    rfl
  have hor : ∀ {a b : Option Outcome}, (∀ o ∈ a, o.isAnonymous = true) →
      (∀ o ∈ b, o.isAnonymous = true) → ∀ o ∈ a.or b, o.isAnonymous = true := by
    intro a b ha hb
    cases a with
    | none => exact hb
    | some o => exact ha
  unfold Submission.refusal? at refusal
  revert refusal
  cases submission.route with
  | sourceAt due =>
    dsimp only
    split
    · exact hor hunknown (hearly _) outcome
    · rintro ⟨⟩
      rfl
  | sourceIn delay => exact hor hunknown (hearly _) outcome
  | sourceNow => exact hunknown outcome
  | directAt due =>
    dsimp only
    split
    · exact hor (hearly _) hunknown outcome
    · rintro ⟨⟩
      rfl
  | directNow => exact hunknown outcome

/-- The clock and the sources alone decide whether a submission is accepted. -/
theorem refusal?_congr {submission : Submission n} {s t : Simulation (Action n)}
    (now : t.now = s.now) (sources : t.sources = s.sources) :
    submission.refusal? t = submission.refusal? s := by
  unfold Submission.refusal? Simulation.knows
  rw [now, sources]

/-- A submission is not accepted, or its work waits where its ticket says. -/
theorem submit_eq_refusal (w : World n) (submission : Submission n) (body : Script n) :
    w.submit submission body =
      match submission.refusal? (w.sim submission.sim) with
      | some outcome => (w, outcome)
      | none =>
        let s := w.sim submission.sim
        ((w.setSim submission.sim
            (s.issue.lodge (submission.ticket body s.now s.freshId))).bindHandle
          submission.handle ⟨submission.sim, s.freshId⟩, .accepted s.freshId) := by
  generalize hs : w.sim submission.sim = s
  unfold World.submit Submission.refusal? Submission.ticket
  cases hroute : submission.route with
  | sourceAt due =>
    simp only [hs, Route.due, Route.description, Route.isRouted]
    cases due.resolve s.now with
    | none => rfl
    | some t =>
      simp only [Simulation.submitAt]
      split
      · split <;> rfl
      · rfl
  | sourceIn delay =>
    simp only [hs, Route.due, Route.description, Route.isRouted, Simulation.submitIn,
      Simulation.submitAt]
    split
    · split <;> rfl
    · rfl
  | sourceNow =>
    simp only [hs, Route.due, Route.description, Route.isRouted, Simulation.submitNow]
    split <;> rfl
  | directAt due =>
    simp only [hs, Route.due, Route.description, Route.isRouted]
    cases due.resolve s.now with
    | none => rfl
    | some t =>
      simp only [Simulation.submitDirectAt]
      split
      · rfl
      · split <;> rfl
  | directNow =>
    simp only [hs, Route.due, Route.description, Route.isRouted, Simulation.submitDirectNow]
    split <;> rfl

/-! ## Worlds -/

section Worlds

variable (ρs : Naming n) (past past' : List (Record n))

/-- What two worlds have in common besides their simulations.  Their journals are compared from
`past` and `past'` on. -/
structure Shared (w v : World n) : Prop where
  procedures : v.procedures = w.procedures
  handles : ∀ name, SameHandle ρs (w.handles.get? name) (v.handles.get? name)
  journal : ∃ new new', w.journal = past ++ new ∧ v.journal = past' ++ new' ∧
    Forall₂ (SameRecord ρs) new new'

/-- Moreover each simulation of the first is copied by that of the second, and the clocks agree. -/
structure Resembles (w v : World n) : Prop extends Shared ρs past past' w v where
  level : ∀ i, Level (ρs i) (w.sim i) (v.sim i)

/-- Both worlds are alike after an operation on the simulation `i`, and so are the answers. -/
structure SameAnswer (i : Fin n) (a b : World n × Outcome) : Prop where
  worlds : Resembles ρs past past' a.1 b.1
  outcomes : SameOutcome ρs i a.2 b.2

/-- Both worlds are alike after a command, and they answer alike or begin the same run. -/
inductive SameReply (i : Fin n) : World n × Reply n → World n × Reply n → Prop where
  | outcome {w v : World n} (worlds : Resembles ρs past past' w v) {o o' : Outcome}
      (outcomes : SameOutcome ρs i o o') : SameReply i (w, .outcome o) (v, .outcome o')
  | run {w v : World n} (worlds : Resembles ρs past past' w v) (start : Nat)
      (limit : Option Nat) :
      SameReply i (w, .run ⟨i, start, limit, none⟩) (v, .run ⟨i, start, limit, none⟩)

end Worlds

variable {ρs : Naming n} {past past' : List (Record n)} {w v : World n} {i : Fin n}

theorem Shared.setSim (shared : Shared ρs past past' w v) (i : Fin n)
    (s t : Simulation (Action n)) : Shared ρs past past' (w.setSim i s) (v.setSim i t) :=
  ⟨shared.procedures, shared.handles, shared.journal⟩

theorem Shared.setSim_left (shared : Shared ρs past past' w v) (i : Fin n)
    (s : Simulation (Action n)) : Shared ρs past past' (w.setSim i s) v :=
  ⟨shared.procedures, shared.handles, shared.journal⟩

theorem Shared.note (shared : Shared ρs past past' w v) {r r' : Record n}
    (records : SameRecord ρs r r') : Shared ρs past past' (w.note r) (v.note r') where
  procedures := shared.procedures
  handles := shared.handles
  journal := by
    obtain ⟨new, new', hw, hv, hsame⟩ := shared.journal
    refine ⟨new ++ [r], new' ++ [r'], ?_, ?_, List.rel_append hsame (.cons records .nil)⟩
    · rw [World.note, hw, List.append_assoc]
    · rw [World.note, hv, List.append_assoc]

theorem SameHandle.set {a b : Table String (Handle n)}
    (handles : ∀ name, SameHandle ρs (a.get? name) (b.get? name)) (name : String)
    {handle handle' : Handle n} (same : SameHandle ρs (some handle) (some handle')) :
    ∀ other, SameHandle ρs ((a.set name handle).get? other) ((b.set name handle').get? other) := by
  intro other
  rw [Table.get?_set, Table.get?_set]
  split
  · exact same
  · exact handles other

/-- Other simulations are as they were. -/
theorem level_setSim {s t : Simulation (Action n)} (level : Level (ρs i) s t)
    (others : ∀ j, j ≠ i → Level (ρs j) (w.sim j) (v.sim j)) (j : Fin n) :
    Level (ρs j) ((w.setSim i s).sim j) ((v.setSim i t).sim j) := by
  rw [World.sim_setSim, World.sim_setSim]
  split
  · rename_i hij
    exact hij ▸ level
  · rename_i hij
    exact others j (Ne.symm hij)

namespace Resembles

theorem of_level (shared : Shared ρs past past' w v)
    (level : ∀ i, Level (ρs i) (w.sim i) (v.sim i)) : Resembles ρs past past' w v :=
  { shared with level := level }

theorem setSim (worlds : Resembles ρs past past' w v) {s t : Simulation (Action n)}
    (level : Level (ρs i) s t) : Resembles ρs past past' (w.setSim i s) (v.setSim i t) :=
  .of_level (worlds.toShared.setSim i s t) (level_setSim level fun j _ => worlds.level j)

theorem note (worlds : Resembles ρs past past' w v) {r r' : Record n}
    (records : SameRecord ρs r r') : Resembles ρs past past' (w.note r) (v.note r') :=
  .of_level (worlds.toShared.note records) worlds.level

theorem setSim_left (worlds : Resembles ρs past past' w v) {s : Simulation (Action n)}
    (level : Level (ρs i) s (v.sim i)) : Resembles ρs past past' (w.setSim i s) v := by
  refine .of_level (worlds.toShared.setSim_left i s) fun j => ?_
  rw [World.sim_setSim]
  split
  · rename_i hij
    exact hij ▸ level
  · exact worlds.level j

theorem bindHandle (worlds : Resembles ρs past past' w v) (name : Option String)
    {a b : EventId} (of : (ρs i).of a = some b) :
    Resembles ρs past past' (w.bindHandle name ⟨i, a⟩) (v.bindHandle name ⟨i, b⟩) := by
  cases name with
  | none => exact worlds
  | some name =>
    exact .of_level ⟨worlds.procedures, SameHandle.set worlds.handles name (.bound of),
      worlds.journal⟩ worlds.level

theorem procedure (worlds : Resembles ρs past past' w v) (name : String) :
    v.procedure name = w.procedure name := by
  rw [World.procedure, World.procedure, worlds.procedures]

/-! ## Operations -/

/-- **Both hand in the work.** -/
theorem submit (worlds : Resembles ρs past past' w v) (submission : Submission n)
    (body : Script n) :
    SameAnswer ρs past past' submission.sim (w.submit submission body)
      (v.submit submission body) := by
  have hlevel := worlds.level submission.sim
  rw [submit_eq_refusal, submit_eq_refusal, refusal?_congr hlevel.now hlevel.sources]
  cases hrefusal : submission.refusal? (w.sim submission.sim) with
  | some outcome => exact ⟨worlds, .anonymous (isAnonymous_of_refusal? hrefusal)⟩
  | none =>
    have hof := Level.of_freshId hlevel.toCopy
    have hdue := Level.due_freshId hlevel.toCopy
    have hfits : ∀ due, (ρs submission.sim).Fits (w.sim submission.sim).freshId due := by
      intro due
      cases due with
      | none => exact hdue
      | some t => exact .of_none hdue t
    dsimp only
    unfold Submission.ticket
    rw [hlevel.now]
    exact ⟨(worlds.setSim (hlevel.issue.lodge (.mk hof _ _ _) (hfits _) _)).bindHandle _ hof,
      .accepted hof⟩

theorem stall (worlds : Resembles ρs past past' w v) (i : Fin n) (source : Source)
    (release : Due) :
    SameAnswer ρs past past' i (w.stall i source release) (v.stall i source release) := by
  have hlevel := worlds.level i
  unfold World.stall
  rw [hlevel.now]
  cases release.resolve (w.sim i).now with
  | none => exact ⟨worlds, .anonymous rfl⟩
  | some t =>
    have hstall := hlevel.stallUntil source t
    dsimp only
    generalize (w.sim i).stallUntil source t = a at hstall
    generalize (v.sim i).stallUntil source t = b at hstall
    cases hstall with
    | refused anonymous => exact ⟨worlds, .anonymous anonymous⟩
    | granted level => exact ⟨worlds.setSim level, .anonymous rfl⟩

theorem cancel (worlds : Resembles ρs past past' w v) (i : Fin n) (name : String) :
    SameAnswer ρs past past' i (w.cancel name) (v.cancel name) := by
  have hhandle := worlds.handles name
  unfold World.cancel
  generalize w.handles.get? name = a at hhandle
  generalize v.handles.get? name = b at hhandle
  cases hhandle with
  | free => exact ⟨worlds, .anonymous rfl⟩
  | @bound j a b of =>
    have hlevel := worlds.level j
    refine ⟨worlds.setSim (hlevel.cancel of), ?_⟩
    dsimp only
    rw [hlevel.cancelled _ _ of]
    exact .handle ⟨j, of⟩ _ _
  | @unknown j a unknown =>
    exact ⟨worlds.setSim_left ((worlds.level j).cancel_left unknown), .unbound unknown _ _⟩

theorem inspect (worlds : Resembles ρs past past' w v) (i : Fin n) (name : String) :
    SameOutcome ρs i (w.inspect name) (v.inspect name) := by
  have hhandle := worlds.handles name
  unfold World.inspect
  generalize w.handles.get? name = a at hhandle
  generalize v.handles.get? name = b at hhandle
  cases hhandle with
  | free => exact .anonymous rfl
  | @bound j a b of =>
    dsimp only
    rw [(worlds.level j).cancelled _ _ of]
    exact .handle ⟨j, of⟩ _ _
  | unknown unknown => exact .unbound unknown _ _

theorem beginRun (worlds : Resembles ρs past past' w v) (i : Fin n) (limit : Option Nat) :
    SameReply ρs past past' i (w.beginRun i limit) (v.beginRun i limit) := by
  have hstart := (worlds.level i).startRun
  unfold World.beginRun
  generalize (w.sim i).startRun = a at hstart
  generalize (v.sim i).startRun = b at hstart
  cases hstart with
  | refused anonymous => exact .outcome worlds (.anonymous anonymous)
  | nothing => exact .outcome worlds (.anonymous rfl)
  | begun level =>
    dsimp only
    rw [level.processed]
    exact .run (worlds.setSim level) _ limit

theorem pausedSources {ρ : Renumbering} {s t : Simulation (Action n)} (copy : Copy ρ s t) :
    t.pausedSources = s.pausedSources := by
  unfold Simulation.pausedSources
  rw [copy.sources]
  exact List.filter_congr fun source _ => (copy.phase source).isStalled

/-- The flags and counters are the same, but for the number of events that wait. -/
theorem status {ρ : Renumbering} {s t : Simulation (Action n)} (level : Level ρ s t) :
    { t.status with pending := s.status.pending, idle := s.status.idle } = s.status := by
  obtain ⟨hpaused, hhalted, hrunning⟩ := Level.flags_eq level.toCopy
  simp only [Simulation.status, Simulation.active?, level.now, level.processed, hpaused, hhalted,
    hrunning, level.active, pausedSources level.toCopy]

theorem viewSource {ρs : Naming n} {s t : Simulation (Action n)}
    (level : Level (ρs i) s t) (source : Source) :
    SameOutcome ρs i (World.viewSource s source) (World.viewSource t source) := by
  have hphase := level.phase source
  unfold World.viewSource
  rw [Level.knows level.toCopy]
  split
  · refine .source ?_
    have hrelease : (t.phase source).stall?.map Stall.release =
        (s.phase source).stall?.map Stall.release := by
      generalize s.phase source = phase at hphase
      generalize t.phase source = phase' at hphase
      cases hphase <;> rfl
    simp only [Simulation.sourceView, Simulation.active?, level.now, level.active,
      hphase.isStalled, hrelease]
  · exact .anonymous rfl

/-- **Both carry out the command.** -/
theorem command (worlds : Resembles ρs past past' w v) (i : Fin n) (command : Command n) :
    SameReply ρs past past' i (w.command i command) (v.command i command) := by
  have hlevel := worlds.level i
  have hanswer : ∀ {a b : World n × Outcome}, SameAnswer ρs past past' i a b →
      SameReply ρs past past' i (a.1, .outcome a.2) (b.1, .outcome b.2) :=
    fun same => .outcome same.worlds same.outcomes
  have hupdate : ∀ {s t : Simulation (Action n)}, Level (ρs i) s t →
      SameReply ρs past past' i (w.setSim i s, .outcome .done) (v.setSim i t, .outcome .done) :=
    fun level => .outcome (worlds.setSim level) (.anonymous rfl)
  cases command with
  | cancel name => exact hanswer (worlds.cancel i name)
  | inspect name => exact .outcome worlds (worlds.inspect i name)
  | stall source release => exact hanswer (worlds.stall i source release)
  | pause => exact hupdate hlevel.pause
  | halt => exact hupdate hlevel.halt
  | enableTrace => exact hupdate hlevel.enableTrace
  | run => exact worlds.beginRun i none
  | runFor limit => exact worlds.beginRun i (some limit)
  | resume => exact (worlds.setSim hlevel.unpause).beginRun i none
  | status => exact .outcome worlds (.status (status hlevel))
  | clock =>
    simp only [World.command, hlevel.now]
    exact .outcome worlds (.anonymous rfl)
  | active =>
    simp only [World.command, World.activeSource, Simulation.active?, hlevel.active]
    cases (w.sim i).active.head? <;> exact .outcome worlds (.anonymous rfl)
  | knows source =>
    simp only [World.command, Level.knows hlevel.toCopy]
    exact .outcome worlds (.anonymous rfl)
  | sources =>
    simp only [World.command, hlevel.sources]
    exact .outcome worlds (.anonymous rfl)
  | source source => exact .outcome worlds (viewSource hlevel source)
  | pending => exact .outcome worlds (.pending _ _)
  | scheduled => exact .outcome worlds (.pending _ _)
  | trace => exact .outcome worlds (.trace hlevel.trace)
  | sameTrace other => exact .outcome worlds (.flag _ _)
  | describe => exact .outcome worlds (.text _ _)

end Resembles

end StallSim
