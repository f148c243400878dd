import StallSim.Proofs.Alongside
import StallSim.Proofs.Projection

/-!
# Worlds in which every source keeps to itself

The actions of a source may hand in, cancel and inspect work of it, stall it, and look; then
nothing that they do concerns another source.  A world that knows of one source only can do what
they do, and has nothing to do with the rest.

* `Script.KeepsTo` — the operations concern one source.
* `startsOf` — the starts of the actions of a source that a journal tells of.
* `Shares` — what a world with all sources and one with a single source have in common besides their
  simulations.
* `Together` — both made the same of an operation.

Principal results: `together_submit`, `together_command` — what an action of the source does, in
both; `elsewhere_submit`, `elsewhere_command` — what an action of another source does, in the first.
-/

set_option autoImplicit false

namespace StallSim

variable {n : Nat}

/-! ## Scripts that keep to a source -/

/-- The command only looks at a simulation. -/
def Command.looks : Command n → Bool
  | .status | .clock | .active | .knows _ | .sources | .source _ | .pending | .scheduled | .trace
  | .sameTrace _ | .describe => true
  | _ => false

/-- The command concerns work of the source by its handle, stalls the source, or only looks.
`owner` says whose work may be bound to a handle name. -/
inductive Command.KeepsTo (owner : String → Source) (source : Source) : Command n → Prop where
  | cancel (name : String) (own : owner name = source) : KeepsTo owner source (.cancel name)
  | inspect (name : String) (own : owner name = source) : KeepsTo owner source (.inspect name)
  | stall (release : Due) : KeepsTo owner source (.stall source release)
  | looks {command : Command n} (looks : command.looks = true) : KeepsTo owner source command

/-- The submission is of work of the source, goes through it, and binds a handle name of it. -/
structure Submission.KeepsTo (owner : String → Source) (source : Source)
    (submission : Submission n) : Prop where
  source_eq : submission.source = source
  routed : submission.route.isRouted = true
  handle : ∀ name, submission.handle = some name → owner name = source

/-- All operations of the script keep to the source, and so do those of the actions that it hands
in.  `calls` says which procedures may be called by actions of which source. -/
def Script.KeepsTo (owner : String → Source) (calls : Source → String → Prop) (source : Source) :
    Script n → Prop
  | .done => True
  | .submit submission body _ rest =>
    submission.KeepsTo owner source ∧ body.KeepsTo owner calls source ∧
      rest.KeepsTo owner calls source
  | .perform _ command _ rest => command.KeepsTo owner source ∧ rest.KeepsTo owner calls source
  | .call name rest => calls source name ∧ rest.KeepsTo owner calls source
  | .whenBefore _ _ body rest =>
    body.KeepsTo owner calls source ∧ rest.KeepsTo owner calls source
  | .fail _ _ => True
  | .panic _ => True

section Scripts

variable {owner : String → Source} {calls : Source → String → Prop} {source : Source}

theorem Script.KeepsTo.append {a b : Script n} (first : a.KeepsTo owner calls source)
    (later : b.KeepsTo owner calls source) : (a ++ b).KeepsTo owner calls source := by
  show (a.append b).KeepsTo owner calls source
  induction a with
  | done => exact later
  | submit submission body handling rest _ ih => exact ⟨first.1, first.2.1, ih first.2.2⟩
  | perform i command handling rest ih => exact ⟨first.1, ih first.2⟩
  | call name rest ih => exact ⟨first.1, ih first.2⟩
  | whenBefore i limit body rest _ ih => exact ⟨first.1, ih first.2⟩
  | fail failure context => trivial
  | panic message => trivial

end Scripts

/-! ## Worlds -/

/-- The starts of actions of the source that a journal tells of: when, and with which
description. -/
def startsOf (source : Source) (journal : List (Record n)) : List (Instant × String) :=
  journal.filterMap fun
    | .started _ work time _ _ =>
      if work.source = source then some (time, work.description) else none
    | _ => none

theorem startsOf_append (source : Source) (a b : List (Record n)) :
    startsOf source (a ++ b) = startsOf source a ++ startsOf source b :=
  List.filterMap_append

/-- Both names are free, or they stand for twins. -/
inductive TwinHandle (p : Pairing) : Option (Handle n) → Option (Handle n) → Prop where
  | free : TwinHandle p none none
  | bound {handle handle' : Handle n} (twin : p.twin handle.id handle'.id) :
      TwinHandle p (some handle) (some handle')

/-- What two worlds have in common: the procedures, the handles and the starts of a source.  Handles
of other sources stand for work without a twin. -/
structure Shares (owner : String → Source) (calls : Source → String → Prop) (p : Pairing)
    (source : Source) (w v : World 1) : Prop where
  procedures : v.procedures = w.procedures
  keeps : ∀ other name, calls other name → (w.procedure name).KeepsTo owner calls other
  own : ∀ name, owner name = source →
    TwinHandle p (w.handles.get? name) (v.handles.get? name)
  foreign : ∀ name handle, owner name ≠ source → w.handles.get? name = some handle →
    handle.id.raw < (w.sim lone).nextId ∧ ∀ b, ¬ p.twin handle.id b
  starts : startsOf source w.journal = startsOf source v.journal

/-- The simulation of a world that has one. -/
theorem sim_setSim_lone (w : World 1) (i : Fin 1) (s : Simulation (Action 1)) :
    (w.setSim i s).sim lone = s := by
  rw [World.sim_setSim, if_pos (Subsingleton.elim i lone)]

theorem sim_note_setSim_lone (w : World 1) (i : Fin 1) (s : Simulation (Action 1))
    (record : Record 1) : ((w.setSim i s).note record).sim lone = s :=
  sim_setSim_lone w i s

namespace Shares

variable {owner : String → Source} {calls : Source → String → Prop} {p q : Pairing}
  {source : Source} {w v : World 1}

theorem setSim (shares : Shares owner calls p source w v) (i : Fin 1)
    {s : Simulation (Action 1)} (nextId : (w.sim lone).nextId ≤ s.nextId) :
    Shares owner calls p source (w.setSim i s) v :=
  { shares with
    foreign := by
      intro name handle hname hget
      obtain ⟨hlt, hnone⟩ := shares.foreign name handle hname hget
      rw [sim_setSim_lone]
      exact ⟨Nat.lt_of_lt_of_le hlt nextId, hnone⟩ }

theorem setSim_right (shares : Shares owner calls p source w v) (i : Fin 1)
    (s : Simulation (Action 1)) : Shares owner calls p source w (v.setSim i s) :=
  { shares with }

theorem note (shares : Shares owner calls p source w v) {record : Record 1}
    (quiet : startsOf source [record] = []) : Shares owner calls p source (w.note record) v :=
  { shares with
    starts := by
      show startsOf source (w.journal ++ [record]) = _
      rw [startsOf_append, quiet, List.append_nil, shares.starts] }

theorem note_both (shares : Shares owner calls p source w v) {record record' : Record 1}
    (same : startsOf source [record] = startsOf source [record']) :
    Shares owner calls p source (w.note record) (v.note record') :=
  { shares with
    starts := by
      show startsOf source (w.journal ++ [record]) = startsOf source (v.journal ++ [record'])
      rw [startsOf_append, startsOf_append, same, shares.starts] }

/-- One more pair of twins, the first of which has just been handed out. -/
theorem grow (shares : Shares owner calls p source w v) {b : EventId}
    (grows : p.Grows q (w.sim lone).freshId b) : Shares owner calls q source w v :=
  { shares with
    own := by
      intro name hname
      have htwin := shares.own name hname
      generalize w.handles.get? name = a at htwin
      generalize v.handles.get? name = a' at htwin
      cases htwin with
      | free => exact .free
      | bound twin => exact .bound (grows.le _ _ twin)
    foreign := by
      intro name handle hname hget
      obtain ⟨hlt, hnone⟩ := shares.foreign name handle hname hget
      refine ⟨hlt, fun b' htwin => ?_⟩
      rcases grows.only _ _ htwin with htwin | heq
      · exact hnone b' htwin
      · rw [heq] at hlt
        exact Nat.lt_irrefl _ hlt }

/-- A handle of the source is bound in both worlds. -/
theorem bind_own (shares : Shares owner calls p source w v) {name : Option String}
    (own : ∀ x, name = some x → owner x = source) {handle handle' : Handle 1}
    (twin : p.twin handle.id handle'.id) :
    Shares owner calls p source (w.bindHandle name handle) (v.bindHandle name handle') := by
  cases name with
  | none => exact shares
  | some x =>
    exact { shares with
      own := by
        intro y hy
        show TwinHandle p ((w.handles.set x handle).get? y) ((v.handles.set x handle').get? y)
        rw [Table.get?_set, Table.get?_set]
        split
        · exact .bound twin
        · exact shares.own y hy
      foreign := by
        intro y d hy hget
        have hne : x ≠ y := fun h => hy (h ▸ own x rfl)
        have hget : (w.handles.set x handle).get? y = some d := hget
        rw [Table.get?_set, if_neg hne] at hget
        exact shares.foreign y d hy hget }

/-- A handle of another source is bound in the first world. -/
theorem bind_foreign (shares : Shares owner calls p source w v) {name : Option String}
    (foreign : ∀ x, name = some x → owner x ≠ source) {handle : Handle 1}
    (issued : handle.id.raw < (w.sim lone).nextId) (alone : ∀ b, ¬ p.twin handle.id b) :
    Shares owner calls p source (w.bindHandle name handle) v := by
  cases name with
  | none => exact shares
  | some x =>
    exact { shares with
      own := by
        intro y hy
        have hne : x ≠ y := fun h => foreign x rfl (h ▸ hy)
        show TwinHandle p ((w.handles.set x handle).get? y) (v.handles.get? y)
        rw [Table.get?_set, if_neg hne]
        exact shares.own y hy
      foreign := by
        intro y d hy hget
        have hget : (w.handles.set x handle).get? y = some d := hget
        rw [Table.get?_set] at hget
        split at hget
        · cases hget
          exact ⟨issued, alone⟩
        · exact shares.foreign y d hy hget }

end Shares

/-! ## Operations of the source -/

/-- What both worlds make of an operation of the source: they stay together, and either refuses it
with the same error as the other. -/
structure Together (owner : String → Source) (calls : Source → String → Prop) (p : Pairing)
    (source : Source) (a b : World 1 × Outcome) : Prop where
  shares : ∃ q, p ≤ q ∧ Shares owner calls q source a.1 b.1 ∧
    Abreast q source (a.1.sim lone) (b.1.sim lone)
  error : b.2.error? = a.2.error?

section Own

variable {owner : String → Source} {calls : Source → String → Prop} {p : Pairing}
  {source : Source} {w v : World 1}

theorem together_accept (shares : Shares owner calls p source w v)
    (abreast : Abreast p source (w.sim lone) (v.sim lone)) {submission : Submission 1}
    (keeps : submission.KeepsTo owner source)
    {a b : Except Error (EventId × Simulation (Action 1))}
    (answer : TwinAnswer p source (w.sim lone) (v.sim lone) a b) :
    Together owner calls p source (w.accept submission a) (v.accept submission b) := by
  cases answer with
  | refused e => exact ⟨⟨p, p.le_refl, shares, abreast⟩, rfl⟩
  | @accepted q grows s' t' later nextId =>
    refine ⟨⟨q, grows.le, ?_, ?_⟩, rfl⟩
    · have hshares := (shares.grow grows).setSim submission.sim (Nat.le_of_lt nextId)
      exact (hshares.setSim_right submission.sim t').bind_own keeps.handle grows.twin
    · have hsim : ∀ (w : World 1) (s : Simulation (Action 1)) (handle : Handle 1),
          ((w.setSim submission.sim s).bindHandle submission.handle handle).sim lone = s := by
        intro w s handle
        refine Eq.trans ?_ (sim_setSim_lone w submission.sim s)
        cases submission.handle <;> rfl
      show Abreast q source (World.sim (World.bindHandle _ _ _) lone)
        (World.sim (World.bindHandle _ _ _) lone)
      rw [hsim, hsim]
      exact later

/-- Both hand in the work. -/
theorem together_submit (shares : Shares owner calls p source w v)
    (abreast : Abreast p source (w.sim lone) (v.sim lone)) {submission : Submission 1}
    (keeps : submission.KeepsTo owner source) (body : Script 1) :
    Together owner calls p source (w.submit submission body) (v.submit submission body) := by
  have hlone : submission.sim = lone := Subsingleton.elim _ _
  have hsource := keeps.source_eq
  have hrouted := keeps.routed
  simp only [World.submit, hlone, hsource, abreast.now]
  cases hroute : submission.route with
  | sourceAt due =>
    dsimp only
    cases due.resolve (w.sim lone).now with
    | none => exact ⟨⟨p, p.le_refl, shares, abreast⟩, rfl⟩
    | some t => exact together_accept shares abreast keeps (abreast.submitAt t _ _)
  | sourceIn delay =>
    have hanswer := abreast.submitAt ((w.sim lone).now.plusSaturating delay) ""
      ⟨submission.label, body⟩
    refine together_accept shares abreast keeps ?_
    simp only [Simulation.submitIn, abreast.now]
    exact hanswer
  | sourceNow => exact together_accept shares abreast keeps (abreast.submitNow _ _)
  | directAt due =>
    rw [hroute] at hrouted
    cases hrouted
  | directNow =>
    rw [hroute] at hrouted
    cases hrouted

/-- What a command that only looks is answered may differ, but not the error. -/
theorem error_looks {command : Command 1} (looks : command.looks = true)
    (abreast : Abreast p source (w.sim lone) (v.sim lone)) (i : Fin 1) :
    ∃ outcome outcome', w.command i command = (w, .outcome outcome) ∧
      v.command i command = (v, .outcome outcome') ∧ outcome'.error? = outcome.error? := by
  obtain rfl : i = lone := Subsingleton.elim _ _
  have hquiet : ∀ {outcome outcome' : Outcome}, outcome.error? = none → outcome'.error? = none →
      outcome'.error? = outcome.error? := fun h h' => h'.trans h.symm
  cases command with
  | active =>
    refine ⟨_, _, rfl, rfl, ?_⟩
    rw [World.activeSource, World.activeSource, Simulation.active?, Simulation.active?,
      abreast.active]
  | source other =>
    refine ⟨_, _, rfl, rfl, ?_⟩
    rw [World.viewSource, World.viewSource, abreast.knows]
    split <;> rfl
  | status | clock | sources | pending | scheduled | trace | describe =>
    exact ⟨_, _, rfl, rfl, hquiet rfl rfl⟩
  | knows other => exact ⟨_, _, rfl, rfl, hquiet rfl rfl⟩
  | sameTrace other => exact ⟨_, _, rfl, rfl, hquiet rfl rfl⟩
  | _ => cases looks

/-- Both carry out the command. -/
theorem together_command (shares : Shares owner calls p source w v)
    (abreast : Abreast p source (w.sim lone) (v.sim lone)) {command : Command 1}
    (keeps : command.KeepsTo owner source) (i : Fin 1) :
    ∃ w' v' outcome outcome', w.command i command = (w', .outcome outcome) ∧
      v.command i command = (v', .outcome outcome') ∧
      Together owner calls p source (w', outcome) (v', outcome') := by
  obtain rfl : i = lone := Subsingleton.elim _ _
  cases keeps with
  | cancel name own =>
    refine ⟨_, _, _, _, rfl, rfl, ?_⟩
    have htwin := shares.own name own
    unfold World.cancel
    generalize w.handles.get? name = a at htwin
    generalize v.handles.get? name = a' at htwin
    cases htwin with
    | free => exact ⟨⟨p, p.le_refl, shares, abreast⟩, rfl⟩
    | @bound handle handle' twin =>
      have hs : handle.sim = lone := Subsingleton.elim _ _
      have ht : handle'.sim = lone := Subsingleton.elim _ _
      simp only [World.update, hs, ht]
      have hnext : (w.sim lone).nextId ≤ ((w.sim lone).cancel handle.id).nextId := Nat.le_refl _
      refine ⟨⟨p, p.le_refl, (shares.setSim lone hnext).setSim_right lone _, ?_⟩, rfl⟩
      rw [sim_setSim_lone, sim_setSim_lone]
      exact abreast.cancel twin
  | inspect name own =>
    refine ⟨_, _, _, _, rfl, rfl, ⟨⟨p, p.le_refl, shares, abreast⟩, ?_⟩⟩
    have htwin := shares.own name own
    unfold World.inspect
    generalize w.handles.get? name = a at htwin
    generalize v.handles.get? name = a' at htwin
    cases htwin <;> rfl
  | stall release =>
    refine ⟨_, _, _, _, rfl, rfl, ?_⟩
    simp only [World.stall, abreast.now]
    cases release.resolve (w.sim lone).now with
    | none => exact ⟨⟨p, p.le_refl, shares, abreast⟩, rfl⟩
    | some t =>
      have hstall := abreast.stallUntil t
      dsimp only
      generalize (w.sim lone).stallUntil source t = a at hstall
      generalize (v.sim lone).stallUntil source t = b at hstall
      cases hstall with
      | refused e => exact ⟨⟨p, p.le_refl, shares, abreast⟩, rfl⟩
      | @granted q grows s' t' later nextId =>
        have hshares := (shares.grow grows).setSim lone (Nat.le_of_lt nextId)
        refine ⟨⟨q, grows.le, hshares.setSim_right lone t', ?_⟩, rfl⟩
        rw [sim_setSim_lone, sim_setSim_lone]
        exact later
  | looks looks =>
    obtain ⟨outcome, outcome', hw, hv, herror⟩ := error_looks looks abreast lone
    exact ⟨w, v, outcome, outcome', hw, hv, ⟨p, p.le_refl, shares, abreast⟩, herror⟩

end Own

/-! ## Operations of other sources -/

section Other

variable {owner : String → Source} {calls : Source → String → Prop} {p : Pairing}
  {source other : Source} {w v : World 1} {t : Simulation (Action 1)}

/-- The first world hands in work of another source. -/
theorem elsewhere_submit (shares : Shares owner calls p source w v)
    (fresh : ∀ b, ¬ p.twin (w.sim lone).freshId b) {submission : Submission 1}
    (keeps : submission.KeepsTo owner other) (ne : other ≠ source) (body : Script 1) :
    Shares owner calls p source (w.submit submission body).1 v ∧
      Elsewhere source (w.sim lone) ((w.submit submission body).1.sim lone) ∧
      ((w.submit submission body).1.sim lone).now = (w.sim lone).now := by
  have hlone : submission.sim = lone := Subsingleton.elim _ _
  have hsame : Elsewhere source (w.sim lone) (w.sim lone) :=
    .of_now rfl (Nat.le_refl _) rfl rfl rfl rfl rfl
  rcases w.submit_eq submission body with hsubmit | ⟨answer, hsubmit, hadmits⟩
  · rw [hsubmit]
    exact ⟨shares, hsame, rfl⟩
  · rw [hsubmit]
    cases answer with
    | error e => exact ⟨shares, hsame, rfl⟩
    | ok accepted =>
      obtain ⟨id, s'⟩ := accepted
      obtain ⟨hid, -, -, rfl⟩ := hadmits id s' rfl
      have hid : id = (w.sim submission.sim).freshId := hid
      subst hid
      rw [hlone]
      generalize hticket : submission.ticket body (w.sim lone).now (w.sim lone).freshId = ticket
      have hne : ticket.work.source ≠ source := by
        rw [← hticket]
        exact fun h => ne (keeps.source_eq.symm.trans h)
      have hsim : (World.sim (w.accept submission
          (.ok ((w.sim lone).freshId, (w.sim lone).issue.lodge ticket))).1 lone) =
            (w.sim lone).issue.lodge ticket := by
        refine Eq.trans ?_ (sim_setSim_lone w submission.sim _)
        unfold World.accept
        cases submission.handle <;> rfl
      have hlater := nextId_lodge (w.sim lone) ticket
      refine ⟨?_, hsim.symm ▸ .lodge _ hne, hsim.symm ▸ now_lodge _ _⟩
      refine (shares.setSim submission.sim (Nat.le_of_lt hlater)).bind_foreign
        (fun x hx => (keeps.handle x hx).symm ▸ ne) ?_ fresh
      rw [sim_setSim_lone]
      exact hlater

/-- The first world carries out a command of an action of another source. -/
theorem elsewhere_command (shares : Shares owner calls p source w v)
    (beside : Alongside p source (w.sim lone).endAction t) {command : Command 1}
    (keeps : command.KeepsTo owner other) (ne : other ≠ source) (i : Fin 1) :
    ∃ w' outcome, w.command i command = (w', .outcome outcome) ∧
      Shares owner calls p source w' v ∧ Alongside p source (w'.sim lone).endAction t := by
  obtain rfl : i = lone := Subsingleton.elim _ _
  cases keeps with
  | cancel name own =>
    refine ⟨_, _, rfl, ?_⟩
    unfold World.cancel
    cases hget : w.handles.get? name with
    | none => exact ⟨shares, beside⟩
    | some handle =>
      obtain ⟨hissued, hforeign⟩ := shares.foreign name handle (own.symm ▸ ne) hget
      have hsim : handle.sim = lone := Subsingleton.elim _ _
      have hnext : (w.sim lone).nextId ≤ ((w.sim lone).cancel handle.id).nextId := Nat.le_refl _
      simp only [World.update, hsim]
      refine ⟨shares.setSim lone hnext, ?_⟩
      rw [sim_setSim_lone]
      exact beside.cancel_elsewhere hissued hforeign
  | inspect name own => exact ⟨_, _, rfl, shares, beside⟩
  | stall release =>
    refine ⟨_, _, rfl, ?_⟩
    rcases w.stall_cases lone other release with ⟨hw, -⟩ | ⟨t', s', hgranted, -, hw⟩
    · rw [hw]
      exact ⟨shares, beside⟩
    · obtain ⟨backlog, -, -, -, -, rfl⟩ := stallUntil_eq_ok hgranted
      rw [hw]
      refine ⟨shares.setSim lone (Nat.le_succ _), ?_⟩
      rw [sim_setSim_lone]
      exact beside.elsewhere (Elsewhere.beginStall _ ne _ _).endAction
  | looks looks =>
    have hsame : ∃ outcome, w.command lone command = (w, .outcome outcome) := by
      cases command <;> first | exact ⟨_, rfl⟩ | cases looks
    obtain ⟨outcome, hw⟩ := hsame
    exact ⟨w, outcome, hw, shares, beside⟩

end Other

end StallSim
