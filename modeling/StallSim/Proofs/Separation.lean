import StallSim.Scenario
import StallSim.Proofs.Companions

/-!
# Sources do not disturb each other

Actions are handed in for several sources of one simulation, and then the simulation runs.  If the
actions of every source keep to their source, then each source gets the same starts, at the same
instants and in the same order, as if the others were not there.

* `Batch` — a simulation, and the actions that are handed in before it runs; `Batch.only` leaves
  those of one source.
* `Batch.Separate` — the actions of every source keep to it.
* `Report.finishes` — the run ended without a failure or a panic; `Report.starts` — the starts of a
  source that a report tells of.

Principal result: `sources_apart`.
-/

set_option autoImplicit false

namespace StallSim

variable {n : Nat}

/-! ## Batches -/

/-- A simulation, the procedures that its actions can call, and the actions that are handed in from
outside. -/
structure Batch where
  config : Config Source
  procedures : Table String (Script 1)
  seeds : List (Submission 1 × Script 1)

namespace Batch

/-- The actions are handed in one after the other, and then the simulation is told to run. -/
def scenario (batch : Batch) : Scenario 1 where
  configs := #v[batch.config]
  procedures := batch.procedures
  requests := batch.seeds.map (fun seed => .submit seed.1 seed.2) ++ [.command lone .resume]

/-- The actions of other sources are not handed in. -/
def only (batch : Batch) (source : Source) : Batch :=
  { batch with seeds := batch.seeds.filter (fun seed => seed.1.source = source) }

/-- Every action keeps to its source, be it handed in from outside or by another action. -/
structure KeepsApart (batch : Batch) (owner : String → Source) (calls : Source → String → Prop) :
    Prop where
  seeds : ∀ seed ∈ batch.seeds, seed.1.KeepsTo owner seed.1.source ∧
    seed.2.KeepsTo owner calls seed.1.source
  procedures : ∀ source name, calls source name →
    ((batch.procedures.get? name).getD .done).KeepsTo owner calls source

/-- Handle names and procedures can be shared out among the sources so that every action keeps to
its source. -/
def Separate (batch : Batch) : Prop := ∃ owner calls, batch.KeepsApart owner calls

end Batch

namespace Report

/-- The last request, which is to run, was answered with the number of actions that started: none of
them failed or panicked. -/
def finishes (report : Report n) : Bool :=
  match report.answers.getLast?.map Answer.outcome with
  | some (.count _) => true
  | _ => false

/-- The starts of actions of the source: when, and with which description. -/
def starts (report : Report n) (source : Source) : List (Instant × String) :=
  report.answers.flatMap (fun answer => startsOf source answer.journal)

end Report

/-! ## Handing in -/

namespace World

/-- The world after actions were handed in one after the other. -/
def handIn (w : World n) (seeds : List (Submission n × Script n)) : World n :=
  seeds.foldl (fun w seed => (w.submit seed.1 seed.2).1) w

theorem journal_handIn (w : World n) (seeds : List (Submission n × Script n)) :
    (w.handIn seeds).journal = w.journal := by
  induction seeds generalizing w with
  | nil => rfl
  | cons seed seeds ih => exact (ih _).trans (journal_submit w seed.1 seed.2)

/-- Handing in is answered at once, and starts nothing. -/
theorem perform_submit (fuel : Nat) (w : World n) (submission : Submission n) (body : Script n) :
    ∃ answer, w.perform fuel (.submit submission body) =
      some (answer, (w.submit submission body).1) ∧ answer.journal = [] := by
  have hrun : (Machine.request w (.submit submission body)).run fuel =
      Machine.request w (.submit submission body) :=
    Machine.run_of_result? rfl fuel
  refine ⟨_, by rw [perform, hrun]; rfl, ?_⟩
  show (w.submit submission body).1.journal.drop w.journal.length = []
  rw [journal_submit, List.drop_length]

/-- The answers when actions are handed in before a request. -/
theorem performAll_seeds {fuel : Nat} {w w' : World n} {seeds : List (Submission n × Script n)}
    {request : Request n} {answers : List (Answer n)}
    (performed : w.performAll fuel (seeds.map (fun seed => .submit seed.1 seed.2) ++ [request]) =
      some (answers, w')) :
    ∃ quiet answer, answers = quiet ++ [answer] ∧ (∀ a ∈ quiet, a.journal = []) ∧
      (w.handIn seeds).perform fuel request = some (answer, w') := by
  induction seeds generalizing w answers with
  | nil =>
    simp only [List.map_nil, List.nil_append, performAll] at performed
    split at performed
    · cases performed
    · rename_i answer w'' hperform
      simp only [Option.map_some, Option.some.injEq, Prod.mk.injEq] at performed
      obtain ⟨rfl, rfl⟩ := performed
      exact ⟨[], answer, rfl, fun a ha => (by cases ha), hperform⟩
  | cons seed seeds ih =>
    obtain ⟨first, hfirst, hquiet⟩ := w.perform_submit fuel seed.1 seed.2
    simp only [List.map_cons, List.cons_append, performAll, hfirst] at performed
    obtain ⟨⟨later, w''⟩, hlater, heq⟩ := Option.map_eq_some_iff.1 performed
    obtain ⟨rfl, rfl⟩ := Prod.mk.inj heq
    obtain ⟨quiet, answer, rfl, hall, hperform⟩ := ih hlater
    exact ⟨first :: quiet, answer, rfl, List.forall_mem_cons.2 ⟨hquiet, hall⟩, hperform⟩

end World

section HandIn

variable {owner : String → Source} {calls : Source → String → Prop} {source : Source}
  {h : List (Fin 1 × Happening 1)} {p : Pairing} {w v : World 1}

/-- A world in which nobody waits for anything, after actions that keep to their sources, and the
world that knows of one source only. -/
structure Ready (owner : String → Source) (calls : Source → String → Prop) (source : Source)
    (w v : World 1) : Prop where
  together : ∃ p, Shares owner calls p source w v ∧ Abreast p source (w.sim lone) (v.sim lone)
  history : ∃ h outcome, History h ⟨w, .returned outcome, []⟩ ∧ AllKeep owner calls h

/-- One more action is handed in: to both if it is of the source, else to the first only. -/
theorem Ready.submit (ready : Ready owner calls source w v) {submission : Submission 1}
    {body : Script 1} (keeps : submission.KeepsTo owner submission.source)
    (bodyKeeps : body.KeepsTo owner calls submission.source) :
    if submission.source = source then
      Ready owner calls source (w.submit submission body).1 (v.submit submission body).1
    else Ready owner calls source (w.submit submission body).1 v := by
  obtain ⟨⟨p, hshares, habreast⟩, h, outcome, hist, hkeep⟩ := ready
  have hlater : ∃ h outcome, History h ⟨(w.submit submission body).1, .returned outcome, []⟩ ∧
      AllKeep owner calls h :=
    ⟨_, _, hist.next (.request _ outcome (.submit submission body) rfl), hkeep.submit bodyKeeps w⟩
  split
  · rename_i hmine
    obtain ⟨⟨q, -, htogether⟩, -⟩ := together_submit hshares habreast (hmine ▸ keeps) body
    exact ⟨⟨q, htogether⟩, hlater⟩
  · rename_i hother
    have hfresh : ∀ b, ¬ p.twin (w.sim lone).freshId b :=
      fun b twin => Nat.lt_irrefl _ (habreast.issued _ _ twin).1
    obtain ⟨hshares, honward, hnow⟩ := elsewhere_submit hshares hfresh keeps hother body
    exact ⟨⟨p, hshares, { habreast.elsewhere honward with now := habreast.now.trans hnow.symm }⟩,
      hlater⟩

theorem Ready.handIn (ready : Ready owner calls source w v)
    {seeds : List (Submission 1 × Script 1)}
    (keeps : ∀ seed ∈ seeds, seed.1.KeepsTo owner seed.1.source ∧
      seed.2.KeepsTo owner calls seed.1.source) :
    Ready owner calls source (w.handIn seeds)
      (v.handIn (seeds.filter (fun seed => seed.1.source = source))) := by
  induction seeds generalizing w v with
  | nil => exact ready
  | cons seed seeds ih =>
    obtain ⟨⟨hfirst, hbody⟩, hlater⟩ := List.forall_mem_cons.1 keeps
    have hsubmit := ready.submit hfirst hbody
    rw [List.filter_cons]
    split at hsubmit
    · rename_i hmine
      rw [if_pos (by simpa using hmine)]
      exact ih hsubmit hlater
    · rename_i hother
      rw [if_neg (by simpa using hother)]
      exact ih hsubmit hlater

/-- Both worlds are told to run. -/
theorem Ready.resume (ready : Ready owner calls source w v) :
    Companion owner calls source (Machine.request w (.command lone .resume))
      (Machine.request v (.command lone .resume)) := by
  obtain ⟨⟨p, hshares, habreast⟩, -⟩ := ready
  have hunpaused := (hshares.setSim lone (s := (w.sim lone).unpause) (Nat.le_refl _)).setSim_right
    lone (v.sim lone).unpause
  have hflags := habreast.flags
  simp only [Simulation.flags, Prod.mk.injEq] at hflags
  obtain ⟨-, hhalted, hrunning⟩ := hflags
  simp only [Machine.request, World.command, World.update, World.beginRun, sim_setSim_lone,
    Simulation.startRun, Simulation.unpause, Bool.or_false, ← hhalted, ← hrunning]
  by_cases hhalt : (w.sim lone).halted
  · simp only [if_pos hhalt]
    exact .ended hunpaused.starts
  · by_cases hbusy : (w.sim lone).running
    · simp only [if_neg hhalt, if_pos hbusy]
      exact .ended hunpaused.starts
    · simp only [if_neg hhalt, if_neg hbusy, setSim_setSim]
      refine .away (p := p) ?_ ?_ (fun _ h => by cases h) rfl ⟨rfl, rfl⟩
      · refine (hshares.setSim lone ?_).setSim_right lone _
        exact Nat.le_refl _
      · rw [sim_setSim_lone, sim_setSim_lone]
        exact { habreast with flags := by simp only [Simulation.flags, hhalted] }

end HandIn

/-! ## The starts of a source -/

/-- A machine has one result, however many steps are made. -/
theorem run_eq_of_result {m : Machine n} {a b : Nat} (first : (m.run a).result?.isSome = true)
    (second : (m.run b).result?.isSome = true) : m.run a = m.run b := by
  have hle : ∀ {a b : Nat}, a ≤ b → (m.run a).result?.isSome = true → m.run a = m.run b := by
    intro a b hab hsome
    obtain ⟨outcome, hresult⟩ := Option.isSome_iff_exists.1 hsome
    obtain ⟨d, rfl⟩ := Nat.exists_eq_add_of_le hab
    rw [Machine.run_add, Machine.run_of_result? hresult]
  rcases Nat.le_total a b with hab | hab
  · exact hle hab first
  · exact (hle hab second).symm

theorem sim_create_lone (config : Config Source) (procedures : Table String (Script 1)) :
    (World.create #v[config] procedures).sim lone = Simulation.create config := by
  simp [World.create, World.sim, lone]

/-- Before anything is handed in, both worlds are the same. -/
theorem Batch.KeepsApart.ready {batch : Batch} {owner : String → Source}
    {calls : Source → String → Prop} (apart : batch.KeepsApart owner calls) (source : Source) :
    Ready owner calls source (.create #v[batch.config] batch.procedures)
      (.create #v[batch.config] batch.procedures) := by
  refine ⟨⟨.empty, ?_, ?_⟩, [], .done, .create _ _, fun i ticket hmem => (by cases hmem)⟩
  · exact {
      procedures := rfl
      keeps := apart.procedures
      own := fun name _ => .free
      foreign := fun name handle _ hget => (by cases hget)
      starts := rfl }
  · rw [sim_create_lone]
    exact {
      immediate := .nil
      timed := .nil
      phase := .running
      issued := fun _ _ twin => twin.elim
      cancelled := fun _ _ twin => twin.elim
      spent := ⟨List.forall_mem_nil _, List.forall_mem_nil _⟩
      sources := rfl
      flags := rfl
      active := rfl
      behind := Nat.le_refl _
      urgent := fun _ => rfl
      now := rfl }

/-- The machine that has been told to run, after all actions were handed in. -/
def Batch.begun (batch : Batch) : Machine 1 :=
  .request (World.handIn (.create #v[batch.config] batch.procedures) batch.seeds)
    (.command lone .resume)

/-- What the report of a batch says of its run: the outcome, and the starts of a source. -/
theorem result_of_run {batch : Batch} {fuel : Nat} {report : Report 1}
    (ran : batch.scenario.run fuel = some report) :
    ∃ answer, report.answers.getLast? = some answer ∧
      (batch.begun.run fuel).result? = some answer.outcome ∧
      ∀ source, report.starts source = startsOf source (batch.begun.run fuel).world.journal := by
  obtain ⟨⟨answers, w⟩, hperformed, rfl⟩ := Option.map_eq_some_iff.1 ran
  obtain ⟨quiet, answer, rfl, hquiet, hperform⟩ := World.performAll_seeds hperformed
  obtain ⟨outcome, hresult, heq⟩ := Option.map_eq_some_iff.1 hperform
  obtain ⟨rfl, rfl⟩ := Prod.mk.inj heq
  refine ⟨_, List.getLast?_concat, hresult, fun source => ?_⟩
  have hnone : quiet.flatMap (fun a => startsOf source a.journal) = [] := by
    refine List.flatMap_eq_nil_iff.2 fun a ha => ?_
    rw [hquiet a ha]
    rfl
  simp only [Report.starts, List.flatMap_append, hnone, List.flatMap_singleton, List.nil_append,
    World.journal_handIn, World.create, List.length_nil, List.drop_zero]
  rfl

/-- A source gets the same starts as on its own. -/
theorem starts_eq_alone {batch : Batch} (separate : batch.Separate) {source : Source}
    {fuel fuel' : Nat} {report alone : Report 1} (ran : batch.scenario.run fuel = some report)
    (finishes : report.finishes = true)
    (ranAlone : (batch.only source).scenario.run fuel' = some alone) :
    report.starts source = alone.starts source := by
  obtain ⟨owner, calls, hapart⟩ := separate
  obtain ⟨answer, hlast, hresult, hstarts⟩ := result_of_run ran
  obtain ⟨answer', -, hresult', hstarts'⟩ := result_of_run ranAlone
  obtain ⟨k, hcount⟩ : ∃ k, answer.outcome = .count k := by
    rw [Report.finishes, hlast, Option.map_some] at finishes
    split at finishes
    · rename_i k heq
      exact ⟨k, Option.some.inj heq⟩
    · cases finishes
  rw [hcount] at hresult
  have hready := (hapart.ready source).handIn hapart.seeds
  obtain ⟨h, _, hist, hkeep⟩ := hready.history
  have hbegun : History (h ++ []) batch.begun :=
    hist.next (.request _ _ (.command lone .resume) rfl)
  rw [List.append_nil] at hbegun
  obtain ⟨j, hcompanion⟩ : ∃ j, Companion owner calls source (batch.begun.run fuel)
      ((batch.only source).begun.run j) := hready.resume.run hbegun hkeep fuel hresult
  obtain ⟨hrested, hsame⟩ := hcompanion.rested hresult
  rw [hstarts, hstarts', hsame, run_eq_of_result hrested (by rw [hresult']; rfl)]

/-- **Sources do not disturb each other.**  If the actions of every source keep to their source, and
the run of all of them ends without a failure or a panic, then the actions of a source start at the
same instants, in the same order and with the same descriptions as in the run of those of this
source alone.  So it makes no difference to a source what the actions of other sources do; they may
stall theirs, for one. -/
theorem sources_apart {batch : Batch} (separate : batch.Separate) (source : Source)
    {fuel fuel' : Nat} {report alone : Report 1} (ran : batch.scenario.run fuel = some report)
    (finishes : report.finishes = true)
    (ranAlone : (batch.only source).scenario.run fuel' = some alone) :
    report.starts source = alone.starts source ∧
      ∀ (other : Batch) (fuel : Nat) (report' : Report 1), other.Separate →
        other.only source = batch.only source → other.scenario.run fuel = some report' →
        report'.finishes = true → report'.starts source = report.starts source := by
  have halone := starts_eq_alone separate ran finishes ranAlone
  refine ⟨halone, fun other fuel report' hseparate hsame hran hfinishes => ?_⟩
  exact (starts_eq_alone hseparate hran hfinishes (hsame ▸ ranAlone)).trans halone.symm

/-- One source stalls itself until six, with an action handed in at once and a timer due at five;
the other stalls itself until four, with a timer due at three. -/
def twoSources : Batch where
  config := ⟨.zero, false, [.index 0, .index 1]⟩
  procedures := .empty
  seeds :=
    [(⟨lone, .index 1, .sourceNow, "hold", none⟩,
        .perform lone (.stall (.index 1) (.at ⟨4⟩)) ⟨true, none⟩ .done),
      (⟨lone, .index 0, .sourceAt (.at ⟨3⟩), "wait", none⟩,
        .perform lone (.stall (.index 0) (.at ⟨6⟩)) ⟨true, none⟩
          (.submit ⟨lone, .index 0, .sourceNow, "soon", none⟩ .done ⟨true, none⟩ .done)),
      (⟨lone, .index 1, .sourceAt (.at ⟨3⟩), "late", none⟩, .done),
      (⟨lone, .index 0, .sourceAt (.at ⟨5⟩), "timer", some "t"⟩, .done)]

theorem twoSources_separate : twoSources.Separate := by
  refine ⟨fun _ => .index 0, fun _ _ => False, ?_, fun _ _ h => h.elim⟩
  have hkeeps : ∀ (source : Source) (route : Route) (label : String) (handle : Option String),
      route.isRouted = true → (handle = none ∨ source = .index 0) →
      Submission.KeepsTo (fun _ => .index 0) source
        (⟨lone, source, route, label, handle⟩ : Submission 1) := by
    intro source route label handle hrouted hhandle
    refine ⟨rfl, hrouted, fun name hname => ?_⟩
    rcases hhandle with hnone | hsource
    · cases hnone.symm.trans hname
    · exact hsource.symm
  intro seed hseed
  simp only [twoSources, List.mem_cons, List.not_mem_nil, or_false] at hseed
  rcases hseed with rfl | rfl | rfl | rfl
  · exact ⟨hkeeps _ _ _ _ rfl (.inl rfl), .stall _, trivial⟩
  · exact ⟨hkeeps _ _ _ _ rfl (.inl rfl), .stall _, hkeeps _ _ _ _ rfl (.inl rfl), trivial,
      trivial⟩
  · exact ⟨hkeeps _ _ _ _ rfl (.inl rfl), trivial⟩
  · exact ⟨hkeeps _ _ _ _ rfl (.inr rfl), trivial⟩

/-- The first source starts at three, and then twice at six, with the other source and without. -/
theorem sources_apart_twoSources :
    ∃ report alone, twoSources.scenario.run 40 = some report ∧ report.finishes = true ∧
      (twoSources.only (.index 0)).scenario.run 40 = some alone ∧
      report.starts (.index 1) = [(⟨0⟩, "hold"), (⟨4⟩, "late")] ∧
      report.starts (.index 0) = [(⟨3⟩, "wait"), (⟨6⟩, "soon"), (⟨6⟩, "timer")] ∧
      report.starts (.index 0) = alone.starts (.index 0) := by
  have hran : (twoSources.scenario.run 40).map (fun report =>
      (report.finishes, report.starts (.index 1), report.starts (.index 0))) =
        some (true, [(⟨0⟩, "hold"), (⟨4⟩, "late")],
          [(⟨3⟩, "wait"), (⟨6⟩, "soon"), (⟨6⟩, "timer")]) := by
    decide +kernel
  have halone : ((twoSources.only (.index 0)).scenario.run 40).isSome = true := by decide +kernel
  obtain ⟨report, hreport, heq⟩ := Option.map_eq_some_iff.1 hran
  obtain ⟨alone, ranAlone⟩ := Option.isSome_iff_exists.1 halone
  simp only [Prod.mk.injEq] at heq
  obtain ⟨hfinishes, hother, hmine⟩ := heq
  exact ⟨report, alone, hreport, hfinishes, ranAlone, hother, hmine,
    (sources_apart twoSources_separate (.index 0) hreport hfinishes ranAlone).1⟩

end StallSim
