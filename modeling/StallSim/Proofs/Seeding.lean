import Mathlib.Data.List.Induction
import StallSim.Proofs.Following

/-!
# Timers that are handed in before a run

Timers of a new world with distinct times are taken in the order of their times, whatever the order
in which they were handed in.  Their ids differ, and the ids decide only between timers that were
first due at one instant, or that came for now.

* `Seed` — a timed submission from outside.
* `Renumbering.reorder` — the ids of timers that were handed in in another order.
* `Sown`, `SownWorld` — a simulation and a world that have accepted seeds and nothing else.
* `World.seeded` — the machine after seeds were handed in.
* `Reorders` — the ids of the seeds are those of the same seeds, and all later ids stay as they are.

Principal results: `Sown.level`, `SownWorld.resembles` — two orders leave simulations and worlds
that are the same but for the ids; `seeds_in_any_order`.
-/

set_option autoImplicit false

namespace StallSim

open List (Forall₂)

variable {n : Nat}

/-! ## Seeds -/

/-- A timed submission from outside: `routed` through its source, or straight to the calendar. -/
structure Seed (n : Nat) where
  sim : Fin n
  source : Source
  time : Instant
  routed : Bool
  label : String
  handle : Option String
  body : Script n

namespace Seed

/-- The submission that is made. -/
def submission (seed : Seed n) : Submission n where
  sim := seed.sim
  source := seed.source
  route := if seed.routed then .sourceAt (.at seed.time) else .directAt (.at seed.time)
  label := seed.label
  handle := seed.handle

/-- The request that makes it. -/
def request (seed : Seed n) : Request n := .submit seed.submission seed.body

/-- The simulation accepts the seed: it knows the source, and the time is not over. -/
def fits (seed : Seed n) (s : Simulation (Action n)) : Bool :=
  s.knows seed.source && !decide (seed.time < s.now)

/-- The work of a seed that is accepted as number `k`. -/
def work (seed : Seed n) (k : Nat) : Work (Action n) :=
  ⟨⟨k⟩, seed.source, seed.label, ⟨seed.label, seed.body⟩⟩

/-- The event that waits then. -/
def event (seed : Seed n) (k : Nat) : Event (Action n) :=
  if seed.routed then .routed (seed.work k) else .direct (seed.work k)

/-- The event with its turn. -/
def entry (seed : Seed n) (k : Nat) : Turn × Event (Action n) :=
  (.dueAt seed.time ⟨k⟩, seed.event k)

/-- The place of a seed among seeds with distinct times. -/
def rank (seed : Seed n) (seeds : List (Seed n)) : Nat := (seeds.map time).idxOf seed.time

/-- Seeds of one simulation have distinct times, and no two have the same handle name. -/
def Apart (a b : Seed n) : Prop :=
  (a.sim = b.sim → a.time ≠ b.time) ∧ ∀ name, a.handle = some name → b.handle ≠ some name

theorem Apart.symm {a b : Seed n} (apart : a.Apart b) : b.Apart a :=
  ⟨fun h => (apart.1 h.symm).symm, fun name hb ha => apart.2 name ha hb⟩

theorem refusal?_eq_none {seed : Seed n} {s : Simulation (Action n)} :
    seed.submission.refusal? s = none ↔ seed.fits s = true := by
  unfold Submission.refusal? submission fits
  cases seed.routed <;> simp [Due.resolve, Option.or_eq_none_iff, and_comm]

/-- The work of an accepted seed waits for its turn, as long as no source is stalled. -/
theorem lodge_eq (seed : Seed n) {s : Simulation (Action n)}
    (running : s.phase seed.source = .running) :
    s.issue.lodge (seed.submission.ticket seed.body s.now s.freshId) =
      s.issue.postTimed (.dueAt seed.time s.freshId) (seed.event s.nextId) := by
  unfold Submission.ticket submission event
  cases seed.routed with
  | false => rfl
  | true =>
    have hrunning : s.issue.phase seed.source = .running := running
    show s.issue.routeTimed seed.time (seed.work s.nextId) = _
    unfold Simulation.routeTimed
    rw [show (seed.work s.nextId).source = seed.source from rfl, hrunning]
    rfl

theorem rank_append {seed : Seed n} {seeds : List (Seed n)} (mem : seed ∈ seeds)
    (more : List (Seed n)) : seed.rank (seeds ++ more) = seed.rank seeds := by
  rw [rank, rank, List.map_append, List.idxOf_append_of_mem (List.mem_map_of_mem mem)]

theorem rank_last {seed : Seed n} {seeds : List (Seed n)}
    (apart : ∀ other ∈ seeds, other.time ≠ seed.time) :
    seed.rank (seeds ++ [seed]) = seeds.length := by
  have hnot : seed.time ∉ seeds.map time := by
    intro hmem
    obtain ⟨other, hother, htime⟩ := List.mem_map.1 hmem
    exact apart other hother htime
  rw [rank, List.map_append, List.idxOf_append_of_notMem hnot, List.length_map]
  simp

end Seed

/-! ## Seeds in another order -/

namespace Renumbering

variable {ts ts' : List Instant}

/-- The id after timers with these times were handed in in another order. -/
def placed (ts ts' : List Instant) (id : EventId) : EventId :=
  match ts[id.raw]? with
  | some t => ⟨ts'.idxOf t⟩
  | none => id

theorem placed_cases (perm : ts.Perm ts') (id : EventId) :
    (∃ t, ts[id.raw]? = some t ∧ id.raw < ts.length ∧ t ∈ ts' ∧ placed ts ts' id = ⟨ts'.idxOf t⟩ ∧
      ts'.idxOf t < ts.length) ∨
    ts[id.raw]? = none ∧ ts.length ≤ id.raw ∧ placed ts ts' id = id := by
  unfold placed
  cases ht : ts[id.raw]? with
  | some t =>
    have hmem : t ∈ ts' := perm.mem_iff.1 (List.mem_of_getElem? ht)
    refine .inl ⟨t, rfl, (List.getElem?_eq_some_iff.1 ht).1, hmem, rfl, ?_⟩
    rw [perm.length_eq]
    exact List.idxOf_lt_length_of_mem hmem
  | none => exact .inr ⟨rfl, List.getElem?_eq_none_iff.1 ht, rfl⟩

theorem placed_inj (perm : ts.Perm ts') (distinct : ts.Nodup) {a b : EventId}
    (eq : placed ts ts' a = placed ts ts' b) : a = b := by
  rw [← EventId.raw_inj] at eq ⊢
  rcases placed_cases perm a with ⟨t, ht, hlt, hmem, hplaced, hlt'⟩ | ⟨-, hge, hplaced⟩ <;>
    rcases placed_cases perm b with ⟨u, hu, hltu, hmemu, hplacedu, hltu'⟩ | ⟨-, hgeu, hplacedu⟩ <;>
    rw [hplaced, hplacedu] at eq
  · rw [(List.idxOf_inj hmem).1 eq] at ht
    exact (List.getElem?_inj hlt distinct).1 (ht.trans hu.symm)
  · dsimp only at eq
    omega
  · dsimp only at eq
    omega
  · exact eq

theorem placed_le_iff (perm : ts.Perm ts') (distinct : ts.Nodup) {a b : EventId}
    (due : ∀ t u, ts[a.raw]? = some t → ts[b.raw]? = some u → t = u) :
    a ≤ b ↔ placed ts ts' a ≤ placed ts ts' b := by
  rw [EventId.le_def, EventId.le_def]
  rcases placed_cases perm a with ⟨t, ht, hlt, hmem, hplaced, hlt'⟩ | ⟨-, hge, hplaced⟩ <;>
    rcases placed_cases perm b with ⟨u, hu, hltu, hmemu, hplacedu, hltu'⟩ | ⟨-, hgeu, hplacedu⟩ <;>
    rw [hplaced, hplacedu]
  · obtain rfl := due t u ht hu
    have heq := (List.getElem?_inj hlt distinct).1 (ht.trans hu.symm)
    omega
  · dsimp only
    omega
  · dsimp only
    omega

/-- The ids after timers with these distinct times were handed in in another order. -/
def reorder (ts ts' : List Instant) (perm : ts.Perm ts') (distinct : ts.Nodup) : Renumbering where
  of id := some (placed ts ts' id)
  due id := ts[id.raw]?
  inj h h' := placed_inj perm distinct ((Option.some.inj h).trans (Option.some.inj h').symm)
  le_iff h h' due := by
    cases h
    cases h'
    exact placed_le_iff perm distinct due

end Renumbering

/-! ## A simulation with seeds -/

/-- The simulation is fresh but for the seeds, which it has accepted in their order. -/
def Sown (config : Config Source) (seeds : List (Seed n)) (s : Simulation (Action n)) : Prop :=
  ∃ timed : Agenda Turn (Event (Action n)),
    s = { Simulation.create config with calendar := ⟨[], timed⟩, nextId := seeds.length } ∧
    timed.toList.Perm (seeds.map fun seed => seed.entry (seed.rank seeds))

section Sown

variable {config : Config Source} {s t : Simulation (Action n)} {seeds seeds' : List (Seed n)}
  {seed : Seed n}

theorem Sown.fresh : Sown config ([] : List (Seed n)) (Simulation.create config) :=
  ⟨.empty, rfl, .nil⟩

theorem Sown.refusal?_eq (sown : Sown config seeds s) (submission : Submission n) :
    submission.refusal? s = submission.refusal? (Simulation.create config) := by
  obtain ⟨timed, rfl, -⟩ := sown
  rfl

theorem Sown.freshId_eq (sown : Sown config seeds s) : s.freshId = ⟨seeds.length⟩ := by
  obtain ⟨timed, rfl, -⟩ := sown
  rfl

/-- One more seed. -/
theorem Sown.add (sown : Sown config seeds s)
    (apart : ∀ other ∈ seeds, other.time ≠ seed.time) :
    Sown config (seeds ++ [seed])
      (s.issue.lodge (seed.submission.ticket seed.body s.now s.freshId)) := by
  obtain ⟨timed, rfl, hperm⟩ := sown
  rw [seed.lodge_eq rfl]
  refine ⟨timed.insert _ _, by rw [List.length_append]; rfl, ?_⟩
  have hold : ∀ other ∈ seeds, other.entry (other.rank (seeds ++ [seed])) =
      other.entry (other.rank seeds) := fun other hmem => by rw [Seed.rank_append hmem]
  have hnew : seed.entry (seed.rank (seeds ++ [seed])) = seed.entry seeds.length := by
    rw [Seed.rank_last apart]
  rw [List.map_append, List.map_congr_left hold, List.map_singleton, hnew]
  exact ((Agenda.toList_insert_perm _ _ _).trans (hperm.cons _)).trans
    (List.perm_append_singleton _ _).symm

/-- The id of a seed after the seeds were handed in in another order. -/
theorem Seed.placed_rank (mem : seed ∈ seeds) :
    Renumbering.placed (seeds.map Seed.time) (seeds'.map Seed.time) ⟨seed.rank seeds⟩ =
      ⟨seed.rank seeds'⟩ := by
  have htime : (seeds.map Seed.time)[seed.rank seeds]? = some seed.time :=
    List.getElem?_idxOf (List.mem_map_of_mem mem)
  rw [Renumbering.placed, htime]
  rfl

theorem placed_of_length_le {k : Nat} (le : seeds.length ≤ k) :
    Renumbering.placed (seeds.map Seed.time) (seeds'.map Seed.time) ⟨k⟩ = ⟨k⟩ := by
  have hnone : (seeds.map Seed.time)[k]? = none := by
    rw [List.getElem?_eq_none_iff, List.length_map]
    exact le
  rw [Renumbering.placed, hnone]

theorem Seed.sameTimed {ρ : Renumbering} {k k' : Nat} (of : ρ.of ⟨k⟩ = some ⟨k'⟩)
    (due : ρ.DueAt ⟨k⟩ seed.time) : SameTimed ρ (seed.entry k) (seed.entry k') := by
  have hworks : SameWork ρ (seed.work k) (seed.work k') := .mk of _ _ _
  unfold Seed.entry Seed.event
  split
  · exact .mk seed.time .ordinary seed.time (.routed hworks) due
  · exact .mk seed.time .ordinary seed.time (.direct hworks) due

/-- **The same seeds, accepted in another order.** -/
theorem Sown.level (sown : Sown config seeds s) (sown' : Sown config seeds' t)
    (perm : seeds.Perm seeds') (distinct : (seeds.map Seed.time).Nodup) :
    Level (.reorder _ _ (perm.map Seed.time) distinct) s t := by
  obtain ⟨timed, rfl, hperm⟩ := sown
  obtain ⟨timed', rfl, hperm'⟩ := sown'
  have hentry : ∀ seed ∈ seeds, SameTimed (.reorder _ _ (perm.map Seed.time) distinct)
      (seed.entry (seed.rank seeds)) (seed.entry (seed.rank seeds')) := by
    intro seed hmem
    refine Seed.sameTimed (congrArg some (Seed.placed_rank hmem)) fun t ht => ?_
    have htime : (seeds.map Seed.time)[seed.rank seeds]? = some seed.time :=
      List.getElem?_idxOf (List.mem_map_of_mem hmem)
    exact Option.some.inj (ht.symm.trans htime)
  have hplaces : ∀ a ∈ seeds, ∀ b ∈ seeds,
      (a.entry (a.rank seeds')).1 = (b.entry (b.rank seeds')).1 →
        a.entry (a.rank seeds') = b.entry (b.rank seeds') := by
    intro a ha b hb heq
    rw [List.inj_on_of_nodup_map distinct ha hb (congrArg Turn.time heq)]
  have hids : ∀ k, Renumbering.placed (seeds.map Seed.time) (seeds'.map Seed.time)
        ⟨seeds.length + k⟩ = ⟨seeds'.length + k⟩ ∧
      (seeds.map Seed.time)[seeds.length + k]? = none := by
    intro k
    refine ⟨?_, ?_⟩
    · rw [placed_of_length_le (Nat.le_add_right _ _), perm.length_eq]
    · rw [List.getElem?_eq_none_iff, List.length_map]
      exact Nat.le_add_right _ _
  exact {
    immediate := .nil
    timed := renumbered_of_perm hperm (hperm'.trans (perm.symm.map _)) hentry
      (fun seed hmem => (hentry seed hmem).keeps) SameTimed.le_iff hplaces
    phase := fun _ => .running
    ids := fun k => (hids k).imp_left (congrArg some)
    cancelled := fun _ _ _ => rfl
    sources := rfl
    flags := rfl
    active := rfl
    processed := rfl
    trace := .none
    behind := Nat.le_refl _
    late := .inl rfl
    now := rfl }

end Sown

/-! ## A world with seeds -/

section Worlds

variable {configs : Vector (Config Source) n} {procedures : Table String (Script n)}
  {seeds seeds' : List (Seed n)} {seed : Seed n} {w v : World n} {i : Fin n}

/-- The fresh simulation accepts the seed. -/
def Seed.accepted (configs : Vector (Config Source) n) (seed : Seed n) : Bool :=
  seed.fits (Simulation.create (configs.get seed.sim))

/-- The seeds that the simulation `i` accepts. -/
def taken (configs : Vector (Config Source) n) (i : Fin n) (seeds : List (Seed n)) :
    List (Seed n) :=
  seeds.filter fun seed => seed.accepted configs && decide (seed.sim = i)

theorem mem_taken : seed ∈ taken configs i seeds ↔
    seed ∈ seeds ∧ seed.accepted configs = true ∧ seed.sim = i := by
  rw [taken, List.mem_filter, Bool.and_eq_true, decide_eq_true_iff]

theorem taken_add_of_not (not : ¬ (seed.accepted configs = true ∧ seed.sim = i)) :
    taken configs i (seeds ++ [seed]) = taken configs i seeds := by
  rw [taken, List.filter_append, List.filter_cons_of_neg (by simpa using not), List.filter_nil,
    List.append_nil]
  rfl

theorem taken_add (accepted : seed.accepted configs = true) :
    taken configs seed.sim (seeds ++ [seed]) = taken configs seed.sim seeds ++ [seed] := by
  rw [taken, List.filter_append, List.filter_cons_of_pos (by simpa using accepted), List.filter_nil]
  rfl

theorem time_ne_of_taken (apart : ∀ other ∈ seeds, other.Apart seed) :
    ∀ other ∈ taken configs seed.sim seeds, other.time ≠ seed.time := by
  intro other hmem
  obtain ⟨hother, -, hsim⟩ := mem_taken.1 hmem
  exact (apart other hother).1 hsim

theorem distinct_taken (apart : seeds.Pairwise Seed.Apart) (i : Fin n) :
    ((taken configs i seeds).map Seed.time).Nodup := by
  rw [List.Nodup, List.pairwise_map]
  refine (apart.sublist List.filter_sublist).imp_of_mem fun ha hb hapart => ?_
  exact hapart.1 ((mem_taken.1 ha).2.2.trans (mem_taken.1 hb).2.2.symm)

/-- An accepted seed binds its handle name, if it has one. -/
def Seed.Binds (configs : Vector (Config Source) n) (seeds : List (Seed n)) (seed : Seed n)
    (name : String) (handle : Handle n) : Prop :=
  seed.accepted configs = true ∧ seed.handle = some name ∧
    handle = ⟨seed.sim, ⟨seed.rank (taken configs seed.sim seeds)⟩⟩

theorem Seed.binds_append {name : String} {handle : Handle n} (mem : seed ∈ seeds)
    (more : List (Seed n)) :
    seed.Binds configs (seeds ++ more) name handle ↔ seed.Binds configs seeds name handle := by
  refine and_congr_right fun haccepted => ?_
  have htaken : taken configs seed.sim (seeds ++ more) =
      taken configs seed.sim seeds ++ taken configs seed.sim more := List.filter_append _ _
  rw [htaken, Seed.rank_append (mem_taken.2 ⟨mem, haccepted, rfl⟩)]

theorem Seed.binds_last {name : String} {handle : Handle n}
    (apart : ∀ other ∈ seeds, other.Apart seed) :
    seed.Binds configs (seeds ++ [seed]) name handle ↔
      seed.accepted configs = true ∧ seed.handle = some name ∧
        handle = ⟨seed.sim, ⟨(taken configs seed.sim seeds).length⟩⟩ := by
  refine and_congr_right fun haccepted => ?_
  rw [taken_add haccepted, Seed.rank_last (time_ne_of_taken apart)]

/-- The world is new but for the seeds, which were handed in in their order. -/
structure SownWorld (configs : Vector (Config Source) n) (procedures : Table String (Script n))
    (seeds : List (Seed n)) (w : World n) : Prop where
  procedures : w.procedures = procedures
  journal : w.journal = []
  sims : ∀ i : Fin n, Sown (configs.get i) (taken configs i seeds) (w.sim i)
  handles : ∀ name handle, w.handles.get? name = some handle ↔
    ∃ seed ∈ seeds, seed.Binds configs seeds name handle

/-- A seed is refused as the fresh simulation refuses it, or gets the next id. -/
theorem SownWorld.submit_eq (world : SownWorld configs procedures seeds w) (seed : Seed n) :
    w.submit seed.submission seed.body =
      match seed.submission.refusal? (.create (configs.get seed.sim)) with
      | some outcome => (w, outcome)
      | none =>
        let s := w.sim seed.sim
        ((w.setSim seed.sim
            (s.issue.lodge (seed.submission.ticket seed.body s.now s.freshId))).bindHandle
          seed.handle ⟨seed.sim, ⟨(taken configs seed.sim seeds).length⟩⟩,
        .accepted ⟨(taken configs seed.sim seeds).length⟩) := by
  rw [submit_eq_refusal, ← (world.sims seed.sim).freshId_eq]
  rw [show seed.submission.sim = seed.sim from rfl, (world.sims seed.sim).refusal?_eq]
  rfl

theorem SownWorld.fresh (configs : Vector (Config Source) n)
    (procedures : Table String (Script n)) :
    SownWorld configs procedures [] (.create configs procedures) where
  procedures := rfl
  journal := rfl
  sims i := by
    have hsim : (World.create configs procedures).sim i = .create (configs.get i) :=
      Vector.getElem_map _ _
    rw [hsim]
    exact .fresh
  handles name handle := by
    constructor
    · intro hnone
      cases hnone
    · rintro ⟨seed, hmem, -⟩
      cases hmem

/-- What one more seed binds. -/
theorem SownWorld.binds_iff (world : SownWorld configs procedures seeds w)
    (apart : ∀ other ∈ seeds, other.Apart seed) (name : String) (handle : Handle n) :
    (∃ other ∈ seeds ++ [seed], other.Binds configs (seeds ++ [seed]) name handle) ↔
      w.handles.get? name = some handle ∨ seed.accepted configs = true ∧
        seed.handle = some name ∧
          handle = ⟨seed.sim, ⟨(taken configs seed.sim seeds).length⟩⟩ := by
  rw [world.handles]
  constructor
  · rintro ⟨other, hmem, hother⟩
    rcases List.mem_append.1 hmem with hold | hnew
    · exact .inl ⟨other, hold, (Seed.binds_append hold _).1 hother⟩
    · cases List.mem_singleton.1 hnew
      exact .inr ((Seed.binds_last apart).1 hother)
  · rintro (⟨other, hold, hother⟩ | hnew)
    · exact ⟨other, List.mem_append_left _ hold, (Seed.binds_append hold _).2 hother⟩
    · exact ⟨seed, List.mem_append_right _ (List.mem_singleton_self _),
        (Seed.binds_last apart).2 hnew⟩

/-- **One more seed.** -/
theorem SownWorld.add (world : SownWorld configs procedures seeds w)
    (apart : ∀ other ∈ seeds, other.Apart seed) :
    SownWorld configs procedures (seeds ++ [seed]) (w.submit seed.submission seed.body).1 := by
  rw [world.submit_eq]
  cases hrefusal : seed.submission.refusal? (.create (configs.get seed.sim)) with
  | some outcome =>
    have hnot : ¬ seed.accepted configs = true := fun haccepted => by
      cases (Seed.refusal?_eq_none.2 haccepted).symm.trans hrefusal
    refine ⟨world.procedures, world.journal, fun i => ?_, fun name handle => ?_⟩
    · rw [taken_add_of_not fun h => hnot h.1]
      exact world.sims i
    · rw [world.binds_iff apart]
      exact ⟨.inl, fun h => h.resolve_right fun hnew => hnot hnew.1⟩
  | none =>
    have haccepted : seed.accepted configs = true := Seed.refusal?_eq_none.1 hrefusal
    refine ⟨(frame_bindHandle _ _ _).2.1.trans world.procedures,
      (frame_bindHandle _ _ _).2.2.trans world.journal, fun i => ?_, fun name handle => ?_⟩
    · dsimp only
      rw [World.sim, (frame_bindHandle _ _ _).1]
      show Sown _ _ ((w.setSim seed.sim _).sim i)
      rw [World.sim_setSim]
      split
      · rename_i hsim
        subst hsim
        rw [taken_add haccepted]
        exact (world.sims seed.sim).add (time_ne_of_taken apart)
      · rename_i hsim
        rw [taken_add_of_not fun h => hsim h.2]
        exact world.sims i
    · rw [world.binds_iff apart]
      dsimp only
      rw [get?_bindHandle]
      split
      · rename_i hname
        have hfree : w.handles.get? name ≠ some handle := by
          intro hget
          obtain ⟨other, hmem, -, hother, -⟩ := (world.handles name handle).1 hget
          exact (apart other hmem).2 name hother hname
        constructor
        · intro heq
          exact .inr ⟨haccepted, hname, (Option.some.inj heq).symm⟩
        · rintro (hget | ⟨-, -, rfl⟩)
          · exact absurd hget hfree
          · rfl
      · rename_i hname
        exact ⟨.inl, fun h => h.resolve_right fun hnew => hname hnew.2.1⟩

/-- The ids that the simulations give to the same seeds in another order. -/
def reordered (configs : Vector (Config Source) n) (perm : seeds.Perm seeds')
    (apart : seeds.Pairwise Seed.Apart) : Fin n → Renumbering := fun i =>
  .reorder ((taken configs i seeds).map Seed.time) ((taken configs i seeds').map Seed.time)
    ((perm.filter _).map Seed.time) (distinct_taken apart i)

/-- **Worlds in which the same seeds were handed in in another order resemble each other.** -/
theorem SownWorld.resembles (given : Failure → Prop)
    (world : SownWorld configs procedures seeds w) (world' : SownWorld configs procedures seeds' v)
    (perm : seeds.Perm seeds') (apart : seeds.Pairwise Seed.Apart) :
    Resembles ⟨reordered configs perm apart, given⟩ [] [] w v := by
  have hbinds : ∀ {name : String} {seed : Seed n} {handle : Handle n}, seed ∈ seeds →
      seed.Binds configs seeds name handle →
      ∃ handle', v.handles.get? name = some handle' ∧
        SameHandle ⟨reordered configs perm apart, given⟩ (some handle) (some handle') := by
    rintro name seed handle hmem ⟨haccepted, hname, rfl⟩
    refine ⟨_, (world'.handles name _).2 ⟨seed, perm.mem_iff.1 hmem, haccepted, hname, rfl⟩,
      .bound ?_⟩
    exact congrArg some (Seed.placed_rank (mem_taken.2 ⟨hmem, haccepted, rfl⟩))
  refine ⟨⟨world'.procedures.trans world.procedures.symm, fun name => ?_,
    ⟨[], [], world.journal, world'.journal, .nil⟩⟩, fun i => ?_⟩
  · cases hget : w.handles.get? name with
    | some handle =>
      obtain ⟨seed, hmem, hseed⟩ := (world.handles name handle).1 hget
      obtain ⟨handle', hget', hsame⟩ := hbinds hmem hseed
      exact hget' ▸ hsame
    | none =>
      cases hget' : v.handles.get? name with
      | none => exact .free
      | some handle' =>
        obtain ⟨seed, hmem, haccepted, hname, -⟩ := (world'.handles name handle').1 hget'
        have hget'' := (world.handles name _).2
          ⟨seed, perm.mem_iff.2 hmem, haccepted, hname, rfl⟩
        cases hget.symm.trans hget''
  · exact (world.sims i).level (world'.sims i) (perm.filter _) (distinct_taken apart i)

end Worlds

/-! ## Runs -/

section Seeded

variable {configs : Vector (Config Source) n} {procedures : Table String (Script n)}
  {seeds seeds' : List (Seed n)} {w : World n}

/-- The machine after the seeds were handed in from outside, one after the other. -/
def World.seeded (w : World n) (seeds : List (Seed n)) : Machine n :=
  (Machine.atRest w).ask (seeds.map Seed.request)

theorem seeded_append (w : World n) (seeds : List (Seed n)) (seed : Seed n) :
    w.seeded (seeds ++ [seed]) =
      ⟨((w.seeded seeds).world.submit seed.submission seed.body).1,
        .returned ((w.seeded seeds).world.submit seed.submission seed.body).2, []⟩ := by
  have hask : ∀ (m : Machine n) (first second : List (Request n)),
      m.ask (first ++ second) = (m.ask first).ask second := by
    intro m first second
    induction first generalizing m with
    | nil => rfl
    | cons request first ih => exact ih _
  rw [World.seeded, List.map_append, hask]
  rfl

/-- Each seed is answered at once. -/
theorem answers_seeds (m : Machine n) (rested : m.result?.isSome = true) (seeds : List (Seed n)) :
    m.answers (seeds.map Seed.request) = true ∧
      (m.ask (seeds.map Seed.request)).result?.isSome = true := by
  induction seeds generalizing m with
  | nil => exact ⟨rfl, rested⟩
  | cons seed seeds ih =>
    obtain ⟨hanswers, hrested⟩ := ih (Machine.request m.world seed.request) rfl
    exact ⟨by rw [List.map_cons, Machine.answers, rested, hanswers, Bool.and_self], hrested⟩

/-- What seeds leave. -/
theorem sown_seeded (apart : seeds.Pairwise Seed.Apart) :
    SownWorld configs procedures seeds ((World.create configs procedures).seeded seeds).world := by
  induction seeds using List.reverseRecOn with
  | nil => exact .fresh configs procedures
  | append_singleton seeds seed ih =>
    obtain ⟨hold, -, hnew⟩ := List.pairwise_append.1 apart
    rw [seeded_append]
    exact (ih hold).add fun other hmem => hnew other hmem seed (List.mem_singleton_self _)

theorem nextId_seeded (apart : seeds.Pairwise Seed.Apart) (i : Fin n) :
    (((World.create configs procedures).seeded seeds).world.sim i).nextId =
      (taken configs i seeds).length :=
  congrArg EventId.raw ((sown_seeded apart).sims i).freshId_eq

section Answers

variable {before behind : List (Seed n)} {seed : Seed n}

/-- As many seeds are accepted before a seed as its id says. -/
theorem length_taken_before (apart : (before ++ seed :: behind).Pairwise Seed.Apart)
    (accepted : seed.accepted configs = true) :
    (taken configs seed.sim before).length =
      seed.rank (taken configs seed.sim (before ++ seed :: behind)) := by
  obtain ⟨-, -, hcross⟩ := List.pairwise_append.1 apart
  have hbefore : ∀ other ∈ before, other.Apart seed :=
    fun other hmem => hcross other hmem seed List.mem_cons_self
  have hsplit : taken configs seed.sim (before ++ seed :: behind) =
      taken configs seed.sim (before ++ [seed]) ++ taken configs seed.sim behind := by
    rw [taken, List.append_cons, List.filter_append]
    rfl
  have hmem : seed ∈ taken configs seed.sim before ++ [seed] :=
    List.mem_append_right _ (List.mem_singleton_self _)
  rw [hsplit, taken_add accepted, Seed.rank_append hmem, Seed.rank_last (time_ne_of_taken hbefore)]

/-- What is answered to a seed. -/
theorem result?_seeded (apart : (before ++ seed :: behind).Pairwise Seed.Apart) :
    ((World.create configs procedures).seeded (before ++ [seed])).result? =
      match seed.submission.refusal? (.create (configs.get seed.sim)) with
      | some outcome => some outcome
      | none =>
        some (.accepted ⟨seed.rank (taken configs seed.sim (before ++ seed :: behind))⟩) := by
  have hworld : SownWorld configs procedures before _ :=
    sown_seeded (List.pairwise_append.1 apart).1
  rw [seeded_append, hworld.submit_eq]
  cases hrefusal : seed.submission.refusal? (.create (configs.get seed.sim)) with
  | some outcome => rfl
  | none =>
    have haccepted : seed.accepted configs = true := Seed.refusal?_eq_none.1 hrefusal
    rw [← length_taken_before apart haccepted]
    rfl

end Answers

/-- The ids `ids` are those of the same seeds in another order; all later ids stay as they are. -/
structure Reorders (ids : Fin n → Renumbering) (w : World n) (seeds seeds' : List (Seed n)) :
    Prop where
  /-- A seed has the same answer in both orders, but for its id. -/
  answers : ∀ before seed behind before' behind', seeds = before ++ seed :: behind →
    seeds' = before' ++ seed :: behind' →
    SameResult (.upTo ids (w.seeded seeds)) seed.sim (w.seeded (before ++ [seed]))
      (w.seeded (before' ++ [seed]))
  nextId : ∀ i, ((w.seeded seeds').world.sim i).nextId = ((w.seeded seeds).world.sim i).nextId
  later : ∀ i id, ((w.seeded seeds).world.sim i).nextId ≤ id.raw → (ids i).of id = some id

/-- The two ids of an accepted seed stand for each other. -/
theorem Reorders.of_accepted {ids : Fin n → Renumbering} (reorders : Reorders ids w seeds seeds')
    (before : List (Seed n)) {seed : Seed n} (behind before' behind' : List (Seed n))
    (split : seeds = before ++ seed :: behind) (split' : seeds' = before' ++ seed :: behind')
    {a b : EventId} (first : (w.seeded (before ++ [seed])).result? = some (.accepted a))
    (second : (w.seeded (before' ++ [seed])).result? = some (.accepted b)) :
    (ids seed.sim).of a = some b := by
  obtain ⟨o, hresult, houtcome⟩ :=
    reorders.answers before seed behind before' behind' split split' _ first
  cases hresult.symm.trans second
  cases houtcome with
  | accepted of => exact of
  | anonymous anonymous => cases anonymous

theorem reorders_reordered (perm : seeds.Perm seeds') (apart : seeds.Pairwise Seed.Apart) :
    Reorders (reordered configs perm apart) (.create configs procedures) seeds seeds' where
  answers := by
    rintro before seed behind before' behind' rfl rfl o hresult
    rw [result?_seeded apart] at hresult
    rw [result?_seeded (apart.perm perm Seed.Apart.symm)]
    cases hrefusal : seed.submission.refusal? (.create (configs.get seed.sim)) with
    | some outcome =>
      rw [hrefusal] at hresult
      cases hresult
      exact ⟨_, rfl, .anonymous (isAnonymous_of_refusal? hrefusal)⟩
    | none =>
      rw [hrefusal] at hresult
      cases hresult
      have hmem : seed ∈ taken configs seed.sim (before ++ seed :: behind) :=
        mem_taken.2 ⟨List.mem_append_right _ List.mem_cons_self,
          Seed.refusal?_eq_none.1 hrefusal, rfl⟩
      exact ⟨_, rfl, .accepted (congrArg some (Seed.placed_rank hmem))⟩
  nextId i := by
    rw [nextId_seeded apart, nextId_seeded (apart.perm perm Seed.Apart.symm)]
    exact ((perm.filter _).length_eq).symm
  later i id hge := by
    rw [nextId_seeded apart] at hge
    exact congrArg some (placed_of_length_le hge)

/-- **Seeds can be handed in in any order.**  Before anything else happens to new simulations,
timed submissions are made from outside; those to one simulation have distinct times, and no handle
name is bound twice.  Made in another order, they are answered alike, but for the ids that they get;
and whatever is requested then, the same actions start, in the same order and at the same instants,
and the traces, the counts, the answers, the failures, the clocks, the flags and the stalled sources
are the same, but for those ids.  Whatever is submitted later has the same id. -/
theorem seeds_in_any_order (configs : Vector (Config Source) n)
    (procedures : Table String (Script n)) (perm : seeds.Perm seeds')
    (apart : seeds.Pairwise Seed.Apart) :
    ∃ ids : Fin n → Renumbering, Reorders ids (.create configs procedures) seeds seeds' ∧
      ∀ requests later m,
        Session ((World.create configs procedures).seeded seeds) requests later m →
        ∃ later' u, Session ((World.create configs procedures).seeded seeds') requests later' u ∧
          Agrees (.upTo ids m) [] [] m u ∧
          ∀ request more, requests = request :: more →
            SameResult (.upTo ids m) (askedLast request.sim more) m u := by
  refine ⟨reordered configs perm apart, reorders_reordered perm apart,
    fun requests later m session => ?_⟩
  obtain ⟨hanswers, hrested⟩ := answers_seeds (.atRest (.create configs procedures)) rfl seeds
  have hrested' := (answers_seeds (.atRest (.create configs procedures)) rfl seeds').2
  have hsown : SownWorld configs procedures seeds' _ :=
    sown_seeded (apart.perm perm Seed.Apart.symm)
  exact Resembles.session ((sown_seeded apart).resembles _ hsown perm apart)
    ((History.create configs procedures).ask _ hanswers) hrested hrested' session
    (fun _ _ _ _ => rfl) fun _ hmem => hmem

end Seeded

/-! ## Timers that a stall holds back -/

/-- A seed of the small world, for the instant `time`. -/
def seedAt (time : UInt64) (label : String) (body : Script 1) : Seed 1 :=
  ⟨lone, .index 0, ⟨time⟩, true, label, none, body⟩

/-- The first action stalls the source until five, and the two others wait for the release. -/
def threeSeeds : List (Seed 1) :=
  [seedAt 1 "stall" stallUntilFive, seedAt 3 "first" .done, seedAt 4 "second" .done]

/-- The same seeds in another order. -/
def threeShuffled : List (Seed 1) :=
  [seedAt 4 "second" .done, seedAt 1 "stall" stallUntilFive, seedAt 3 "first" .done]

/-- The trace is enabled, and the simulation is told to run. -/
def traceAndRun : List (Request 1) := [.command lone .enableTrace, .command lone .run]

/-- The timers of the first order have run. -/
def threeSeedsRun : Machine 1 := ((smallWorld.seeded threeSeeds).ask traceAndRun).steps 20

/-- In the other order the same actions start at the same instants, under other ids. -/
theorem seeds_in_any_order_of_three :
    threeSeedsRun.result? = some (.count 3) ∧
    (threeSeedsRun.world.sim lone).trace =
      some [⟨⟨1⟩, ⟨0⟩, .index 0, "stall"⟩, ⟨⟨5⟩, ⟨1⟩, .index 0, "first"⟩,
        ⟨⟨5⟩, ⟨2⟩, .index 0, "second"⟩] ∧
    ∃ later u, Session (smallWorld.seeded threeShuffled) traceAndRun later u ∧
      u.result? = some (.count 3) ∧
      (u.world.sim lone).trace =
        some [⟨⟨1⟩, ⟨1⟩, .index 0, "stall"⟩, ⟨⟨5⟩, ⟨2⟩, .index 0, "first"⟩,
          ⟨⟨5⟩, ⟨0⟩, .index 0, "second"⟩] := by
  have hperm : threeSeeds.Perm threeShuffled :=
    (List.perm_append_comm : ([seedAt 1 "stall" stallUntilFive, seedAt 3 "first" .done] ++
      [seedAt 4 "second" .done]).Perm _)
  have hapart : threeSeeds.Pairwise Seed.Apart := by
    simp [threeSeeds, seedAt, Seed.Apart]
  obtain ⟨ids, hreorders, hruns⟩ :=
    seeds_in_any_order #v[⟨.zero, false, [.index 0]⟩] .empty hperm hapart
  rw [create_small] at hreorders hruns
  have hsession : Session (smallWorld.seeded threeSeeds) traceAndRun _ threeSeedsRun :=
    (Session.ask _ traceAndRun rfl).append (.steps _ 20)
  have hresult : threeSeedsRun.result? = some (.count 3) := rfl
  have htrace : (threeSeedsRun.world.sim lone).trace =
      some [⟨⟨1⟩, ⟨0⟩, .index 0, "stall"⟩, ⟨⟨5⟩, ⟨1⟩, .index 0, "first"⟩,
        ⟨⟨5⟩, ⟨2⟩, .index 0, "second"⟩] := rfl
  obtain ⟨later, u, hother, hagrees, hsame⟩ := hruns _ _ _ hsession
  refine ⟨hresult, htrace, later, u, hother, ?_, ?_⟩
  · obtain ⟨o, ho, houtcome⟩ := hsame _ _ rfl _ hresult
    cases houtcome
    exact ho
  · -- the ids of the seeds are those that were answered in the other order
    have hstall : (ids lone).of ⟨0⟩ = some ⟨1⟩ :=
      hreorders.of_accepted [] _ [seedAt 4 "second" .done] _ rfl rfl rfl rfl
    have hfirst : (ids lone).of ⟨1⟩ = some ⟨2⟩ :=
      hreorders.of_accepted [seedAt 1 "stall" stallUntilFive] _
        [seedAt 4 "second" .done, seedAt 1 "stall" stallUntilFive] _ rfl rfl rfl rfl
    have hsecond : (ids lone).of ⟨2⟩ = some ⟨0⟩ :=
      hreorders.of_accepted [seedAt 1 "stall" stallUntilFive, seedAt 3 "first" .done] _ [] _
        rfl rfl rfl rfl
    have hentries := hagrees.trace lone
    rw [htrace] at hentries
    generalize (u.world.sim lone).trace = trace at hentries
    cases hentries with
    | some entries =>
      rcases entries with _ | ⟨⟨_, hof⟩, _ | ⟨⟨_, hof'⟩, _ | ⟨⟨_, hof''⟩, _ | _⟩⟩⟩
      cases hof.symm.trans hstall
      cases hof'.symm.trans hfirst
      cases hof''.symm.trans hsecond
      rfl

end StallSim
