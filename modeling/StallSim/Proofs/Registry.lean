import Mathlib.Data.Finset.Dedup
import Mathlib.Data.List.Induction
import Mathlib.Logic.Relation
import StallSim.Proofs.Ledger
import StallSim.Proofs.Steps
import StallSim.Scenario

/-!
# Sources given more than once

A configuration may name a source more than once: its record can be written down so, and a stored
one is read back so.  The builders leave the repetitions out, and so does a simulation, which keeps
one list of sources without repetitions.  Here the sources are kept in more than one place: a set of
those that may hand in work, an index from sources to schedulers, the order in which the schedulers
were made, and the cells in which they keep what their sources are doing.  Each place leaves
repetitions out by itself, and they have to agree: whoever goes through the order and asks the
index must find a scheduler every time.

* `FirstPlaces` — the members of a list, each once, in the order of their first places.
* `Config.builtUp` — a configuration whose sources are given at once and one by one.
* `Registry` — the set, the index, the order and the cells; `Registry.create` — made from a list.
* `Registry.Onward` — sources are put in phases through their schedulers, and nothing else.
* `Registry.Tidy` — the places agree on the sources that were listed.
* `Registry.Serves`, `Registry.Answers` — the registry tells of the sources what a simulation tells.

Principal results: `firstPlaces_distinct`; `Registry.create_distinct` — repetitions make no
difference to any of the places; `Registry.tidy_of_onward`; `Registry.read_write_of_onward` — the
schedulers of a source share one cell; `shifts_of_move` — a move puts at most one source in another
phase; `Registry.serves_of_later` — a registry follows its simulation;
`repeated_sources_never_matter`.
-/

set_option autoImplicit false

namespace StallSim

/-! ## The order of first places -/

section FirstPlaces

variable {σ : Type} [DecidableEq σ]

/-- The members of `xs`, each once, in the order of their first places. -/
structure FirstPlaces (xs firsts : List σ) : Prop where
  members : ∀ x, x ∈ firsts ↔ x ∈ xs
  once : firsts.Nodup
  ordered : firsts.Pairwise (fun x y => xs.idxOf x < xs.idxOf y)

theorem distinct_concat (xs : List σ) (x : σ) : distinct (xs ++ [x]) = addNew (distinct xs) x :=
  distinct_append xs [x]

theorem firstPlaces_distinct (xs : List σ) : FirstPlaces xs (distinct xs) := by
  refine ⟨fun _ => mem_distinct, nodup_distinct xs, ?_⟩
  induction xs using List.reverseRecOn with
  | nil => exact List.Pairwise.nil
  | append_singleton xs x ih =>
    -- A member keeps its first place when something comes behind.
    have hkept : (distinct xs).Pairwise
        (fun y z => (xs ++ [x]).idxOf y < (xs ++ [x]).idxOf z) := by
      refine ih.imp_of_mem fun hy hz hlt => ?_
      rwa [List.idxOf_append_of_mem (mem_distinct.1 hy),
        List.idxOf_append_of_mem (mem_distinct.1 hz)]
    rw [distinct_concat, addNew]
    split
    · exact hkept
    · rename_i hnew
      rw [mem_distinct] at hnew
      refine List.pairwise_append.2 ⟨hkept, List.pairwise_singleton _ _, fun y hy z hz => ?_⟩
      have hmem := mem_distinct.1 hy
      rw [List.mem_singleton.1 hz, List.idxOf_append_of_mem hmem,
        List.idxOf_append_of_notMem hnew]
      exact Nat.lt_of_lt_of_le (List.idxOf_lt_length_of_mem hmem) (Nat.le_add_right _ _)

/-- What is distinct stays as it is. -/
theorem distinct_of_nodup {xs : List σ} (nodup : xs.Nodup) : distinct xs = xs := by
  induction xs using List.reverseRecOn with
  | nil => rfl
  | append_singleton xs x ih =>
    obtain ⟨hxs, -, hnew⟩ := List.nodup_append.1 nodup
    rw [distinct_concat, ih hxs, addNew, if_neg]
    exact fun hmem => hnew x hmem x (List.mem_singleton.2 rfl) rfl

end FirstPlaces

/-! ## Configurations -/

/-- A simulation is the same with repetitions and without. -/
theorem Simulation.create_distinct {α : Type} (c : Config Source) :
    (create ⟨c.initialTime, c.startPaused, distinct c.sources⟩ : Simulation α) = create c := by
  rw [create, create, distinct_of_nodup (nodup_distinct _)]

namespace Config

/-- The configuration with the sources `first`, given at once, and `more`, given one by one. -/
def builtUp (time : Instant) (paused : Bool) (first more : List Source) : Config Source :=
  ((more.foldl withSource (ofSources first)).startingAt time).startingPaused paused

theorem builtUp_eq (time : Instant) (paused : Bool) (first more : List Source) :
    builtUp time paused first more = ⟨time, paused, distinct (first ++ more)⟩ := by
  show (⟨time, paused, (more.foldl withSource (ofSources first)).sources⟩ : Config Source) = _
  rw [sources_foldl_withSource, distinct_append]
  rfl

end Config

/-! ## The registry -/

/-- The scheduler of a source: whom it hands in work for, and in which cell it keeps what its source
is doing. -/
structure Scheduler where
  source : Source
  cell : Nat

/-- The places in which sources are kept. -/
structure Registry (α : Type) where
  /-- The sources that may hand in work. -/
  known : Finset Source
  schedulers : Table Source Scheduler
  /-- The sources with a scheduler, in the order in which they got it. -/
  order : List Source
  cells : List (Phase α)

namespace Registry

variable {α : Type}

/-- Make a scheduler for a source, unless it has one or may not hand in work. -/
def enroll (r : Registry α) (source : Source) : Registry α :=
  match r.schedulers.get? source with
  | some _ => r
  | none =>
    if source ∈ r.known then
      { r with
        schedulers := r.schedulers.set source ⟨source, r.cells.length⟩
        order := r.order ++ [source]
        cells := r.cells ++ [.running] }
    else r

/-- The registry in which nobody has a scheduler yet. -/
def blank (known : Finset Source) : Registry α := ⟨known, .empty, [], []⟩

/-- The registry that is made from a list of sources. -/
def create (sources : List Source) : Registry α := sources.foldl enroll (blank sources.toFinset)

/-- The source may hand in work. -/
def knows (r : Registry α) (source : Source) : Bool := source ∈ r.known

/-- The scheduler of a source. -/
def scheduler (r : Registry α) (source : Source) : Except Error Scheduler :=
  match r.schedulers.get? source with
  | some d => .ok d
  | none => .error (.unknownSource source.label)

/-- Put the source of a scheduler in a phase. -/
def write (r : Registry α) (d : Scheduler) (phase : Phase α) : Registry α :=
  { r with cells := r.cells.set d.cell phase }

/-- What the source of a scheduler is doing. -/
def read (r : Registry α) (d : Scheduler) : Option (Phase α) := r.cells[d.cell]?

/-- What a source is doing, as its scheduler tells; `none` where there is no scheduler. -/
def phase? (r : Registry α) (source : Source) : Option (Phase α) :=
  (r.schedulers.get? source).bind r.read

/-- The sources that are stalled, in order; `none` where a scheduler is missing. -/
def pausedSources? (r : Registry α) : Option (List Source) :=
  (r.order.mapM r.phase?).map (fun phases =>
    ((r.order.zip phases).filter (fun e => e.2.isStalled)).map Prod.fst)

/-- What the calendar has, then the work held back for each source, in order; `none` where a
scheduler is missing. -/
def pendingEvents? (r : Registry α) (scheduled : List Pending) (cancelled : List EventId) :
    Option (List Pending) :=
  (r.order.mapM r.phase?).map (fun phases =>
    scheduled ++ phases.flatMap (fun phase => phase.deferred cancelled))

/-! ### The places agree -/

/-- A list has what it had, and at the next place what came behind. -/
theorem getElem?_concat_eq_some {σ : Type} {xs : List σ} {x y : σ} {k : Nat} :
    (xs ++ [x])[k]? = some y ↔ xs[k]? = some y ∨ k = xs.length ∧ x = y := by
  rcases Nat.lt_trichotomy k xs.length with hlt | rfl | hgt
  · rw [List.getElem?_append_left hlt]
    exact ⟨.inl, fun h => h.resolve_right (fun hlast => Nat.ne_of_lt hlt hlast.1)⟩
  · rw [List.getElem?_concat_length, List.getElem?_eq_none (Nat.le_refl _)]
    simp
  · rw [List.getElem?_eq_none, List.getElem?_eq_none (Nat.le_of_lt hgt)]
    · simp [Nat.ne_of_gt hgt]
    · rw [List.length_append]
      exact hgt

/-- The index has the sources of the order, each with the cell at its place. -/
structure Sound (r : Registry α) : Prop where
  found : ∀ source d, r.schedulers.get? source = some d ↔
    d.source = source ∧ r.order[d.cell]? = some source
  cells : r.cells.length = r.order.length

theorem Sound.get?_eq_none {r : Registry α} (sound : r.Sound) {source : Source} :
    r.schedulers.get? source = none ↔ source ∉ r.order := by
  rw [List.mem_iff_getElem?, Option.eq_none_iff_forall_ne_some]
  constructor
  · rintro hnone ⟨cell, hcell⟩
    exact hnone ⟨source, cell⟩ ((sound.found source ⟨source, cell⟩).2 ⟨rfl, hcell⟩)
  · intro habsent d hd
    exact habsent ⟨d.cell, ((sound.found source d).1 hd).2⟩

theorem scheduler_eq_ok {r : Registry α} {source : Source} {d : Scheduler} :
    r.scheduler source = .ok d ↔ r.schedulers.get? source = some d := by
  unfold scheduler
  cases r.schedulers.get? source with
  | none => simp
  | some e => simp

/-- A source without a scheduler that may hand in work gets the next cell. -/
theorem enroll_of_not_mem {r : Registry α} (sound : r.Sound) {source : Source}
    (new : source ∉ r.order) (known : source ∈ r.known) :
    r.enroll source =
      { r with
        schedulers := r.schedulers.set source ⟨source, r.cells.length⟩
        order := r.order ++ [source]
        cells := r.cells ++ [.running] } := by
  rw [enroll, sound.get?_eq_none.2 new]
  exact if_pos known

theorem enroll_of_mem {r : Registry α} (sound : r.Sound) {source : Source}
    (mem : source ∈ r.order) : r.enroll source = r := by
  unfold enroll
  cases hfound : r.schedulers.get? source with
  | none => exact absurd mem (sound.get?_eq_none.1 hfound)
  | some d => rfl

theorem Sound.enroll {r : Registry α} (sound : r.Sound) {source : Source}
    (known : source ∈ r.known) : (r.enroll source).Sound := by
  by_cases hmem : source ∈ r.order
  · rw [enroll_of_mem sound hmem]
    exact sound
  rw [enroll_of_not_mem sound hmem known]
  constructor
  · intro other d
    show (r.schedulers.set source _).get? other = some d ↔ _
    rw [Table.get?_set, getElem?_concat_eq_some]
    -- The next cell is that of the new source; the others keep theirs.
    split
    · rename_i hsame
      subst hsame
      have habsent : r.order[d.cell]? ≠ some source := fun h => hmem (List.mem_of_getElem? h)
      rw [Option.some.injEq, sound.cells, or_iff_right habsent]
      constructor
      · rintro rfl
        exact ⟨rfl, rfl, rfl⟩
      · rintro ⟨rfl, hcell, -⟩
        exact congrArg _ hcell.symm
    · rename_i hother
      rw [sound.found, or_iff_left (fun hlast => hother hlast.2)]
  · show (r.cells ++ [Phase.running]).length = (r.order ++ [source]).length
    rw [List.length_append, List.length_append, sound.cells]
    rfl

theorem order_enroll {r : Registry α} (sound : r.Sound) {source : Source}
    (known : source ∈ r.known) : (r.enroll source).order = addNew r.order source := by
  by_cases hmem : source ∈ r.order
  · rw [enroll_of_mem sound hmem, addNew, if_pos hmem]
  · rw [enroll_of_not_mem sound hmem known, addNew, if_neg hmem]

theorem known_enroll (r : Registry α) (source : Source) : (r.enroll source).known = r.known := by
  unfold enroll
  split
  · rfl
  · split <;> rfl

/-- Sources that may hand in work get their schedulers one after the other. -/
theorem foldl_enroll {r : Registry α} (sound : r.Sound) {sources : List Source}
    (known : ∀ source ∈ sources, source ∈ r.known) :
    (sources.foldl enroll r).Sound ∧ (sources.foldl enroll r).known = r.known ∧
      (sources.foldl enroll r).order = sources.foldl addNew r.order := by
  induction sources generalizing r with
  | nil => exact ⟨sound, rfl, rfl⟩
  | cons source sources ih =>
    obtain ⟨hsource, hsources⟩ := List.forall_mem_cons.1 known
    have hknown := known_enroll r source
    obtain ⟨hsound, hsame, horder⟩ := ih (sound.enroll hsource) (hknown ▸ hsources)
    rw [List.foldl_cons, List.foldl_cons]
    refine ⟨hsound, hsame.trans hknown, ?_⟩
    rw [horder, order_enroll sound hsource]

theorem sound_blank (known : Finset Source) : (blank known : Registry α).Sound := by
  refine ⟨fun source d => ?_, rfl⟩
  show (Table.empty : Table Source Scheduler).get? source = some d ↔ _
  rw [Table.get?_empty]
  exact iff_of_false (fun h => by cases h) (fun h => by cases h.2)

/-- The three places, made from any list: the set has its members, the order has them in the order
of their first places, and the index agrees with the order. -/
theorem create_spec (sources : List Source) : (create sources : Registry α).Sound ∧
    (create sources : Registry α).known = sources.toFinset ∧
    (create sources : Registry α).order = distinct sources :=
  foldl_enroll (sound_blank _) (fun _ => List.mem_toFinset.2)

/-- A source is passed over where it comes again. -/
theorem foldl_enroll_distinct {known : Finset Source} {sources : List Source}
    (all : ∀ source ∈ sources, source ∈ known) :
    (distinct sources).foldl enroll (blank known : Registry α) =
      sources.foldl enroll (blank known) := by
  induction sources using List.reverseRecOn with
  | nil => rfl
  | append_singleton sources source ih =>
    have hbefore : ∀ other ∈ sources, other ∈ known :=
      fun other hother => all other (List.mem_append_left _ hother)
    obtain ⟨hsound, -, horder⟩ := foldl_enroll (sound_blank (α := α) known) hbefore
    rw [distinct_concat, addNew, List.foldl_append, List.foldl_cons, List.foldl_nil]
    split
    -- A source that comes again has its scheduler from the first time.
    · rename_i hagain
      have hmem : source ∈ (sources.foldl enroll (blank known : Registry α)).order := by
        rw [horder]
        exact hagain
      rw [ih hbefore, enroll_of_mem hsound hmem]
    · rw [List.foldl_append, ih hbefore]
      rfl

/-- **Repetitions make no difference to any of the places.** -/
theorem create_distinct (sources : List Source) :
    (create (distinct sources) : Registry α) = create sources := by
  have hknown : (distinct sources).toFinset = sources.toFinset := by
    ext source
    rw [List.mem_toFinset, List.mem_toFinset, mem_distinct]
  show (distinct sources).foldl enroll (blank (distinct sources).toFinset) = _
  rw [hknown]
  exact foldl_enroll_distinct (fun _ => List.mem_toFinset.2)

/-- Every source runs at first. -/
theorem running_create {sources : List Source} {phase : Phase α}
    (mem : phase ∈ (create sources).cells) : phase = .running := by
  -- The fold goes on from any registry in which every source runs.
  suffices hfold : ∀ r : Registry α, (∀ phase ∈ r.cells, phase = .running) →
      ∀ phase ∈ (sources.foldl enroll r).cells, phase = .running from
    hfold (blank sources.toFinset) (fun _ h => by cases h) phase mem
  clear mem
  induction sources with
  | nil => exact fun _ hrunning => hrunning
  | cons source sources ih =>
    intro r hrunning
    refine ih (r.enroll source) fun phase hmem => ?_
    unfold enroll at hmem
    split at hmem
    · exact hrunning phase hmem
    · split at hmem
      · exact (List.mem_append.1 hmem).elim (hrunning phase) List.mem_singleton.1
      · exact hrunning phase hmem

theorem mem_cells_of_phase? {r : Registry α} {source : Source} {phase : Phase α}
    (found : r.phase? source = some phase) : phase ∈ r.cells := by
  obtain ⟨d, -, hd⟩ := Option.bind_eq_some_iff.1 found
  exact List.mem_of_getElem? hd

/-! ### Schedulers at work -/

/-- A source is put in a phase through the scheduler that is given out for it. -/
inductive Written (r : Registry α) : Registry α → Prop where
  | through {source : Source} {d : Scheduler} (given : r.scheduler source = .ok d)
      (phase : Phase α) : Written r (r.write d phase)

/-- Sources are put in phases, one after the other. -/
def Onward (r r' : Registry α) : Prop := Relation.ReflTransGen Written r r'

/-- Only the cells change. -/
theorem Written.kept {r r' : Registry α} (written : r.Written r') :
    r'.schedulers = r.schedulers ∧ r'.known = r.known ∧ r'.order = r.order ∧
      r'.cells.length = r.cells.length := by
  cases written with
  | through given phase => exact ⟨rfl, rfl, rfl, List.length_set⟩

theorem Onward.kept {r r' : Registry α} (onward : r.Onward r') :
    r'.schedulers = r.schedulers ∧ r'.known = r.known ∧ r'.order = r.order ∧
      r'.cells.length = r.cells.length := by
  induction onward with
  | refl => exact ⟨rfl, rfl, rfl, rfl⟩
  | tail _ written ih =>
    obtain ⟨hschedulers, hknown, horder, hcells⟩ := ih
    obtain ⟨hschedulers', hknown', horder', hcells'⟩ := written.kept
    exact ⟨hschedulers'.trans hschedulers, hknown'.trans hknown, horder'.trans horder,
      hcells'.trans hcells⟩

theorem Onward.sound {r r' : Registry α} (onward : r.Onward r') (sound : r.Sound) : r'.Sound := by
  obtain ⟨hschedulers, -, horder, hcells⟩ := onward.kept
  refine ⟨fun source d => ?_, ?_⟩
  · rw [hschedulers, horder]
    exact sound.found source d
  · rw [hcells, horder]
    exact sound.cells

/-- Different sources have different cells. -/
theorem Sound.cell_inj {r : Registry α} (sound : r.Sound) {x y : Source} {d e : Scheduler}
    (given : r.schedulers.get? x = some d) (given' : r.schedulers.get? y = some e) :
    d.cell = e.cell ↔ x = y := by
  constructor
  · intro hcell
    have hx := ((sound.found x d).1 given).2
    rw [hcell, ((sound.found y e).1 given').2] at hx
    exact (Option.some.inj hx).symm
  · rintro rfl
    exact congrArg Scheduler.cell (Option.some.inj (given.symm.trans given'))

/-- The cell of a scheduler is there. -/
theorem Sound.cell_lt {r : Registry α} (sound : r.Sound) {source : Source} {d : Scheduler}
    (given : r.schedulers.get? source = some d) : d.cell < r.cells.length := by
  rw [sound.cells]
  exact (List.getElem?_eq_some_iff.1 ((sound.found source d).1 given).2).1

/-- What is written through a scheduler of a source is read through every scheduler of it, and
through no scheduler of another one. -/
theorem Sound.read_write {r : Registry α} (sound : r.Sound) {x y : Source} {d e : Scheduler}
    (given : r.schedulers.get? x = some d) (given' : r.schedulers.get? y = some e)
    (phase : Phase α) :
    (r.write d phase).read e = if x = y then some phase else r.read e := by
  show (r.cells.set d.cell phase)[e.cell]? = _
  split
  · rename_i hsame
    rw [← (sound.cell_inj given given').2 hsame, List.getElem?_set_self (sound.cell_lt given)]
  · rename_i hother
    have hcell : d.cell ≠ e.cell := fun h => hother ((sound.cell_inj given given').1 h)
    exact List.getElem?_set_ne hcell

theorem Sound.phase?_write {r : Registry α} (sound : r.Sound) {source : Source} {d : Scheduler}
    (given : r.schedulers.get? source = some d) (phase : Phase α) (other : Source) :
    (r.write d phase).phase? other = if source = other then some phase else r.phase? other := by
  show (r.schedulers.get? other).bind (r.write d phase).read = _
  rw [phase?]
  cases hfound : r.schedulers.get? other with
  | some e => exact sound.read_write given hfound phase
  | none =>
    have hother : source ≠ other := by
      rintro rfl
      rw [given] at hfound
      cases hfound
    exact (if_neg hother).symm

theorem Onward.scheduler {r r' : Registry α} (onward : r.Onward r') :
    r'.scheduler = r.scheduler := by
  funext source
  rw [Registry.scheduler, Registry.scheduler, onward.kept.1]

/-- The places agree on the sources that were listed. -/
structure Tidy (listed : List Source) (r : Registry α) : Prop where
  order : FirstPlaces listed r.order
  knows : ∀ source, r.knows source = true ↔ source ∈ listed
  given : ∀ source, (∃ d, r.scheduler source = .ok d) ↔ source ∈ listed
  own : ∀ source d, r.scheduler source = .ok d → d.source = source
  refused : ∀ source, source ∉ listed →
    r.scheduler source = .error (.unknownSource source.label)
  /-- Whoever goes through the order and asks the index finds a scheduler. -/
  found : ∀ source ∈ r.order, ∃ phase, r.phase? source = some phase

/-- **The places agree, however a list repeats its sources and whatever they do.** -/
theorem tidy_of_onward {listed : List Source} {r : Registry α}
    (onward : (create listed).Onward r) : r.Tidy listed := by
  obtain ⟨hcreated, hknown, horder⟩ := create_spec (α := α) listed
  have hsound := onward.sound hcreated
  obtain ⟨-, hknown', horder', -⟩ := onward.kept
  rw [hknown] at hknown'
  rw [horder] at horder'
  have hmem : ∀ source, source ∈ r.order ↔ source ∈ listed := by
    intro source
    rw [horder', mem_distinct]
  have hfound : ∀ source ∈ listed, ∃ d, r.schedulers.get? source = some d := by
    intro source hlisted
    rw [← Option.ne_none_iff_exists']
    exact fun hnone => hsound.get?_eq_none.1 hnone ((hmem source).2 hlisted)
  refine ⟨?_, ?_, ?_, ?_, ?_, ?_⟩
  · rw [horder']
    exact firstPlaces_distinct listed
  · intro source
    rw [Registry.knows, decide_eq_true_eq, hknown', List.mem_toFinset]
  · intro source
    simp only [scheduler_eq_ok]
    refine ⟨?_, hfound source⟩
    rintro ⟨d, hd⟩
    exact (hmem source).1 (List.mem_of_getElem? ((hsound.found source d).1 hd).2)
  · intro source d hd
    exact ((hsound.found source d).1 (scheduler_eq_ok.1 hd)).1
  · intro source hnew
    rw [Registry.scheduler, hsound.get?_eq_none.2 (fun h => hnew ((hmem source).1 h))]
  · intro source hin
    obtain ⟨d, hd⟩ := hfound source ((hmem source).1 hin)
    have hcell := List.getElem?_eq_getElem (hsound.cell_lt hd)
    rw [phase?, hd]
    exact ⟨_, hcell⟩

/-- **All schedulers of a source share one cell**, whenever they were obtained: what is written
through one of them is read through the others. -/
theorem read_write_of_onward {listed : List Source} {r r₁ r₂ : Registry α}
    (onward : (create listed).Onward r) (onward₁ : (create listed).Onward r₁)
    (onward₂ : (create listed).Onward r₂) {x y : Source} {d e : Scheduler}
    (given : r₁.scheduler x = .ok d) (given' : r₂.scheduler y = .ok e) (phase : Phase α) :
    (r.write d phase).read e = if x = y then some phase else r.read e := by
  rw [onward₁.scheduler, ← onward.scheduler, scheduler_eq_ok] at given
  rw [onward₂.scheduler, ← onward.scheduler, scheduler_eq_ok] at given'
  exact (onward.sound (create_spec listed).1).read_write given given' phase

/-! ### A registry for a simulation -/

/-- The registry tells of the sources what the simulation tells. -/
structure Serves (r : Registry α) (s : Simulation α) : Prop where
  order : r.order = s.sources
  knows : ∀ source, r.knows source = s.knows source
  phases : ∀ source ∈ s.sources, r.phase? source = some (s.phase source)

/-- Every look-up finds something. -/
theorem mapM_eq_some_map {σ τ : Type} {f : σ → Option τ} {g : σ → τ} {xs : List σ}
    (found : ∀ x ∈ xs, f x = some (g x)) : xs.mapM f = some (xs.map g) := by
  induction xs with
  | nil => rfl
  | cons x xs ih =>
    obtain ⟨hx, hxs⟩ := List.forall_mem_cons.1 found
    rw [List.mapM_cons, hx, ih hxs]
    rfl

namespace Serves

variable {r : Registry α} {s : Simulation α}

theorem mapM_phase? (serves : r.Serves s) :
    r.order.mapM r.phase? = some (s.sources.map s.phase) := by
  rw [serves.order]
  exact mapM_eq_some_map serves.phases

theorem pausedSources? (serves : r.Serves s) : r.pausedSources? = some s.pausedSources := by
  rw [Registry.pausedSources?, serves.mapM_phase?, serves.order, Option.map_some,
    ← List.map_prod_left_eq_zip, List.filter_map, List.map_map]
  exact congrArg some (List.map_id _)

theorem pendingEvents? (serves : r.Serves s) :
    r.pendingEvents? s.scheduledEvents s.cancelled = some s.pendingEvents := by
  rw [Registry.pendingEvents?, serves.mapM_phase?, Option.map_some, List.flatMap_map]
  rfl

end Serves

/-- Asked about the sources, registry and simulation give the same answers; no scheduler that is
looked up on the way is missing. -/
structure Answers {n : Nat} (r : Registry (Action n)) (s : Simulation (Action n)) : Prop where
  pausedSources : r.pausedSources? = some s.pausedSources
  pendingEvents : r.pendingEvents? s.scheduledEvents s.cancelled = some s.pendingEvents
  /-- A source is looked at through its scheduler, and without one the look is refused. -/
  source : ∀ source, World.viewSource s source =
    match r.scheduler source with
    | .ok d => .source (s.sourceView d.source)
    | .error e => .refused e

theorem Serves.answers {n : Nat} {r : Registry (Action n)} {s : Simulation (Action n)}
    (serves : r.Serves s) {listed : List Source} (tidy : r.Tidy listed) : r.Answers s := by
  refine ⟨serves.pausedSources?, serves.pendingEvents?, fun source => ?_⟩
  rw [World.viewSource, ← serves.knows]
  by_cases hlisted : source ∈ listed
  · obtain ⟨d, hd⟩ := (tidy.given source).2 hlisted
    rw [if_pos ((tidy.knows source).2 hlisted), hd, ← tidy.own source d hd]
  · rw [if_neg (fun h => hlisted ((tidy.knows source).1 h)), tidy.refused source hlisted]

/-- A simulation and a registry that are made from one list tell the same. -/
theorem serves_create (config : Config Source) :
    (create config.sources).Serves (Simulation.create config : Simulation α) := by
  obtain ⟨hsound, hknown, horder⟩ := create_spec (α := α) config.sources
  refine ⟨horder, fun source => ?_, fun source hmem => ?_⟩
  · refine decide_eq_decide.2 ?_
    rw [hknown, List.mem_toFinset]
    exact mem_distinct.symm
  · have htidy := tidy_of_onward (.refl : (create config.sources : Registry α).Onward _)
    obtain ⟨phase, hphase⟩ := htidy.found source (horder ▸ hmem)
    rw [hphase, running_create (mem_cells_of_phase? hphase)]
    rfl

end Registry

/-! ## A registry follows its simulation -/

section Moves

variable {n : Nat} {log new : Log n} {st st' : Standing n}

/-- The sources stay, and at most one of them is put in another phase. -/
inductive Shifts {α : Type} (s s' : Simulation α) : Prop where
  | none (sources : s'.sources = s.sources) (phases : s'.phases = s.phases)
  | one (sources : s'.sources = s.sources) {source : Source} (known : source ∈ s.sources)
      (phase : Phase α) (phases : s'.phases = s.phases.set source phase)

/-- A move puts at most one source in another phase. -/
theorem shifts_of_move (move : Move log st new st') (rostered : Rostered st.sim) :
    Shifts st.sim st'.sim := by
  have hheld : ∀ {source : Source} {phase : Phase (Action n)}, st.sim.phase source = phase →
      phase ≠ .running → source ∈ st.sim.sources := fun h => rostered.known_of_eq h
  cases move with
  | accept s s' r ticket admits =>
    have hplaced := placed_lodge s ticket
    rw [← admits.eq] at hplaced
    cases hplaced with
    | immediate event entry => exact .none rfl rfl
    | timed t event entry => exact .none rfl rfl
    | parked stall stalled routed => exact .one rfl admits.known _ rfl
    | joined backlog replaying routed untimed => exact .one rfl admits.known _ rfl
  | stall s r source release backlog known inTime active carried => exact .one rfl known _ rfl
  | intercept s turn work rest stall taken live stalled =>
    exact .one rfl (hheld stalled (fun h => by cases h)) _ rfl
  | release s turn id source rest stall taken live stalled =>
    exact .one rfl (hheld stalled (fun h => by cases h)) _ rfl
  | skip s r key work backlog rest replaying taken cancelled =>
    exact .one rfl (hheld replaying (fun h => by cases h)) _ rfl
  | drain s r key work backlog rest replaying taken live =>
    exact .one rfl (hheld replaying (fun h => by cases h)) _ rfl
  | close s r =>
    rw [closeReplay_eq]
    unfold closedPhases
    split
    · rename_i backlog hphase
      exact .one rfl (hheld hphase (fun h => by cases h)) _ rfl
    · exact .none rfl rfl
  | _ => exact .none rfl rfl

/-- Where a simulation puts a source in another phase, its scheduler does. -/
theorem Registry.Serves.of_shifts {α : Type} {r : Registry α} {s s' : Simulation α}
    (serves : r.Serves s) (sound : r.Sound) (shifts : Shifts s s') :
    ∃ r', r.Onward r' ∧ r'.Serves s' := by
  cases shifts with
  -- Nothing is written where no phase changes.
  | none sources phases =>
    refine ⟨r, .refl, ?_, fun source => ?_, fun source hmem => ?_⟩
    · rw [sources, serves.order]
    · rw [serves.knows, Simulation.knows, Simulation.knows, sources]
    · rw [sources] at hmem
      rw [serves.phases source hmem, Simulation.phase, Simulation.phase, phases]
  | one sources known phase phases =>
    rename_i source
    obtain ⟨d, hd⟩ : ∃ d, r.schedulers.get? source = some d := by
      rw [← Option.ne_none_iff_exists', Ne, sound.get?_eq_none, not_not, serves.order]
      exact known
    have hwritten : r.Written (r.write d phase) := .through (scheduler_eq_ok.2 hd) phase
    refine ⟨r.write d phase, .single hwritten, ?_, fun other => ?_, fun other hmem => ?_⟩
    · rw [sources, ← serves.order]
      rfl
    · rw [Simulation.knows, sources]
      exact serves.knows other
    · rw [sources] at hmem
      rw [sound.phase?_write hd, serves.phases other hmem, Simulation.phase, Simulation.phase,
        phases, Table.get?_set]
      split <;> rfl

/-- **A registry follows its simulation along every row of moves**, by writes through schedulers. -/
theorem Registry.serves_of_along {r : Registry (Action n)} {listed : List Source}
    (course : Course log st) (along : Along Move log st new st')
    (made : (create listed).Onward r) (serves : r.Serves st.sim) :
    ∃ r', (create listed).Onward r' ∧ r'.Serves st'.sim := by
  induction along with
  | refl => exact ⟨r, made, serves⟩
  | next before move ih =>
    obtain ⟨r', hmade, hserves⟩ := ih
    have hrostered := (course.along before).ledger.rostered
    have hsound := hmade.sound (create_spec listed).1
    obtain ⟨r'', honward, hserves'⟩ := hserves.of_shifts hsound (shifts_of_move move hrostered)
    exact ⟨r'', hmade.trans honward, hserves'⟩

/-- **A registry follows its simulation**, whatever the world goes through. -/
theorem Registry.serves_of_later {configs : Vector (Config Source) n}
    {procedures : Table String (Script n)} {h : List (Fin n × Happening n)} {m : Machine n}
    (onward : Later (Machine.atRest (World.create configs procedures)) h m) (i : Fin n) :
    ∃ r, (create (configs.get i).sources).Onward r ∧ r.Serves (m.world.sim i) := by
  have hhist := History.create configs procedures
  have hmade : (World.create configs procedures).sim i = .create (configs.get i) :=
    Vector.getElem_map ..
  have hserves := serves_create (α := Action n) (configs.get i)
  rw [← hmade] at hserves
  exact serves_of_along (hhist.course i) (onward.along hhist i) .refl hserves

/-- **Repeated sources never matter.**  A configuration `raw`, written down or read back, may list
its sources with repetitions; `built` has the same time and flag, and its sources were handed to the
builders, some at once and the others one by one.  The builders and the simulation keep each source
once, in the order of first places.  Whatever the simulation goes through, a registry that is made
from the list as it was given, and in which only schedulers write, tells the same of the sources; no
look-up in it goes amiss.  No requests tell the two configurations apart. -/
theorem repeated_sources_never_matter {raw built : Config Source} {first more : List Source}
    (listed : raw.sources = first ++ more)
    (builtUp : built = Config.builtUp raw.initialTime raw.startPaused first more)
    {configs : Vector (Config Source) n} {procedures : Table String (Script n)} {i : Fin n}
    {h : List (Fin n × Happening n)} {m : Machine n}
    (onward : Later (Machine.atRest (World.create (configs.set i raw i.isLt) procedures)) h m) :
    -- The configuration that was built up and the simulation have the same list of sources.
    FirstPlaces raw.sources built.sources ∧ (m.world.sim i).sources = built.sources ∧
    -- The list as it was given makes the registry of the list without repetitions.
    (Registry.create raw.sources : Registry (Action n)) = Registry.create built.sources ∧
    -- Its places agree, and all schedulers of a source share one cell, whenever they were obtained.
    (∀ r : Registry (Action n), (Registry.create raw.sources).Onward r →
      r.Tidy raw.sources ∧
      ∀ r₁ r₂ : Registry (Action n),
        (Registry.create raw.sources).Onward r₁ → (Registry.create raw.sources).Onward r₂ →
        ∀ x y d e, r₁.scheduler x = .ok d → r₂.scheduler y = .ok e →
          ∀ phase, (r.write d phase).read e = if x = y then some phase else r.read e) ∧
    -- It follows the simulation.
    (∃ r, (Registry.create raw.sources).Onward r ∧ r.Serves (m.world.sim i) ∧
      r.Answers (m.world.sim i)) ∧
    -- Requests are answered alike.
    ∀ fuel requests, Scenario.run fuel ⟨configs.set i raw i.isLt, procedures, requests⟩ =
      Scenario.run fuel ⟨configs.set i built i.isLt, procedures, requests⟩ := by
  rw [Config.builtUp_eq, ← listed] at builtUp
  have hbuilt : built.sources = distinct raw.sources := congrArg Config.sources builtUp
  have hsame : (Simulation.create built : Simulation (Action n)) = .create raw :=
    builtUp ▸ Simulation.create_distinct raw
  have hworld : World.create (configs.set i raw i.isLt) procedures =
      World.create (configs.set i built i.isLt) procedures := by
    simp only [World.create, Vector.map_set, hsame]
  have hraw : (configs.set i raw i.isLt).get i = raw := Vector.getElem_set_self ..
  obtain ⟨r, honward, hserves⟩ := Registry.serves_of_later onward i
  rw [hraw] at honward
  have htidy := Registry.tidy_of_onward honward
  have horder := (Registry.create_spec (α := Action n) raw.sources).2.2
  refine ⟨?_, ?_, ?_, ?_, ⟨r, honward, hserves, hserves.answers htidy⟩, ?_⟩
  · rw [hbuilt]
    exact firstPlaces_distinct raw.sources
  · rw [hbuilt, ← horder, ← honward.kept.2.2.1, hserves.order]
  · rw [hbuilt]
    exact (Registry.create_distinct raw.sources).symm
  · intro r' honward'
    refine ⟨Registry.tidy_of_onward honward', ?_⟩
    intro r₁ r₂ honward₁ honward₂ x y d e given given' phase
    exact Registry.read_write_of_onward honward' honward₁ honward₂ given given' phase
  · intro fuel requests
    rw [Scenario.run, Scenario.run, hworld]

end Moves

/-! ## Two sources, each given twice -/

/-- Each of two sources is given twice. -/
def twiceGiven : Config Source := ⟨.zero, false, [.index 0, .index 1, .index 0, .index 1]⟩

/-- One configuration, without sources. -/
def noSources : Vector (Config Source) 1 := #v[.ofRecord []]

/-- The world of the simulation with these sources, with nothing submitted. -/
def twiceGivenWorld : World 1 where
  sims := #v[Simulation.create twiceGiven]
  handles := .empty
  procedures := .empty
  journal := []

theorem create_twiceGiven :
    World.create (noSources.set lone twiceGiven lone.isLt) .empty = twiceGivenWorld := by
  simp [World.create, twiceGivenWorld, noSources, lone]

/-- One of the sources stalls itself until five. -/
def oneStalled : Machine 1 :=
  ((Machine.atRest twiceGivenWorld).ask [.submit ⟨lone, .index 0, .sourceNow, "", none⟩
    stallUntilFive, .command lone .run]).steps 2

theorem Later.oneStalled : ∃ h, Later (Machine.atRest
    (World.create (noSources.set lone twiceGiven lone.isLt) .empty)) h oneStalled := by
  rw [create_twiceGiven]
  exact ⟨_, (Later.ask _ _ rfl).append (.steps _ 2)⟩

/-- Then one source is stalled, and its scheduler tells so. -/
theorem paused_of_twiceGiven : ∃ r : Registry (Action 1),
    (Registry.create twiceGiven.sources).Onward r ∧ r.order = [.index 0, .index 1] ∧
      r.pausedSources? = some [.index 0] := by
  obtain ⟨h, honward⟩ := Later.oneStalled
  have hlisted : twiceGiven.sources = [.index 0, .index 1, .index 0] ++ [.index 1] := rfl
  obtain ⟨-, -, -, -, ⟨r, hmade, hserves, hanswers⟩, -⟩ :=
    repeated_sources_never_matter hlisted rfl honward
  exact ⟨r, hmade, hserves.order, hanswers.pausedSources⟩

end StallSim
