import StallSim.Proofs.Failing
import StallSim.Proofs.Following

/-!
# Cancelled submissions leave no mark

A submission that is cancelled before its action starts might as well not have been made.  Its
entry stays where it is, moves with its source into a stall, a backlog and back, and is dropped when
it is reached; but nothing else starts at another instant, in another order or another number of
times for it.

* `World.forget` — a handle name stands for nothing any more.
* `Renumbering.same`, `Renumbering.skip` — all ids as they are; one id left out, and those after it
  less by one.
* `HandsIn` — a submission is made, by an action or from outside, or left out.
* `Unmarked` — what a world with a submission and one without it have in common.

Principal results: `follows_of_handsIn` — the machine without the submission follows the one with
it; `unstarted_of_cancelled` — what is cancelled does not start any more;
`cancelled_leaves_no_mark`.
-/

set_option autoImplicit false

namespace StallSim

open List (Forall₂)

variable {n : Nat}

/-! ## Names that stand for nothing -/

/-- The table without the key `k`. -/
def Table.without {κ β : Type} [DecidableEq κ] (t : Table κ β) (k : κ) : Table κ β :=
  ⟨t.entries.filter (fun e => e.1 ≠ k)⟩

theorem Table.get?_without {κ β : Type} [DecidableEq κ] (t : Table κ β) (k j : κ) :
    (t.without k).get? j = if k = j then none else t.get? j := by
  obtain ⟨entries⟩ := t
  show lookup j (entries.filter _) = if k = j then none else lookup j entries
  induction entries with
  | nil => simp [lookup]
  | cons e rest ih =>
    by_cases he : e.1 = k
    · rw [List.filter_cons_of_neg (by simp [he]), ih]
      by_cases hk : k = j
      · simp [hk]
      · simp [lookup, he, hk]
    · rw [List.filter_cons_of_pos (by simp [he]), lookup, ih, lookup]
      by_cases hj : e.1 = j
      · have hk : k ≠ j := fun h => he (hj.trans h.symm)
        simp [hj, hk]
      · simp [hj]

theorem Table.without_eq_self {κ β : Type} [DecidableEq κ] {t : Table κ β} {k : κ}
    (free : t.get? k = none) : t.without k = t := by
  obtain ⟨entries⟩ := t
  have hall : ∀ e ∈ entries, decide (e.1 ≠ k) = true := by
    change lookup k entries = none at free
    induction entries with
    | nil => exact fun e he => (by cases he)
    | cons first rest ih =>
      rw [lookup] at free
      split at free
      · cases free
      · rename_i hother
        exact List.forall_mem_cons.2 ⟨decide_eq_true hother, ih free⟩
  exact congrArg Table.mk (List.filter_eq_self.2 hall)

/-- The world in which a name, if there is one, stands for nothing. -/
def World.forget (w : World n) : Option String → World n
  | some name => { w with handles := w.handles.without name }
  | none => w

/-- Forgetting a name changes the handles only. -/
theorem frame_forget (w : World n) (name : Option String) :
    (w.forget name).sims = w.sims ∧ (w.forget name).procedures = w.procedures ∧
      (w.forget name).journal = w.journal := by
  cases name <;> exact ⟨rfl, rfl, rfl⟩

theorem get?_forget (w : World n) (name : Option String) (other : String) :
    (w.forget name).handles.get? other =
      if name = some other then none else w.handles.get? other := by
  cases name with
  | none => rfl
  | some name => simp only [World.forget, Table.get?_without, Option.some.injEq]

/-- A name that stands for nothing need not be forgotten. -/
theorem World.forget_eq_self {w : World n} {name : String} (free : w.handles.get? name = none) :
    w.forget (some name) = w := by
  rw [World.forget, Table.without_eq_self free]

/-! ## Renumberings that keep what is there -/

namespace Renumbering

/-- All ids stay as they are. -/
def same : Renumbering where
  of := some
  due _ := none
  inj h h' := (Option.some.inj h).trans (Option.some.inj h').symm
  le_iff h h' _ := by
    cases h
    cases h'
    rfl

/-- The id after `id` was left out. -/
def skipped (id other : EventId) : EventId :=
  ⟨if id.raw < other.raw then other.raw - 1 else other.raw⟩

theorem skipped_le_iff {id a b : EventId} (ne : b ≠ id) :
    a ≤ b ↔ skipped id a ≤ skipped id b := by
  rw [Ne, ← EventId.raw_inj] at ne
  rw [EventId.le_def, EventId.le_def]
  unfold skipped
  dsimp only
  split <;> split <;> omega

/-- `id` is left out, and the ids after it are less by one. -/
def skip (id : EventId) : Renumbering where
  of other := if other = id then none else some (skipped id other)
  due _ := none
  inj h h' := by
    simp only [Option.ite_none_left_eq_some, Option.some.injEq] at h h'
    have heq := h.2.trans h'.2.symm
    refine Std.le_antisymm ((skipped_le_iff h'.1).2 ?_) ((skipped_le_iff h.1).2 ?_)
    · exact heq ▸ Std.le_refl _
    · exact heq ▸ Std.le_refl _
  le_iff h h' _ := by
    simp only [Option.ite_none_left_eq_some, Option.some.injEq] at h h'
    rw [← h.2, ← h'.2]
    exact skipped_le_iff h'.1

/-- The ids below `k` stay as they are, and may be those of any work. -/
def Fixes (ρ : Renumbering) (k : Nat) : Prop :=
  ∀ id : EventId, id.raw < k → ρ.of id = some id ∧ ρ.due id = none

theorem fixes_same (k : Nat) : same.Fixes k := fun _ _ => ⟨rfl, rfl⟩

theorem fixes_skip (id : EventId) : (skip id).Fixes id.raw := by
  intro other hlt
  have hne : other ≠ id := by
    rintro rfl
    exact Nat.lt_irrefl _ hlt
  refine ⟨?_, rfl⟩
  show (if other = id then none else some (skipped id other)) = some other
  rw [if_neg hne, skipped, if_neg (Nat.lt_asymm hlt)]

theorem of_skip_self (id : EventId) : (skip id).of id = none := if_pos rfl

theorem of_skip_later (id : EventId) (k : Nat) :
    (skip id).of ⟨id.raw + 1 + k⟩ = some ⟨id.raw + k⟩ := by
  show (if _ then none else some (skipped id _)) = _
  have hne : (⟨id.raw + 1 + k⟩ : EventId) ≠ id := by
    rw [Ne, ← EventId.raw_inj]
    dsimp only
    omega
  rw [if_neg hne, skipped, if_pos (by dsimp only; omega), Option.some.injEq, ← EventId.raw_inj]
  dsimp only
  omega

end Renumbering

/-! ## A simulation copies itself -/

section Self

variable {ρ : Renumbering} {log : Log n} {s : Simulation (Action n)} {r : Option (Replay n)}

theorem SameWork.self {work : Work (Action n)} (of : ρ.of work.id = some work.id) :
    SameWork ρ work work := by
  cases work
  exact .mk of _ _ _

/-- The same agenda, if both know all of it. -/
theorem Renumbered.self {κ β : Type} [LE κ] {R : κ × β → κ × β → Prop} {own : β → Bool}
    {a : Agenda κ β} (entries : ∀ e ∈ a.toList, R e e ∧ own e.2 = true) :
    Renumbered R own a a := by
  unfold Renumbered
  rw [List.filter_eq_self.2 fun e he => (entries e he).2]
  exact List.forall₂_same.2 fun e he => (entries e he).1

/-- What is held back waits. -/
theorem mem_tickets_of_timers {st : Standing n} {source : Source} (rostered : Rostered st.sim)
    {e : Origin × Work (Action n)} (mem : e ∈ (st.sim.phase source).timers) :
    (⟨e.2, some e.1.due, true⟩ : Ticket n) ∈ st.tickets := by
  cases hphase : st.sim.phase source with
  | running =>
    rw [hphase] at mem
    cases mem
  | replaying backlog =>
    rw [hphase] at mem
    cases mem
  | stalled stall =>
    have hknown : source ∈ st.sim.sources := by
      refine rostered.known source fun hrunning => ?_
      cases hphase.symm.trans hrunning
    refine List.mem_append_left _ (List.mem_append_right _
      (List.mem_flatMap.2 ⟨source, hknown, ?_⟩))
    rw [hphase] at mem ⊢
    exact List.mem_append_right _ (List.mem_map_of_mem
      (f := fun e : Origin × Work (Action n) => (⟨e.2, some e.1.due, true⟩ : Ticket n)) mem)

/-- Work that waits is known under its id. -/
theorem sameWork_of_mem (ledger : Ledger log ⟨s, r⟩) (fixes : ρ.Fixes s.nextId)
    {ticket : Ticket n} (mem : ticket ∈ (⟨s, r⟩ : Standing n).tickets) :
    SameWork ρ ticket.work ticket.work ∧ ρ.due ticket.work.id = none :=
  (fixes _ (ledger.lt_nextId mem)).imp_left .self

/-- An event that waits is known under its id. -/
theorem sameEvent_of_mem (ledger : Ledger log ⟨s, r⟩) (fixes : ρ.Fixes s.nextId)
    {turn : Option Turn} {event : Event (Action n)} (mem : (turn, event) ∈ s.calendar.entries) :
    SameEvent ρ event event ∧ ρ.due event.id = none := by
  have hticket : ∀ ticket, event.ticket? turn = some ticket →
      ticket ∈ (⟨s, r⟩ : Standing n).tickets := fun ticket hentry =>
    List.mem_append_left _ (List.mem_append_left _ (List.mem_filterMap.2 ⟨_, mem, hentry⟩))
  cases event with
  | direct work =>
    obtain ⟨hworks, hdue⟩ := sameWork_of_mem ledger fixes (hticket _ rfl)
    exact ⟨.direct hworks, hdue⟩
  | routed work =>
    obtain ⟨hworks, hdue⟩ := sameWork_of_mem ledger fixes (hticket _ rfl)
    exact ⟨.routed hworks, hdue⟩
  | release id source =>
    exact (fixes id (ledger.releases turn id source mem).1).imp_left (.release · source)

theorem sameParked_of_mem (course : Course log ⟨s, r⟩) (fixes : ρ.Fixes s.nextId)
    {source : Source} {e : EventId × Work (Action n)} (mem : e ∈ (s.phase source).parked) :
    SameParked ρ e e ∧ ρ.keeps e.2 = true := by
  obtain ⟨hworks, hdue⟩ :=
    sameWork_of_mem course.ledger fixes (mem_tickets_of_parked course.ledger.rostered mem)
  obtain ⟨key, work⟩ := e
  obtain rfl : key = work.id := ((course.schedule.2.own source).parked _ mem).1
  exact ⟨.mk hworks hdue, hworks.keeps⟩

theorem sameTimer_of_mem {e : Origin × Work (Action n)} (ledger : Ledger log ⟨s, r⟩)
    (fixes : ρ.Fixes s.nextId)
    (mem : (⟨e.2, some e.1.due, true⟩ : Ticket n) ∈ (⟨s, r⟩ : Standing n).tickets)
    (own : e.1.id = e.2.id) : SameTimer ρ e e ∧ ρ.keeps e.2 = true := by
  obtain ⟨hworks, hdue⟩ := sameWork_of_mem ledger fixes mem
  obtain ⟨⟨due, id⟩, work⟩ := e
  obtain rfl : id = work.id := own
  exact ⟨.mk due hworks (.of_none hdue due), hworks.keeps⟩

/-- A source is in the same phase. -/
theorem samePhase_self (course : Course log ⟨s, r⟩) (fixes : ρ.Fixes s.nextId) (source : Source) :
    SamePhase ρ (s.phase source) (s.phase source) := by
  have hparked : ∀ e ∈ (s.phase source).parked, SameParked ρ e e ∧ ρ.keeps e.2 = true :=
    fun e he => sameParked_of_mem course fixes he
  have htimers : ∀ e ∈ (s.phase source).timers, SameTimer ρ e e ∧ ρ.keeps e.2 = true :=
    fun e he => sameTimer_of_mem course.ledger fixes
      (mem_tickets_of_timers course.ledger.rostered he)
      ((course.schedule.2.own source).timers e he).1
  generalize s.phase source = phase at hparked htimers
  cases phase with
  | running => exact .running
  | stalled stall => exact .stalled stall.release (.self hparked) (.self htimers)
  | replaying backlog => exact .replaying (.self hparked)

/-- **A simulation copies itself** but for the ids that it will hand out: those are `d` more in the
first. -/
theorem Level.self (course : Course log ⟨s, r⟩) (fixes : ρ.Fixes s.nextId) (d : Nat)
    (ids : ∀ k, ρ.of ⟨s.nextId + d + k⟩ = some ⟨s.nextId + k⟩ ∧ ρ.due ⟨s.nextId + d + k⟩ = none)
    (traced : ∀ trace, s.trace = some trace → ∀ e ∈ trace, e.event.raw < s.nextId) :
    Level ρ { s with nextId := s.nextId + d } s where
  immediate := by
    have hsame : ∀ event ∈ s.calendar.immediate,
        SameEvent ρ event event ∧ ρ.due event.id = none := by
      intro event hmem
      have hentry : ((none : Option Turn), event) ∈ s.calendar.entries :=
        List.mem_append_left _ (List.mem_map_of_mem hmem)
      exact sameEvent_of_mem course.ledger fixes hentry
    show Forall₂ _ (s.calendar.immediate.filter ρ.keepsEvent) _
    rw [List.filter_eq_self.2 fun event hmem => (hsame event hmem).1.keeps]
    exact List.forall₂_same.2 fun event hmem => ⟨(hsame event hmem).1, (hsame event hmem).2⟩
  timed := .self fun e he => by
    have hentry : (some e.1, e.2) ∈ s.calendar.entries :=
      List.mem_append_right _ (List.mem_map_of_mem
        (f := fun e : Turn × Event (Action n) => (some e.1, e.2)) he)
    obtain ⟨hevents, hdue⟩ := sameEvent_of_mem course.ledger fixes hentry
    have hid := (course.schedule.1.proper e he).id_eq
    obtain ⟨⟨time, band, origin, id⟩, event⟩ := e
    obtain rfl : id = event.id := hid
    exact ⟨.mk time band origin hevents (.of_none hdue origin), hevents.keeps⟩
  phase source := samePhase_self (s := s) course fixes source
  ids := ids
  cancelled id id' hid := by
    have hissued : ∀ id : EventId, s.isCancelled id = true → id.raw < s.nextId := by
      intro id hcancelled
      obtain ⟨ticket, hmem, rfl⟩ := course.ledger.cancelled id hcancelled
      exact course.ledger.issued ticket hmem
    show s.isCancelled id' = s.isCancelled id
    by_cases hlt : id.raw < s.nextId
    · cases hid.symm.trans (fixes id hlt).1
      rfl
    · have hge : ¬ id'.raw < s.nextId := fun hlt' => by
        cases ρ.inj hid (fixes id' hlt').1
        exact hlt hlt'
      rw [Bool.eq_false_iff.2 fun h => hge (hissued _ h),
        Bool.eq_false_iff.2 fun h => hlt (hissued _ h)]
  sources := rfl
  flags := rfl
  active := rfl
  processed := rfl
  trace := by
    show SameTrace ρ s.trace s.trace
    cases htrace : s.trace with
    | none => exact .none
    | some trace =>
      exact .some (List.forall₂_same.2 fun e he => by
        have hof := (fixes _ (traced trace htrace e he)).1
        cases e
        exact .mk _ hof _ _)
  behind := Nat.le_refl _
  late := .inl rfl
  now := rfl

end Self

/-! ## A world copies itself -/

section Self

variable {ρs : Naming n} {h : List (Fin n × Happening n)} {m : Machine n} {i : Fin n}

/-- What is traced has an id that was given out. -/
theorem lt_nextId_of_traced (hist : History h m) (i : Fin n) :
    ∀ trace, (m.world.sim i).trace = some trace → ∀ e ∈ trace,
      e.event.raw < (m.world.sim i).nextId := by
  intro trace htrace e he
  obtain ⟨enabled, htraced⟩ := hist.traced i
  have hledger := (hist.course i).ledger
  rw [htraced.tally.2, Option.map_eq_some_iff] at htrace
  obtain ⟨passed, henabled, rfl⟩ := htrace
  obtain ⟨x, hx, hentry⟩ := List.mem_filterMap.1 he
  cases x with
  | started work time =>
    cases hentry
    have hstarted : work ∈ (logOf i h).started :=
      List.mem_filterMap.2 ⟨_, mem_logOf.2
        ((htraced.isSuffix henabled).subset (mem_logOf.1 hx)), rfl⟩
    obtain ⟨ticket, hmem, rfl⟩ := hledger.accepted_of_started hstarted
    exact hledger.issued ticket hmem
  | _ => cases hentry

theorem replayIn_of_mem {runs : List (Run n)} (distinct : (runs.map Run.sim).Nodup) {run : Run n}
    (mem : run ∈ runs) : replayIn run.sim runs = run.replay := by
  induction runs with
  | nil => cases mem
  | cons first runs ih =>
    rw [List.map_cons, List.nodup_cons] at distinct
    rcases List.mem_cons.1 mem with rfl | hmem
    · exact replayIn_cons_self
    · have hne : first.sim ≠ run.sim := fun heq =>
        distinct.1 (heq ▸ List.mem_map_of_mem hmem)
      rw [replayIn, if_neg hne]
      exact ih distinct.2 hmem

variable (fixes : ∀ i, (ρs i).Fixes (m.world.sim i).nextId)

include fixes

/-- A run under way is the same. -/
theorem SameRun.self (hist : History h m) {run : Run n} (mem : run ∈ m.runs) :
    SameRun ρs run run := by
  have hcourse := hist.course run.sim
  have hreplay : (m.standing run.sim).replay = run.replay :=
    replayIn_of_mem hist.grounded.distinct mem
  obtain ⟨i, start, limit, replay⟩ := run
  refine .mk i start limit ?_
  cases replay with
  | none => exact .idle
  | some r =>
    have htimers := (hcourse.schedule.1.replay r hreplay).2
    refine .replaying r.source r.release (.self fun e he => ?_)
    refine sameTimer_of_mem hcourse.ledger (fixes i) (List.mem_append_right _ ?_)
      (htimers e he).1
    show _ ∈ replayTickets (m.standing i).replay
    rw [hreplay]
    exact List.mem_map_of_mem
      (f := fun e : Origin × Work (Action n) => (⟨e.2, some e.1.due, true⟩ : Ticket n)) he

/-- An action at work is the same. -/
theorem SameWork.of_frame (hist : History h m) {f : Run n × Work (Action n)} (mem : f ∈ m.frames) :
    SameWork (ρs f.1.sim) f.2 f.2 := by
  obtain ⟨ticket, hmem, hwork⟩ := accepted_of_frame hist mem
  refine .self (fixes f.1.sim _ ?_).1
  rw [← hwork]
  exact (hist.course f.1.sim).ledger.issued ticket hmem

/-- The actions that wait are the same. -/
theorem SameCaller.self (hist : History h m) : Forall₂ (SameCaller ρs) m.callers m.callers := by
  refine List.forall₂_same.2 fun c hc => ?_
  have hframe : c.frame ∈ m.frames := by
    have hmem : c.frame ∈ m.callers.map Caller.frame := List.mem_map_of_mem hc
    unfold Machine.frames
    split
    · exact List.mem_cons_of_mem _ hmem
    · exact hmem
  have hrun : c.run ∈ m.runs := by
    have hmem : c.run ∈ m.callers.map Caller.run := List.mem_map_of_mem hc
    unfold Machine.runs
    split
    · exact List.mem_cons_of_mem _ hmem
    · exact List.mem_cons_of_mem _ hmem
    · exact hmem
  exact .mk (.self fixes hist hrun) (.of_frame fixes hist hframe) _ _ _

/-- A handle stands for the same work. -/
theorem SameHandle.self (hist : History h m) (name : String) :
    SameHandle ρs (m.world.handles.get? name) (m.world.handles.get? name) := by
  cases hget : m.world.handles.get? name with
  | none => exact .free
  | some handle =>
    obtain ⟨ticket, hmem, hid⟩ := hist.grounded.handles name handle hget
    have hlt := (hist.course handle.sim).ledger.issued ticket hmem
    rw [hid] at hlt
    exact .bound (fixes handle.sim handle.id hlt).1

end Self

/-! ## With the submission and without it -/

/-- The ids after a submission to the simulation `i` was left out. -/
def leftOut (i : Fin n) (id : EventId) : Fin n → Renumbering :=
  fun j => if j = i then .skip id else .same

theorem leftOut_self (i : Fin n) (id : EventId) : leftOut i id i = .skip id := if_pos rfl

theorem leftOut_other {i j : Fin n} {id : EventId} (other : j ≠ i) : leftOut i id j = .same :=
  if_neg other

theorem of_leftOut_self (i : Fin n) (id : EventId) : (leftOut i id i).of id = none := by
  rw [leftOut_self, Renumbering.of_skip_self]

/-- A submission is made, by an action or from outside; `full` goes on with it.  In `bare` it is
left out, and its handle name stands for nothing. -/
inductive HandsIn (submission : Submission n) (body : Script n) :
    Machine n → Machine n → Machine n → Prop where
  | action (w : World n) (run : Run n) (work : Work (Action n)) (handling : Handling)
      (rest : Script n) (callers : List (Caller n)) :
      HandsIn submission body
        ⟨w, .within run work (.submit submission body handling rest), callers⟩
        (Machine.step ⟨w, .within run work (.submit submission body handling rest), callers⟩)
        ⟨w.forget submission.handle, .within run work rest, callers⟩
  | outside (w : World n) (outcome : Outcome) :
      HandsIn submission body ⟨w, .returned outcome, []⟩
        (Machine.request w (.submit submission body))
        (.atRest (w.forget submission.handle))

section Submission

variable {submission : Submission n} {body : Script n} {w : World n} {m full bare : Machine n}
  {h : List (Fin n × Happening n)} {id : EventId}

/-- An accepted submission has the next id, and its work waits. -/
theorem submit_of_accepted (accepted : (w.submit submission body).2 = .accepted id) :
    ∃ ticket s', (w.sim submission.sim).Admits ticket s' ∧ ticket.work.id = id ∧
      w.submit submission body =
        ((w.setSim submission.sim s').bindHandle submission.handle ⟨submission.sim, id⟩,
          .accepted id) := by
  have hacceptance : w.acceptance submission body =
      [(submission.sim, .accepted (submission.ticket body (w.sim submission.sim).now id))] := by
    unfold World.acceptance
    rw [accepted]
  rcases w.submit_cases submission body with ⟨-, hnew⟩ | ⟨ticket, s', hadmits, hnew, hw⟩
  · rw [hacceptance] at hnew
    cases hnew
  · rw [hacceptance] at hnew
    have hid : ticket.work.id = id := by
      cases hnew
      rfl
    exact ⟨ticket, s', hadmits, hid, Prod.ext (hid ▸ hw) accepted⟩

/-- The ids that were given out before the submission stay as they are. -/
theorem fixes_leftOut (fresh : id = (w.sim submission.sim).freshId) (i : Fin n) :
    (leftOut submission.sim id i).Fixes (w.sim i).nextId := by
  by_cases hi : i = submission.sim
  · subst hi
    rw [leftOut_self, show (w.sim submission.sim).nextId = id.raw from
      (congrArg EventId.raw fresh).symm]
    exact Renumbering.fixes_skip id
  · rw [leftOut_other hi]
    exact Renumbering.fixes_same _

/-- Each simulation with the submission is copied by the one without it. -/
theorem level_leftOut (hist : History h m) {ticket : Ticket n} {s' : Simulation (Action n)}
    (admits : (m.world.sim submission.sim).Admits ticket s') (i : Fin n) :
    Level (leftOut submission.sim ticket.work.id i) ((m.world.setSim submission.sim s').sim i)
      (m.world.sim i) := by
  have hcourse := hist.course i
  have htraced := lt_nextId_of_traced hist i
  have hfixes := fixes_leftOut admits.fresh i
  rw [World.sim_setSim]
  by_cases hi : i = submission.sim
  · subst hi
    have hnext : (m.world.sim submission.sim).nextId = ticket.work.id.raw :=
      (congrArg EventId.raw admits.fresh).symm
    rw [if_pos rfl, admits.eq]
    refine Level.lodge_left (placed_lodge _ ticket)
      (Level.self hcourse hfixes 1 (fun k => ?_) htraced) ?_
    · rw [leftOut_self, hnext]
      exact ⟨Renumbering.of_skip_later _ k, rfl⟩
    · rw [Renumbering.keeps, of_leftOut_self]
      rfl
  · rw [if_neg (Ne.symm hi)]
    exact Level.self hcourse hfixes 0 (fun k => by rw [leftOut_other hi]; exact ⟨rfl, rfl⟩) htraced

/-- A name stands for the same work, or for the submission, or for nothing. -/
theorem sameHandle_leftOut (given : Failure → Prop) (hist : History h m)
    (fresh : id = (m.world.sim submission.sim).freshId) (s : Simulation (Action n))
    (name : String) :
    SameHandle ⟨leftOut submission.sim id, given⟩
      (((m.world.setSim submission.sim s).bindHandle submission.handle
        ⟨submission.sim, id⟩).handles.get? name)
      ((m.world.forget submission.handle).handles.get? name) := by
  have hsame : SameHandle ⟨leftOut submission.sim id, given⟩ (m.world.handles.get? name)
      (m.world.handles.get? name) := SameHandle.self (fixes_leftOut fresh) hist name
  rw [get?_bindHandle, get?_forget]
  split
  · exact .unknown (of_leftOut_self submission.sim id)
  · exact hsame

/-- The worlds with the submission and without it resemble each other. -/
theorem resembles_submit (given : Failure → Prop) (hist : History h m) {past : List (Record n)}
    (accepted : (m.world.submit submission body).2 = .accepted id)
    {w : World n} (sims : w.sims = (m.world.submit submission body).1.sims)
    (handles : w.handles = (m.world.submit submission body).1.handles)
    (procedures : w.procedures = m.world.procedures) (journal : w.journal = past) :
    (∀ i, (leftOut submission.sim id i).Fixes (m.world.sim i).nextId) ∧
      Resembles ⟨leftOut submission.sim id, given⟩ past m.world.journal w
        (m.world.forget submission.handle) := by
  obtain ⟨ticket, s', hadmits, rfl, hsubmit⟩ := submit_of_accepted accepted
  obtain ⟨hforgotten, hkept, hpast⟩ := frame_forget m.world submission.handle
  rw [hsubmit] at sims handles
  refine ⟨fixes_leftOut hadmits.fresh, ⟨⟨hkept.trans procedures.symm, fun name => ?_,
    ⟨[], [], ?_, ?_, .nil⟩⟩, fun i => ?_⟩⟩
  · rw [handles]
    exact sameHandle_leftOut given hist hadmits.fresh s' name
  · rw [journal, List.append_nil]
  · rw [hpast, List.append_nil]
  · have hsim : w.sim i = (m.world.setSim submission.sim s').sim i := by
      rw [World.sim, sims, (frame_bindHandle _ _ _).1]
      rfl
    rw [hsim, World.sim, World.sim, hforgotten]
    exact level_leftOut hist hadmits i

/-- **The machine without the submission follows the one with it.** -/
theorem follows_of_handsIn (given : Failure → Prop) (hist : History h m)
    (hands : HandsIn submission body m full bare)
    (accepted : (m.world.submit submission body).2 = .accepted id) :
    Follows ⟨leftOut submission.sim id, given⟩ full.world.journal bare.world.journal submission.sim
      full bare := by
  have hforget : ∀ w : World n, (w.forget submission.handle).journal = w.journal :=
    fun w => (frame_forget w submission.handle).2.2
  have hprocedures : (m.world.submit submission body).1.procedures = m.world.procedures := by
    obtain ⟨ticket, s', -, -, hsubmit⟩ := submit_of_accepted accepted
    rw [hsubmit]
    cases submission.handle <;> rfl
  cases hands with
  | action w run work handling rest callers =>
    have hstep : Machine.step
          ⟨w, .within run work (.submit submission body handling rest), callers⟩ =
        ⟨(w.submit submission body).1.note (.performed (.submit submission) (.accepted id)),
          .within run work rest, callers⟩ := by
      show Machine.settle (w.submit submission body).1 run work (.submit submission) handling rest
        (w.submit submission body).2 callers = _
      rw [accepted]
      rfl
    rw [hstep, hforget]
    obtain ⟨hfixes, hworlds⟩ := resembles_submit given
      (w := (w.submit submission body).1.note (.performed (.submit submission) (.accepted id)))
      hist accepted rfl rfl hprocedures rfl
    exact .within hworlds (.self hfixes hist List.mem_cons_self)
      (.of_frame hfixes hist (f := (run, work)) List.mem_cons_self) rest
      (SameCaller.self hfixes hist)
  | outside w outcome =>
    obtain ⟨-, hworlds⟩ := resembles_submit given
      (w := (w.submit submission body).1) hist accepted rfl rfl hprocedures rfl
    show Follows _ _ (w.forget submission.handle).journal _
      ⟨(w.submit submission body).1, .returned (w.submit submission body).2, []⟩ _
    rw [hforget]
    refine .answered hworlds ?_
    rw [accepted]
    exact .omitted (of_leftOut_self submission.sim id)

/-! ## Every history -/

/-- What is cancelled does not start any more. -/
theorem unstarted_of_cancelled {log new : Log n} {st st' : Standing n}
    (along : Along Move log st new st') (cancelled : st.sim.isCancelled id = true) :
    id ∉ new.startedIds := by
  induction along with
  | refl => exact List.not_mem_nil
  | @next new new' st' st'' along move ih =>
    rw [Log.startedIds, Log.started_append, List.map_append, List.mem_append, not_or]
    refine ⟨ih, fun hmem => ?_⟩
    obtain ⟨work, hwork, rfl⟩ := List.mem_map.1 hmem
    obtain ⟨x, hx, hstart⟩ := List.mem_filterMap.1 hwork
    have hcancelled := isCancelled_of_along along cancelled
    cases x with
    | started work' time =>
      cases hstart
      cases move.begins hx with
      | start s turn event work rest taken isWork live free =>
        cases hcancelled.symm.trans live
      | drain s r key work backlog rest replaying taken live =>
        cases hcancelled.symm.trans live
    | _ => cases hstart

/-- What can be seen of the machine `m`, in a history with the submission `id` to the simulation
`i`, is what can be seen of `u`, in a history without it.  The submission is made, or left out,
where `full` and `bare` go on; `j` is the simulation that was asked last from outside. -/
structure Unmarked (i : Fin n) (id : EventId) (full bare : Machine n) (j : Fin n)
    (m u : Machine n) : Prop
    extends Agrees (.upTo (leftOut i id) m) full.world.journal bare.world.journal m u where
  result : SameResult (.upTo (leftOut i id) m) j m u

/-- Only the submission itself is not known to both. -/
theorem known_leftOut (given : Failure → Prop) {i : Fin n} {later : List (Fin n × Happening n)}
    (unstarted : id ∉ (logOf i later).startedIds) : Known ⟨leftOut i id, given⟩ later := by
  intro j work time hmem
  show (leftOut i id j).keeps work = true
  by_cases hj : j = i
  · subst hj
    have hne : work.id ≠ id := by
      rintro rfl
      exact unstarted (List.mem_map_of_mem (List.mem_filterMap.2 ⟨_, mem_logOf.2 hmem, rfl⟩))
    rw [leftOut, if_pos rfl, Renumbering.keeps]
    exact Option.isSome_iff_exists.2 ⟨_, if_neg hne⟩
  · rw [leftOut, if_neg hj]
    rfl

/-- As long as the action of a submission has not started, all goes as without it. -/
theorem unmarked_of_unstarted (hist : History h m)
    (hands : HandsIn submission body m full bare)
    (accepted : (m.world.submit submission body).2 = .accepted id)
    {requests : List (Request n)} {later : List (Fin n × Happening n)} {m' : Machine n}
    (session : Session full requests later m')
    (unstarted : id ∉ (logOf submission.sim later).startedIds) :
    ∃ later' u, Session bare requests later' u ∧
      Unmarked submission.sim id full bare (askedLast submission.sim requests) m' u := by
  obtain ⟨new, hnext⟩ : ∃ new, Next m new full := by
    cases hands with
    | action w run work handling rest callers => exact ⟨_, .step _⟩
    | outside w outcome => exact ⟨_, .request _ outcome _ rfl⟩
  obtain ⟨later', u, hsession, hfollows⟩ :=
    (follows_of_handsIn _ hist hands accepted).session (hist.next hnext) session
      (known_leftOut _ unstarted) fun _ hmem => hmem
  exact ⟨later', u, hsession, ⟨hfollows.agrees, hfollows.sameResult⟩⟩

/-- **A cancelled submission leaves no mark.**  An action or somebody from outside makes a
submission, which is accepted under the id `id`; after some steps and requests its action has not
started.  Had the submission been left out, the same actions would have started, in the same order
and at the same instants, the traces, the counts and the answers would be the same, but for the ids
that were given out later, and so would be the clocks.  If it is cancelled by then, its action never
starts, and this stays so for ever, wherever its entry waits. -/
theorem cancelled_leaves_no_mark (hist : History h m)
    (hands : HandsIn submission body m full bare)
    (accepted : (m.world.submit submission body).2 = .accepted id)
    {requests : List (Request n)} {later : List (Fin n × Happening n)} {m' : Machine n}
    (session : Session full requests later m')
    (unstarted : id ∉ (logOf submission.sim later).startedIds) :
    (∃ later' u, Session bare requests later' u ∧
      Unmarked submission.sim id full bare (askedLast submission.sim requests) m' u) ∧
    ((m'.world.sim submission.sim).isCancelled id = true →
      ∀ more further m'', Session m' more further m'' →
        id ∉ (logOf submission.sim further).startedIds ∧
        ∃ later' u, Session bare (requests ++ more) later' u ∧
          Unmarked submission.sim id full bare (askedLast submission.sim (requests ++ more))
            m'' u) := by
  refine ⟨unmarked_of_unstarted hist hands accepted session unstarted,
    fun cancelled more further m'' onward => ?_⟩
  obtain ⟨new, hnext⟩ : ∃ new, Next m new full := by
    cases hands with
    | action w run work handling rest callers => exact ⟨_, .step _⟩
    | outside w outcome => exact ⟨_, .request _ outcome _ rfl⟩
  have hfurther := unstarted_of_cancelled
    (onward.later.along ((hist.next hnext).later session.later) submission.sim) cancelled
  refine ⟨hfurther, unmarked_of_unstarted hist hands accepted (session.append onward) ?_⟩
  rw [logOf_append, Log.startedIds, Log.started_append, List.map_append, List.mem_append, not_or]
  exact ⟨unstarted, hfurther⟩

end Submission

/-! ## A timer that is cancelled while it is parked -/

/-- The trace of the small world is enabled, and an action that stalls its source until five is
handed in. -/
def stallHandedIn : Machine 1 :=
  (Machine.atRest smallWorld).ask
    [.command lone .enableTrace, .submit ⟨lone, .index 0, .sourceNow, "stall", none⟩ stallUntilFive]

/-- An action of the source for three. -/
def timerAtThree : Submission 1 := ⟨lone, .index 0, .sourceAt (.at ⟨3⟩), "gone", some "gone"⟩

/-- An action that cancels the timer at four is handed in, straight to the calendar; then the
simulation is told to run. -/
def cancelAtFour : List (Request 1) :=
  [.submit ⟨lone, .index 0, .directAt (.at ⟨4⟩), "cancel", none⟩
      (.perform lone (.cancel "gone") ⟨true, none⟩ .done),
    .command lone .run]

/-- The timer is reached at three, parked, and cancelled at four. -/
def cancelledWhileParked : Machine 1 :=
  ((Machine.request stallHandedIn.world (.submit timerAtThree .done)).ask cancelAtFour).steps 10

/-- Two actions start, whether the timer was handed in or not; the second is traced under the next
id if it was not. -/
theorem cancelled_leaves_no_mark_of_parked :
    cancelledWhileParked.result? = some (.count 2) ∧
    (cancelledWhileParked.world.sim lone).trace =
      some [⟨⟨0⟩, ⟨0⟩, .index 0, "stall"⟩, ⟨⟨4⟩, ⟨2⟩, .index 0, "cancel"⟩] ∧
    (∃ later u, Session (Machine.atRest stallHandedIn.world) cancelAtFour later u ∧
      u.result? = some (.count 2) ∧
      (u.world.sim lone).trace =
        some [⟨⟨0⟩, ⟨0⟩, .index 0, "stall"⟩, ⟨⟨4⟩, ⟨1⟩, .index 0, "cancel"⟩]) ∧
    ∀ more further m, Session cancelledWhileParked more further m →
      ⟨1⟩ ∉ (logOf lone further).startedIds := by
  have hist : History _ stallHandedIn := History.small.ask _ rfl
  have hands : HandsIn timerAtThree .done stallHandedIn
      (Machine.request stallHandedIn.world (.submit timerAtThree .done))
      (Machine.atRest (stallHandedIn.world.forget (some "gone"))) :=
    .outside stallHandedIn.world (.accepted ⟨0⟩)
  have hforget : stallHandedIn.world.forget (some "gone") = stallHandedIn.world :=
    World.forget_eq_self rfl
  have haccepted : (stallHandedIn.world.submit timerAtThree .done).2 = .accepted ⟨1⟩ := rfl
  have hsession : Session (Machine.request stallHandedIn.world (.submit timerAtThree .done))
      cancelAtFour _ cancelledWhileParked :=
    (Session.ask _ cancelAtFour rfl).append (.steps _ 10)
  have hresult : cancelledWhileParked.result? = some (.count 2) := rfl
  have htrace : (cancelledWhileParked.world.sim lone).trace =
      some [⟨⟨0⟩, ⟨0⟩, .index 0, "stall"⟩, ⟨⟨4⟩, ⟨2⟩, .index 0, "cancel"⟩] := rfl
  obtain ⟨⟨later, u, hbare, hunmarked⟩, hnever⟩ :=
    cancelled_leaves_no_mark hist hands haccepted hsession (by decide)
  rw [hforget] at hbare
  refine ⟨hresult, htrace, ⟨later, u, hbare, ?_, ?_⟩,
    fun more further m onward => (hnever rfl more further m onward).1⟩
  · obtain ⟨o, ho, hsame⟩ := hunmarked.result _ hresult
    cases hsame
    exact ho
  · have hsame := hunmarked.trace lone
    rw [htrace] at hsame
    generalize (u.world.sim lone).trace = trace at hsame
    cases hsame with
    | some entries =>
      rcases entries with _ | ⟨⟨_, hfirst⟩, _ | ⟨⟨_, hsecond⟩, _ | _⟩⟩
      cases hfirst
      cases hsecond
      rfl

end StallSim
