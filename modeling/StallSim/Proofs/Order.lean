import Mathlib.Data.List.Sort
import StallSim.Proofs.Panics
import StallSim.Proofs.SourceOrder

/-!
# The order in which waiting work starts

Work of one source that waits at some time starts in the order of its tickets, whatever happens in
the meantime, as long as no panic leaves a replay of the source.  What happened before, panics
included, does not matter to it.

* `Ticket.Through` — the work was handed in through a source.
* `Trails` — what of the listed work still waits goes behind what of it has started.

Principal results: `Trails.move`, `trails_of_waiting` — in one move, and along any row of moves;
`Trails.sublist` — the ids that start are a part of the list, in its order.
-/

set_option autoImplicit false

namespace StallSim

variable {n : Nat} {log new new' : Log n} {st st' st'' : Standing n} {source : Source}
  {listed : List (Ticket n)}

/-- Only work with the same id goes both before and behind. -/
theorem Ticket.Precedes.id_eq {a b : Ticket n} (first : a.Precedes b) (second : b.Precedes a) :
    a.work.id = b.work.id := by
  unfold Ticket.Precedes at first second
  cases ha : a.due <;> cases hb : b.due <;> simp only [ha, hb] at first second
  · exact Std.le_antisymm first second
  · exact congrArg Origin.id (Std.le_antisymm first second)

/-- The work was handed in through the source. -/
def Ticket.Through (ticket : Ticket n) (source : Source) : Prop :=
  ticket.routed = true ∧ ticket.work.source = source

/-- The listed work that has started goes before what of it waits, and has started in order. -/
structure Trails (listed : List (Ticket n)) (new : Log n) (st : Standing n) : Prop where
  behind : ∀ a ∈ listed, a.work.id ∈ new.startedIds → ∀ b ∈ listed, b ∈ st.tickets → a.Precedes b
  inOrder : new.startedIds.Pairwise (fun x y =>
    ∀ a ∈ listed, ∀ b ∈ listed, a.work.id = x → b.work.id = y → a.Precedes b)

/-- A move adds at most one entry to the log. -/
theorem log_of_move (move : Move log st new st') : new = [] ∨ ∃ x, new = [x] := by
  cases move <;> first | exact .inl rfl | exact .inr ⟨_, rfl⟩

theorem Log.startedIds_append (a b : Log n) :
    (a ++ b).startedIds = a.startedIds ++ b.startedIds := by
  simp [Log.startedIds]

/-- A move starts nothing, or one action. -/
theorem startedIds_of_move (move : Move log st new st') :
    new.startedIds = [] ∨ ∃ work time, new = [.started work time] := by
  rcases log_of_move move with rfl | ⟨x, rfl⟩
  · exact .inl rfl
  · cases x with
    | started work time => exact .inr ⟨work, time, rfl⟩
    | _ => exact .inl rfl

/-- What waits after a move and was accepted before it has waited before it. -/
theorem waited_of_move (course : Course log st) (move : Move log st new st') {ticket : Ticket n}
    (accepted : ticket ∈ log.accepted) (waits : ticket ∈ st'.tickets) : ticket ∈ st.tickets := by
  by_contra hgone
  exact (course.gone (.single move) accepted hgone).1 waits

/-- A source stays attended along any row of moves without a panic. -/
theorem Standing.Attended.along (attended : st.Attended source) (along : Along Move log st new st')
    (calm : new.Calm) : st'.Attended source := by
  induction along with
  | refl => exact attended
  | next _ move ih =>
    obtain ⟨hbefore, hafter⟩ := Log.calm_append.1 calm
    exact (ih hbefore).move move hafter

/-- **In one move**, the first of the listed work that waits starts, or none of it. -/
theorem Trails.move (trails : Trails listed new st') (course : Course (log ++ new) st')
    (accepted : ∀ ticket ∈ listed, ticket ∈ (log ++ new).accepted)
    (through : ∀ ticket ∈ listed, ticket.Through source) (attended : st'.Attended source)
    (move : Move (log ++ new) st' new' st'') : Trails listed (new ++ new') st'' := by
  have hwaited : ∀ b ∈ listed, b ∈ st''.tickets → b ∈ st'.tickets :=
    fun b hb => waited_of_move course move (accepted b hb)
  rcases startedIds_of_move move with hnone | ⟨work, time, rfl⟩
  · have hids : (new ++ new').startedIds = new.startedIds := by
      rw [Log.startedIds_append, hnone, List.append_nil]
    refine ⟨fun a ha hstarted b hb hwaits => ?_, hids ▸ trails.inOrder⟩
    exact trails.behind a ha (hids ▸ hstarted) b hb (hwaited b hb hwaits)
  -- if what starts is listed, it has waited, and goes before what of the list waits
  have hfirst : ∀ a ∈ listed, a.work.id = work.id → a ∈ st'.tickets ∧
      ∀ b ∈ listed, b ∈ st'.tickets → a.Precedes b := by
    intro a ha hid
    obtain ⟨ticket, hmem, rfl, -, -, hleast⟩ :=
      first_of_move course move (List.mem_singleton.2 rfl)
    obtain rfl : ticket = a :=
      course.ledger.eq_of_id (course.ledger.accepted_of_mem hmem) (accepted a ha) hid.symm
    obtain ⟨hrouted, hmine⟩ := through ticket ha
    refine ⟨hmem, fun b hb hwaits => ?_⟩
    obtain ⟨hrouted', hmine'⟩ := through b hb
    exact hleast hrouted (hmine ▸ attended) b hwaits hrouted' (hmine'.trans hmine.symm)
  have hids : Log.startedIds (new ++ [.started work time]) = new.startedIds ++ [work.id] :=
    Log.startedIds_append _ _
  refine ⟨fun a ha hstarted b hb hwaits => ?_, ?_⟩
  · rw [hids] at hstarted
    rcases List.mem_append.1 hstarted with hbefore | hnow
    · exact trails.behind a ha hbefore b hb (hwaited b hb hwaits)
    · exact (hfirst a ha (List.mem_singleton.1 hnow)).2 b hb (hwaited b hb hwaits)
  · rw [hids]
    refine List.pairwise_append.2 ⟨trails.inOrder, List.pairwise_singleton _ _, ?_⟩
    rintro x hx y hy a ha b hb rfl rfl
    exact trails.behind a ha hx b hb (hfirst b hb (List.mem_singleton.1 hy)).1

/-- **Work that waits for a source starts in the order of its tickets**, along any row of moves
without a panic, whatever the course was before. -/
theorem trails_of_waiting (course : Course log st) (waits : ∀ ticket ∈ listed, ticket ∈ st.tickets)
    (through : ∀ ticket ∈ listed, ticket.Through source) (attended : st.Attended source)
    (along : Along Move log st new st') (calm : new.Calm) : Trails listed new st' := by
  induction along with
  | refl => exact ⟨fun a ha hstarted => (by cases hstarted), List.Pairwise.nil⟩
  | next before move ih =>
    have hcalm := (Log.calm_append.1 calm).1
    refine (ih hcalm).move (course.along before) (fun ticket hmem => ?_) through
      (attended.along before hcalm) move
    rw [Log.accepted_append]
    exact List.mem_append_left _ (course.ledger.accepted_of_mem (waits ticket hmem))

/-- The ids of listed work that start are a part of the list, if the list is in order. -/
theorem Trails.sublist (trails : Trails listed new st) (inOrder : listed.Pairwise Ticket.Precedes)
    (once : (listed.map (fun ticket => ticket.work.id)).Nodup) (started : new.startedIds.Nodup) :
    (new.startedIds.filter (fun id => id ∈ listed.map (fun ticket => ticket.work.id))).Sublist
      (listed.map (fun ticket => ticket.work.id)) := by
  let before : EventId → EventId → Prop := fun x y =>
    ∃ a ∈ listed, ∃ b ∈ listed, a.work.id = x ∧ b.work.id = y ∧ a.Precedes b
  have hantisymm : Std.Antisymm before := by
    constructor
    rintro x y ⟨a, ha, b, hb, rfl, rfl, hab⟩ ⟨c, hc, d, hd, hcb, hda, hcd⟩
    obtain rfl : c = b := List.inj_on_of_nodup_map once hc hb hcb
    obtain rfl : d = a := List.inj_on_of_nodup_map once hd ha hda
    exact hab.id_eq hcd
  refine List.sublist_of_subperm_of_pairwise (r := before) ?_ ?_ ?_
  · refine List.subperm_of_subset (started.filter _) fun id hmem => ?_
    simpa using (List.mem_filter.1 hmem).2
  · refine (trails.inOrder.filter _).imp_of_mem fun {x y} hx hy hxy => ?_
    have hlisted : ∀ {id}, id ∈ new.startedIds.filter
        (fun id => id ∈ listed.map (fun ticket => ticket.work.id)) →
        ∃ a ∈ listed, a.work.id = id := by
      intro id hid
      exact List.mem_map.1 (by simpa using (List.mem_filter.1 hid).2)
    obtain ⟨a, ha, rfl⟩ := hlisted hx
    obtain ⟨b, hb, rfl⟩ := hlisted hy
    exact ⟨a, ha, b, hb, rfl, rfl, hxy a ha b hb rfl rfl⟩
  · exact List.pairwise_map.2
      (inOrder.imp_of_mem fun ha hb hab => ⟨_, ha, _, hb, rfl, rfl, hab⟩)

end StallSim
