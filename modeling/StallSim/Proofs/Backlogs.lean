import StallSim.Proofs.Paths
import StallSim.Proofs.Queues

/-!
# Backlogs that nobody replays

A backlog is worked off by the replay of its source.  When a panic leaves a replay, the rest of the
backlog stays where it is: the source still counts as being replayed, but no run replays it.  Only a
new stall of the source takes the backlog over.

* `Standing.Replays` — the replay of a source is under way.
* `Turned` — what a move can do to the phase of one source.

Principal results: `move_turned`; `backlog_stays`, `backlog_was` — along any row of moves without a
panic, a backlog that nobody replays stays until its source is stalled again, and no other one comes
up.
-/

set_option autoImplicit false

namespace StallSim

variable {n : Nat} {log new : Log n} {st st' : Standing n} {source : Source}

/-- The replay of the source is under way. -/
def Standing.Replays (st : Standing n) (source : Source) : Prop :=
  ∃ r, st.replay = some r ∧ r.source = source

theorem not_replays_none (s : Simulation (Action n)) :
    ¬ (⟨s, none⟩ : Standing n).Replays source := by
  rintro ⟨r, hr, -⟩
  cases hr

theorem replays_some {s : Simulation (Action n)} {r : Replay n} :
    (⟨s, some r⟩ : Standing n).Replays source ↔ r.source = source := by
  constructor
  · rintro ⟨_, hr, hsource⟩
    cases hr
    exact hsource
  · exact fun hsource => ⟨r, rfl, hsource⟩

/-- What a move can do to the phase of one source. -/
inductive Turned (source : Source) (st : Standing n) (new : Log n) (st' : Standing n) : Prop where
  | same (phase : st'.sim.phase source = st.sim.phase source)
      (replays : st'.Replays source ↔ st.Replays source)
      (unstalled : source ∉ new.pauses.map Pause.source)
  /-- Immediate work of the source is accepted while the source is replayed. -/
  | joined (backlog : Agenda EventId (Work (Action n))) (work : Work (Action n))
      (before : st.sim.phase source = .replaying backlog)
      (after : st'.sim.phase source = .replaying (backlog.insert work.id work))
      (accepted : new.accepted = [⟨work, none, true⟩])
      (replays : st'.Replays source ↔ st.Replays source)
      (unstalled : source ∉ new.pauses.map Pause.source)
  /-- A stall is granted, or work is parked in the one that lasts. -/
  | stalled (after : ∀ backlog, st'.sim.phase source ≠ .replaying backlog)
      (granted : source ∈ new.pauses.map Pause.source ∨
        ∀ backlog, st.sim.phase source ≠ .replaying backlog)
  | released (before : ∀ backlog, st.sim.phase source ≠ .replaying backlog)
      (underWay : st'.Replays source)
  | drained (before : st.Replays source) (after : st'.Replays source)
  | closed (before : st.Replays source)
      (after : ∀ backlog, st'.sim.phase source ≠ .replaying backlog)

/-- Another source is put in a phase. -/
theorem Turned.other {s s' : Simulation (Action n)} {r : Option (Replay n)} {other : Source}
    {phase : Phase (Action n)} (off : other ≠ source)
    (set : s'.phase = (s.setPhase other phase).phase)
    (unstalled : source ∉ new.pauses.map Pause.source) : Turned source ⟨s, r⟩ new ⟨s', r⟩ := by
  refine .same ?_ Iff.rfl unstalled
  show s'.phase source = s.phase source
  rw [set, Simulation.phase_setPhase, if_neg off]

theorem phase_ne_replaying {s s' : Simulation (Action n)} {stall : Stall (Action n)}
    (set : s'.phase = (s.setPhase source (.stalled stall)).phase)
    (backlog : Agenda EventId (Work (Action n))) : s'.phase source ≠ .replaying backlog := by
  rw [set, Simulation.phase_setPhase, if_pos rfl]
  intro h
  cases h

/-- Where an accepted submission waits tells what becomes of the phases. -/
theorem Turned.lodge {s s' : Simulation (Action n)} {r : Option (Replay n)} {ticket : Ticket n}
    (placed : Placed s ticket s') (source : Source) :
    Turned source ⟨s, r⟩ [.accepted ticket] ⟨s', r⟩ := by
  have hunstalled : source ∉ (Log.pauses [Happening.accepted ticket]).map Pause.source :=
    List.not_mem_nil
  cases placed with
  | immediate event entry running => exact .same rfl Iff.rfl hunstalled
  | timed t event entry => exact .same rfl Iff.rfl hunstalled
  | parked stall stalled routed early =>
    by_cases hsource : ticket.work.source = source
    · subst hsource
      refine .stalled (phase_ne_replaying (s := s) rfl) (.inr fun backlog h => ?_)
      rw [show s.phase _ = _ from stalled] at h
      cases h
    · exact .other (s := s) hsource rfl hunstalled
  | joined backlog replaying routed untimed =>
    by_cases hsource : ticket.work.source = source
    · subst hsource
      obtain ⟨work, due, viaSource⟩ := ticket
      cases routed
      cases untimed
      refine .joined backlog work replaying ?_ rfl Iff.rfl hunstalled
      exact (Simulation.phase_setPhase s.issue _ _ _).trans (if_pos rfl)
    · exact .other (s := s) hsource rfl hunstalled

/-- **What a move can do to the phase of one source.** -/
theorem move_turned (move : Move log st new st') (calm : new.Calm) (source : Source) :
    Turned source st new st' := by
  cases move with
  | accept s s' r ticket admits => exact .lodge (admits.eq ▸ placed_lodge s ticket) source
  | stall s r other release backlog known inTime active carried =>
    by_cases hsource : other = source
    · subst hsource
      exact .stalled (phase_ne_replaying (s := s) rfl) (.inl (List.mem_singleton.2 rfl))
    · refine .other (s := s) hsource rfl fun hmem => hsource ?_
      exact (List.mem_singleton.1 hmem).symm
  | intercept s turn work rest stall taken live stalled =>
    by_cases hsource : work.source = source
    · subst hsource
      refine .stalled (phase_ne_replaying (s := s.take turn rest) rfl) (.inr fun backlog h => ?_)
      rw [show s.phase _ = _ from stalled] at h
      cases h
    · exact .other (s := s) hsource rfl List.not_mem_nil
  | release s turn id other rest stall taken live stalled =>
    by_cases hsource : other = source
    · subst hsource
      refine .released (fun backlog h => ?_) (replays_some.2 rfl)
      rw [show s.phase _ = _ from stalled] at h
      cases h
    · refine .same ?_ ?_ List.not_mem_nil
      · exact (Simulation.phase_setPhase (s.take turn rest) _ _ _).trans (if_neg hsource)
      · exact iff_of_false (fun h => hsource (replays_some.1 h)) (not_replays_none s)
  | skip s r key work backlog rest replaying taken cancelled =>
    by_cases hsource : r.source = source
    · exact .drained (replays_some.2 hsource) (replays_some.2 hsource)
    · exact .other (s := s) hsource rfl List.not_mem_nil
  | drain s r key work backlog rest replaying taken live =>
    by_cases hsource : r.source = source
    · exact .drained (replays_some.2 hsource) (replays_some.2 hsource)
    · exact .other (s := s) hsource rfl List.not_mem_nil
  | close s r =>
    have hphase := phase_closeReplay s r.source source r.release r.timers
    by_cases hsource : r.source = source
    · refine .closed (replays_some.2 hsource) (fun backlog h => ?_)
      rw [show (s.closeReplay _ _ _).phase source = _ from hphase, if_pos hsource] at h
      cases hold : s.phase r.source <;> rw [hold] at h <;> cases h
    · refine .same (hphase.trans (if_neg hsource)) ?_ List.not_mem_nil
      exact iff_of_false (not_replays_none _) (fun h => hsource (replays_some.1 h))
  | unwind s r => exact absurd (List.mem_singleton.2 rfl) calm
  | _ => exact .same rfl Iff.rfl List.not_mem_nil

/-! ## Rows of moves -/

theorem not_mem_pauses_append {new' : Log n}
    (unstalled : source ∉ (Log.pauses (new ++ new')).map Pause.source) :
    source ∉ new.pauses.map Pause.source ∧ source ∉ new'.pauses.map Pause.source := by
  rw [Log.pauses_append, List.map_append, List.mem_append, not_or] at unstalled
  exact unstalled

/-- **A backlog that nobody replays stays until its source is stalled again.** -/
theorem backlog_stays (along : Along Move log st new st') (calm : new.Calm)
    {backlog : Agenda EventId (Work (Action n))}
    (replaying : st.sim.phase source = .replaying backlog) (left : ¬ st.Replays source)
    (unstalled : source ∉ new.pauses.map Pause.source) :
    ¬ st'.Replays source ∧ ∃ backlog', st'.sim.phase source = .replaying backlog' ∧
      ∀ ticket ∈ backlogTickets backlog.values, ticket ∈ backlogTickets backlog'.values := by
  induction along with
  | refl => exact ⟨left, backlog, replaying, fun _ hmem => hmem⟩
  | next _ move ih =>
    obtain ⟨hcalm, hcalm'⟩ := Log.calm_append.1 calm
    obtain ⟨hbefore, hafter⟩ := not_mem_pauses_append unstalled
    obtain ⟨hleft, b, hphase, hsubset⟩ := ih hcalm hbefore
    cases move_turned move hcalm' source with
    | same phase replays => exact ⟨fun h => hleft (replays.1 h), b, phase.trans hphase, hsubset⟩
    | joined b' work before after accepted replays =>
      rw [hphase] at before
      cases before
      refine ⟨fun h => hleft (replays.1 h), _, after, fun ticket hmem => ?_⟩
      exact (backlogTickets_insert b work.id work).mem_iff.2
        (List.mem_cons_of_mem _ (hsubset ticket hmem))
    | stalled _ granted =>
      rcases granted with hgranted | hfree
      · exact absurd hgranted hafter
      · exact absurd hphase (hfree b)
    | released before => exact absurd hphase (before b)
    | drained before => exact absurd before hleft
    | closed before => exact absurd before hleft

/-- **A backlog that nobody replays was there before**, and its source has not been stalled since. -/
theorem backlog_was (along : Along Move log st new st') (calm : new.Calm) (source : Source)
    {backlog : Agenda EventId (Work (Action n))}
    (replaying : st'.sim.phase source = .replaying backlog) :
    st'.Replays source ∨ source ∉ new.pauses.map Pause.source ∧
      ∃ backlog', st.sim.phase source = .replaying backlog' ∧
        ∀ ticket ∈ backlogTickets backlog.values,
          ticket ∈ backlogTickets backlog'.values ∨ ticket ∈ new.accepted := by
  induction along generalizing backlog with
  | refl => exact .inr ⟨List.not_mem_nil, backlog, replaying, fun _ hmem => .inl hmem⟩
  | next _ move ih =>
    obtain ⟨hcalm, hcalm'⟩ := Log.calm_append.1 calm
    rw [Log.pauses_append, List.map_append, List.mem_append, not_or, Log.accepted_append]
    cases move_turned move hcalm' source with
    | same phase replays unstalled =>
      rcases ih hcalm (phase.symm.trans replaying) with hunderWay | ⟨hfree, b, hphase, hsubset⟩
      · exact .inl (replays.2 hunderWay)
      · refine .inr ⟨⟨hfree, unstalled⟩, b, hphase, fun ticket hmem => ?_⟩
        exact (hsubset ticket hmem).imp_right (List.mem_append_left _)
    | joined b' work before after accepted replays unstalled =>
      rw [after] at replaying
      cases replaying
      rcases ih hcalm before with hunderWay | ⟨hfree, b, hphase, hsubset⟩
      · exact .inl (replays.2 hunderWay)
      · refine .inr ⟨⟨hfree, unstalled⟩, b, hphase, fun ticket hmem => ?_⟩
        rcases List.mem_cons.1 ((backlogTickets_insert b' work.id work).mem_iff.1 hmem) with
          rfl | hmem
        · rw [accepted]
          exact .inr (List.mem_append_right _ List.mem_cons_self)
        · exact (hsubset ticket hmem).imp_right (List.mem_append_left _)
    | stalled after => exact absurd replaying (after backlog)
    | released _ underWay => exact .inl underWay
    | drained _ after => exact .inl after
    | closed _ after => exact absurd replaying (after backlog)

end StallSim
