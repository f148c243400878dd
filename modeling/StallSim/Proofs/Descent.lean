import StallSim.Proofs.Counting
import StallSim.Proofs.Finite

/-!
# A measure of what is left to do

Neither the length of the queues nor the clock goes down along a run: a stall puts events aside and
a release puts them back, at one and the same instant.  What goes down is a rank of four numbers,
of which the first counts most: the cost of all work that waits or is under way, the releases that
wait, the events that wait, and whose turn it is.

* `worth` — the cost of work, where a script has the cost `cost`.
* `Rank`, `Rank.Less` — the four numbers, and their order, which is well founded.
* `Machine.rank` — the rank of a machine, with regard to the simulations `among`.

Principal results: `Next.worth_le` — what waits is worth no more after a step, but for what was
accepted in it; `stepRun_descends` — between two actions the rank goes down.
-/

set_option autoImplicit false

namespace StallSim

variable {n : Nat}

/-! ## Ranks -/

/-- What is left to do: the cost of the work, the releases and the events that wait, and whose turn
it is. -/
structure Rank where
  work : Nat
  releases : Nat
  events : Nat
  turn : Nat

/-- The rank is less in the first number that is not the same. -/
def Rank.Less (a b : Rank) : Prop :=
  a.work < b.work ∨ a.work ≤ b.work ∧
    (a.releases < b.releases ∨ a.releases ≤ b.releases ∧
      (a.events < b.events ∨ a.events ≤ b.events ∧ a.turn < b.turn))

theorem Rank.less_wf : WellFounded Rank.Less := by
  have hlex := (wellFounded_lt (α := Nat)).prod_lex ((wellFounded_lt (α := Nat)).prod_lex
    ((wellFounded_lt (α := Nat)).prod_lex (wellFounded_lt (α := Nat))))
  apply Subrelation.wf (r := InvImage _ (fun a : Rank => (a.work, a.releases, a.events, a.turn)))
    ?_ (InvImage.wf _ hlex)
  intro a b less
  unfold Rank.Less at less
  simp only [InvImage, Prod.lex_def]
  omega

/-! ## The worth of work -/

/-- The cost of work: of its scripts, and of one operation more for each start. -/
def worth (cost : Script n → Nat) (works : List (Work (Action n))) : Nat :=
  (works.map (fun work => cost work.action.script + 1)).sum

section Worth

variable (cost : Script n → Nat) {a b : List (Work (Action n))}

@[simp] theorem worth_nil : worth cost [] = 0 := rfl

@[simp] theorem worth_cons (work : Work (Action n)) :
    worth cost (work :: a) = cost work.action.script + 1 + worth cost a := by
  simp [worth]

@[simp] theorem worth_append : worth cost (a ++ b) = worth cost a + worth cost b := by
  simp [worth]

theorem worth_of_perm (perm : a.Perm b) : worth cost a = worth cost b :=
  (perm.map _).sum_eq

end Worth

/-- The work that waits. -/
def Standing.works (st : Standing n) : List (Work (Action n)) := st.tickets.map Ticket.work

/-- The work that was accepted. -/
def Log.handedIn (log : Log n) : List (Work (Action n)) := log.accepted.map Ticket.work

section Conservation

variable (cost : Script n → Nat) {log new : Log n} {st st' : Standing n}

/-- Where tickets are conserved, so is the worth of their work. -/
theorem Conserves.worth_le {cancelled : EventId → Bool} {begun dropped : List (Ticket n)}
    (conserves : Conserves cancelled st.tickets new st'.tickets begun dropped) :
    worth cost st'.works + worth cost new.started ≤
      worth cost st.works + worth cost new.handedIn := by
  have hworth := worth_of_perm cost (conserves.balance.map Ticket.work)
  simp only [List.map_append, worth_append, conserves.begun] at hworth
  unfold Standing.works Log.handedIn
  omega

/-- Work that starts is worth nothing any more. -/
theorem worth_of_move (move : Move log st new st') (rostered : Rostered st.sim) :
    worth cost st'.works + worth cost new.started ≤
      worth cost st.works + worth cost new.handedIn := by
  obtain ⟨begun, dropped, hconserves⟩ := move_conserves move rostered
  exact hconserves.worth_le cost

/-- **What waits is worth no more after a step**, but for what was accepted in it. -/
theorem Next.worth_le {h new : List (Fin n × Happening n)} {m m' : Machine n}
    (hist : History h m) (next : Next m new m') (i : Fin n) :
    worth cost (m'.standing i).works ≤
      worth cost (m.standing i).works + worth cost (logOf i new).handedIn := by
  obtain ⟨begun, dropped, hconserves⟩ := (hist.course i).conserves (next.along hist i)
  have hworth := hconserves.worth_le cost
  omega

/-- Taking an event hands in nothing; work that it starts is worth nothing any more. -/
theorem worth_of_dispatch {s : Simulation (Action n)} (rostered : Rostered s)
    (taken : s.dispatch.after = some (new, st)) :
    worth cost st.works + worth cost new.started ≤
      worth cost (⟨s, none⟩ : Standing n).works := by
  have hwork := worth_of_move cost (move_dispatch ([] : Log n) taken) rostered
  have hnone : new.handedIn = [] := by
    unfold Simulation.Dispatch.after at taken
    split at taken <;> cases taken <;> rfl
  rw [hnone, worth_nil] at hwork
  exact hwork

/-- What is left of a replay waits on, unless it is cancelled. -/
theorem worth_closeReplay {s : Simulation (Action n)} (r : Replay n) (rostered : Rostered s) :
    worth cost (⟨s.closeReplay r.source r.release r.timers, none⟩ : Standing n).works ≤
      worth cost (⟨s, some r⟩ : Standing n).works := by
  have hmove : Move ([] : Log n) ⟨s, some r⟩ [] ⟨s.closeReplay r.source r.release r.timers, none⟩ :=
    .close s r
  exact worth_of_move cost hmove rostered

/-- Work that is taken from a backlog does not wait any more. -/
theorem worth_of_nextReplayed {s s' : Simulation (Action n)} {r : Replay n}
    {work : Work (Action n)} (rostered : Rostered s)
    (next : s.nextReplayed r.source = some (work, s')) :
    worth cost (⟨s', some r⟩ : Standing n).works + (cost work.action.script + 1) =
      worth cost (⟨s, some r⟩ : Standing n).works := by
  unfold Simulation.nextReplayed at next
  split at next
  · rename_i backlog hphase
    simp only [Option.map_eq_some_iff, Prod.mk.injEq] at next
    obtain ⟨⟨⟨key, v⟩, rest⟩, hnext, rfl, rfl⟩ := next
    have hperm := tickets_replayed rostered.distinct rostered.known hphase hnext (some r)
    have hworth := worth_of_perm cost (hperm.map Ticket.work)
    simp only [List.map_append, List.map_cons, List.map_nil, worth_append, worth_cons,
      worth_nil] at hworth
    dsimp only [Standing.works]
    omega
  · cases next

end Conservation

/-! ## Releases and events -/

/-- How many events wait, the timers of a replay among them, and the end of the replay. -/
def Standing.events (st : Standing n) : Nat :=
  st.sim.calendar.length +
    match st.replay with
    | some r => r.timers.toList.length + 1
    | none => 0

/-- How many releases wait. -/
def Standing.releases (st : Standing n) : Nat := st.sim.calendar.releases.length

section Events

variable {s s' : Simulation (Action n)} {source : Source}

theorem length_of_next? {c rest : Calendar (Action n)} {e : Option Turn × Event (Action n)}
    (taken : c.next? = some (e, rest)) : c.length = rest.length + 1 := by
  unfold Calendar.length
  rw [Calendar.next?_eq_some_iff.1 taken, List.length_cons]

theorem releases_le_of_next? {c rest : Calendar (Action n)} {e : Option Turn × Event (Action n)}
    (taken : c.next? = some (e, rest)) : rest.releases.length ≤ c.releases.length := by
  obtain ⟨turn, event⟩ := e
  apply List.Sublist.length_le
  apply List.Sublist.filterMap
  rcases Calendar.next?_cases taken with ⟨-, -, htimed⟩ | ⟨k, -, -, -, htimed, -⟩
  · rw [htimed]
  · rw [htimed]
    exact List.sublist_cons_self _ _

/-- An event that was taken waits no more. -/
theorem events_of_dispatch (taken : s.dispatch.sim? = some s') :
    (⟨s', none⟩ : Standing n).events < (⟨s, none⟩ : Standing n).events ∧
      (⟨s', none⟩ : Standing n).releases ≤ (⟨s, none⟩ : Standing n).releases := by
  obtain ⟨e, calendar, now, phases, hnext, rfl⟩ := dispatch_frame taken
  have hlength := length_of_next? hnext
  refine ⟨?_, releases_le_of_next? hnext⟩
  simp only [Standing.events]
  omega

/-- A release that starts a replay waits no more. -/
theorem releases_of_replay (stalls : Stalls s) {stall : Stall (Action n)}
    (replay : s.dispatch = .replay source stall s') (r : Option (Replay n)) :
    (⟨s', r⟩ : Standing n).releases < (⟨s, none⟩ : Standing n).releases := by
  have htaken : s.dispatch.sim? = some s' := by
    rw [replay]
    rfl
  obtain ⟨⟨turn, event⟩, calendar, now, phases, hnext, rfl⟩ := dispatch_frame htaken
  have hrelease : ∃ id, event = .release id source := by
    rw [dispatch_eq hnext] at replay
    split at replay
    · cases replay
    · cases event with
      | direct work => cases replay
      | routed work =>
        dsimp only at replay
        split at replay <;> cases replay
      | release id other =>
        dsimp only at replay
        split at replay <;> cases replay
        exact ⟨id, rfl⟩
  obtain ⟨id, rfl⟩ := hrelease
  obtain ⟨k, -, -, htimed, -⟩ := stalls.release_taken hnext
  show calendar.releases.length < s.calendar.releases.length
  unfold Calendar.releases
  rw [htimed]
  simp [Event.released?]

/-- Where a backlog is exhausted, nothing of it is left over. -/
theorem leftover_of_exhausted (exhausted : s.nextReplayed source = none) :
    leftover s source = [] := by
  unfold Simulation.nextReplayed at exhausted
  unfold leftover
  split
  · rename_i backlog hphase
    rw [hphase] at exhausted
    have hnone : backlog.toList = [] :=
      Agenda.next?_eq_none_iff.1 (Option.map_eq_none_iff.1 exhausted)
    simp [Agenda.values, hnone]
  · rfl

/-- A replay that has nothing more to start lets its timers wait, and posts no release. -/
theorem events_closeReplay (r : Replay n) (exhausted : s.nextReplayed r.source = none) :
    (⟨s.closeReplay r.source r.release r.timers, none⟩ : Standing n).events <
        (⟨s, some r⟩ : Standing n).events ∧
      (⟨s.closeReplay r.source r.release r.timers, none⟩ : Standing n).releases =
        (⟨s, some r⟩ : Standing n).releases := by
  rw [closeReplay_eq, leftover_of_exhausted exhausted]
  constructor
  · have hfilter := List.length_filter_le (fun e => !s.isCancelled e.2.id) r.timers.toList
    simp only [Standing.events, Calendar.length, Calendar.entries, List.map_nil, List.append_nil,
      List.length_append, List.length_map, (toList_repostedTimers_perm _ _ _).length_eq]
    omega
  · exact (Calendar.releases_reposted s.calendar r.release _ _).length_eq

end Events

/-! ## The rank of a machine -/

/-- The cost of what the waiting actions have still to do. -/
def costs (cost : Script n → Nat) (callers : List (Caller n)) : Nat :=
  (callers.map (fun c => cost c.rest)).sum

/-- The cost of the scripts on the call stack. -/
def Machine.stackCost (cost : Script n → Nat) (m : Machine n) : Nat :=
  (match m.control with
    | .within _ _ script => cost script
    | _ => 0) + costs cost m.callers

section Costs

variable (cost : Script n → Nat) (w : World n) (callers : List (Caller n))

@[simp] theorem costs_cons (c : Caller n) :
    costs cost (c :: callers) = cost c.rest + costs cost callers := by
  simp [costs]

@[simp] theorem stackCost_between (run : Run n) :
    Machine.stackCost cost ⟨w, .between run, callers⟩ = costs cost callers := Nat.zero_add _

@[simp] theorem stackCost_within (run : Run n) (work : Work (Action n)) (script : Script n) :
    Machine.stackCost cost ⟨w, .within run work script, callers⟩ =
      cost script + costs cost callers := rfl

@[simp] theorem stackCost_returned (outcome : Outcome) :
    Machine.stackCost cost ⟨w, .returned outcome, callers⟩ = costs cost callers := Nat.zero_add _

end Costs

/-- Whose turn it is: an action ends with an operation, and every answer is given at once. -/
def Machine.turn (m : Machine n) : Nat :=
  match m.control with
  | .between _ => 2
  | .returned _ => 1
  | .within _ _ _ => 0

/-- What is left to do in the simulations `among`, and on the call stack. -/
def Machine.rank (cost : Script n → Nat) (among : Finset (Fin n)) (m : Machine n) : Rank where
  work := ∑ i ∈ among, worth cost (m.standing i).works + m.stackCost cost
  releases := ∑ i ∈ among, (m.standing i).releases
  events := ∑ i ∈ among, (m.standing i).events
  turn := m.turn

/-- What is left to do in one simulation, and on the call stack. -/
def Machine.rankAt (cost : Script n → Nat) (i : Fin n) (m : Machine n) : Rank where
  work := worth cost (m.standing i).works + m.stackCost cost
  releases := (m.standing i).releases
  events := (m.standing i).events
  turn := m.turn

section Standings

variable {m m' : Machine n} {among : Finset (Fin n)} {i : Fin n}

/-- A sum over the simulations changes with the one that goes on. -/
theorem sum_standing (f : Standing n → Nat) (mem : i ∈ among)
    (others : ∀ j, j ≠ i → m'.standing j = m.standing j) :
    ∑ j ∈ among, f (m'.standing j) + f (m.standing i) =
      ∑ j ∈ among, f (m.standing j) + f (m'.standing i) := by
  have hrest : ∑ j ∈ among.erase i, f (m'.standing j) = ∑ j ∈ among.erase i, f (m.standing j) := by
    apply Finset.sum_congr rfl
    intro j hj
    rw [others j (Finset.ne_of_mem_erase hj)]
  have hbefore := Finset.add_sum_erase among (fun j => f (m.standing j)) mem
  have hafter := Finset.add_sum_erase among (fun j => f (m'.standing j)) mem
  omega

/-- Where one simulation goes on and the others do not, its rank counts. -/
theorem less_of_rankAt {cost : Script n → Nat} (mem : i ∈ among)
    (others : ∀ j, j ≠ i → m'.standing j = m.standing j)
    (less : (m'.rankAt cost i).Less (m.rankAt cost i)) :
    (m'.rank cost among).Less (m.rank cost among) := by
  have hwork := sum_standing (fun st => worth cost st.works) mem others
  have hreleases := sum_standing Standing.releases mem others
  have hevents := sum_standing Standing.events mem others
  unfold Rank.Less at less ⊢
  simp only [Machine.rankAt] at less
  simp only [Machine.rank]
  omega

variable (w : World n) (run : Run n) (callers : List (Caller n)) (m' : Machine n) {run' : Run n}
  {s : Simulation (Action n)}

/-- One simulation goes on, and its replay with it; the others stay as they are. -/
theorem standing_of_change {r : Option (Replay n)}
    (sims : m'.world.sims = (w.setSim run.sim s).sims) (here : replayIn run.sim m'.runs = r)
    (elsewhere : ∀ j, j ≠ run.sim → replayIn j m'.runs = replayIn j (callers.map Caller.run)) :
    m'.standing run.sim = ⟨s, r⟩ ∧
      ∀ j, j ≠ run.sim → m'.standing j = Machine.standing ⟨w, .between run, callers⟩ j := by
  have hsims : ∀ j, m'.world.sim j = (w.setSim run.sim s).sim j := by
    intro j
    simp only [World.sim, sims]
  constructor
  · simp only [Machine.standing, hsims, sim_setSim_self, here]
  · intro j hj
    have hruns : Machine.runs ⟨w, .between run, callers⟩ = run :: callers.map Caller.run := rfl
    simp only [Machine.standing, hsims, World.sim_setSim, if_neg (Ne.symm hj), hruns, replayIn,
      elsewhere j hj]

/-- The run goes on with another event. -/
theorem standing_of_goOn (sims : m'.world.sims = (w.setSim run.sim s).sims)
    (runs : m'.runs = run' :: callers.map Caller.run) (sim : run'.sim = run.sim) :
    m'.standing run.sim = ⟨s, run'.replay⟩ ∧
      ∀ j, j ≠ run.sim → m'.standing j = Machine.standing ⟨w, .between run, callers⟩ j := by
  apply standing_of_change w run callers m' sims
  · rw [runs, replayIn, if_pos sim]
  · intro j hj
    rw [runs, replayIn, if_neg (sim ▸ Ne.symm hj)]

/-- The run ends. -/
theorem standing_of_conclude (absent : run.sim ∉ (callers.map Caller.run).map Run.sim)
    (sims : m'.world.sims = (w.setSim run.sim s).sims) (runs : m'.runs = callers.map Caller.run) :
    m'.standing run.sim = ⟨s, none⟩ ∧
      ∀ j, j ≠ run.sim → m'.standing j = Machine.standing ⟨w, .between run, callers⟩ j := by
  apply standing_of_change w run callers m' sims
  · rw [runs, replayIn_eq_none absent]
  · intro j hj
    rw [runs]

end Standings

/-! ## Between two actions -/

/-- Less is left to do in a simulation: less work, or fewer releases, or fewer events. -/
def Standing.Less (cost : Script n → Nat) (st' st : Standing n) : Prop :=
  worth cost st'.works < worth cost st.works ∨ worth cost st'.works ≤ worth cost st.works ∧
    (st'.releases < st.releases ∨ st'.releases ≤ st.releases ∧ st'.events < st.events)

section Between

variable {cost : Script n → Nat} {among : Finset (Fin n)} {w : World n} {run : Run n}
  {callers : List (Caller n)} {h : List (Fin n × Happening n)}

theorem standing_between (w : World n) (run : Run n) (callers : List (Caller n)) :
    Machine.standing ⟨w, .between run, callers⟩ run.sim = ⟨w.sim run.sim, run.replay⟩ := by
  simp [Machine.standing, Machine.runs, replayIn]

/-- A run that goes on with the next event has less to do. -/
theorem goOn_descends (run' : Run n) {s : Simulation (Action n)} (mem : run.sim ∈ among)
    (sim : run'.sim = run.sim)
    (less : Standing.Less cost ⟨s, run'.replay⟩ ⟨w.sim run.sim, run.replay⟩) :
    (Machine.rank cost among ⟨w.setSim run.sim s, .between run', callers⟩).Less
      (Machine.rank cost among ⟨w, .between run, callers⟩) := by
  obtain ⟨hself, hothers⟩ := standing_of_goOn w run callers
    ⟨w.setSim run.sim s, .between run', callers⟩ rfl rfl sim
  apply less_of_rankAt mem hothers
  unfold Standing.Less at less
  simp only [Rank.Less, Machine.rankAt, standing_between, hself, Machine.stackCost, Machine.turn]
  omega

/-- A run that starts an action has less to do: the action costs less than its work was worth. -/
theorem enter_descends {s : Simulation (Action n)} {work : Work (Action n)}
    (mem : run.sim ∈ among)
    (started : worth cost (⟨s.startAction work, run.replay⟩ : Standing n).works +
      (cost work.action.script + 1) ≤ worth cost (⟨w.sim run.sim, run.replay⟩ : Standing n).works) :
    ((Machine.enter (w.setSim run.sim s) run work callers).rank cost among).Less
      (Machine.rank cost among ⟨w, .between run, callers⟩) := by
  obtain ⟨hself, hothers⟩ := standing_of_goOn w run callers
    (Machine.enter (w.setSim run.sim s) run work callers) (enter_setSim w run s work callers).1
    rfl rfl
  have hstack : (Machine.enter (w.setSim run.sim s) run work callers).stackCost cost =
      cost work.action.script + Machine.stackCost cost ⟨w, .between run, callers⟩ := by
    simp [Machine.stackCost, Machine.enter]
  apply less_of_rankAt mem hothers
  left
  simp only [Machine.rankAt, standing_between, hself, hstack]
  omega

/-- Between two actions it is nobody's turn yet, which the end of a run is a step ahead of. -/
theorem conclude_descends {outcome : Outcome} (mem : run.sim ∈ among) (idle : run.replay = none)
    (absent : run.sim ∉ (callers.map Caller.run).map Run.sim) :
    (Machine.rank cost among
      ⟨w.setSim run.sim (w.sim run.sim).endRun, .returned outcome, callers⟩).Less
      (Machine.rank cost among ⟨w, .between run, callers⟩) := by
  obtain ⟨hself, hothers⟩ := standing_of_conclude w run callers
    ⟨w.setSim run.sim (w.sim run.sim).endRun, .returned outcome, callers⟩ absent rfl rfl
  have hworks : (⟨(w.sim run.sim).endRun, none⟩ : Standing n).works =
      (⟨w.sim run.sim, none⟩ : Standing n).works := rfl
  have hreleases : (⟨(w.sim run.sim).endRun, none⟩ : Standing n).releases =
      (⟨w.sim run.sim, none⟩ : Standing n).releases := rfl
  have hevents : (⟨(w.sim run.sim).endRun, none⟩ : Standing n).events =
      (⟨w.sim run.sim, none⟩ : Standing n).events := rfl
  apply less_of_rankAt mem hothers
  right
  simp only [Machine.rankAt, standing_between, hself, idle, hworks, hreleases, hevents,
    Machine.stackCost, Machine.turn]
  omega

/-- **Between two actions the rank goes down**, whatever the next event is. -/
theorem stepRun_descends (hist : History h ⟨w, .between run, callers⟩) (mem : run.sim ∈ among) :
    ((Machine.stepRun w run callers).rank cost among).Less
      (Machine.rank cost among ⟨w, .between run, callers⟩) := by
  have hcourse := hist.course run.sim
  rw [standing_between] at hcourse
  have hrostered : Rostered (w.sim run.sim) := hcourse.ledger.rostered
  have hstalls : Stalls (w.sim run.sim) := hcourse.schedule.2
  have hstep := runStep_stepRun w run callers
  generalize Machine.stepRun w run callers = m' at hstep
  cases hstep with
  | skip r work s replay next cancelled =>
    have hnext := worth_of_nextReplayed cost hrostered next
    apply goOn_descends run mem rfl
    left
    rw [replay]
    omega
  | drain r work s replay next live =>
    apply enter_descends mem
    rw [replay]
    exact (worth_of_nextReplayed cost hrostered next).le
  | close r replay exhausted =>
    obtain ⟨hevents, hreleases⟩ := events_closeReplay r exhausted
    have hless : Standing.Less cost
        ⟨(w.sim run.sim).closeReplay r.source r.release r.timers, none⟩
        ⟨w.sim run.sim, run.replay⟩ := by
      rw [replay]
      exact .inr ⟨worth_closeReplay cost r hrostered, .inr ⟨hreleases.le, hevents⟩⟩
    exact goOn_descends { run with replay := none } mem rfl hless
  | conclude outcome idle =>
    have habsent : run.sim ∉ (callers.map Caller.run).map Run.sim :=
      (List.nodup_cons.1 hist.grounded.distinct).1
    exact conclude_descends mem idle habsent
  | settle s idle going dispatch =>
    have hafter : (w.sim run.sim).dispatch.after = some ([], ⟨s, none⟩) := by
      rw [dispatch]
      rfl
    have htaken : (w.sim run.sim).dispatch.sim? = some s := by
      rw [dispatch]
      rfl
    have hwork := worth_of_dispatch cost hrostered hafter
    obtain ⟨hevents, hreleases⟩ := events_of_dispatch htaken
    apply goOn_descends run mem rfl
    right
    rw [idle]
    exact ⟨hwork, .inr ⟨hreleases, hevents⟩⟩
  | start work s idle going dispatch =>
    have hafter : (w.sim run.sim).dispatch.after =
        some ([.started work s.now], ⟨s.startAction work, none⟩) := by
      rw [dispatch]
      rfl
    have hwork := worth_of_dispatch cost hrostered hafter
    apply enter_descends mem
    rw [idle]
    simpa [Log.started] using hwork
  | replay source stall s idle going dispatch =>
    have hless : Standing.Less cost ⟨s, some ⟨source, stall.release, stall.timers⟩⟩
        ⟨w.sim run.sim, run.replay⟩ := by
      have hafter : (w.sim run.sim).dispatch.after =
          some ([], ⟨s, some ⟨source, stall.release, stall.timers⟩⟩) := by
        rw [dispatch]
        rfl
      have hwork := worth_of_dispatch cost hrostered hafter
      rw [idle]
      exact .inr ⟨hwork, .inl (releases_of_replay hstalls dispatch _)⟩
    exact goOn_descends { run with replay := some ⟨source, stall.release, stall.timers⟩ } mem rfl
      hless

end Between

end StallSim
