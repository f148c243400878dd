import Mathlib.Data.List.Nodup
import StallSim.Proofs.Paths

/-!
# The ledger of a simulation

Moves hand work over from one place to another; the ledger says that none is lost and none is there
twice.

* `Conserves` — the tickets before, with the new ones, are those after, those whose actions begin,
  and those that are dropped.
* `Rostered` — the sources are distinct, and only they are stalled or replayed.
* `Ledger` — ids are given out once, and what was accepted waits, has begun, or is gone.

* `Outstanding` — a ticket whose work is still to be done.

Principal results: `move_conserves`, `Course.ledger`; `Ledger.nodup_startedIds` — no action starts
twice; `Ledger.outstanding_iff` — without a panic, what is still to be done waits.
-/

set_option autoImplicit false

namespace StallSim

variable {n : Nat}

/-! ## Moves conserve tickets -/

section Moves

variable {log new : Log n} {st st' : Standing n}

/-- What the sources of a simulation are is settled when it is created, and only a source can be
stalled. -/
structure Rostered (s : Simulation (Action n)) : Prop where
  distinct : s.sources.Nodup
  known : ∀ source, s.phase source ≠ .running → source ∈ s.sources

/-- The tickets of one standing are handed over to another one: those that are new are added,
those whose actions begin leave, and cancelled ones are dropped. -/
structure Conserves (cancelled : EventId → Bool) (before : List (Ticket n)) (new : Log n)
    (after : List (Ticket n)) (begun dropped : List (Ticket n)) : Prop where
  balance : (before ++ new.accepted).Perm (after ++ begun ++ dropped)
  begun : begun.map Ticket.work = new.started
  dropped : ∀ ticket ∈ dropped, cancelled ticket.work.id = true ∨ ¬ new.Calm

/-- Nothing begins and nothing is dropped. -/
theorem Conserves.of_perm {cancelled : EventId → Bool} {before after : List (Ticket n)}
    (quiet : new.started = []) (perm : (before ++ new.accepted).Perm after) :
    Conserves cancelled before new after [] [] := by
  refine ⟨?_, quiet.symm, fun ticket hmem => (by cases hmem)⟩
  rwa [List.append_nil, List.append_nil]

/-- Nothing is accepted either: the tickets are the same. -/
theorem Conserves.of_silent {cancelled : EventId → Bool} {before after : List (Ticket n)}
    (perm : before.Perm after) : Conserves cancelled before [] after [] [] := by
  refine .of_perm rfl ?_
  rw [show Log.accepted ([] : Log n) = [] from rfl, List.append_nil]
  exact perm

/-- Some work leaves, and nothing is accepted. -/
theorem Conserves.of_leaving {cancelled : EventId → Bool} {before after leaving : List (Ticket n)}
    (dropped : ∀ ticket ∈ leaving, cancelled ticket.work.id = true)
    (perm : before.Perm (after ++ leaving)) : Conserves cancelled before [] after [] leaving := by
  refine ⟨?_, rfl, fun ticket hmem => .inl (dropped ticket hmem)⟩
  rw [show Log.accepted ([] : Log n) = [] from rfl, List.append_nil, List.append_nil]
  exact perm

/-- The action of some work begins. -/
theorem Conserves.of_begun {cancelled : EventId → Bool} {before after begun : List (Ticket n)}
    {work : Work (Action n)} {time : Instant} (begun_eq : begun.map Ticket.work = [work])
    (perm : before.Perm (after ++ begun)) :
    Conserves cancelled before [.started work time] after begun [] := by
  refine ⟨?_, begun_eq, fun ticket hmem => (by cases hmem)⟩
  rw [show Log.accepted [Happening.started work time] = [] from rfl, List.append_nil,
    List.append_nil]
  exact perm

/-- Two handovers in a row are one: what is cancelled at one of them is cancelled in the end. -/
theorem Conserves.append {new' : Log n} {first second final : EventId → Bool}
    {before between after begun begun' dropped dropped' : List (Ticket n)}
    (earlier : Conserves first before new between begun dropped)
    (later : Conserves second between new' after begun' dropped')
    (stays : ∀ id, first id = true → final id = true)
    (stays' : ∀ id, second id = true → final id = true) :
    Conserves final before (new ++ new') after (begun ++ begun') (dropped ++ dropped') where
  balance := by
    have hearlier := earlier.balance
    have hlater := later.balance
    rw [Log.accepted_append]
    classical
    simp only [List.perm_iff_count, List.count_append] at hearlier hlater ⊢
    intro t
    have h₁ := hearlier t
    have h₂ := hlater t
    omega
  begun := by rw [List.map_append, earlier.begun, later.begun, Log.started_append]
  dropped ticket mem := by
    rw [Log.calm_append]
    rcases List.mem_append.1 mem with hmem | hmem
    · exact (earlier.dropped ticket hmem).imp (stays _) (fun h calm => h calm.1)
    · exact (later.dropped ticket hmem).imp (stays' _) (fun h calm => h calm.2)

/-- **Moves conserve tickets.** -/
theorem move_conserves (move : Move log st new st') (rostered : Rostered st.sim) :
    ∃ begun dropped, Conserves st.sim.isCancelled st.tickets new st'.tickets begun dropped := by
  obtain ⟨distinct, known⟩ := rostered
  cases move with
  | control s r => exact ⟨_, _, .of_silent (.refl _)⟩
  | enableTrace s r => exact ⟨_, _, .of_silent (.refl _)⟩
  | cancel s r ticket issued => exact ⟨_, _, .of_silent (.refl _)⟩
  | accept s s' r ticket admits =>
    refine ⟨_, _, .of_perm rfl ?_⟩
    have hlodge := (tickets_lodge ticket distinct admits.known).append_right (replayTickets r)
    rw [← admits.eq] at hlodge
    refine List.Perm.trans ?_ hlodge
    rw [Standing.tickets, List.append_assoc, List.append_assoc]
    exact List.perm_append_comm.append_left _
  | stall s r source release backlog hknown inTime active carried =>
    refine ⟨_, _, .of_perm rfl ?_⟩
    refine (List.Perm.of_eq (List.append_nil _)).trans ?_
    exact (tickets_beginStall distinct hknown release carried).append_right _
  | drop s turn event rest taken cancelled =>
    refine ⟨[], (event.ticket? turn).toList, .of_leaving ?_ ?_⟩
    · intro ticket hmem
      rw [Option.mem_toList] at hmem
      rw [← Event.id_of_ticket? hmem]
      exact cancelled
    · rw [tickets_of_idle, tickets_of_idle]
      exact tickets_take taken
  | intercept s turn work rest stall taken live stalled =>
    have hknown : work.source ∈ s.sources := known _ (by rw [stalled]; intro h; cases h)
    have hpark := tickets_park (s := s.take turn rest) distinct hknown stalled
      (turn.map Turn.origin) work
    exact ⟨_, _, .of_silent (((tickets_take taken).trans hpark).append_right _)⟩
  | start s turn event work rest taken isWork live free =>
    refine ⟨(event.ticket? turn).toList, [], .of_begun ?_ ?_⟩
    · cases event <;> cases isWork <;> rfl
    · rw [tickets_of_idle, tickets_of_idle]
      exact tickets_take taken
  | release s turn id source rest stall taken live stalled =>
    have hknown : source ∈ s.sources := known _ (by rw [stalled]; intro h; cases h)
    have hset := tickets_setPhase (s := s.take turn rest) distinct hknown
      (.replaying stall.immediate) (timerTickets stall.timers.toList) [] (by
        rw [show (s.take turn rest).phase source = .stalled stall from stalled, List.append_nil]
        exact List.Perm.refl _)
    refine ⟨_, _, .of_silent ?_⟩
    rw [tickets_of_idle]
    exact (tickets_take taken).trans hset
  | stale s turn id source rest taken live free =>
    refine ⟨_, _, .of_silent ?_⟩
    rw [tickets_of_idle, tickets_of_idle]
    exact (tickets_take taken).trans (.of_eq (List.append_nil _))
  | skip s r key work backlog rest replaying taken cancelled =>
    refine ⟨[], [⟨work, none, true⟩], .of_leaving ?_ ?_⟩
    · intro ticket hmem
      rw [List.mem_singleton.1 hmem]
      exact cancelled
    · exact tickets_replayed distinct known replaying taken (some r)
  | drain s r key work backlog rest replaying taken live =>
    exact ⟨[⟨work, none, true⟩], [],
      .of_begun rfl (tickets_replayed distinct known replaying taken (some r))⟩
  | close s r =>
    obtain ⟨dropped, hperm, hdropped⟩ :=
      tickets_closeReplay distinct known r.source r.release r.timers
    refine ⟨[], dropped, .of_leaving hdropped ?_⟩
    rw [tickets_of_idle]
    exact hperm
  | unwind s r =>
    refine ⟨[], replayTickets r, ?_, rfl, fun ticket hmem => .inr ?_⟩
    · rw [List.append_nil, tickets_of_idle]
      exact List.Perm.of_eq (List.append_nil _)
    · simp [Log.Calm]

/-! ## The ledger -/

theorem Rostered.congr {s s' : Simulation (Action n)} (rostered : Rostered s)
    (sources : s'.sources = s.sources) (phases : s'.phases = s.phases) : Rostered s' := by
  refine ⟨sources ▸ rostered.distinct, ?_⟩
  intro source hphase
  rw [sources]
  unfold Simulation.phase at hphase
  rw [phases] at hphase
  exact rostered.known source hphase

theorem Rostered.setPhase {s : Simulation (Action n)} (rostered : Rostered s) {source : Source}
    (known : source ∈ s.sources) (phase : Phase (Action n)) :
    Rostered (s.setPhase source phase) := by
  refine ⟨rostered.distinct, ?_⟩
  intro other hphase
  rw [Simulation.phase_setPhase] at hphase
  split at hphase
  · rename_i heq
    exact heq ▸ known
  · exact rostered.known other hphase

/-- A source that is stalled or being replayed is in the roster. -/
theorem Rostered.known_of_eq {s : Simulation (Action n)} (rostered : Rostered s) {source : Source}
    {phase : Phase (Action n)} (hphase : s.phase source = phase) (held : phase ≠ .running) :
    source ∈ s.sources :=
  rostered.known source (hphase ▸ held)

theorem move_rostered (move : Move log st new st') (rostered : Rostered st.sim) :
    Rostered st'.sim := by
  cases move with
  | accept s s' r ticket admits =>
    have hplaced := placed_lodge s ticket
    rw [← admits.eq] at hplaced
    have hissued : Rostered s.issue := rostered.congr rfl rfl
    cases hplaced with
    | immediate event entry => exact rostered.congr rfl rfl
    | timed t event entry => exact rostered.congr rfl rfl
    | parked stall stalled routed => exact hissued.setPhase admits.known _
    | joined backlog replaying routed untimed => exact hissued.setPhase admits.known _
  | stall s r source release backlog known inTime active carried =>
    exact (rostered.setPhase known _).congr rfl rfl
  | intercept s turn work rest stall taken live stalled =>
    have htaken : Rostered (s.take turn rest) := rostered.congr rfl rfl
    exact htaken.setPhase (rostered.known_of_eq stalled (fun h => by cases h)) _
  | release s turn id source rest stall taken live stalled =>
    have htaken : Rostered (s.take turn rest) := rostered.congr rfl rfl
    exact htaken.setPhase (rostered.known_of_eq stalled (fun h => by cases h)) _
  | skip s r key work backlog rest replaying taken cancelled =>
    exact rostered.setPhase (rostered.known_of_eq replaying (fun h => by cases h)) _
  | drain s r key work backlog rest replaying taken live =>
    have hset := rostered.setPhase (rostered.known_of_eq replaying (fun h => by cases h))
      (.replaying rest)
    exact hset.congr rfl rfl
  | close s r =>
    rw [closeReplay_eq]
    unfold closedPhases
    split
    · rename_i backlog hphase
      have hset := rostered.setPhase
        (rostered.known_of_eq hphase (fun h => by cases h)) .running
      exact hset.congr rfl rfl
    · exact rostered.congr rfl rfl
  | _ => exact rostered.congr rfl rfl

/-- Ids are handed out in order, one to each submission and each stall. -/
theorem move_ids (move : Move log st new st') :
    (new.accepted = [] ∧ st.sim.nextId ≤ st'.sim.nextId) ∨
    ∃ ticket, new.accepted = [ticket] ∧ ticket.work.id = st.sim.freshId ∧
      st'.sim.nextId = st.sim.nextId + 1 := by
  cases move with
  | accept s s' r ticket admits =>
    refine .inr ⟨ticket, rfl, admits.fresh, ?_⟩
    have hplaced := placed_lodge s ticket
    rw [← admits.eq] at hplaced
    cases hplaced <;> rfl
  | stall s r source release backlog known inTime active carried =>
    exact .inl ⟨rfl, Nat.le_succ _⟩
  | close s r =>
    rw [closeReplay_eq]
    exact .inl ⟨rfl, Nat.le_refl _⟩
  | _ => exact .inl ⟨rfl, Nat.le_refl _⟩

theorem nextId_le_of_move (move : Move log st new st') : st.sim.nextId ≤ st'.sim.nextId := by
  rcases move_ids move with ⟨-, hle⟩ | ⟨ticket, -, -, heq⟩
  · exact hle
  · exact heq ▸ Nat.le_succ _

/-- Only what was accepted is cancelled, and it stays cancelled. -/
theorem move_cancelled (move : Move log st new st') :
    st'.sim.cancelled = st.sim.cancelled ∨
    ∃ ticket ∈ log.accepted, st'.sim.cancelled = addNew st.sim.cancelled ticket.work.id := by
  cases move with
  | cancel s r ticket issued => exact .inr ⟨ticket, issued, rfl⟩
  | accept s s' r ticket admits =>
    apply Or.inl
    have hplaced := placed_lodge s ticket
    rw [← admits.eq] at hplaced
    cases hplaced <;> rfl
  | close s r =>
    rw [closeReplay_eq]
    exact .inl rfl
  | _ => exact .inl rfl

/-- A release waits from the stall it ends on. -/
theorem move_release (move : Move log st new st') {turn : Option Turn} {id : EventId}
    {source : Source} (mem : (turn, .release id source) ∈ st'.sim.calendar.entries) :
    (turn, .release id source) ∈ st.sim.calendar.entries ∨
      id = st.sim.freshId ∧ new.accepted = [] ∧ st'.sim.nextId = st.sim.nextId + 1 := by
  cases move with
  | accept s s' r ticket admits =>
    have hplaced := placed_lodge s ticket
    rw [← admits.eq] at hplaced
    apply Or.inl
    cases hplaced with
    | immediate event entry =>
      rcases Calendar.mem_pushImmediate.1 mem with heq | hmem
      · cases heq
        cases entry
      · exact hmem
    | timed t event entry =>
      rcases Calendar.mem_pushTimed.1 mem with heq | hmem
      · cases heq
        cases entry
      · exact hmem
    | parked stall stalled routed => exact mem
    | joined backlog replaying routed untimed => exact mem
  | stall s r source' release backlog known inTime active carried =>
    rcases Calendar.mem_pushTimed.1 mem with heq | hmem
    · cases heq
      exact .inr ⟨rfl, rfl, rfl⟩
    · exact .inl hmem
  | drop s turn' event rest taken cancelled =>
    exact .inl (Calendar.mem_of_next? taken mem)
  | intercept s turn' work rest stall taken live stalled =>
    exact .inl (Calendar.mem_of_next? taken mem)
  | start s turn' event work rest taken isWork live free =>
    exact .inl (Calendar.mem_of_next? taken mem)
  | release s turn' id' source' rest stall taken live stalled =>
    exact .inl (Calendar.mem_of_next? taken mem)
  | stale s turn' id' source' rest taken live free =>
    exact .inl (Calendar.mem_of_next? taken mem)
  | close s r =>
    rw [closeReplay_eq] at mem
    exact .inl (Calendar.mem_reposted mem)
  | _ => exact .inl mem

/-- The ledger of a simulation: ids are given out once, releases have ids of their own, and what
was accepted waits, has begun, or is gone. -/
structure Ledger (log : Log n) (st : Standing n) : Prop where
  rostered : Rostered st.sim
  issued : ∀ ticket ∈ log.accepted, ticket.work.id.raw < st.sim.nextId
  once : (log.accepted.map (fun ticket => ticket.work.id)).Nodup
  cancelled : ∀ id, st.sim.isCancelled id = true → ∃ ticket ∈ log.accepted, ticket.work.id = id
  releases : ∀ turn id source, (turn, .release id source) ∈ st.sim.calendar.entries →
    id.raw < st.sim.nextId ∧ ∀ ticket ∈ log.accepted, ticket.work.id ≠ id
  balance : ∃ begun gone, log.accepted.Perm (st.tickets ++ begun ++ gone) ∧
    begun.map Ticket.work = log.started ∧
    ∀ ticket ∈ gone, st.sim.isCancelled ticket.work.id = true ∨ ¬ log.Calm

theorem isCancelled_of_move (move : Move log st new st') {id : EventId}
    (cancelled : st.sim.isCancelled id = true) : st'.sim.isCancelled id = true := by
  unfold Simulation.isCancelled at *
  rcases move_cancelled move with heq | ⟨ticket, -, heq⟩
  · rw [heq]
    exact cancelled
  · rw [heq]
    simp only [mem_addNew, decide_eq_true_eq] at *
    exact .inl cancelled

/-- What the ledger says of ids holds on. -/
theorem Ledger.ids_move (ledger : Ledger log st) (move : Move log st new st') :
    (∀ ticket ∈ (log ++ new).accepted, ticket.work.id.raw < st'.sim.nextId) ∧
      ((log ++ new).accepted.map (fun ticket => ticket.work.id)).Nodup := by
  rw [Log.accepted_append]
  rcases move_ids move with ⟨hnew, hnext⟩ | ⟨ticket, hnew, hid, hnext⟩
  · rw [hnew, List.append_nil]
    exact ⟨fun t ht => Nat.lt_of_lt_of_le (ledger.issued t ht) hnext, ledger.once⟩
  · rw [hnew, hnext]
    constructor
    · intro t ht
      rcases List.mem_append.1 ht with ht | ht
      · exact Nat.lt_succ_of_lt (ledger.issued t ht)
      · rw [List.mem_singleton.1 ht, hid]
        exact Nat.lt_succ_self _
    · rw [List.map_append, List.nodup_append]
      refine ⟨ledger.once, List.pairwise_singleton _ _, ?_⟩
      intro a ha b hb
      obtain ⟨t, ht, rfl⟩ := List.mem_map.1 ha
      have hlt := ledger.issued t ht
      rw [List.map_singleton, List.mem_singleton, hid] at hb
      rintro rfl
      rw [hb] at hlt
      exact Nat.lt_irrefl _ hlt

theorem Ledger.releases_move (ledger : Ledger log st) (move : Move log st new st')
    {turn : Option Turn} {id : EventId} {source : Source}
    (mem : (turn, .release id source) ∈ st'.sim.calendar.entries) :
    id.raw < st'.sim.nextId ∧ ∀ ticket ∈ (log ++ new).accepted, ticket.work.id ≠ id := by
  rw [Log.accepted_append]
  rcases move_release move mem with hmem | ⟨hid, hnew, hnext⟩
  · obtain ⟨hlt, hne⟩ := ledger.releases turn id source hmem
    rcases move_ids move with ⟨hnew, hnext⟩ | ⟨ticket, hnew, hid, hnext⟩
    · rw [hnew, List.append_nil]
      exact ⟨Nat.lt_of_lt_of_le hlt hnext, hne⟩
    · rw [hnew, hnext]
      refine ⟨Nat.lt_succ_of_lt hlt, ?_⟩
      intro t ht
      rcases List.mem_append.1 ht with ht | ht
      · exact hne t ht
      · rw [List.mem_singleton.1 ht, hid]
        rintro rfl
        exact Nat.lt_irrefl _ hlt
  · rw [hnew, List.append_nil, hnext, hid]
    refine ⟨Nat.lt_succ_self _, ?_⟩
    intro t ht heq
    have hlt := ledger.issued t ht
    rw [heq] at hlt
    exact Nat.lt_irrefl _ hlt

theorem Ledger.balance_move (ledger : Ledger log st) (move : Move log st new st') :
    ∃ begun gone, (log ++ new).accepted.Perm (st'.tickets ++ begun ++ gone) ∧
      begun.map Ticket.work = (log ++ new).started ∧
      ∀ ticket ∈ gone, st'.sim.isCancelled ticket.work.id = true ∨ ¬ Log.Calm (log ++ new) := by
  obtain ⟨begun, gone, hperm, hbegun, hgone⟩ := ledger.balance
  obtain ⟨begun', dropped, hmove⟩ := move_conserves move ledger.rostered
  have hbalance : Conserves st.sim.isCancelled [] log st.tickets begun gone :=
    ⟨hperm, hbegun, hgone⟩
  obtain ⟨hperm', hbegun', hgone'⟩ := hbalance.append hmove
    (fun _ => isCancelled_of_move move) (fun _ => isCancelled_of_move move)
  exact ⟨_, _, hperm', hbegun', hgone'⟩

theorem Ledger.move (ledger : Ledger log st) (move : Move log st new st') :
    Ledger (log ++ new) st' where
  rostered := move_rostered move ledger.rostered
  issued := (ledger.ids_move move).1
  once := (ledger.ids_move move).2
  cancelled id hid := by
    rw [Log.accepted_append]
    unfold Simulation.isCancelled at hid
    rcases move_cancelled move with heq | ⟨ticket, hticket, heq⟩
    · rw [heq] at hid
      obtain ⟨t, ht, rfl⟩ := ledger.cancelled id hid
      exact ⟨t, List.mem_append_left _ ht, rfl⟩
    · rw [heq] at hid
      simp only [mem_addNew, decide_eq_true_eq] at hid
      rcases hid with hid | rfl
      · obtain ⟨t, ht, rfl⟩ := ledger.cancelled id (decide_eq_true hid)
        exact ⟨t, List.mem_append_left _ ht, rfl⟩
      · exact ⟨ticket, List.mem_append_left _ hticket, rfl⟩
  releases _ _ _ mem := ledger.releases_move move mem
  balance := ledger.balance_move move

/-- **The ledger of every course is in order.** -/
theorem Course.ledger (course : Course log st) : Ledger log st := by
  induction course with
  | create config =>
    refine ⟨⟨nodup_distinct _, fun source hphase => absurd rfl hphase⟩, ?_, List.nodup_nil, ?_, ?_,
      ⟨[], [], ?_, rfl, ?_⟩⟩
    · intro ticket hmem
      cases hmem
    · intro id hid
      cases hid
    · intro turn id source hmem
      cases hmem
    · have hnone : (⟨Simulation.create config, none⟩ : Standing n).tickets = [] := by
        rw [tickets_of_idle, Simulation.tickets, Simulation.heldTickets]
        exact List.flatMap_eq_nil_iff.2 (fun source _ => rfl)
      rw [hnone]
      exact List.Perm.refl _
    · intro ticket hmem
      cases hmem
  | move _ move ih => exact ih.move move

theorem isCancelled_of_along (along : Along Move log st new st') {id : EventId}
    (cancelled : st.sim.isCancelled id = true) : st'.sim.isCancelled id = true := by
  induction along with
  | refl => exact cancelled
  | next _ move ih => exact isCancelled_of_move move ih

/-- **Rows of moves conserve tickets.** -/
theorem Course.conserves (course : Course log st) (along : Along Move log st new st') :
    ∃ begun dropped, Conserves st'.sim.isCancelled st.tickets new st'.tickets begun dropped := by
  induction along with
  | refl => exact ⟨[], [], .of_silent (.refl _)⟩
  | @next new new' st' st'' before move ih =>
    obtain ⟨begun, dropped, hbefore⟩ := ih
    obtain ⟨begun', dropped', hmove⟩ := move_conserves move (course.along before).ledger.rostered
    exact ⟨_, _, hbefore.append hmove (fun _ => isCancelled_of_move move)
      (fun _ => isCancelled_of_move move)⟩

end Moves

/-! ## What the ledger says of tickets -/

/-- The work of a ticket is still to be done: accepted, not cancelled, not started. -/
structure Outstanding (log : Log n) (s : Simulation (Action n)) (ticket : Ticket n) : Prop where
  accepted : ticket ∈ log.accepted
  live : s.isCancelled ticket.work.id = false
  unstarted : ticket.work.id ∉ log.startedIds

section Tickets

variable {log : Log n} {st : Standing n}

/-- The ids that were given out, by what has become of them. -/
theorem Ledger.nodup_balance (ledger : Ledger log st) :
    ∃ gone : List (Ticket n), (∀ ticket ∈ gone, st.sim.isCancelled ticket.work.id = true ∨
        ¬ log.Calm) ∧
      (log.accepted.map (fun ticket => ticket.work.id)).Perm
        (st.tickets.map (fun ticket => ticket.work.id) ++ log.startedIds ++
          gone.map (fun ticket => ticket.work.id)) := by
  obtain ⟨begun, gone, hperm, hbegun, hgone⟩ := ledger.balance
  refine ⟨gone, hgone, ?_⟩
  have hids := hperm.map (fun ticket => ticket.work.id)
  have hstarted : begun.map (fun ticket => ticket.work.id) = log.startedIds := by
    rw [Log.startedIds, ← hbegun, List.map_map]
    rfl
  rwa [List.map_append, List.map_append, hstarted] at hids

/-- **No action starts twice.** -/
theorem Ledger.nodup_startedIds (ledger : Ledger log st) : log.startedIds.Nodup := by
  obtain ⟨gone, -, hids⟩ := ledger.nodup_balance
  have hnodup := hids.nodup_iff.1 ledger.once
  rw [List.nodup_append, List.nodup_append] at hnodup
  exact hnodup.1.2.1

/-- No work waits in two places. -/
theorem Ledger.nodup_tickets (ledger : Ledger log st) :
    (st.tickets.map (fun ticket => ticket.work.id)).Nodup := by
  obtain ⟨gone, -, hids⟩ := ledger.nodup_balance
  have hnodup := hids.nodup_iff.1 ledger.once
  rw [List.nodup_append, List.nodup_append] at hnodup
  exact hnodup.1.1

/-- What starts was accepted. -/
theorem Ledger.accepted_of_started (ledger : Ledger log st) {work : Work (Action n)}
    (started : work ∈ log.started) : ∃ ticket ∈ log.accepted, ticket.work = work := by
  obtain ⟨begun, gone, hperm, hbegun, -⟩ := ledger.balance
  rw [← hbegun, List.mem_map] at started
  obtain ⟨ticket, hmem, rfl⟩ := started
  refine ⟨ticket, hperm.mem_iff.2 ?_, rfl⟩
  exact List.mem_append_left _ (List.mem_append_right _ hmem)

theorem Ledger.accepted_of_mem (ledger : Ledger log st) {ticket : Ticket n}
    (mem : ticket ∈ st.tickets) : ticket ∈ log.accepted := by
  obtain ⟨begun, gone, hperm, -, -⟩ := ledger.balance
  exact hperm.mem_iff.2 (List.mem_append_left _ (List.mem_append_left _ mem))

theorem Ledger.unstarted_of_mem (ledger : Ledger log st) {ticket : Ticket n}
    (mem : ticket ∈ st.tickets) : ticket.work.id ∉ log.startedIds := by
  obtain ⟨gone, -, hids⟩ := ledger.nodup_balance
  have hnodup := hids.nodup_iff.1 ledger.once
  rw [List.nodup_append, List.nodup_append] at hnodup
  intro hstarted
  exact hnodup.1.2.2 _ (List.mem_map_of_mem mem) _ hstarted rfl

/-- Waiting work has an id that was given out. -/
theorem Ledger.lt_nextId (ledger : Ledger log st) {ticket : Ticket n}
    (mem : ticket ∈ st.tickets) : ticket.work.id.raw < st.sim.nextId :=
  ledger.issued ticket (ledger.accepted_of_mem mem)

/-- An id belongs to one ticket. -/
theorem Ledger.eq_of_id (ledger : Ledger log st) {a b : Ticket n} (ha : a ∈ log.accepted)
    (hb : b ∈ log.accepted) (id : a.work.id = b.work.id) : a = b :=
  List.inj_on_of_nodup_map ledger.once ha hb id

/-- **Without a panic, what is still to be done is what waits and is not cancelled.** -/
theorem Ledger.outstanding_iff (ledger : Ledger log st) (calm : log.Calm) {ticket : Ticket n} :
    Outstanding log st.sim ticket ↔
      ticket ∈ st.tickets ∧ st.sim.isCancelled ticket.work.id = false := by
  constructor
  · rintro ⟨haccepted, hlive, hunstarted⟩
    refine ⟨?_, hlive⟩
    obtain ⟨begun, gone, hperm, hbegun, hgone⟩ := ledger.balance
    rcases List.mem_append.1 (hperm.mem_iff.1 haccepted) with hmem | hmem
    · rcases List.mem_append.1 hmem with hmem | hmem
      · exact hmem
      · refine absurd ?_ hunstarted
        rw [Log.startedIds, ← hbegun, List.map_map]
        exact List.mem_map_of_mem (f := Work.id ∘ Ticket.work) hmem
    · rcases hgone ticket hmem with hcancelled | hpanic
      · rw [hlive] at hcancelled
        cases hcancelled
      · exact absurd calm hpanic
  · rintro ⟨hmem, hlive⟩
    exact ⟨ledger.accepted_of_mem hmem, hlive, ledger.unstarted_of_mem hmem⟩

/-- The release of a stall is never cancelled. -/
theorem Ledger.release_live (ledger : Ledger log st) {turn : Option Turn} {id : EventId}
    {source : Source} (mem : (turn, .release id source) ∈ st.sim.calendar.entries) :
    st.sim.isCancelled id = false := by
  cases hcancelled : st.sim.isCancelled id with
  | false => rfl
  | true =>
    obtain ⟨ticket, hticket, hid⟩ := ledger.cancelled id hcancelled
    exact absurd hid ((ledger.releases turn id source mem).2 ticket hticket)

end Tickets

end StallSim
