import StallSim.Proofs.Presence
import StallSim.Proofs.Resembling

/-!
# Refusals

Every operation that can be refused looks at its reasons in a fixed order, before it changes
anything: whether the instant is over, whether the source was configured, and for a stall whether an
action of the source is at work and whether the source is stalled already.

* `Machine.sourceAtWork?` — the source of the action of a simulation that is on the call stack.
* `Judged` — an operation is refused for a reason, if there is one, and then changes nothing.

Principal results: `judged_submit`, `judged_stall` — the reasons against a submission and against a
stall; `refusals_exact` — every operation with its reasons, in every history.
-/

set_option autoImplicit false

namespace StallSim

variable {n : Nat}

/-! ## Who is at work -/

/-- The source of the action of the simulation `i` that is on the call stack. -/
def Machine.sourceAtWork? (m : Machine n) (i : Fin n) : Option Source :=
  (m.frames.find? (fun f => f.1.sim = i)).map (fun f => f.2.source)

theorem head?_sourcesAt (i : Fin n) (frames : List (Run n × Work (Action n))) :
    (sourcesAt i frames).head? =
      (frames.find? (fun f => f.1.sim = i)).map (fun f => f.2.source) := by
  induction frames with
  | nil => rfl
  | cons f frames ih =>
    by_cases hi : f.1.sim = i
    · simp [sourcesAt, hi]
    · simp [sourcesAt, hi, ih]

/-- A simulation knows which source of its own is on the call stack. -/
theorem active?_eq {h : List (Fin n × Happening n)} {m : Machine n} (hist : History h m)
    (i : Fin n) : (m.world.sim i).active? = m.sourceAtWork? i := by
  rw [Simulation.active?, hist.keeps.active]
  exact head?_sourcesAt i m.frames

/-! ## Reasons against an operation -/

/-- The request is refused if there is a reason against it, for that reason, and granted if there is
none.  A request that is refused changes nothing: whoever made it goes on in the same world. -/
structure Judged (m : Machine n) (request : Request n) (reason : Option Error)
    (granted : Outcome) : Prop where
  refused : ∀ error, (m.world.reply request).2 = .outcome (.refused error) ↔ reason = some error
  granted : reason = none → (m.world.reply request).2 = .outcome granted
  unchanged : ∀ error, reason = some error → (m.world.reply request).1 = m.world
  within : ∀ error, reason = some error → m.call? = some request →
    m.step = m.answered m.world (.refused error)
  outside : ∀ error, reason = some error →
    Machine.request m.world request = ⟨m.world, .returned (.refused error), []⟩

section Judging

variable {m : Machine n} {request : Request n} {reason : Option Error} {granted : Outcome}

/-- What there is to show: one answer with a reason, another one without. -/
theorem Judged.of_answer (proper : granted.error? = none)
    (refused : ∀ error, reason = some error →
      m.world.reply request = (m.world, .outcome (.refused error)))
    (accepted : reason = none → (m.world.reply request).2 = .outcome granted) :
    Judged m request reason granted := by
  refine ⟨?_, accepted, ?_, ?_, ?_⟩
  · intro error
    constructor
    · intro hanswer
      cases hreason : reason with
      | some other =>
        rw [refused other hreason] at hanswer
        cases hanswer
        rfl
      | none =>
        rw [accepted hreason] at hanswer
        cases hanswer
        cases proper
    · intro hreason
      rw [refused error hreason]
  · intro error hreason
    rw [refused error hreason]
  · intro error hreason hcalled
    exact step_of_answer hcalled (refused error hreason)
  · intro error hreason
    exact request_of_answer (refused error hreason)

/-- The reason against a submission. -/
theorem judged_submit {submission : Submission n} (body : Script n)
    (reasons : submission.refusal? (m.world.sim submission.sim) = reason.map .refused) :
    Judged m (.submit submission body) reason
      (.accepted (m.world.sim submission.sim).freshId) := by
  have hsubmit := submit_eq_refusal m.world submission body
  rw [reasons] at hsubmit
  apply Judged.of_answer rfl
  · rintro error rfl
    simp only [World.reply, hsubmit, Option.map_some]
  · rintro rfl
    simp only [World.reply, hsubmit, Option.map_none]

end Judging

/-! ## Stalls -/

section Stalls

variable {s : Simulation (Action n)} {source : Source} {release : Instant}

/-- The reason against a stall, where `active` is the source at work. -/
def Simulation.stallReason? (s : Simulation (Action n)) (active : Option Source) (source : Source)
    (release : Instant) : Option StallRefusal :=
  if release < s.now then some (.inPast release s.now)
  else if active ≠ some source then some (.notActive (active.map Source.label))
  else (s.sourceView source).release.map .alreadyStalled

theorem stallUntil_of_reason (known : source ∈ s.sources) {reason : StallRefusal}
    (hreason : s.stallReason? s.active? source release = some reason) :
    s.stallUntil source release = .error (.stallRefused source.label reason) := by
  unfold Simulation.stallReason? at hreason
  unfold Simulation.stallUntil
  rw [if_pos (knows_iff.2 known)]
  by_cases hpast : release < s.now
  · rw [if_pos hpast] at hreason ⊢
    cases hreason
    rfl
  · rw [if_neg hpast] at hreason ⊢
    by_cases hactive : s.active? = some source
    · rw [if_neg (not_not.2 hactive)] at hreason
      rw [if_pos hactive]
      unfold Simulation.sourceView at hreason
      cases hphase : s.phase source with
      | stalled stall =>
        rw [hphase] at hreason
        cases hreason
        rfl
      | running =>
        rw [hphase] at hreason
        cases hreason
      | replaying backlog =>
        rw [hphase] at hreason
        cases hreason
    · rw [if_pos hactive] at hreason
      rw [if_neg hactive]
      cases hreason
      rfl

/-- Without a reason against it a stall is granted, also while the source is replayed; then the
source is stalled until the instant that was asked for. -/
theorem stallUntil_of_none (known : source ∈ s.sources)
    (hnone : s.stallReason? s.active? source release = none) :
    ∃ s', s.stallUntil source release = .ok s' ∧
      (s'.sourceView source).release = some release := by
  unfold Simulation.stallReason? at hnone
  unfold Simulation.stallUntil
  rw [if_pos (knows_iff.2 known)]
  by_cases hpast : release < s.now
  · rw [if_pos hpast] at hnone
    cases hnone
  · rw [if_neg hpast] at hnone ⊢
    by_cases hactive : s.active? = some source
    · rw [if_neg (not_not.2 hactive)] at hnone
      rw [if_pos hactive]
      have hview : ∀ backlog, ((s.beginStall source release backlog).sourceView source).release =
          some release := by
        intro backlog
        have hphase : (s.beginStall source release backlog).phase source =
            .stalled (.starting release backlog) := by
          show (s.setPhase source _).phase source = _
          rw [Simulation.phase_setPhase, if_pos rfl]
        simp only [Simulation.sourceView, hphase]
        rfl
      cases hphase : s.phase source with
      | stalled stall =>
        unfold Simulation.sourceView at hnone
        rw [hphase] at hnone
        cases hnone
      | running => exact ⟨_, rfl, hview _⟩
      | replaying backlog => exact ⟨_, rfl, hview _⟩
    · rw [if_pos hactive] at hnone
      cases hnone

end Stalls

section Histories

variable {h : List (Fin n × Happening n)} {m : Machine n} {i : Fin n} {source : Source}

/-- The reasons against a stall. -/
theorem judged_stall (hist : History h m) (known : source ∈ (m.world.sim i).sources)
    {release : Due} {t : Instant} (due : release.resolve (m.world.sim i).now = some t) :
    Judged m (.command i (.stall source release))
      (((m.world.sim i).stallReason? (m.sourceAtWork? i) source t).map
        (.stallRefused source.label)) .done := by
  rw [← active?_eq hist]
  apply Judged.of_answer rfl
  · intro error hreason
    obtain ⟨reason, hfound, rfl⟩ := Option.map_eq_some_iff.1 hreason
    have hstall := stallUntil_of_reason known hfound
    simp only [World.reply, World.command, World.stall, due, hstall]
  · intro hnone
    obtain ⟨s', hstall, -⟩ := stallUntil_of_none known (Option.map_eq_none_iff.1 hnone)
    simp only [World.reply, World.command, World.stall, due, hstall]

/-- A stall that is granted is in force. -/
theorem release_of_granted (hist : History h m) (known : source ∈ (m.world.sim i).sources)
    {release : Due} {t : Instant} (due : release.resolve (m.world.sim i).now = some t)
    (free : (m.world.sim i).stallReason? (m.sourceAtWork? i) source t = none) :
    (((m.world.reply (.command i (.stall source release))).1.sim i).sourceView source).release =
      some t := by
  rw [← active?_eq hist] at free
  obtain ⟨s', hstall, hview⟩ := stallUntil_of_none known free
  simp only [World.reply, World.command, World.stall, due, hstall, sim_setSim_self]
  exact hview

/-- A delay never leads back before the clock. -/
theorem plusSaturating_not_lt (now : Instant) (delay : UInt64) :
    ¬ now.plusSaturating delay < now := by
  rw [Instant.lt_def, Instant.plusSaturating]
  cases hsum : now.plus delay with
  | some t =>
    have ht := (Instant.plus_eq_some_iff.1 hsum)
    simp only [Option.getD_some]
    omega
  | none =>
    have hlast := now.toNat_lt
    simp only [Option.getD_none]
    have : Instant.last.toNat = UInt64.size - 1 := rfl
    omega

/-- **Every refusal has its reason, and changes nothing.**  At every moment, within an action or
between requests from outside: work for the calendar is refused if its instant is over, else if its
source was not configured; timed work of a configured source is refused if its instant is over;
immediate and delayed work of a configured source is never refused.  A stall of a configured source
is refused if its end is over, else if no action of the source is on top of the call stack of the
simulation, else if the source is stalled; else it is granted, also to an action that is replayed,
and in force.  What is refused leaves the world as it is. -/
theorem refusals_exact (hist : History h m) (i : Fin n) (source : Source) :
    (∀ due t label handle body, due.resolve (m.world.sim i).now = some t →
      Judged m (.submit ⟨i, source, .directAt due, label, handle⟩ body)
        (if t < (m.world.sim i).now then some (.tooEarly t (m.world.sim i).now)
          else if source ∈ (m.world.sim i).sources then none
          else some (.unknownSource source.label))
        (.accepted (m.world.sim i).freshId)) ∧
    (∀ label handle body,
      Judged m (.submit ⟨i, source, .directNow, label, handle⟩ body)
        (if source ∈ (m.world.sim i).sources then none else some (.unknownSource source.label))
        (.accepted (m.world.sim i).freshId)) ∧
    (source ∈ (m.world.sim i).sources →
      (∀ due t label handle body, due.resolve (m.world.sim i).now = some t →
        Judged m (.submit ⟨i, source, .sourceAt due, label, handle⟩ body)
          (if t < (m.world.sim i).now then some (.tooEarly t (m.world.sim i).now) else none)
          (.accepted (m.world.sim i).freshId)) ∧
      (∀ route label handle body, (route = .sourceNow ∨ ∃ delay, route = .sourceIn delay) →
        Judged m (.submit ⟨i, source, route, label, handle⟩ body) none
          (.accepted (m.world.sim i).freshId)) ∧
      ∀ release t, release.resolve (m.world.sim i).now = some t →
        Judged m (.command i (.stall source release))
          ((if t < (m.world.sim i).now then some (.inPast t (m.world.sim i).now)
            else if m.sourceAtWork? i ≠ some source then
              some (.notActive ((m.sourceAtWork? i).map Source.label))
            else ((m.world.sim i).sourceView source).release.map .alreadyStalled).map
              (.stallRefused source.label)) .done ∧
        (¬ t < (m.world.sim i).now → m.sourceAtWork? i = some source →
          ((m.world.sim i).sourceView source).release = none →
          (((m.world.reply (.command i (.stall source release))).1.sim i).sourceView
            source).release = some t)) := by
  refine ⟨?_, ?_, fun known => ⟨?_, ?_, ?_⟩⟩
  · intro due t label handle body hdue
    apply judged_submit
    simp only [Submission.refusal?, hdue, knows_iff]
    split <;> split <;> rfl
  · intro label handle body
    apply judged_submit
    simp only [Submission.refusal?, knows_iff]
    split <;> rfl
  · intro due t label handle body hdue
    apply judged_submit
    simp only [Submission.refusal?, hdue, knows_iff, known, if_true]
    split <;> rfl
  · rintro route label handle body (rfl | ⟨delay, rfl⟩)
    · apply judged_submit
      simp only [Submission.refusal?, knows_iff, known, if_true]
      rfl
    · apply judged_submit
      simp only [Submission.refusal?, knows_iff, known, if_true,
        if_neg (plusSaturating_not_lt _ _)]
      rfl
  · intro release t hdue
    refine ⟨judged_stall hist known hdue, ?_⟩
    intro hpast hactive hfree
    apply release_of_granted hist known hdue
    simp [Simulation.stallReason?, hpast, hactive, hfree]

/-- An action of a source that is being replayed can ask for a stall of the source: until an instant
that is over it is refused, until a later one it is granted. -/
theorem refusals_exact_of_replayed :
    let m := threeWorld stallUntilFive failingScript .sourceNow 7
    Judged m (.command lone (.stall (.index 0) (.at ⟨4⟩)))
        (some (.stallRefused (Source.index 0).label (.inPast ⟨4⟩ ⟨5⟩))) .done ∧
      Judged m (.command lone (.stall (.index 0) (.at ⟨9⟩))) none .done ∧
      (((m.world.reply (.command lone (.stall (.index 0) (.at ⟨9⟩)))).1.sim lone).sourceView
        (.index 0)).release = some ⟨9⟩ := by
  intro m
  have hist : History _ m := .three stallUntilFive failingScript .sourceNow 7
  have hsources : .index 0 ∈ (m.world.sim lone).sources := List.mem_singleton.2 rfl
  have hnow : (m.world.sim lone).now = ⟨5⟩ := rfl
  have hwork : m.sourceAtWork? lone = some (.index 0) := rfl
  have hfree : ((m.world.sim lone).sourceView (.index 0)).release = none := rfl
  clear_value m
  obtain ⟨-, -, hknown⟩ := refusals_exact hist lone (.index 0)
  obtain ⟨-, -, hstall⟩ := hknown hsources
  have hlater : ¬ (⟨9⟩ : Instant) < ⟨5⟩ := by decide
  have hover : (⟨4⟩ : Instant) < ⟨5⟩ := by decide
  obtain ⟨hpast, -⟩ := hstall (.at ⟨4⟩) ⟨4⟩ rfl
  obtain ⟨hgranted, hforce⟩ := hstall (.at ⟨9⟩) ⟨9⟩ rfl
  rw [hnow, hwork, hfree] at hpast hgranted
  rw [hnow] at hforce
  refine ⟨?_, ?_, hforce hlater hwork hfree⟩
  · simpa [hover] using hpast
  · simpa [hlater] using hgranted

end Histories

end StallSim
