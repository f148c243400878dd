import StallSim.Simulation.Submit

/-!
# Taking events from the calendar

One step of a run takes the next event.  A cancelled event is dropped and moves nothing; any other
timed event first moves the clock to its time.  Then direct work starts, routed work starts unless
its source is stalled, and a release starts the replay of its source.

* `Simulation.dispatch` — take the next event and say what follows.
* `Simulation.nextReplayed`, `Simulation.closeReplay` — the replay of a source: its backlog is
  run to exhaustion, then its timers go back to the calendar ahead of all others of the instant.
* `Simulation.startRun`, `Simulation.endRun` — the flags around a run.
* `Simulation.startAction`, `Simulation.endAction`, `Simulation.failAction` — the counters, the
  trace and the active source around an action.
-/

set_option autoImplicit false

namespace StallSim

namespace Simulation

variable {α : Type}

/-! ## Around a run -/

/-- Start a run, if the simulation is neither halted nor paused nor in a run already. -/
def startRun (s : Simulation α) : Except Error (Option (Simulation α)) :=
  if s.halted then .error .halted
  else if s.running || s.paused then .ok none
  else .ok (some { s with running := true })

/-- The simulation after its run ended. -/
def endRun (s : Simulation α) : Simulation α := { s with running := false }

/-- A run must stop before the next event. -/
def isStopped (s : Simulation α) : Bool := s.paused || s.halted

/-! ## Around an action -/

/-- Count and record an action, and make its source the active one. -/
def startAction (s : Simulation α) (work : Work α) : Simulation α :=
  { s with
    processed := s.processed + 1
    trace := s.trace.map (fun t => t ++ [⟨s.now, work.id, work.source, work.description⟩])
    active := work.source :: s.active }

/-- The simulation after an action ended. -/
def endAction (s : Simulation α) : Simulation α := { s with active := s.active.tail }

/-- The simulation after an action ended without success: it is halted. -/
def failAction (s : Simulation α) : Simulation α := s.endAction.halt

/-! ## Taking an event -/

/-- What follows from taking an event. -/
inductive Dispatch (α : Type) where
  /-- No event waits. -/
  | exhausted
  /-- The event was dropped, or held back, or had nothing to release. -/
  | settled (s : Simulation α)
  /-- The action of this work starts. -/
  | start (work : Work α) (s : Simulation α)
  /-- The replay of this source starts; `stall` is what was held back for it. -/
  | replay (source : Source) (stall : Stall α) (s : Simulation α)

/-- Take the next event and say what follows. -/
def dispatch (s : Simulation α) : Dispatch α :=
  match s.calendar.next? with
  | none => .exhausted
  | some ((turn, event), rest) =>
    let taken := { s with calendar := rest }
    if s.isCancelled event.id then .settled taken
    else
      let moved := match turn with
        | some k => { taken with now := s.now.advance k.time }
        | none => taken
      match event with
      | .direct work => .start work moved
      | .routed work =>
        match s.phase work.source with
        | .stalled stall =>
          .settled (moved.setPhase work.source
            (.stalled (stall.park (turn.map Turn.origin) work)))
        | _ => .start work moved
      | .release _ source =>
        match s.phase source with
        | .stalled stall =>
          .replay source stall (moved.setPhase source (.replaying stall.immediate))
        | _ => .settled moved

/-! ## Replaying a source -/

/-- The next work of the backlog of a source that is being replayed. -/
def nextReplayed (s : Simulation α) (source : Source) : Option (Work α × Simulation α) :=
  match s.phase source with
  | .replaying backlog =>
    backlog.next?.map (fun r => (r.1.2, s.setPhase source (.replaying r.2)))
  | _ => none

/-- Post immediate work again, unless it is cancelled. -/
def repostNow (s : Simulation α) (work : Work α) : Simulation α :=
  if s.isCancelled work.id then s else s.postNow (.routed work)

/-- Post a timer again for the instant `release`, ahead of the others, unless it is cancelled. -/
def repostTimer (release : Instant) (s : Simulation α) (timer : Origin × Work α) :
    Simulation α :=
  if s.isCancelled timer.2.id then s
  else s.postTimed (.replayedAt release timer.1) (.routed timer.2)

/-- End the replay of a source.  Unless it was stalled again it runs, and what is left of its
backlog is posted; the timers of the stall that ended are posted in any case. -/
def closeReplay (s : Simulation α) (source : Source) (release : Instant)
    (timers : Agenda Origin (Work α)) : Simulation α :=
  let resumed := match s.phase source with
    | .replaying backlog => backlog.values.foldl repostNow (s.setPhase source .running)
    | _ => s
  timers.toList.foldl (repostTimer release) resumed

end Simulation

end StallSim
