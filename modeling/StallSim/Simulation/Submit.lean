import StallSim.Failure
import StallSim.Simulation.Basic

/-!
# Submitting work

Work is handed in directly to the calendar, or through its source.  Work handed in through a
source is held back while the source is stalled, and work that a source hands in for now while it
is being replayed joins its backlog.  A request that is refused changes nothing, which the types
say: a refusal carries no simulation.

* `Simulation.submitDirectAt`, `Simulation.submitDirectNow` — straight to the calendar.
* `Simulation.submitAt`, `Simulation.submitIn`, `Simulation.submitNow` — through the source.
* `Simulation.stallUntil` — hold a source back until an instant; only an action of that source may
  ask for it.
-/

set_option autoImplicit false

namespace StallSim

namespace Simulation

variable {α : Type}

/-- The id of the next submission. -/
def freshId (s : Simulation α) : EventId := ⟨s.nextId⟩

/-- The simulation after one more id was handed out. -/
def issue (s : Simulation α) : Simulation α := { s with nextId := s.nextId + 1 }

/-- Let an event wait behind the other immediate ones. -/
def postNow (s : Simulation α) (event : Event α) : Simulation α :=
  { s with calendar := s.calendar.pushImmediate event }

/-- Let an event wait for its turn. -/
def postTimed (s : Simulation α) (turn : Turn) (event : Event α) : Simulation α :=
  { s with calendar := s.calendar.pushTimed turn event }

/-! ## Straight to the calendar -/

/-- Run `action` at `time` on behalf of `source`. -/
def submitDirectAt (s : Simulation α) (source : Source) (time : Instant)
    (description : String) (action : α) : Except Error (EventId × Simulation α) :=
  if time < s.now then .error (.tooEarly time s.now)
  else if s.knows source then
    let work : Work α := ⟨s.freshId, source, description, action⟩
    .ok (work.id, s.issue.postTimed (.dueAt time work.id) (.direct work))
  else .error (.unknownSource source.label)

/-- Run `action` as soon as possible on behalf of `source`. -/
def submitDirectNow (s : Simulation α) (source : Source) (description : String) (action : α) :
    Except Error (EventId × Simulation α) :=
  if s.knows source then
    let work : Work α := ⟨s.freshId, source, description, action⟩
    .ok (work.id, s.issue.postNow (.direct work))
  else .error (.unknownSource source.label)

/-! ## Through the source -/

/-- Let timed work wait: held back if its source is stalled beyond the instant, posted if not. -/
def routeTimed (s : Simulation α) (time : Instant) (work : Work α) : Simulation α :=
  match s.phase work.source with
  | .stalled stall =>
    if time < stall.release then s.setPhase work.source (.stalled (stall.park (some time) work))
    else s.postTimed (.dueAt time work.id) (.routed work)
  | _ => s.postTimed (.dueAt time work.id) (.routed work)

/-- Let immediate work wait: held back if its source is stalled, in the backlog if it is being
replayed, posted if it runs. -/
def routeNow (s : Simulation α) (work : Work α) : Simulation α :=
  match s.phase work.source with
  | .stalled stall => s.setPhase work.source (.stalled (stall.park none work))
  | .replaying backlog => s.setPhase work.source (.replaying (backlog.insert work.id work))
  | .running => s.postNow (.routed work)

/-- Run `action` at `time` as `source`. -/
def submitAt (s : Simulation α) (source : Source) (time : Instant) (description : String)
    (action : α) : Except Error (EventId × Simulation α) :=
  if s.knows source then
    if time < s.now then .error (.tooEarly time s.now)
    else
      let work : Work α := ⟨s.freshId, source, description, action⟩
      .ok (work.id, s.issue.routeTimed time work)
  else .error (.unknownSource source.label)

/-- Run `action` as `source` after `delay` ticks, or at the last instant where the sum is too
large. -/
def submitIn (s : Simulation α) (source : Source) (delay : UInt64) (action : α) :
    Except Error (EventId × Simulation α) :=
  s.submitAt source (s.now.plusSaturating delay) "" action

/-- Run `action` as soon as possible as `source`. -/
def submitNow (s : Simulation α) (source : Source) (description : String) (action : α) :
    Except Error (EventId × Simulation α) :=
  if s.knows source then
    let work : Work α := ⟨s.freshId, source, description, action⟩
    .ok (work.id, s.issue.routeNow work)
  else .error (.unknownSource source.label)

/-! ## Stalling a source -/

/-- Stall a source with a backlog, and post its release. -/
def beginStall (s : Simulation α) (source : Source) (release : Instant)
    (backlog : Agenda EventId (Work α)) : Simulation α :=
  (s.setPhase source (.stalled (.starting release backlog))).issue.postTimed
    (.dueAt release s.freshId) (.release s.freshId source)

/-- Hold `source` back until the instant `release`.  Only an action of the source may ask for it,
and only while the source is not stalled; a source that is being replayed keeps the rest of its
backlog. -/
def stallUntil (s : Simulation α) (source : Source) (release : Instant) :
    Except Error (Simulation α) :=
  if s.knows source then
    if release < s.now then .error (.stallRefused source.label (.inPast release s.now))
    else if s.active? = some source then
      match s.phase source with
      | .stalled stall => .error (.stallRefused source.label (.alreadyStalled stall.release))
      | .replaying backlog => .ok (s.beginStall source release backlog)
      | .running => .ok (s.beginStall source release .empty)
    else
      .error (.stallRefused source.label (.notActive (s.active?.map Source.label)))
  else .error (.unknownSource source.label)

end Simulation

end StallSim
