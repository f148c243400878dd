import StallSim.Config
import StallSim.Json.Value
import StallSim.Trace

/-!
# Stored values

Instants, event ids, configurations and trace entries are stored as JSON; sources are stored as
texts.  Reading is strict: every field is needed, none may be given twice, and no other form of a
number or a text is taken for the right one.

* `Instant.ofJson?`, `EventId.ofJson?` — a bare number.
* `Config.ofJson?`, `TraceEntry.ofJson?` — a record; repeated sources of a configuration stay.
-/

set_option autoImplicit false

namespace StallSim

/-- The instant that a JSON value stands for. -/
def Instant.ofJson? (v : Json.Value) : Option Instant := v.word?.map Instant.mk

/-- The event id that a JSON value stands for. -/
def EventId.ofJson? (v : Json.Value) : Option EventId := v.word?.map (fun w => ⟨w.toNat⟩)

/-- The configuration that a JSON value stands for. -/
def Config.ofJson? (v : Json.Value) : Option (Config String) :=
  match v.fields? ["initial_time", "start_paused", "source_types"] with
  | some [time, paused, sources] => do
    let time ← Instant.ofJson? time
    let paused ← paused.bool?
    let sources ← sources.texts?
    some ⟨time, paused, sources⟩
  | _ => none

/-- The trace entry that a JSON value stands for. -/
def TraceEntry.ofJson? (v : Json.Value) : Option (TraceEntry String) :=
  match v.fields? ["time", "event_id", "source", "description"] with
  | some [time, event, source, description] => do
    let time ← Instant.ofJson? time
    let event ← EventId.ofJson? event
    let source ← source.text?
    let description ← description.text?
    some ⟨time, event, source, description⟩
  | _ => none

end StallSim
