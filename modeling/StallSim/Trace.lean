import StallSim.Instant
import StallSim.Identity
import StallSim.Digest

/-!
# Traces

A trace is the list of the actions that started, in the order of their starts: when, under which
id, for which source and with which description.  Two runs of one scenario have equal traces, and
a digest of the trace makes them cheap to compare.

* `TraceEntry.text` — the written form of an entry.
* `Trace.hashInput` — the bytes that stand for a trace: every field of every entry, texts with
  their lengths, so that nothing can shift between fields or entries.
* `Trace.hash` — the digest of these bytes.
-/

set_option autoImplicit false

namespace StallSim

/-- One action that started. -/
structure TraceEntry (σ : Type) where
  time : Instant
  event : EventId
  source : σ
  description : String
  deriving DecidableEq

/-- The written form: `[T=7 E#3 label] description`. -/
def TraceEntry.text (e : TraceEntry Source) : String :=
  "[" ++ e.time.text ++ " " ++ e.event.text ++ " " ++ e.source.label ++ "] " ++ e.description

/-- The bytes that stand for an entry. -/
def TraceEntry.hashInput (e : TraceEntry Source) : List UInt8 :=
  wordBytes e.time.toNat ++ wordBytes e.event.raw ++ textBytes e.source.label
    ++ textBytes e.description

/-- The actions that started, in order. -/
abbrev Trace := List (TraceEntry Source)

namespace Trace

/-- The bytes that stand for a trace. -/
def hashInput (trace : Trace) : List UInt8 := trace.flatMap TraceEntry.hashInput

/-- The digest of a trace. -/
def hash (trace : Trace) : UInt64 := Digest.ofBytes trace.hashInput

theorem hashInput_append (a b : Trace) : hashInput (a ++ b) = a.hashInput ++ b.hashInput :=
  List.flatMap_append

end Trace

end StallSim
