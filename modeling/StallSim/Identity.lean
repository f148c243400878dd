/-!
# Sources and event ids

A source is the logical origin of work: the simulation attributes every action to one, and can
stall it.  Sources are told apart by their form and their content, so the symbol `1`, the index
`1` and the quoted text `1` are three sources.

* `Source.label` — the text that stands for a source in messages, traces and digests.
* `quoteText` — text between double quotes, with the characters escaped that would end it or
  leave the line; for ASCII text.
* `EventId` — the running number of a submission.  Ids are handed out in order of submission and
  never twice, so they also order the work of one source.
-/

set_option autoImplicit false

namespace StallSim

/-- The digits of a number below 256 in base sixteen, without leading zeros. -/
private def hexText (n : Nat) : String := String.ofList (Nat.toDigits 16 n)

/-- How one ASCII character is written inside double quotes. -/
def quoteChar (c : Char) : String :=
  if c = '"' then "\\\""
  else if c = '\\' then "\\\\"
  else if c = '\n' then "\\n"
  else if c = '\r' then "\\r"
  else if c = '\t' then "\\t"
  else if c.toNat = 0 then "\\0"
  else if c.toNat < 32 ∨ c.toNat = 127 then "\\u\x7b" ++ hexText c.toNat ++ "\x7d"
  else String.singleton c

/-- ASCII text between double quotes. -/
def quoteText (s : String) : String :=
  "\"" ++ String.join (s.toList.map quoteChar) ++ "\""

/-- The logical origin of work. -/
inductive Source where
  | symbol (name : String)
  | index (n : Int)
  | quoted (text : String)
  deriving DecidableEq

/-- The text that stands for a source. -/
def Source.label : Source → String
  | .symbol name => name
  | .index n => toString n
  | .quoted text => quoteText text

/-- The identity of a submission: how many were accepted before it. -/
structure EventId where
  raw : Nat
  deriving DecidableEq

namespace EventId

instance : LE EventId := ⟨fun a b => a.raw ≤ b.raw⟩

instance : LT EventId := ⟨fun a b => a.raw < b.raw⟩

instance : DecidableLE EventId := fun a b => Nat.decLe a.raw b.raw

instance : DecidableLT EventId := fun a b => Nat.decLt a.raw b.raw

instance : Ord EventId := ⟨fun a b => compare a.raw b.raw⟩

theorem le_def {a b : EventId} : a ≤ b ↔ a.raw ≤ b.raw := Iff.rfl

theorem lt_def {a b : EventId} : a < b ↔ a.raw < b.raw := Iff.rfl

theorem raw_inj {a b : EventId} : a.raw = b.raw ↔ a = b :=
  ⟨congrArg EventId.mk, congrArg EventId.raw⟩

instance : Std.IsLinearOrder EventId where
  le_refl a := Nat.le_refl a.raw
  le_trans _ _ _ := Nat.le_trans
  le_antisymm _ _ hab hba := raw_inj.1 (Nat.le_antisymm hab hba)
  le_total a b := Nat.le_total a.raw b.raw

instance : Std.LawfulOrderLT EventId where
  lt_iff a b := by simp only [le_def, lt_def]; omega

/-- The written form: `E#` and the number. -/
def text (id : EventId) : String := "E#" ++ toString id.raw

end EventId

end StallSim
