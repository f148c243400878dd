/-!
# JSON tokens

The text of a JSON document is cut into brackets, separators, strings and bare words (numbers and
the three names) by a scanner that looks at each character once.

* `Token` — the pieces; a string that holds half of a surrogate pair has no text.
* `Scanner` — what the scanner has read, and the piece it is in the middle of.
* `Token.ofText?` — the tokens of a text; `none` if it is not made of tokens.
-/

set_option autoImplicit false

namespace StallSim.Json

/-- A piece of a JSON document. -/
inductive Token where
  | openArray
  | closeArray
  | openObject
  | closeObject
  | comma
  | colon
  /-- A string; `none` if its escapes leave half of a surrogate pair alone. -/
  | text (value : Option String)
  /-- A number or a name. -/
  | word (letters : List Char)
  deriving DecidableEq

/-! ## The text of a string -/

/-- The characters that a list of code units stands for.  A high half needs a low half behind it,
and the two make one character. -/
def joinUnits : List Nat → Option (List Char)
  | [] => some []
  | [u] => if 0xD800 ≤ u ∧ u < 0xE000 then none else some [Char.ofNat u]
  | u :: v :: rest =>
    if 0xD800 ≤ u ∧ u < 0xDC00 then
      if 0xDC00 ≤ v ∧ v < 0xE000 then
        (joinUnits rest).map
          (fun cs => Char.ofNat (0x10000 + (u - 0xD800) * 0x400 + (v - 0xDC00)) :: cs)
      else none
    else if 0xDC00 ≤ u ∧ u < 0xE000 then none
    else (joinUnits (v :: rest)).map (fun cs => Char.ofNat u :: cs)

/-- The text of a string whose code units were read in the reverse of `units`. -/
def textOfUnits (units : List Nat) : Option String :=
  (joinUnits units.reverse).map String.ofList

/-- The code unit of an escape of one letter. -/
def simpleEscape? (c : Char) : Option Nat :=
  if c = '"' ∨ c = '\\' ∨ c = '/' then some c.toNat
  else if c = 'b' then some 8
  else if c = 'f' then some 12
  else if c = 'n' then some 10
  else if c = 'r' then some 13
  else if c = 't' then some 9
  else none

/-- The value of a hexadecimal digit. -/
def hexDigit? (c : Char) : Option Nat :=
  if '0' ≤ c ∧ c ≤ '9' then some (c.toNat - 48)
  else if 'a' ≤ c ∧ c ≤ 'f' then some (c.toNat - 87)
  else if 'A' ≤ c ∧ c ≤ 'F' then some (c.toNat - 55)
  else none

/-! ## The scanner -/

/-- The piece that the scanner is in the middle of; what was read of it stands in reverse. -/
inductive Piece where
  | outside
  | word (letters : List Char)
  | string (units : List Nat)
  | escape (units : List Nat)
  /-- A numeric escape with `digits` more digits to come. -/
  | hex (units : List Nat) (digits : Nat) (value : Nat)

/-- The tokens read so far, in reverse, and the piece that is not complete. -/
structure Scanner where
  tokens : List Token
  piece : Piece

namespace Scanner

/-- The characters that may stand between tokens. -/
def isBlank (c : Char) : Bool := c = ' ' || c = '\t' || c = '\n' || c = '\r'

/-- The characters that numbers and names are made of. -/
def isWordChar (c : Char) : Bool := c.isAlphanum || c = '-' || c = '+' || c = '.'

/-- Read a character that begins something new. -/
def fresh (tokens : List Token) (c : Char) : Option Scanner :=
  if isBlank c then some ⟨tokens, .outside⟩
  else if isWordChar c then some ⟨tokens, .word [c]⟩
  else if c = '"' then some ⟨tokens, .string []⟩
  else if c = '[' then some ⟨.openArray :: tokens, .outside⟩
  else if c = ']' then some ⟨.closeArray :: tokens, .outside⟩
  else if c = '\x7b' then some ⟨.openObject :: tokens, .outside⟩
  else if c = '\x7d' then some ⟨.closeObject :: tokens, .outside⟩
  else if c = ',' then some ⟨.comma :: tokens, .outside⟩
  else if c = ':' then some ⟨.colon :: tokens, .outside⟩
  else none

/-- Read one character. -/
def next (s : Scanner) (c : Char) : Option Scanner :=
  match s.piece with
  | .outside => fresh s.tokens c
  | .word letters =>
    if isWordChar c then some { s with piece := .word (c :: letters) }
    else fresh (.word letters.reverse :: s.tokens) c
  | .string units =>
    if c = '"' then some ⟨.text (textOfUnits units) :: s.tokens, .outside⟩
    else if c = '\\' then some { s with piece := .escape units }
    else if c.toNat < 32 then none
    else some { s with piece := .string (c.toNat :: units) }
  | .escape units =>
    if c = 'u' then some { s with piece := .hex units 4 0 }
    else (simpleEscape? c).map (fun u => { s with piece := .string (u :: units) })
  | .hex units digits value =>
    (hexDigit? c).map (fun d =>
      if digits ≤ 1 then { s with piece := .string ((value * 16 + d) :: units) }
      else { s with piece := .hex units (digits - 1) (value * 16 + d) })

/-- The tokens, if no string is left open. -/
def finish? (s : Scanner) : Option (List Token) :=
  match s.piece with
  | .outside => some s.tokens.reverse
  | .word letters => some (.word letters.reverse :: s.tokens).reverse
  | _ => none

end Scanner

/-- The tokens of a text. -/
def Token.ofText? (text : String) : Option (List Token) :=
  (text.toList.foldlM Scanner.next ⟨[], .outside⟩).bind Scanner.finish?

end StallSim.Json
