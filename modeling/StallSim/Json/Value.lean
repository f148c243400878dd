import StallSim.Json.Token

/-!
# JSON values

A value is read from its tokens in one pass, with the containers that are still open on a stack.
The grammar is the strict one: no comma before a closing bracket, and nothing behind the value.

* `Value` — numbers keep their digits, and repeated keys of an object stay.
* `Value.ofTokens?`, `Value.ofText?` — reading.
* `isNumber` — the written form of a number.
-/

set_option autoImplicit false

namespace StallSim.Json

/-- A JSON value. -/
inductive Value where
  | null
  | bool (value : Bool)
  | number (digits : List Char)
  | text (value : Option String)
  | array (items : List Value)
  | object (members : List (Option String × Value))

/-! ## Numbers and names -/

/-- The ASCII digits. -/
def isDigit (c : Char) : Bool := '0' ≤ c && c ≤ '9'

/-- At least one digit, and no others. -/
def isDigits (cs : List Char) : Bool := !cs.isEmpty && cs.all isDigit

/-- An exponent without its letter: digits, perhaps with a sign. -/
def isExponent : List Char → Bool
  | '+' :: cs => isDigits cs
  | '-' :: cs => isDigits cs
  | cs => isDigits cs

/-- Nothing, or the letter of an exponent and the exponent. -/
def isExponentPart : List Char → Bool
  | [] => true
  | c :: cs => (c = 'e' || c = 'E') && isExponent cs

/-- What may stand behind the whole part of a number: a fraction, an exponent, both or neither. -/
def isNumberTail : List Char → Bool
  | '.' :: cs =>
    !(cs.takeWhile isDigit).isEmpty && isExponentPart (cs.dropWhile isDigit)
  | cs => isExponentPart cs

/-- A number without its sign; the whole part has no leading zero. -/
def isUnsigned (cs : List Char) : Bool :=
  let whole := cs.takeWhile isDigit
  !whole.isEmpty && (whole.head? != some '0' || whole.length == 1)
    && isNumberTail (cs.dropWhile isDigit)

/-- The written form of a number. -/
def isNumber : List Char → Bool
  | '-' :: cs => isUnsigned cs
  | cs => isUnsigned cs

/-- The value of a word. -/
def Value.ofWord? (letters : List Char) : Option Value :=
  if letters = ['n', 'u', 'l', 'l'] then some .null
  else if letters = ['t', 'r', 'u', 'e'] then some (.bool true)
  else if letters = ['f', 'a', 'l', 's', 'e'] then some (.bool false)
  else if isNumber letters then some (.number letters)
  else none

/-! ## Reading -/

/-- A container that is not closed yet; what was read of it stands in reverse. -/
inductive Container where
  | array (items : List Value)
  /-- An object that waits for the value of `key`. -/
  | object (members : List (Option String × Value)) (key : Option String)

namespace Value

mutual

/-- Read a value inside the containers that are open. -/
def read (outer : List Container) : List Token → Option Value
  | .word letters :: rest => (ofWord? letters).bind (fun v => readBehind outer v rest)
  | .text value :: rest => readBehind outer (.text value) rest
  | .openArray :: .closeArray :: rest => readBehind outer (.array []) rest
  | .openArray :: rest => read (.array [] :: outer) rest
  | .openObject :: .closeObject :: rest => readBehind outer (.object []) rest
  | .openObject :: .text key :: .colon :: rest => read (.object [] key :: outer) rest
  | _ => none

/-- Read what stands behind a complete value. -/
def readBehind (outer : List Container) (v : Value) (tokens : List Token) : Option Value :=
  match outer, tokens with
  | [], [] => some v
  | .array items :: outer, .comma :: rest => read (.array (v :: items) :: outer) rest
  | .array items :: outer, .closeArray :: rest =>
    readBehind outer (.array (v :: items).reverse) rest
  | .object members key :: outer, .comma :: .text key' :: .colon :: rest =>
    read (.object ((key, v) :: members) key' :: outer) rest
  | .object members key :: outer, .closeObject :: rest =>
    readBehind outer (.object ((key, v) :: members).reverse) rest
  | _, _ => none

end

/-- The value that a text stands for. -/
def ofText? (text : String) : Option Value := (Token.ofText? text).bind (read [])

/-! ## Looking at a value -/

/-- The number that a list of digits stands for. -/
def natOfDigits (digits : List Char) : Nat :=
  digits.foldl (fun n c => n * 10 + (c.toNat - 48)) 0

/-- The value as a 64-bit word: a number without sign, fraction and exponent. -/
def word? : Value → Option UInt64
  | .number digits =>
    if isDigits digits ∧ natOfDigits digits < UInt64.size then some (.ofNat (natOfDigits digits))
    else none
  | _ => none

/-- The value as a truth value. -/
def bool? : Value → Option Bool
  | .bool b => some b
  | _ => none

/-- The value as a text. -/
def text? : Value → Option String
  | .text value => value
  | _ => none

/-- The value as a list of texts. -/
def texts? : Value → Option (List String)
  | .array items => items.mapM text?
  | _ => none

/-- The member of an object with this key, if there is exactly one. -/
def member? (members : List (Option String × Value)) (key : String) : Option Value :=
  match members.filter (fun m => m.1 = some key) with
  | [m] => some m.2
  | _ => none

/-- The fields of a record, in the order of `keys`.  A record is written as an object, whose other
members mean nothing, or as an array of exactly its fields. -/
def fields? (keys : List String) : Value → Option (List Value)
  | .array items => if items.length = keys.length then some items else none
  | .object members =>
    if members.all (fun m => m.1.isSome) then keys.mapM (member? members) else none
  | _ => none

end Value

end StallSim.Json
