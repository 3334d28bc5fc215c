import CommandScript.Double.Reading
import CommandScript.Token

/-!
# Values

A `Value` is what an argument of an action is bound to. `Token.reading` says what a token is
worth as an argument: words and strings are texts, variables stay references, number tokens
are read as numbers, and `true` and `false` are truth values. A number token whose text is no
number is `malformed`; only tokens made by hand can be.
-/

namespace CommandScript

/-- A value of an argument. -/
inductive Value
  | number (value : Double)
  | str (text : String)
  | bool (value : Bool)
  /-- A reference to a variable. -/
  | var (name : String)
  /-- Values in a row. No token reads as one. -/
  | sequence (items : List Value)
  deriving Repr, Inhabited

namespace Value

/-- The number of a value that is one. -/
def number? : Value → Option Double
  | number d => some d
  | _ => none

/-- The text of a value that is one. -/
def str? : Value → Option String
  | str s => some s
  | _ => none

/-- The truth value of a value that is one. -/
def bool? : Value → Option Bool
  | bool b => some b
  | _ => none

/-- The name of a variable that a value refers to. -/
def var? : Value → Option String
  | var x => some x
  | _ => none

end Value

/-- What a token is worth as an argument. -/
inductive Reading
  /-- The token is this value. -/
  | value (v : Value)
  /-- The token is a number whose text denotes none. -/
  | malformed
  /-- The token is never an argument. -/
  | unfit
  deriving Repr

/-- What a token is worth as an argument. -/
def Token.reading (t : Token) : Reading :=
  match t.kind with
  | .word | .str => .value (.str t.text)
  | .var => .value (.var t.text)
  | .number =>
    match Double.ofText? t.text with
    | some d => .value (.number d)
    | none => .malformed
  | .keyTrue => .value (.bool true)
  | .keyFalse => .value (.bool false)
  | _ => .unfit

end CommandScript
