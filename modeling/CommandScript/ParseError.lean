import CommandScript.Token

/-!
# Parse errors

A `ParseError` says why a sequence of tokens could not be read on: no rule matches at a place
(`noRule`), a token is not the one asked for (`expected`), or a number token's text is no number
(`invalidNumber`). `ParseError.message` words them. Only an invalid number is fatal; a
recovering parse goes on after the others.
-/

namespace CommandScript

/-- Why a sequence of tokens could not be read on. -/
inductive ParseError
  /-- No rule matches at `position`. If some rule got past its first element there, `closest`
  names the one that got furthest. -/
  | noRule (found : Token) (position line : Nat) (closest : Option String)
  /-- Another token was asked for. -/
  | expected (wanted : String) (found : Token) (position line : Nat)
  /-- A number token whose text denotes no number. -/
  | invalidNumber (text : String) (position line : Nat)
  deriving DecidableEq, Repr

namespace ParseError

/-- The line of the offending token. -/
def line : ParseError → Nat
  | noRule _ _ line _ => line
  | expected _ _ _ line => line
  | invalidNumber _ _ line => line

/-- The position of the offending token in its sequence. -/
def position : ParseError → Nat
  | noRule _ position _ _ => position
  | expected _ _ position _ => position
  | invalidNumber _ position _ => position

/-- Whether a recovering parse stops at the error. -/
def isFatal : ParseError → Bool
  | invalidNumber .. => true
  | _ => false

/-- The wording of an error. -/
def message : ParseError → String
  | noRule found position line closest =>
    "line " ++ toString line ++ ": no rule matches at token " ++ toString position ++ " " ++
      found.listing ++
      match closest with
      | some rule => " (closest rule: " ++ rule ++ ")"
      | none => ""
  | expected wanted found _ line =>
    "line " ++ toString line ++ ": expected " ++ wanted ++ ", got " ++ found.listing
  | invalidNumber text _ line =>
    "line " ++ toString line ++ ": invalid number literal '" ++ text ++ "'"

end ParseError

end CommandScript
