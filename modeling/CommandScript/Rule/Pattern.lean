import CommandScript.Rule
import CommandScript.Unicode.Alphanumeric
import CommandScript.Unicode.WhiteSpace

/-!
# Patterns

A rule can be written as a pattern, words with white space between them. A word that starts
with `<` and then a letter, a number or an underscore is an argument slot, which `>` must close
and which holds no other angle bracket; every other word is a keyword. `Rule.ofPattern` reads a
pattern and reports the first word that is no element.
-/

namespace CommandScript

/-- Why a pattern is no rule. -/
inductive PatternError
  /-- There is no word. -/
  | empty
  /-- The word opens an argument slot that it does not close. -/
  | unclosedArgument (word : String)
  /-- The name in the argument slot holds an angle bracket. -/
  | invalidArgument (word : String)
  deriving DecidableEq, Repr

/-- The wording of a pattern error. -/
def PatternError.message : PatternError → String
  | empty => "pattern is empty"
  | unclosedArgument word => "argument '" ++ word ++ "' is missing its closing '>'"
  | invalidArgument word => "'" ++ word ++ "': argument names may not contain '<' or '>'"

/-- The characters between white space, with an empty word where two white spaces meet. -/
def splitWhiteSpace : List Char → List (List Char)
  | [] => [[]]
  | c :: cs =>
    if Unicode.isWhiteSpace c then [] :: splitWhiteSpace cs
    else match splitWhiteSpace cs with
      | [] => [[c]]
      | w :: ws => (c :: w) :: ws

/-- The words of a text. -/
def words (cs : List Char) : List (List Char) :=
  (splitWhiteSpace cs).filter fun w => !w.isEmpty

/-- Whether a character after `<` makes the word an argument slot. -/
def opensSlot (c : Char) : Bool :=
  Unicode.isAlphanumeric c || c = '_'

/-- Whether a character is an angle bracket. -/
def isAngle (c : Char) : Bool :=
  c = '<' || c = '>'

/-- The element that a word of a pattern stands for. -/
def Element.ofWord (word : List Char) : Except PatternError Element :=
  match word with
  | '<' :: c :: cs =>
    if !opensSlot c then .ok (.keyword (String.ofList word))
    else if (c :: cs).getLast? ≠ some '>' then .error (.unclosedArgument (String.ofList word))
    else
      let name := (c :: cs).dropLast
      if name.any isAngle then .error (.invalidArgument (String.ofList word))
      else .ok (.argument (String.ofList name))
  | _ => .ok (.keyword (String.ofList word))

/-- The elements that words stand for, or the error of the first word that stands for none. -/
def elementsOfWords : List (List Char) → Except PatternError (List Element)
  | [] => .ok []
  | w :: ws =>
    match Element.ofWord w with
    | .error e => .error e
    | .ok element =>
      match elementsOfWords ws with
      | .error e => .error e
      | .ok elements => .ok (element :: elements)

/-- The rule that a pattern writes. -/
def Rule.ofPattern (name pattern : String) : Except PatternError Rule :=
  match elementsOfWords (words pattern.toList) with
  | .error e => .error e
  | .ok [] => .error .empty
  | .ok elements => .ok ⟨name, elements⟩

end CommandScript
