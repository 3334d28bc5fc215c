/-!
# Rules

A `Rule` is a name and a row of `Element`s. A keyword matches a token by its text, whatever the
kind of the token; an argument takes one value and binds it to a name. `Rule.pattern` writes the
elements of a rule in a row, arguments between angle brackets.
-/

namespace CommandScript

/-- A part of a rule. -/
inductive Element
  /-- Matches a token with this text. -/
  | keyword (text : String)
  /-- Takes a value and binds it to this name. -/
  | argument (name : String)
  deriving DecidableEq, Repr

namespace Element

/-- The text of a keyword or the name of an argument. -/
def text : Element → String
  | keyword t => t
  | argument n => n

/-- An element as it stands in a pattern. -/
def word : Element → String
  | keyword t => t
  | argument n => "<" ++ n ++ ">"

/-- The name of an argument. -/
def argument? : Element → Option String
  | keyword _ => none
  | argument n => some n

/-- The text of a keyword. -/
def keyword? : Element → Option String
  | keyword t => some t
  | argument _ => none

end Element

/-- A named row of elements. -/
structure Rule where
  name : String
  elements : List Element
  deriving DecidableEq, Repr

namespace Rule

/-- A rule without elements, to be added to. -/
def named (name : String) : Rule :=
  ⟨name, []⟩

/-- A rule with a keyword after its elements. -/
def withKeyword (r : Rule) (text : String) : Rule :=
  { r with elements := r.elements ++ [.keyword text] }

/-- A rule with an argument after its elements. -/
def withArgument (r : Rule) (name : String) : Rule :=
  { r with elements := r.elements ++ [.argument name] }

/-- The elements of a rule as words, one space between two of them. -/
def pattern (r : Rule) : String :=
  " ".intercalate (r.elements.map Element.word)

/-- The listed form of a rule, its name and its pattern. -/
def listing (r : Rule) : String :=
  r.name ++ " := " ++ r.pattern

/-- The names of the arguments in order, repeats included. -/
def arguments (r : Rule) : List String :=
  r.elements.filterMap Element.argument?

/-- The texts of the keywords in order, repeats included. -/
def keywords (r : Rule) : List String :=
  r.elements.filterMap Element.keyword?

end Rule

end CommandScript
