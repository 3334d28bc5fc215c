import CommandScript.Rule

/-!
# Grammars

A `Grammar` is a list of rules. Their order is their priority: at each place of a script the
first rule that matches is taken.
-/

namespace CommandScript

/-- Rules in the order of their priority. -/
structure Grammar where
  rules : List Rule
  deriving DecidableEq, Repr

namespace Grammar

/-- The grammar without rules. -/
def empty : Grammar :=
  ⟨[]⟩

/-- The grammar of a list of rules. -/
def ofList (rules : List Rule) : Grammar :=
  ⟨rules⟩

/-- A grammar with one more rule, of the lowest priority. -/
def push (g : Grammar) (r : Rule) : Grammar :=
  ⟨g.rules ++ [r]⟩

/-- The first rule of a name. -/
def rule? (g : Grammar) (name : String) : Option Rule :=
  g.rules.find? fun r => r.name == name

/-- The number of rules. -/
def size (g : Grammar) : Nat :=
  g.rules.length

/-- Whether there is no rule. -/
def isEmpty (g : Grammar) : Bool :=
  g.rules.isEmpty

end Grammar

end CommandScript
