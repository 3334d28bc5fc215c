import CommandScript.Value

/-!
# Actions

A script is a `Block` of actions. An action is named after the rule that matched and holds its
`Arguments`: names bound to values, in the order in which the names were first bound. Binding
a name again replaces its value and keeps its place (`Arguments.getThenInsert?`).
-/

namespace CommandScript

/-- Names bound to values, in the order in which the names were first bound. -/
structure Arguments where
  entries : List (String × Value)
  deriving Repr, Inhabited

namespace Arguments

/-- No names. -/
def empty : Arguments :=
  ⟨[]⟩

/-- Entries with `name` bound to `value`, and the value it was bound to before. -/
def bindEntry (name : String) (value : Value) :
    List (String × Value) → Option Value × List (String × Value)
  | [] => (none, [(name, value)])
  | (n, v) :: rest =>
    if n = name then (some v, (n, value) :: rest)
    else
      let (old, rest') := bindEntry name value rest
      (old, (n, v) :: rest')

/-- Bind a name to a value. The first component is the value it was bound to before. -/
def getThenInsert? (a : Arguments) (name : String) (value : Value) : Option Value × Arguments :=
  let (old, entries) := bindEntry name value a.entries
  (old, ⟨entries⟩)

/-- Bind a name to a value. -/
def insert (a : Arguments) (name : String) (value : Value) : Arguments :=
  (a.getThenInsert? name value).2

/-- Bind the names of a list one after the other. -/
def ofList (entries : List (String × Value)) : Arguments :=
  entries.foldl (fun a e => a.insert e.1 e.2) empty

/-- The value a name is bound to. -/
def get? (a : Arguments) (name : String) : Option Value :=
  (a.entries.find? fun e => e.1 == name).map Prod.snd

/-- Whether a name is bound. -/
def contains (a : Arguments) (name : String) : Bool :=
  (a.get? name).isSome

/-- The number of names. -/
def size (a : Arguments) : Nat :=
  a.entries.length

/-- Whether no name is bound. -/
def isEmpty (a : Arguments) : Bool :=
  a.entries.isEmpty

/-- The names, in the order in which they were first bound. -/
def names (a : Arguments) : List String :=
  a.entries.map Prod.fst

end Arguments

/-- One match of a rule: the rule's name, the values of its arguments, and the line of the first
token of the match. -/
structure Action where
  name : String
  arguments : Arguments
  line : Nat
  deriving Repr, Inhabited

/-- The actions of a script, in order. -/
structure Block where
  actions : List Action
  deriving Repr, Inhabited

namespace Block

/-- The number of actions. -/
def size (b : Block) : Nat :=
  b.actions.length

/-- Whether there is no action. -/
def isEmpty (b : Block) : Bool :=
  b.actions.isEmpty

end Block

end CommandScript
