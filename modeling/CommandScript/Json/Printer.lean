import CommandScript.Json

/-!
# Writing JSON

`Json.compact` writes a value on one line without a space. `Json.pretty` gives each item and each
member a line of its own, two spaces further in than the brackets around it; empty arrays and
objects stay on one line.
-/

namespace CommandScript

namespace Json

/-! ## On one line -/

mutual

/-- A value without white space. -/
def compactChars : Json → List Char
  | null => ['n', 'u', 'l', 'l']
  | bool true => ['t', 'r', 'u', 'e']
  | bool false => ['f', 'a', 'l', 's', 'e']
  | number literal => literal
  | string literal => '"' :: literal ++ ['"']
  | array items => '[' :: compactItems items ++ [']']
  | object members => '\x7b' :: compactMembers members ++ ['\x7d']

/-- Values with commas between them. -/
def compactItems : List Json → List Char
  | [] => []
  | [v] => compactChars v
  | v :: vs => compactChars v ++ ',' :: compactItems vs

/-- Members with commas between them. -/
def compactMembers : List (List Char × Json) → List Char
  | [] => []
  | [(k, v)] => '"' :: k ++ '"' :: ':' :: compactChars v
  | (k, v) :: ms => '"' :: k ++ '"' :: ':' :: compactChars v ++ ',' :: compactMembers ms

end

/-- A value on one line. -/
def compact (v : Json) : String :=
  String.ofList v.compactChars

/-! ## On several lines -/

/-- A line end and the indentation of the next line. -/
def newLine (depth : Nat) : List Char :=
  '\n' :: List.replicate (2 * depth) ' '

mutual

/-- A value on several lines, which stands `depth` brackets deep. -/
def prettyChars (depth : Nat) : Json → List Char
  | array [] => ['[', ']']
  | array (v :: vs) =>
    '[' :: newLine (depth + 1) ++ prettyItems (depth + 1) (v :: vs) ++ newLine depth ++ [']']
  | object [] => ['\x7b', '\x7d']
  | object (m :: ms) =>
    '\x7b' :: newLine (depth + 1) ++ prettyMembers (depth + 1) (m :: ms) ++ newLine depth ++
      ['\x7d']
  | null => ['n', 'u', 'l', 'l']
  | bool true => ['t', 'r', 'u', 'e']
  | bool false => ['f', 'a', 'l', 's', 'e']
  | number literal => literal
  | string literal => '"' :: literal ++ ['"']

/-- Values on lines of their own. -/
def prettyItems (depth : Nat) : List Json → List Char
  | [] => []
  | [v] => prettyChars depth v
  | v :: vs => prettyChars depth v ++ ',' :: newLine depth ++ prettyItems depth vs

/-- Members on lines of their own. -/
def prettyMembers (depth : Nat) : List (List Char × Json) → List Char
  | [] => []
  | [(k, v)] => '"' :: k ++ '"' :: ':' :: ' ' :: prettyChars depth v
  | (k, v) :: ms =>
    '"' :: k ++ '"' :: ':' :: ' ' :: prettyChars depth v ++ ',' :: newLine depth ++
      prettyMembers depth ms

end

/-- A value on several lines. -/
def pretty (v : Json) : String :=
  String.ofList (v.prettyChars 0)

end Json

end CommandScript
