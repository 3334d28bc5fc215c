import CommandScript.Json

/-!
# TOML values

A `Toml` is a value of a TOML document. Texts, arrays and tables are kept as what they mean;
numbers and dates are only checked and stay as they are written, since nothing here asks for
more. `Toml.toJson` is the same value as JSON, with a date as an object of one member.
-/

namespace CommandScript

/-- A value of a TOML document. -/
inductive Toml
  | string (text : String)
  | bool (value : Bool)
  /-- An integer or a float, as it is written. -/
  | number (literal : List Char)
  /-- A date, a time or both, as it is written. -/
  | date (literal : List Char)
  | array (items : List Toml)
  | table (entries : List (String × Toml))
  deriving Repr, Inhabited

namespace Toml

mutual

/-- A value as JSON. -/
def toJson : Toml → Json
  | string text => .ofText text
  | bool b => .bool b
  | number literal => .number literal
  | date literal => .ofFields [("date", .ofText (String.ofList literal))]
  | array items => .array (itemsToJson items)
  | table entries => .ofFields (entriesToJson entries)

/-- Values as JSON. -/
def itemsToJson : List Toml → List Json
  | [] => []
  | v :: vs => toJson v :: itemsToJson vs

/-- The entries of a table as members of an object. -/
def entriesToJson : List (String × Toml) → List (String × Json)
  | [] => []
  | (k, v) :: es => (k, toJson v) :: entriesToJson es

end

end Toml

end CommandScript
