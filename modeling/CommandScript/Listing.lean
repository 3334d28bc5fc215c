import CommandScript.Action
import CommandScript.Double.Layout

/-!
# Listings of actions

`Block.listing` writes the actions of a block one after the other, with a line for each
argument. Texts are written as they are, without quotes or escapes, and numbers with the fewest
digits that stand for them (`Value.layout`).
-/

namespace CommandScript

namespace Value

/-- Numbers from `0.0001` up to, but not including, `10 ^ 16` are written without an exponent, a
negative exponent alone has a sign, and of two equally near decimals the larger is written. -/
def layout : Layout :=
  ⟨-3, 16, false, .up⟩

/-- A number as it is listed. -/
def numberText (d : Double) : String :=
  match d.view with
  | .nan => "NaN"
  | .infinite negative => if negative then "-inf" else "inf"
  | .finite negative significand shift =>
    String.ofList (layout.writeFinite negative significand shift)

/-- A truth value as it is listed. -/
def boolText (b : Bool) : String :=
  if b then "true" else "false"

mutual

/-- A value as it is listed. -/
def listing : Value → String
  | number d => "Constant(" ++ numberText d ++ ")"
  | str s => "Constant(" ++ s ++ ")"
  | bool b => "Constant(" ++ boolText b ++ ")"
  | var x => "VarAccess(" ++ x ++ ")"
  | sequence items => "Sequence[" ++ ", ".intercalate (listings items) ++ "]"

/-- The values of a row as they are listed. -/
def listings : List Value → List String
  | [] => []
  | v :: vs => listing v :: listings vs

end

end Value

/-- The lines of an action. -/
def Action.listing (a : Action) : String :=
  "Action \x7b action = " ++ a.name ++ ", arguments = \x7b\n" ++
    String.join (a.arguments.entries.map fun e => "  " ++ e.1 ++ ": " ++ e.2.listing ++ "\n") ++
    "\x7d\n"

/-- The lines of a block. -/
def Block.listing (b : Block) : String :=
  String.join (b.actions.map Action.listing)

end CommandScript
