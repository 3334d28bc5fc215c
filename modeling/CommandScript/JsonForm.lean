import CommandScript.Action
import CommandScript.Double.Layout
import CommandScript.Grammar.Lint
import CommandScript.Json
import CommandScript.ParseError

/-!
# JSON forms

The JSON form of everything that is given out as JSON: values, actions and blocks, tokens and
diagnostics, parse errors, rules and warnings. A form that is one of several says which by a
member `type` or `kind`. The arguments of an action are the members of an object, in the order
in which they were bound. A number that is infinite or none has the form `null`.
-/

namespace CommandScript

/-! ## Values and actions -/

/-- Numbers from `0.00001` up to, but not including, `10 ^ 16` are written without an exponent,
an exponent always has a sign, and of two equally near decimals the even one is written. -/
def Json.layout : Layout :=
  ⟨-4, 16, true, .toEven⟩

/-- The form of a number. -/
def Json.ofDouble (d : Double) : Json :=
  match d.view with
  | .finite negative significand shift =>
    .number (layout.writeFinite negative significand shift)
  | _ => .null

mutual

/-- The form of a value. -/
def Value.toJson : Value → Json
  | .number d => .ofFields [("type", .ofText "number"), ("value", .ofDouble d)]
  | .str s => .ofFields [("type", .ofText "str"), ("value", .ofText s)]
  | .bool b => .ofFields [("type", .ofText "bool"), ("value", .bool b)]
  | .var x => .ofFields [("type", .ofText "var"), ("value", .ofText x)]
  | .sequence items =>
    .ofFields [("type", .ofText "sequence"), ("value", .array (Value.toJsons items))]

/-- The forms of the values of a row. -/
def Value.toJsons : List Value → List Json
  | [] => []
  | v :: vs => v.toJson :: Value.toJsons vs

end

/-- The form of arguments. -/
def Arguments.toJson (a : Arguments) : Json :=
  .ofFields (a.entries.map fun e => (e.1, e.2.toJson))

/-- The form of an action. -/
def Action.toJson (a : Action) : Json :=
  .ofFields [("action", .ofText a.name), ("arguments", a.arguments.toJson),
    ("line", .ofNat a.line)]

/-- The form of a block. -/
def Block.toJson (b : Block) : Json :=
  .ofFields [("actions", .array (b.actions.map Action.toJson))]

/-! ## Tokens and diagnostics -/

/-- The form of a token. -/
def Token.toJson (t : Token) : Json :=
  .ofFields [("kind", .ofText t.kind.tag), ("text", .ofText t.text)]

/-- The form of a token with its line. -/
def Placed.toJson (p : Placed) : Json :=
  .ofFields [("kind", .ofText p.token.kind.tag), ("text", .ofText p.token.text),
    ("line", .ofNat p.line)]

/-- The form of a diagnostic. -/
def Diagnostic.toJson : Diagnostic → Json
  | .unknownChar c line =>
    .ofFields [("kind", .ofText "unknown_char"), ("ch", .ofText c.toString),
      ("line", .ofNat line)]
  | .unterminatedString q line =>
    .ofFields [("kind", .ofText "unterminated_string"), ("quote", .ofText q.toString),
      ("line", .ofNat line)]

/-- The form of what reading a text gives. -/
def Lexed.toJson (l : Lexed) : Json :=
  .ofFields [("tokens", .array (l.tokens.map Placed.toJson)),
    ("diagnostics", .array (l.diagnostics.map Diagnostic.toJson))]

/-! ## Parse errors -/

/-- The name of the kind of an error. -/
def ParseError.tag : ParseError → String
  | .noRule .. => "syntax"
  | .expected .. => "expected"
  | .invalidNumber .. => "invalid_number"

/-- The members of an error's form that only errors of its kind have. -/
def ParseError.details : ParseError → List (String × Json)
  | .noRule found _ _ closest =>
    ("found", found.toJson) ::
      (closest.map fun rule => ("closest_rule", .ofText rule)).toList
  | .expected wanted found _ _ =>
    [("expected", .ofText wanted), ("found", found.toJson)]
  | .invalidNumber text _ _ => [("text", .ofText text)]

/-- The form of an error, with its wording. -/
def ParseError.toJson (e : ParseError) : Json :=
  .ofFields (("kind", .ofText e.tag) :: e.details ++
    [("position", .ofNat e.position), ("line", .ofNat e.line),
      ("message", .ofText e.message)])

/-! ## Rules and warnings -/

/-- The form of an element. -/
def Element.toJson : Element → Json
  | .keyword text => .ofFields [("keyword", .ofText text)]
  | .argument name => .ofFields [("argument", .ofText name)]

/-- The form of a rule. -/
def Rule.toJson (r : Rule) : Json :=
  .ofFields [("name", .ofText r.name), ("elements", .array (r.elements.map Element.toJson))]

/-- The form of a warning. -/
def Warning.toJson : Warning → Json
  | .emptyRule rule =>
    .ofFields [("kind", .ofText "empty_rule"), ("rule", .ofText rule)]
  | .duplicateArgument rule argument =>
    .ofFields [("kind", .ofText "duplicate_argument"), ("rule", .ofText rule),
      ("argument", .ofText argument)]
  | .duplicateName rule =>
    .ofFields [("kind", .ofText "duplicate_rule_name"), ("rule", .ofText rule)]
  | .quotedOnlyKeyword rule keyword =>
    .ofFields [("kind", .ofText "quoted_only_keyword"), ("rule", .ofText rule),
      ("keyword", .ofText keyword)]
  | .unmatchableKeyword rule keyword =>
    .ofFields [("kind", .ofText "unmatchable_keyword"), ("rule", .ofText rule),
      ("keyword", .ofText keyword)]
  | .shadowed rule earlier =>
    .ofFields [("kind", .ofText "shadowed"), ("rule", .ofText rule),
      ("by", .ofText earlier)]

end CommandScript
