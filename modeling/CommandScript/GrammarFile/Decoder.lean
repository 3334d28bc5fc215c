import CommandScript.GrammarFile.Document
import CommandScript.Json

/-!
# Grammar documents in JSON

A grammar document is an object with one member `rule` or `rules`, a list of rule documents. A
rule document is an object with `name`, `pattern` and `elements`, of which the last two may be
missing or `null`. Other members, or the same one twice, are refused. An object may also be
written as the list of its values in that order. An element is an object with one member,
`keyword` or `argument`. `Rule.ofJson?` reads the form of a rule alone, in which other members
are passed over.
-/

namespace CommandScript

namespace Json

/-- Members by the texts of their keys, if all the keys have one. -/
def fieldsOf? (members : List (List Char × Json)) : Option (List (String × Json)) :=
  members.mapM fun m => (unescape? m.1).map fun key => (String.ofList key, m.2)

/-- The member whose key is one of `keys`, if there is one. There must not be two. -/
def member? (keys : List String) (fields : List (String × Json)) : Option (Option Json) :=
  match fields.filter fun f => keys.contains f.1 with
  | [] => some none
  | [f] => some (some f.2)
  | _ => none

/-- Members by the texts of their keys, if each key is one of `keys`. -/
def closedFieldsOf? (keys : List String) (members : List (List Char × Json)) :
    Option (List (String × Json)) :=
  (fieldsOf? members).bind fun fields =>
    if fields.all fun f => keys.contains f.1 then some fields else none

/-- The value of an optional member, which is missing, `null`, or read by `read?`. -/
def optional? {α : Type} (read? : Json → Option α) : Option Json → Option (Option α)
  | none => some none
  | some null => some none
  | some v => (read? v).map some

/-- The items of an array, each read by `read?`. -/
def list? {α : Type} (read? : Json → Option α) : Json → Option (List α)
  | array items => items.mapM read?
  | _ => none

end Json

/-- The element of a form. -/
def Element.ofJson? : Json → Option Element
  | .object [(key, v)] =>
    (Json.unescape? key).bind fun key =>
      let key := String.ofList key
      if key = "keyword" then v.text?.map .keyword
      else if key = "argument" then v.text?.map .argument
      else none
  | _ => none

/-- The rule of a form. -/
def Rule.ofJson? : Json → Option Rule
  | .object members => do
    let fields ← Json.fieldsOf? members
    let name ← (← Json.member? ["name"] fields)
    let elements ← (← Json.member? ["elements"] fields)
    return ⟨← name.text?, ← elements.list? Element.ofJson?⟩
  | .array [name, elements] => do
    return ⟨← name.text?, ← elements.list? Element.ofJson?⟩
  | _ => none

/-- The rule document that members write. -/
def RuleDocument.ofMembers? (name : Json) (pattern elements : Option Json) :
    Option RuleDocument := do
  return ⟨← name.text?, ← Json.optional? Json.text? pattern,
    ← Json.optional? (Json.list? Element.ofJson?) elements⟩

/-- The rule document that a value writes. As a list it may have further items if `surplus`
allows them. -/
def RuleDocument.ofJson? (surplus : Bool) : Json → Option RuleDocument
  | .object members => do
    let fields ← Json.closedFieldsOf? ["name", "pattern", "elements"] members
    let name ← (← Json.member? ["name"] fields)
    ofMembers? name (← Json.member? ["pattern"] fields) (← Json.member? ["elements"] fields)
  | .array (name :: pattern :: elements :: more) =>
    if more.isEmpty || surplus then ofMembers? name (some pattern) (some elements) else none
  | _ => none

/-- The rule documents that a grammar document writes. -/
def documentsOfJson? (surplus : Bool) : Json → Option (List RuleDocument)
  | .object members => do
    let fields ← Json.closedFieldsOf? ["rule", "rules"] members
    match ← Json.member? ["rule", "rules"] fields with
    | none => return []
    | some rules => rules.list? (RuleDocument.ofJson? surplus)
  | .array [] => some []
  | .array [rules] => rules.list? (RuleDocument.ofJson? surplus)
  | _ => none

end CommandScript
