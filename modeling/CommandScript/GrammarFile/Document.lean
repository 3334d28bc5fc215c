import CommandScript.Grammar
import CommandScript.File
import CommandScript.Rule.Pattern

/-!
# Grammar documents

A grammar file holds a list of `RuleDocument`s, in the order of their priority. Each has a name
and either a pattern or a list of elements. `Grammar.ofDocuments` makes a grammar of them, one
rule for each, or reports the first one that is no rule.
-/

namespace CommandScript

/-- A rule as a grammar file has it. -/
structure RuleDocument where
  name : String
  pattern : Option String
  elements : Option (List Element)
  deriving DecidableEq, Repr

/-- Why a grammar file gives no grammar. -/
inductive GrammarFileError
  /-- The file has no text. -/
  | unreadable (failure : ReadFailure)
  /-- The text is no grammar document in TOML. -/
  | notToml
  /-- The text is no grammar document in JSON. -/
  | notJson
  /-- The name of the file does not tell what it is written in. -/
  | unknownFormat
  /-- The rule has both a pattern and elements, or neither. -/
  | ruleShape (rule : String)
  /-- The pattern of the rule is no pattern. -/
  | badPattern (rule : String) (error : PatternError)
  deriving DecidableEq, Repr

/-- The wording of an error about the file at a path. -/
def GrammarFileError.message (path : String) : GrammarFileError → String
  | unreadable failure => "error reading grammar '" ++ path ++ "': " ++ failure.message
  | notToml => "error parsing TOML in '" ++ path ++ "': not a grammar document"
  | notJson => "error parsing JSON in '" ++ path ++ "': not a grammar document"
  | unknownFormat =>
    "'" ++ path ++ "': unsupported grammar file extension (expected .toml or .json)"
  | ruleShape rule =>
    "'" ++ path ++ "': rule '" ++ rule ++
      "' must have exactly one of 'pattern' or 'elements'"
  | badPattern rule error => "'" ++ path ++ "': rule '" ++ rule ++ "': " ++ error.message

/-- The rule that a document writes. -/
def RuleDocument.rule (d : RuleDocument) : Except GrammarFileError Rule :=
  match d.pattern, d.elements with
  | some pattern, none => (Rule.ofPattern d.name pattern).mapError (.badPattern d.name)
  | none, some elements => .ok ⟨d.name, elements⟩
  | _, _ => .error (.ruleShape d.name)

/-- The rules that documents write, or the error of the first that writes none. -/
def rulesOfDocuments : List RuleDocument → Except GrammarFileError (List Rule)
  | [] => .ok []
  | d :: ds =>
    match d.rule with
    | .error e => .error e
    | .ok rule =>
      match rulesOfDocuments ds with
      | .error e => .error e
      | .ok rules => .ok (rule :: rules)

/-- The grammar that documents write. -/
def Grammar.ofDocuments (ds : List RuleDocument) : Except GrammarFileError Grammar :=
  (rulesOfDocuments ds).map Grammar.ofList

end CommandScript
