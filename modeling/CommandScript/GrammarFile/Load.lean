import CommandScript.GrammarFile.Decoder
import CommandScript.Json.Reader
import CommandScript.Log
import CommandScript.Toml.Reader

/-!
# Loading grammars

`loadGrammar` makes a grammar of the text of a file. The extension of the path decides whether
the text is TOML or JSON, before the text is looked at. A rule written as a list may have
further items in TOML, and none in JSON.
-/

namespace CommandScript

/-- What a grammar file can be written in. -/
inductive GrammarFormat
  | toml | json
  deriving DecidableEq, Repr

/-- What the file at a path is written in, by its extension. -/
def GrammarFormat.ofPath? (path : String) : Option GrammarFormat :=
  match extension? path with
  | some "toml" => some .toml
  | some "json" => some .json
  | _ => none

/-- The rule documents that a text writes. -/
def GrammarFormat.read (format : GrammarFormat) (text : String) :
    Except GrammarFileError (List RuleDocument) :=
  match format with
  | .toml =>
    match (Toml.parse? text).bind fun v => documentsOfJson? true v.toJson with
    | some ds => .ok ds
    | none => .error .notToml
  | .json =>
    match (Json.parse? text).bind (documentsOfJson? false) with
    | some ds => .ok ds
    | none => .error .notJson

/-- The grammar that a text in a format writes. -/
def GrammarFormat.load (format : GrammarFormat) (text : String) :
    Except GrammarFileError Grammar :=
  match format.read text with
  | .ok ds => Grammar.ofDocuments ds
  | .error e => .error e

/-- The grammar in the file at a path. -/
def loadGrammar (path : String) (file : FileText) : Except GrammarFileError Grammar :=
  match GrammarFormat.ofPath? path, file with
  | none, _ => .error .unknownFormat
  | some _, .error failure => .error (.unreadable failure)
  | some format, .ok text => format.load text

/-- The report of a grammar that was loaded. -/
def Grammar.loadedRecord (path : String) (g : Grammar) : LogRecord :=
  ⟨.debug, "loaded " ++ toString g.size ++ " rule(s) from " ++ path⟩

/-- The reports of loading a grammar. -/
def loadLog (path : String) : Except GrammarFileError Grammar → List LogRecord
  | .ok g => [g.loadedRecord path]
  | .error _ => []

end CommandScript
