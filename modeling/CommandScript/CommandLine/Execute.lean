import CommandScript.CommandLine.Arguments
import CommandScript.GrammarFile.Load
import CommandScript.Json.Printer
import CommandScript.JsonForm
import CommandScript.Listing
import CommandScript.Run
import CommandScript.Terminal

/-!
# Carrying out commands

`execute` says what the program does with its arguments: its exit code and what it writes to
the two outputs. It sees files as a function from paths to texts. Results go to standard output.
Log records and errors go to standard error, in the order in which they arise; being quiet drops
the errors and all records but errors, being verbose adds the debugging records. Texts go out as
they are, except that log records lose the control sequences of terminals.
-/

namespace CommandScript

/-- What the program leaves behind. -/
structure Transcript where
  code : Nat
  stdout : String
  stderr : String
  deriving DecidableEq, Repr

/-! ## The parts of the two outputs -/

/-- The least urgent level that is shown. -/
def Settings.threshold (s : Settings) : Level :=
  if s.verbose then .debug else if s.quiet then .error else .warn

/-- A text followed by a line end. -/
def asLine (text : String) : String :=
  text ++ "\n"

/-- Texts as lines. -/
def asLines (texts : List String) : String :=
  String.join (texts.map asLine)

/-- A text whose lines but the first are indented by four spaces. -/
def indentLines (text : String) : String :=
  String.ofList (text.toList.flatMap fun c => if c = '\n' then ['\n', ' ', ' ', ' ', ' '] else [c])

/-- What a log shows of a record: its lines without the control sequences of terminals. -/
def LogRecord.shown (r : LogRecord) : String :=
  Terminal.visible (asLine (indentLines r.line))

/-- The lines of the records that are shown. -/
def Settings.logLines (s : Settings) (log : List LogRecord) : String :=
  String.join ((log.filter (·.isShown s.threshold)).map LogRecord.shown)

/-- The report of an error that ends a command. -/
def Settings.errorReport (s : Settings) (message : String) : String :=
  if s.quiet then ""
  else match s.output with
    | .text => asLine message
    | .json => asLine (Json.ofFields [("error", .ofText message)]).compact

/-- The report of the errors of a script. -/
def Settings.parseErrorReport (s : Settings) (file : String) (errors : List ParseError) :
    String :=
  if s.quiet || errors.isEmpty then ""
  else match s.output with
    | .text => asLines (errors.map fun e => file ++ ": " ++ e.message)
    | .json =>
      asLine (Json.ofFields [("file", .ofText file),
        ("errors", .array (errors.map ParseError.toJson))]).sorted.pretty

/-- The words for a file that cannot be read. -/
def unreadableMessage (file : String) (failure : ReadFailure) : String :=
  "error reading file '" ++ file ++ "': " ++ failure.message

/-! ## Commands -/

/-- List the tokens of a file. -/
def executeTokens (s : Settings) (file : String) : FileText → Transcript
  | .error failure => ⟨1, "", s.errorReport (unreadableMessage file failure)⟩
  | .ok text =>
    let l := lex text
    let out := match s.output with
      | .text => asLines (l.tokens.map (·.token.listing))
      | .json => asLine l.toJson.pretty
    ⟨0, out, s.logLines l.log⟩

/-- A block in the form asked for. -/
def Settings.blockOutput (s : Settings) (b : Block) : String :=
  match s.output with
  | .text => b.listing
  | .json => asLine b.toJson.pretty

/-- The report of a warning about a grammar. -/
def Warning.record (w : Warning) : LogRecord :=
  ⟨.warn, "grammar: " ++ w.message⟩

/-- Read a text by a grammar. The actions are given out unless the first error ends it. -/
def executeScript (s : Settings) (file : String) (g : Grammar) (recover : Bool)
    (maxErrors : Nat) (text : String) : Transcript :=
  let l := lex text
  let start : Cursor := ⟨0, l.tokens⟩
  let r := if recover then run g maxErrors start else strictRun g start
  ⟨if r.errors.isEmpty then 0 else 1,
    if recover || r.errors.isEmpty then s.blockOutput r.block else "",
    s.logLines (l.log ++ r.log recover) ++ s.parseErrorReport file r.errors⟩

/-- Read a file by a grammar. -/
def executeParse (s : Settings) (files : String → FileText) (file grammar : String)
    (recover : Bool) (maxErrors : Nat) : Transcript :=
  match loadGrammar grammar (files grammar) with
  | .error e => ⟨1, "", s.errorReport (e.message grammar)⟩
  | .ok g =>
    let log := s.logLines (g.loadedRecord grammar :: g.lint.map Warning.record)
    match files file with
    | .error failure => ⟨1, "", log ++ s.errorReport (unreadableMessage file failure)⟩
    | .ok text =>
      let t := executeScript s file g recover maxErrors text
      { t with stderr := log ++ t.stderr }

/-- List the rules of a grammar and the warnings about it. -/
def executeGrammar (s : Settings) (file : String) (content : FileText) : Transcript :=
  match loadGrammar file content with
  | .error e => ⟨1, "", s.errorReport (e.message file)⟩
  | .ok g =>
    let log := s.logLines [g.loadedRecord file]
    match s.output with
    | .text =>
      let warnings := g.lint.map fun w => "warning: " ++ w.message
      ⟨0, asLines (g.rules.map Rule.listing), log ++ if s.quiet then "" else asLines warnings⟩
    | .json =>
      let form := Json.ofFields [("rules", .array (g.rules.map Rule.toJson)),
        ("warnings", .array (g.lint.map Warning.toJson))]
      ⟨0, asLine form.sorted.pretty, log⟩

/-- Carry out a command. -/
def executeCommand (s : Settings) (files : String → FileText) : Command → Transcript
  | .tokens file => executeTokens s file (files file)
  | .parse file rules recover maxErrors => executeParse s files file rules recover maxErrors
  | .grammar file => executeGrammar s file (files file)

/-- The files that a command reads. -/
def Command.files : Command → List String
  | .tokens file => [file]
  | .parse file rules _ _ => [rules, file]
  | .grammar file => [file]

/-! ## The program -/

/-- The line that tells the version. -/
def versionLine : String :=
  "dsltk 0.1.0\n"

/-- The lines that explain the program. -/
def helpText : String :=
  asLines [
    "Rule-driven parser for command-style languages",
    "",
    "Usage: dsltk [OPTIONS] <COMMAND>",
    "",
    "Commands:",
    "  tokens   Print the token sequence of a source file",
    "  parse    Parse a source file against a grammar",
    "  grammar  Load a grammar file, print its rules and lint warnings",
    "  help     Print this message or the help of the given subcommand(s)",
    "",
    "Options:",
    "      --output <OUTPUT>  Output format (text or json) [default: text] [possible values: text, json]",
    "      --quiet            Suppress non-essential output",
    "  -v, --verbose          Enable debug logging",
    "  -h, --help             Print help",
    "  -V, --version          Print version"]

/-- What the arguments ask for. -/
def invocation (arguments : List String) : Invocation :=
  .ofArguments defaultErrorLimit arguments

/-- Do what is asked for. -/
def Invocation.execute (files : String → FileText) : Invocation → Transcript
  | .run settings command => executeCommand settings files command
  | .version => ⟨0, versionLine, ""⟩
  | .help => ⟨0, helpText, ""⟩
  | .misuse => ⟨2, "", helpText⟩

/-- What the program does with its arguments. -/
def execute (files : String → FileText) (arguments : List String) : Transcript :=
  (invocation arguments).execute files

end CommandScript
