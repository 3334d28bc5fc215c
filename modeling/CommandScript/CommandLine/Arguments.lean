/-!
# The arguments of the program

`Invocation.ofArguments` says what a list of arguments asks for. Options may stand before and
after the name of the command and its file; after `--` everything is a file. An option with a
value takes the next argument, or what follows an equals sign, or for a short option the rest of
the argument. No option may come twice in one part, before the command's name or after it; where
`--output` stands in both, the later one counts. The arguments are read from left to right, so
a request for the version is answered if nothing is wrong before it.
-/

namespace CommandScript

/-- The form in which results are given out. -/
inductive OutputFormat
  | text | json
  deriving DecidableEq, Repr

/-- What every command can be told. -/
structure Settings where
  output : OutputFormat
  quiet : Bool
  verbose : Bool
  deriving DecidableEq, Repr

/-- What is to be done. -/
inductive Command
  /-- List the tokens of a file. -/
  | tokens (file : String)
  /-- Read a file by a grammar. -/
  | parse (file grammar : String) (recover : Bool) (maxErrors : Nat)
  /-- List the rules of a grammar and the warnings about it. -/
  | grammar (file : String)
  deriving DecidableEq, Repr

/-- What a list of arguments asks for. -/
inductive Invocation
  /-- Carry out a command. -/
  | run (settings : Settings) (command : Command)
  /-- Tell the version. -/
  | version
  /-- Explain the program. -/
  | help
  /-- The arguments are not understood. -/
  | misuse
  deriving DecidableEq, Repr

/-! ## Options -/

/-- The options of the program. -/
inductive Flag
  | output | quiet | verbose | grammar | recover | maxErrors | help | version
  deriving DecidableEq, Repr

/-- The part of the arguments an option stands in. -/
inductive Scope
  /-- Before the name of the command. -/
  | top
  /-- After `tokens` or `grammar`. -/
  | simple
  /-- After `parse`. -/
  | parse
  deriving DecidableEq, Repr

namespace Flag

/-- The name of an option after two dashes. -/
def name : Flag → String
  | output => "output"
  | quiet => "quiet"
  | verbose => "verbose"
  | grammar => "grammar"
  | recover => "recover"
  | maxErrors => "max-errors"
  | help => "help"
  | version => "version"

/-- The letter of an option after one dash. -/
def letter? : Flag → Option Char
  | verbose => some 'v'
  | grammar => some 'g'
  | help => some 'h'
  | version => some 'V'
  | _ => none

/-- Whether an option has a value. -/
def takesValue : Flag → Bool
  | output | grammar | maxErrors => true
  | _ => false

end Flag

/-- The options that may stand in a part. -/
def Scope.flags : Scope → List Flag
  | .top => [.output, .quiet, .verbose, .help, .version]
  | .simple => [.output, .quiet, .verbose, .help]
  | .parse => [.output, .quiet, .verbose, .grammar, .recover, .maxErrors, .help]

/-- The option of a name. -/
def Scope.named? (s : Scope) (name : List Char) : Option Flag :=
  s.flags.find? fun f => f.name.toList == name

/-- The option of a letter. -/
def Scope.lettered? (s : Scope) (letter : Char) : Option Flag :=
  s.flags.find? fun f => f.letter? == some letter

/-! ## Values -/

/-- The greatest count that fits 64 bits. -/
def greatestCount : Nat := 0xffffffffffffffff

/-- The number that a count option's value denotes, which fits 64 bits and may have a plus
sign. -/
def readCount? (value : String) : Option Nat :=
  let digits := match value.toList with
    | '+' :: cs => cs
    | cs => cs
  if digits.isEmpty || !digits.all Char.isDigit then none
  else
    let n := digits.foldl (fun n c => 10 * n + (c.toNat - '0'.toNat)) 0
    if n ≤ greatestCount then some n else none

/-- The form of output that a value names. -/
def readFormat? (value : String) : Option OutputFormat :=
  if value = "text" then some .text
  else if value = "json" then some .json
  else none

/-- What a part of the arguments has told so far. -/
structure Told where
  seen : List Flag
  output : Option OutputFormat
  grammar : Option String
  maxErrors : Option Nat
  file : Option String
  deriving Repr

namespace Told

/-- Nothing. -/
def nothing : Told :=
  ⟨[], none, none, none, none⟩

/-- Whether an option was given. -/
def has (t : Told) (f : Flag) : Bool :=
  t.seen.contains f

/-- Add an option with its value, or with an empty one if it has none. -/
def add? (t : Told) (f : Flag) (value : String) : Option Told :=
  if t.has f then none
  else
    let t := { t with seen := f :: t.seen }
    match f with
    | .output => (readFormat? value).map fun o => { t with output := some o }
    | .grammar => if value.isEmpty then none else some { t with grammar := some value }
    | .maxErrors => (readCount? value).map fun n => { t with maxErrors := some n }
    | _ => some t

end Told

/-! ## Reading arguments -/

/-- What one argument says. -/
inductive Word
  /-- It is no option. -/
  | plain (text : String)
  /-- Only files follow. -/
  | filesOnly
  /-- Options, each with its value, and maybe one more whose value is the next argument. -/
  | flags (given : List (Flag × String)) (awaiting : Option Flag)
  /-- It asks for the version or for help, after some options. -/
  | request (given : List (Flag × String)) (flag : Flag)
  /-- It names an option that is not there, after some options. -/
  | unknown
  deriving Repr

/-- What the letters after one dash say, after some options. -/
def readLetters (s : Scope) (given : List (Flag × String)) : List Char → Word
  | [] => .flags given none
  | c :: cs =>
    match s.lettered? c with
    | none => .unknown
    | some f =>
      if f = .help ∨ f = .version then .request given f
      else if f.takesValue then
        match cs with
        | [] => .flags given (some f)
        | '=' :: value => .flags (given ++ [(f, String.ofList value)]) none
        | value => .flags (given ++ [(f, String.ofList value)]) none
      else readLetters s (given ++ [(f, "")]) cs

/-- What a name after two dashes says. -/
def readLong (s : Scope) (cs : List Char) : Word :=
  let name := cs.takeWhile (· != '=')
  match s.named? name, cs.dropWhile (· != '=') with
  | none, _ => .unknown
  | some f, '=' :: value =>
    if f.takesValue then .flags [(f, String.ofList value)] none else .unknown
  | some f, _ =>
    if f = .help ∨ f = .version then .request [] f
    else if f.takesValue then .flags [] (some f)
    else .flags [(f, "")] none

/-- What an argument says. -/
def Word.ofArgument (s : Scope) (argument : String) : Word :=
  match argument.toList with
  | ['-', '-'] => .filesOnly
  | '-' :: '-' :: cs => readLong s cs
  | '-' :: c :: cs => readLetters s [] (c :: cs)
  | _ => .plain argument

/-- Whether an argument can be the value of the option before it. -/
def canBeValue (argument : String) : Bool :=
  match argument.toList with
  | '-' :: _ :: _ => false
  | _ => true

/-- What a part of the arguments says. -/
inductive Part
  /-- The part is over, and maybe a word with further arguments follows. -/
  | told (t : Told) (next : Option (String × List String))
  /-- The version or help is asked for. -/
  | request (flag : Flag)
  /-- The part is not understood. -/
  | misuse

/-- Add options one after the other. -/
def Told.addAll? (t : Told) (given : List (Flag × String)) : Option Told :=
  given.foldlM (fun t g => t.add? g.1 g.2) t

/-- Set the file, of which there is one. -/
def Told.setFile? (t : Told) (file : String) : Option Told :=
  if t.file.isSome || file.isEmpty then none else some { t with file := some file }

/-- Read the files that follow `--`. -/
def readFiles (s : Scope) (t : Told) : List String → Part
  | [] => .told t none
  | a :: as =>
    if s = .top then .misuse
    else match t.setFile? a with
      | some t' => readFiles s t' as
      | none => .misuse

/-- Read a part of the arguments. Before the command's name the part ends at the first argument
that is no option. -/
def readPart (s : Scope) (t : Told) : List String → Part
  | [] => .told t none
  | a :: as =>
    match Word.ofArgument s a with
    | .plain text =>
      if s = .top then .told t (some (text, as))
      else match t.setFile? text with
        | some t' => readPart s t' as
        | none => .misuse
    | .filesOnly => readFiles s t as
    | .unknown => .misuse
    | .request given f =>
      match t.addAll? given with
      | some _ => .request f
      | none => .misuse
    | .flags given none =>
      match t.addAll? given with
      | some t' => readPart s t' as
      | none => .misuse
    | .flags given (some f) =>
      match t.addAll? given, as with
      | some t', value :: as' =>
        if canBeValue value then
          match t'.add? f value with
          | some t'' => readPart s t'' as'
          | none => .misuse
        else .misuse
      | _, _ => .misuse

/-- The command that the part after its name asks for. -/
def Told.command? (t : Told) (name : String) (defaultMaxErrors : Nat) : Option Command :=
  t.file.bind fun file =>
    if name = "tokens" then some (.tokens file)
    else if name = "grammar" then some (.grammar file)
    else t.grammar.map fun g =>
      .parse file g (t.has .recover) (t.maxErrors.getD defaultMaxErrors)

/-- The part after the name of a command. -/
def commandScope? (name : String) : Option Scope :=
  if name = "tokens" || name = "grammar" then some .simple
  else if name = "parse" then some .parse
  else none

/-- The settings that the parts before and after the name of a command make together. -/
def Settings.ofParts (before after : Told) : Settings :=
  ⟨(after.output.or before.output).getD .text, before.has .quiet || after.has .quiet,
    before.has .verbose || after.has .verbose⟩

/-- What asking for help with some commands gives. There is help with one of them at a time. -/
def Invocation.ofHelp : List String → Invocation
  | [] => .help
  | [name] => if name = "help" || (commandScope? name).isSome then .help else .misuse
  | _ => .misuse

/-- What asking for the version or for help gives. -/
def Invocation.ofRequest (f : Flag) : Invocation :=
  if f = .version then .version else .help

/-- What a list of arguments asks for. -/
def Invocation.ofArguments (defaultMaxErrors : Nat) (arguments : List String) : Invocation :=
  match readPart .top .nothing arguments with
  | .misuse => .misuse
  | .request f => .ofRequest f
  | .told _ none => .misuse
  | .told before (some (name, rest)) =>
    match commandScope? name with
    | none => if name = "help" then .ofHelp rest else .misuse
    | some s =>
      match readPart s .nothing rest with
      | .misuse => .misuse
      | .request f => .ofRequest f
      | .told _ (some _) => .misuse
      | .told after none =>
        match after.command? name defaultMaxErrors with
        | some c => .run (.ofParts before after) c
        | none => .misuse

end CommandScript
