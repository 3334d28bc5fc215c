import CommandScript.Grammar
import CommandScript.Lexer

/-!
# Warnings about a grammar

`Grammar.lint` lists mistakes an author of a grammar is likely to have made. It never changes
how scripts are read. What is said about a rule depends on the rule and on those before it
(`Rule.warnings`): a name that is taken, no elements, an argument name that comes twice, a
keyword that no token spells bare, and an earlier rule whose elements start this one's.
-/

namespace CommandScript

/-- A mistake in a grammar. -/
inductive Warning
  /-- The rule has no elements. -/
  | emptyRule (rule : String)
  /-- The argument comes twice, and the later value replaces the earlier one. -/
  | duplicateArgument (rule argument : String)
  /-- An earlier rule has the name. -/
  | duplicateName (rule : String)
  /-- No token but a string has the text of the keyword. -/
  | quotedOnlyKeyword (rule keyword : String)
  /-- No token at all has the text of the keyword, which holds both quotes. -/
  | unmatchableKeyword (rule keyword : String)
  /-- The elements of an earlier rule start those of the rule. -/
  | shadowed (rule earlier : String)
  deriving DecidableEq, Repr

/-- The wording of a warning. -/
def Warning.message : Warning → String
  | emptyRule rule => "rule '" ++ rule ++ "' has no elements and never matches"
  | duplicateArgument rule argument =>
    "rule '" ++ rule ++ "' declares argument '" ++ argument ++
      "' more than once; the last value wins"
  | duplicateName rule => "rule name '" ++ rule ++ "' is used more than once"
  | quotedOnlyKeyword rule keyword =>
    "rule '" ++ rule ++ "': keyword '" ++ keyword ++
      "' is not a single token and matches only as a quoted string"
  | unmatchableKeyword rule keyword =>
    "rule '" ++ rule ++ "': keyword '" ++ keyword ++
      "' contains both quote characters and never matches"
  | shadowed rule earlier =>
    "rule '" ++ rule ++ "' is unreachable: earlier rule '" ++ earlier ++
      "' matches a prefix of it"

/-- Whether a text is read as one token that has just this text. -/
def isBareToken (text : String) : Bool :=
  let l := lex text
  l.isClean && match l.tokens with
    | [t, _] => t.token.text == text
    | _ => false

/-- Whether a text holds both quotes. -/
def holdsBothQuotes (text : String) : Bool :=
  text.toList.contains '\'' && text.toList.contains '"'

/-- The names that come again, each once, in the order of their second appearance. -/
def repeatedNames (seen reported : List String) : List String → List String
  | [] => []
  | n :: ns =>
    if !seen.contains n then repeatedNames (n :: seen) reported ns
    else if reported.contains n then repeatedNames seen reported ns
    else n :: repeatedNames seen (n :: reported) ns

namespace Rule

/-- What is said about a keyword of a rule. -/
def keywordWarning? (r : Rule) (keyword : String) : Option Warning :=
  if isBareToken keyword then none
  else if holdsBothQuotes keyword then some (.unmatchableKeyword r.name keyword)
  else some (.quotedOnlyKeyword r.name keyword)

/-- Whether a rule matches wherever `later` does, because its elements start those of `later`. -/
def shadows (r later : Rule) : Bool :=
  !r.elements.isEmpty && r.elements.isPrefixOf later.elements

/-- What is said about a rule that comes after the rules `earlier`. -/
def warnings (earlier : List Rule) (r : Rule) : List Warning :=
  (if earlier.any (fun e => e.name == r.name) then [.duplicateName r.name] else []) ++
    if r.elements.isEmpty then [.emptyRule r.name]
    else
      (repeatedNames [] [] r.arguments).map (.duplicateArgument r.name) ++
        r.keywords.filterMap r.keywordWarning? ++
        ((earlier.find? fun e => e.shadows r).map fun e => .shadowed r.name e.name).toList

end Rule

/-- What is said about rules that come after the rules `earlier`. -/
def lintRules (earlier : List Rule) : List Rule → List Warning
  | [] => []
  | r :: rs => r.warnings earlier ++ lintRules (earlier ++ [r]) rs

/-- The warnings about a grammar, rule by rule. -/
def Grammar.lint (g : Grammar) : List Warning :=
  lintRules [] g.rules

end CommandScript
