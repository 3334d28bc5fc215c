/-!
# Tokens

A token is a `Kind` with the text it carries. Most kinds are spelled in one way only
(`Kind.fixedText?`); words, variables, strings and numbers carry the text of the source.
A `Placed` token also knows the line it starts on. Every script ends with `Token.endOfInput`,
and a sequence of tokens that lacks it reads as if `Placed.endOfInput` followed.
-/

namespace CommandScript

/-- The kinds of tokens. -/
inductive Kind
  | word | var | str | number
  | semicolon | colon | comma | dot
  | braceL | braceR | bracketL | bracketR | parenL | parenR
  | add | sub | mul | div | mod
  | and | or | not
  | gt | geq | lt | leq | eq | neq | assign
  | keyTrue | keyFalse | keyIf | keyWhile | keyBreak | keyContinue | keyPanic | keyPrint
  | eof
  deriving DecidableEq, Repr, Inhabited

namespace Kind

/-- Every kind, in order of declaration. -/
def all : List Kind :=
  [word, var, str, number, semicolon, colon, comma, dot, braceL, braceR, bracketL, bracketR,
    parenL, parenR, add, sub, mul, div, mod, and, or, not, gt, geq, lt, leq, eq, neq, assign,
    keyTrue, keyFalse, keyIf, keyWhile, keyBreak, keyContinue, keyPanic, keyPrint, eof]

/-- The only spelling of a kind, for the kinds that have one. -/
def fixedText? : Kind → Option String
  | word | var | str | number => none
  | semicolon => some ";"
  | colon => some ":"
  | comma => some ","
  | dot => some "."
  | braceL => some "\x7b"
  | braceR => some "\x7d"
  | bracketL => some "["
  | bracketR => some "]"
  | parenL => some "("
  | parenR => some ")"
  | add => some "+"
  | sub => some "-"
  | mul => some "*"
  | div => some "/"
  | mod => some "%"
  | and => some "&"
  | or => some "|"
  | not => some "!"
  | gt => some ">"
  | geq => some ">="
  | lt => some "<"
  | leq => some "<="
  | eq => some "=="
  | neq => some "!="
  | assign => some "="
  | keyTrue => some "true"
  | keyFalse => some "false"
  | keyIf => some "if"
  | keyWhile => some "while"
  | keyBreak => some "break"
  | keyContinue => some "continue"
  | keyPanic => some "panic"
  | keyPrint => some "print"
  | eof => some "<EOF>"

/-- The name of a kind in listings and messages. -/
def label : Kind → String
  | word => "WORD"
  | var => "VAR_ID"
  | str => "STRING"
  | number => "NUMBER"
  | semicolon => "SEMICOLON"
  | colon => "COLON"
  | comma => "COMMA"
  | dot => "DOT"
  | braceL => "BRACE_L"
  | braceR => "BRACE_R"
  | bracketL => "BRACKET_L"
  | bracketR => "BRACKET_R"
  | parenL => "PAREN_L"
  | parenR => "PAREN_R"
  | add => "ADD"
  | sub => "SUB"
  | mul => "MUL"
  | div => "DIV"
  | mod => "MOD"
  | and => "AND"
  | or => "OR"
  | not => "NOT"
  | gt => "GT"
  | geq => "GEQ"
  | lt => "LT"
  | leq => "LEQ"
  | eq => "EQ"
  | neq => "NEQ"
  | assign => "ASSIGN"
  | keyTrue => "KEY_TRUE"
  | keyFalse => "KEY_FALSE"
  | keyIf => "KEY_IF"
  | keyWhile => "KEY_WHILE"
  | keyBreak => "KEY_BREAK"
  | keyContinue => "KEY_CONTINUE"
  | keyPanic => "KEY_PANIC"
  | keyPrint => "KEY_PRINT"
  | eof => "EOF"

/-- The name of a kind in JSON output. -/
def tag : Kind → String
  | word => "word"
  | var => "var"
  | str => "str"
  | number => "number"
  | semicolon => "semicolon"
  | colon => "colon"
  | comma => "comma"
  | dot => "dot"
  | braceL => "l_brace"
  | braceR => "r_brace"
  | bracketL => "l_bracket"
  | bracketR => "r_bracket"
  | parenL => "l_paren"
  | parenR => "r_paren"
  | add => "add"
  | sub => "sub"
  | mul => "mul"
  | div => "div"
  | mod => "mod"
  | and => "and"
  | or => "or"
  | not => "not"
  | gt => "gt"
  | geq => "geq"
  | lt => "lt"
  | leq => "leq"
  | eq => "eq"
  | neq => "neq"
  | assign => "assign"
  | keyTrue => "true"
  | keyFalse => "false"
  | keyIf => "if"
  | keyWhile => "while"
  | keyBreak => "break"
  | keyContinue => "continue"
  | keyPanic => "panic"
  | keyPrint => "print"
  | eof => "eof"

/-- The reserved words, which no other word may spell. -/
def keywords : List Kind :=
  [keyTrue, keyFalse, keyIf, keyWhile, keyBreak, keyContinue, keyPanic, keyPrint]

/-- Whether a kind is a reserved word. -/
def isKeyword (k : Kind) : Bool :=
  keywords.contains k

/-- The reserved word spelled `text`, if there is one. -/
def keyword? (text : String) : Option Kind :=
  keywords.find? fun k => k.fixedText? == some text

theorem mem_all (k : Kind) : k ∈ all := by
  cases k <;> decide

end Kind

/-- A kind with the text it carries. -/
structure Token where
  kind : Kind
  text : String
  deriving DecidableEq, Repr, Inhabited

namespace Token

/-- The token of a kind that has one spelling; any other kind gets an empty text. -/
def fixed (k : Kind) : Token :=
  ⟨k, k.fixedText?.getD ""⟩

/-- The token that ends every script. -/
def endOfInput : Token :=
  fixed .eof

/-- Whether a token is of the kind that ends a script, whatever its text. -/
def isEnd (t : Token) : Bool :=
  t.kind == .eof

/-- The listed form of a token, its kind and its text between brackets. -/
def listing (t : Token) : String :=
  "[" ++ t.kind.label ++ ": " ++ t.text ++ "]"

end Token

/-- A token and the line on which it starts. -/
structure Placed where
  token : Token
  line : Nat
  deriving DecidableEq, Repr, Inhabited

/-- The end that a sequence without one reads as having, on line 1. -/
def Placed.endOfInput : Placed :=
  ⟨.endOfInput, 1⟩

/-- Whether a placed token ends the script. -/
def Placed.isEnd (p : Placed) : Bool :=
  p.token.isEnd

end CommandScript
