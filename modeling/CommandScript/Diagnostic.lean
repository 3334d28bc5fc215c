import CommandScript.Unicode.Printable

/-!
# Diagnostics

A diagnostic reports an anomaly of a script's text that never stops its reading: a character
that starts no token, or a string whose closing quote is missing. `Diagnostic.message` words
them; an unknown character is shown between quotes by `quoteChar`, which escapes what a reader
could not see.
-/

namespace CommandScript

/-- The lower-case hexadecimal digits of a number, without leading zeros. -/
def hexDigits (n : Nat) : String :=
  String.ofList (Nat.toDigits 16 n)

/-- A character as it stands between quotes: the usual short escapes, a code point for what is
invisible or joins its neighbour, and any other character as it is. -/
def escapeChar (c : Char) : String :=
  if c = '\x00' then "\\0"
  else if c = '\t' then "\\t"
  else if c = '\r' then "\\r"
  else if c = '\n' then "\\n"
  else if c = '\\' then "\\\\"
  else if c = '\'' then "\\'"
  else if Unicode.showsAlone c then c.toString
  else "\\u\x7b" ++ hexDigits c.toNat ++ "\x7d"

/-- A character between single quotes. -/
def quoteChar (c : Char) : String :=
  "'" ++ escapeChar c ++ "'"

/-- An anomaly of a script's text, with the line it stands on. -/
inductive Diagnostic
  /-- A character that starts no token and is skipped. -/
  | unknownChar (char : Char) (line : Nat)
  /-- A quote without a partner, whose string runs to the end of the text. -/
  | unterminatedString (quote : Char) (line : Nat)
  deriving DecidableEq, Repr

namespace Diagnostic

/-- The line a diagnostic is about. -/
def line : Diagnostic → Nat
  | unknownChar _ line => line
  | unterminatedString _ line => line

/-- The wording of a diagnostic. -/
def message : Diagnostic → String
  | unknownChar c line => "line " ++ toString line ++ ": unknown character " ++ quoteChar c
  | unterminatedString q line =>
    "line " ++ toString line ++ ": unterminated string starting with " ++ q.toString

end Diagnostic

end CommandScript
