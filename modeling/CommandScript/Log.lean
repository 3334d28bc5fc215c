import CommandScript.Lexer

/-!
# Log records

What happens on the way to an answer is reported as a list of `LogRecord`s, in order. A reader
chooses the least urgent `Level` to be shown (`LogRecord.isShown`).
-/

namespace CommandScript

/-- How urgent a record is, from the most to the least. -/
inductive Level
  | error | warn | info | debug | trace
  deriving DecidableEq, Repr

namespace Level

/-- The name of a level in a log. -/
def label : Level → String
  | error => "ERROR"
  | warn => "WARN"
  | info => "INFO"
  | debug => "DEBUG"
  | trace => "TRACE"

/-- The place of a level, from the most urgent. -/
def rank : Level → Nat
  | error => 0
  | warn => 1
  | info => 2
  | debug => 3
  | trace => 4

end Level

/-- One report. -/
structure LogRecord where
  level : Level
  text : String
  deriving DecidableEq, Repr

namespace LogRecord

/-- Whether a record is at least as urgent as `threshold`. -/
def isShown (threshold : Level) (r : LogRecord) : Bool :=
  decide (r.level.rank ≤ threshold.rank)

/-- A record as a line of a log, without its line end. -/
def line (r : LogRecord) : String :=
  "[" ++ r.level.label ++ "] " ++ r.text

end LogRecord

/-- The warnings that reading a text gives, one per diagnostic. -/
def Lexed.log (l : Lexed) : List LogRecord :=
  l.diagnostics.map fun d => ⟨.warn, d.message⟩

end CommandScript
