import CommandScript.Double.Reading
import CommandScript.Json
import CommandScript.Toml

/-!
# Numbers, dates and truth values in TOML

A value that starts with none of the quotes and brackets is a run of characters that `ofRun?`
recognizes as a whole: a truth value, an integer of 64 bits, a float that is not too large, or a
date, a time or both. The rules are those of TOML 1.0.
-/

namespace CommandScript

namespace Toml

/-! ## Digits -/

/-- Whether a row holds digits with single underscores between some of them. -/
def isDigitRow (isDigit : Char → Bool) : List Char → Bool
  | [] => false
  | [c] => isDigit c
  | c :: '_' :: cs => isDigit c && isDigitRow isDigit cs
  | c :: cs => isDigit c && isDigitRow isDigit cs

/-- Whether a row is the digits of a decimal integer: a zero alone, or no zero first. -/
def isWhole : List Char → Bool
  | ['0'] => true
  | '0' :: _ => false
  | cs => isDigitRow Char.isDigit cs

/-- The part of a run that may be the digits before a point. -/
def wholePart (cs : List Char) : List Char :=
  cs.takeWhile fun c => c.isDigit || c = '_'

/-- A row without its underscores. -/
def withoutUnderscores (cs : List Char) : List Char :=
  cs.filter (· != '_')

/-! ## Integers -/

/-- The greatest integer. -/
def greatestInteger : Nat := 0x7fffffffffffffff

/-- The number that digits denote in a base, underscores between them. -/
def natInBase (base : Nat) (cs : List Char) : Nat :=
  (withoutUnderscores cs).foldl (fun n c => base * n + (Json.hexValue? c).getD 0) 0

/-- Whether a row is the digits of an integer in a base of its own. -/
def isBased (base : Nat) (isDigit : Char → Bool) (cs : List Char) : Bool :=
  isDigitRow isDigit cs && decide (natInBase base cs ≤ greatestInteger)

/-- Whether a character is an octal digit. -/
def isOctalDigit (c : Char) : Bool :=
  decide ('0' ≤ c) && decide (c ≤ '7')

/-- Whether a character is a binary digit. -/
def isBinaryDigit (c : Char) : Bool :=
  c = '0' || c = '1'

/-- Whether a run is an integer. -/
def isInteger : List Char → Bool
  | '0' :: 'x' :: cs => isBased 16 (fun c => (Json.hexValue? c).isSome) cs
  | '0' :: 'o' :: cs => isBased 8 isOctalDigit cs
  | '0' :: 'b' :: cs => isBased 2 isBinaryDigit cs
  | cs =>
    let (negative, digits) := readSign cs
    isWhole digits &&
      decide (natInBase 10 digits ≤ if negative then greatestInteger + 1 else greatestInteger)

/-! ## Floats -/

/-- Whether a run is nothing or the exponent of a float. -/
def isExponent : List Char → Bool
  | [] => true
  | e :: cs => (e = 'e' || e = 'E') && isDigitRow Char.isDigit (readSign cs).2

/-- Whether what follows the digits before a point makes them a float. -/
def isFloatTail : List Char → Bool
  | [] => false
  | '.' :: cs =>
    let digits := wholePart cs
    isDigitRow Char.isDigit digits && isExponent (cs.drop digits.length)
  | cs => isExponent cs

/-- Whether a run is a float. -/
def isFloat (cs : List Char) : Bool :=
  let digits := (readSign cs).2
  let whole := wholePart digits
  digits = ['i', 'n', 'f'] || digits = ['n', 'a', 'n'] ||
    (isWhole whole && isFloatTail (digits.drop whole.length) &&
      Double.ofChars? (withoutUnderscores cs) != some (.infinity false))

/-! ## Dates and times -/

/-- The number that two digits denote. -/
def twoDigits? (a b : Char) : Option Nat :=
  if a.isDigit && b.isDigit then some (natOfDigits [a, b]) else none

/-- Whether two digits denote a number within bounds. -/
def isBetween (low high : Nat) (a b : Char) : Bool :=
  match twoDigits? a b with
  | some n => decide (low ≤ n) && decide (n ≤ high)
  | none => false

/-- Whether a year has a day more. -/
def isLeapYear (year : Nat) : Bool :=
  year % 4 == 0 && (year % 100 != 0 || year % 400 == 0)

/-- The number of days of a month. -/
def daysOf (year month : Nat) : Nat :=
  if month = 2 then (if isLeapYear year then 29 else 28)
  else if month = 4 ∨ month = 6 ∨ month = 9 ∨ month = 11 then 30
  else 31

/-- What follows a date, if a run starts with one. -/
def afterDate? : List Char → Option (List Char)
  | y₁ :: y₂ :: y₃ :: y₄ :: '-' :: m₁ :: m₂ :: '-' :: d₁ :: d₂ :: cs =>
    let year := [y₁, y₂, y₃, y₄]
    match twoDigits? m₁ m₂ with
    | some month =>
      if year.all Char.isDigit && isBetween 1 12 m₁ m₂ &&
          isBetween 1 (daysOf (natOfDigits year) month) d₁ d₂ then some cs
      else none
    | none => none
  | _ => none

/-- What follows the fraction of a second, if one stands there. -/
def afterFraction? : List Char → Option (List Char)
  | '.' :: cs =>
    match cs.takeWhile Char.isDigit with
    | [] => none
    | _ => some (cs.dropWhile Char.isDigit)
  | cs => some cs

/-- What follows a time, if a run starts with one. -/
def afterTime? : List Char → Option (List Char)
  | h₁ :: h₂ :: ':' :: m₁ :: m₂ :: ':' :: s₁ :: s₂ :: cs =>
    if isBetween 0 23 h₁ h₂ && isBetween 0 59 m₁ m₂ && isBetween 0 60 s₁ s₂ then
      afterFraction? cs
    else none
  | _ => none

/-- Whether a run is nothing or the offset of a time. -/
def isOffset : List Char → Bool
  | [] => true
  | [z] => z = 'Z' || z = 'z'
  | [sign, h₁, h₂, ':', m₁, m₂] =>
    (sign = '+' || sign = '-') && isBetween 0 23 h₁ h₂ && isBetween 0 59 m₁ m₂
  | _ => false

/-- Whether a run is a date, a time, or both with or without an offset. -/
def isDate (cs : List Char) : Bool :=
  match afterDate? cs with
  | some [] => true
  | some (t :: rest) =>
    (t = 'T' || t = 't' || t = ' ') &&
      match afterTime? rest with
      | some offset => isOffset offset
      | none => false
  | none => afterTime? cs == some []

/-! ## Runs -/

/-- Whether a character can stand in a run. -/
def isRunChar (c : Char) : Bool :=
  c.isAlphanum || c = '_' || c = '+' || c = '-' || c = '.' || c = ':'

/-- Whether a text goes on with a space and a time, which a date before it takes in. -/
def startsTime : List Char → Bool
  | ' ' :: h₁ :: h₂ :: ':' :: _ => h₁.isDigit && h₂.isDigit
  | _ => false

/-- The run that a text starts with, and what follows. -/
def readRun (cs : List Char) : List Char × List Char :=
  let run := cs.takeWhile isRunChar
  let rest := cs.dropWhile isRunChar
  if afterDate? run == some [] && startsTime rest then
    let time := rest.drop 1
    (run ++ ' ' :: time.takeWhile isRunChar, time.dropWhile isRunChar)
  else (run, rest)

/-- The value that a run denotes. -/
def ofRun? (cs : List Char) : Option Toml :=
  if cs = ['t', 'r', 'u', 'e'] then some (.bool true)
  else if cs = ['f', 'a', 'l', 's', 'e'] then some (.bool false)
  else if isDate cs then some (.date cs)
  else if isFloat cs || isInteger cs then some (.number cs)
  else none

end Toml

end CommandScript
