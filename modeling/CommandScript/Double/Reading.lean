import CommandScript.Double

/-!
# Reading numbers

`Double.ofChars?` reads the decimal notation of a number: a sign, digits with at most one point,
and an exponent, or one of the words `inf`, `infinity` and `nan`. There must be a digit on one
side of the point, and nothing may stand before or after. The value is the number nearest to
the decimal, however many digits it has.
-/

namespace CommandScript

/-- A decimal: a sign, and `coefficient · 10 ^ exponent`. -/
structure Decimal where
  negative : Bool
  coefficient : Nat
  exponent : Int
  deriving DecidableEq, Repr

/-- The value of a decimal digit. -/
def digitValue (c : Char) : Nat :=
  c.toNat - '0'.toNat

/-- The number that a row of decimal digits denotes. -/
def natOfDigits (cs : List Char) : Nat :=
  cs.foldl (fun n c => 10 * n + digitValue c) 0

/-- A sign, if one stands there, and what follows. -/
def readSign : List Char → Bool × List Char
  | '-' :: cs => (true, cs)
  | '+' :: cs => (false, cs)
  | cs => (false, cs)

namespace Decimal

/-- The number that the digits of an exponent denote. Once it has passed 65535, where every
value is zero or infinite, it grows no further. -/
def exponentOfDigits (cs : List Char) : Nat :=
  cs.foldl (fun n c => if n < 65536 then 10 * n + digitValue c else n) 0

/-- The exponent that ends a decimal: nothing, or the letter, a sign and digits. -/
def readExponent? : List Char → Option Int
  | [] => some 0
  | e :: cs =>
    let (negative, digits) := readSign cs
    if (e = 'e' || e = 'E') && !digits.isEmpty && digits.all Char.isDigit then
      let n := exponentOfDigits digits
      some (if negative then -(n : Int) else n)
    else none

/-- The fraction after a point, if there is one, and what follows. -/
def readFraction : List Char → List Char × List Char
  | '.' :: cs => (cs.takeWhile Char.isDigit, cs.dropWhile Char.isDigit)
  | cs => ([], cs)

/-- The decimal that a text without a sign denotes. -/
def ofUnsigned? (negative : Bool) (cs : List Char) : Option Decimal :=
  let whole := cs.takeWhile Char.isDigit
  let (fraction, rest) := readFraction (cs.dropWhile Char.isDigit)
  if whole.isEmpty && fraction.isEmpty then none
  else (readExponent? rest).map fun e =>
    ⟨negative, natOfDigits (whole ++ fraction), e - fraction.length⟩

end Decimal

namespace Double

/-- The number nearest to a decimal. -/
def ofDecimal (d : Decimal) : Double :=
  if d.exponent < 0 then ofRatio d.negative d.coefficient (Nat.pow 10 d.exponent.natAbs)
  else ofRatio d.negative (d.coefficient * Nat.pow 10 d.exponent.natAbs) 1

/-- The value that a word denotes, in either case of its letters. -/
def ofWord? (negative : Bool) (cs : List Char) : Option Double :=
  let word := String.ofList (cs.map Char.toLower)
  if word = "inf" || word = "infinity" then some (infinity negative)
  else if word = "nan" then some nan
  else none

/-- The number that a text denotes. -/
def ofChars? (cs : List Char) : Option Double :=
  let (negative, rest) := readSign cs
  match Decimal.ofUnsigned? negative rest with
  | some d => some (ofDecimal d)
  | none => ofWord? negative rest

/-- The number that a text denotes. -/
def ofText? (text : String) : Option Double :=
  ofChars? text.toList

end Double

end CommandScript
