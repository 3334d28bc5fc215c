import CommandScript.Double.Shortest

/-!
# Writing numbers

A `Layout` says how a finite number is written from its shortest digits: which numbers are
written with a point among their digits, and how the exponent of the others looks. Digits
written with a point always have a digit on either side of it.
-/

namespace CommandScript

/-- How finite numbers are written. -/
structure Layout where
  /-- The least place of the point that is written without an exponent. -/
  leastPoint : Int
  /-- The greatest place of the point that is written without an exponent. -/
  greatestPoint : Int
  /-- Whether an exponent that is not negative has a sign. -/
  plusSign : Bool
  /-- Which of two equally near shortest decimals is written. -/
  tie : Tie

namespace Layout

/-- Digits with a point among them. -/
def positional (d : Digits) : List Char :=
  if d.point ≤ 0 then '0' :: '.' :: List.replicate (-d.point).toNat '0' ++ d.digits
  else
    let n := d.point.toNat
    if d.digits.length ≤ n then
      d.digits ++ List.replicate (n - d.digits.length) '0' ++ ['.', '0']
    else d.digits.take n ++ '.' :: d.digits.drop n

/-- Digits with the point after the first one, and an exponent. -/
def scientific (plusSign : Bool) (d : Digits) : List Char :=
  let exponent := d.point - 1
  let sign := if exponent < 0 then ['-'] else if plusSign then ['+'] else []
  let mantissa := match d.digits with
    | c :: c' :: cs => c :: '.' :: c' :: cs
    | cs => cs
  mantissa ++ 'e' :: sign ++ Nat.toDigits 10 exponent.natAbs

/-- Digits in the form that their size asks for. -/
def write (l : Layout) (d : Digits) : List Char :=
  if l.leastPoint ≤ d.point ∧ d.point ≤ l.greatestPoint then positional d
  else scientific l.plusSign d

/-- The text of the finite number `significand · 2 ^ shift / 2 ^ 1074` with its sign. -/
def writeFinite (l : Layout) (negative : Bool) (significand shift : Nat) : List Char :=
  let magnitude :=
    if significand = 0 then ['0', '.', '0']
    else l.write (Double.shortest l.tie significand shift)
  if negative then '-' :: magnitude else magnitude

end Layout

end CommandScript
