import CommandScript.Double

/-!
# The shortest decimal of a number

A decimal stands for a number if the number is the one nearest to it. Such decimals fill an
interval around the number (`Double.interval`). For 1, 2, … 17 digits `shortest` looks at the
two neighbours of the number on the grid of decimals with so many digits. The first grid with a
neighbour in the interval gives the fewest digits, and of two such neighbours the nearer one is
taken; a tie is for the caller to decide.
-/

namespace CommandScript

/-- Which of two equally near decimals to take. -/
inductive Tie
  /-- The larger one. -/
  | up
  /-- The one whose last digit is even. -/
  | toEven
  deriving DecidableEq, Repr

/-- Digits without trailing zeros, and the place of the point: with the digits `ds` the number is
`0.ds · 10 ^ point`. -/
structure Digits where
  digits : List Char
  point : Int
  deriving DecidableEq, Repr

namespace Digits

/-- The digits of `coefficient · 10 ^ exponent`. -/
def ofDecimal (coefficient : Nat) (exponent : Int) : Digits :=
  let ds := Nat.toDigits 10 coefficient
  ⟨(ds.reverse.dropWhile (· = '0')).reverse, exponent + ds.length⟩

end Digits

namespace Double

/-- Bounds of the decimals that stand for a number, in units of `1 / (4 · scale)`. -/
structure Interval where
  low : Nat
  value : Nat
  high : Nat
  /-- Whether the bounds themselves are in. -/
  closed : Bool

/-- The interval of a finite number. Below a power of two the next number is half as far away as
above it. -/
def interval (significand shift : Nat) : Interval :=
  let unit := Nat.pow 2 shift
  let below := if significand = leadingBit ∧ 0 < shift then unit else 2 * unit
  ⟨4 * significand * unit - below, 4 * significand * unit, 4 * significand * unit + 2 * unit,
    significand % 2 = 0⟩

/-- The least `k` with `num / den < 10 ^ k`, for a quotient of at least `10 ^ (-324)`. -/
def decimalPoint (num den : Nat) : Int :=
  (Nat.toDigits 10 (num * Nat.pow 10 324 / den)).length - 324

/-- The decimal `x · 10 ^ exponent` nearest to a number among those of its grid that stand for
it, if one of the number's two neighbours on the grid does. -/
def onGrid? (tie : Tie) (i : Interval) (exponent : Int) : Option Nat :=
  let up := Nat.pow 10 (-exponent).toNat
  let unit := 4 * scale * Nat.pow 10 exponent.toNat
  let inside (x : Nat) : Bool :=
    if i.closed then decide (i.low * up ≤ x * unit) && decide (x * unit ≤ i.high * up)
    else decide (i.low * up < x * unit) && decide (x * unit < i.high * up)
  let x := i.value * up / unit
  let excess := 2 * (i.value * up % unit)
  match inside x, inside (x + 1) with
  | false, false => none
  | true, false => some x
  | false, true => some (x + 1)
  | true, true =>
    if excess < unit then some x
    else if unit < excess then some (x + 1)
    else match tie with
      | .up => some (x + 1)
      | .toEven => some (x + x % 2)

/-- The fewest digits that stand for the positive number `significand · 2 ^ shift / 2 ^ 1074`. -/
def shortest (tie : Tie) (significand shift : Nat) : Digits :=
  let i := interval significand shift
  let point := decimalPoint i.value (4 * scale)
  let found := (List.range' 1 17).findSome? fun (n : Nat) =>
    (onGrid? tie i (point - n)).map (Digits.ofDecimal · (point - n))
  found.getD (.ofDecimal 0 0)

end Double

end CommandScript
