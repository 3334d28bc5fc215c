/-!
# Numbers

Numbers are IEEE 754 binary64 values, held by their 64 bits. A finite value is
`significand · 2 ^ shift / 2 ^ 1074` with natural numbers for both (`Double.view`), so all that
is done with it is exact arithmetic on natural numbers. `Double.ofRatio` rounds a quotient to
the nearest value, a tie to the even significand, and what is too large to infinity.
-/

namespace CommandScript

/-- The quotient of two natural numbers, rounded to the nearest one, a tie to the even one. -/
def roundHalfEven (num den : Nat) : Nat :=
  let q := num / den
  let r := num % den
  if 2 * r < den then q
  else if den < 2 * r then q + 1
  else q + q % 2

/-- A binary64 value. -/
structure Double where
  bits : UInt64
  deriving DecidableEq, Repr, Inhabited

namespace Double

/-- What the bits of a number stand for. -/
inductive View
  /-- Not a number, whatever the payload. -/
  | nan
  /-- An infinity. -/
  | infinite (negative : Bool)
  /-- The number `significand · 2 ^ shift / 2 ^ 1074` with its sign. -/
  | finite (negative : Bool) (significand shift : Nat)
  deriving DecidableEq, Repr

/-- The least number of the format that all finite ones are multiples of is `1 / scale`. -/
def scale : Nat := Nat.pow 2 1074

/-- The weight of the sign bit, `2 ^ 63`. -/
def signBit : Nat := 0x8000000000000000

/-- The weight of the first of a significand's 53 bits, `2 ^ 52`. -/
def leadingBit : Nat := 0x10000000000000

/-- The bits of the positive infinity. -/
def infinityBits : Nat := 2047 * leadingBit

/-- Whether the sign bit is set. -/
def isNegative (d : Double) : Bool :=
  decide (signBit ≤ d.bits.toNat)

/-- What a number stands for. -/
def view (d : Double) : View :=
  let exponent := d.bits.toNat / leadingBit % 2048
  let fraction := d.bits.toNat % leadingBit
  if exponent = 2047 then
    if fraction = 0 then .infinite d.isNegative else .nan
  else if exponent = 0 then .finite d.isNegative fraction 0
  else .finite d.isNegative (leadingBit + fraction) (exponent - 1)

/-- Whether a number is neither an infinity nor not a number. -/
def isFinite (d : Double) : Bool :=
  match d.view with
  | .finite .. => true
  | _ => false

/-- The number whose bits without the sign are `magnitude`. -/
def ofMagnitude (negative : Bool) (magnitude : Nat) : Double :=
  ⟨UInt64.ofNat (if negative then signBit + magnitude else magnitude)⟩

/-- An infinity. -/
def infinity (negative : Bool) : Double :=
  ofMagnitude negative infinityBits

/-- A value that is not a number. -/
def nan : Double :=
  ofMagnitude false (infinityBits + leadingBit / 2)

/-- The number nearest to `num / den`. The significand is rounded at the least shift that
leaves it 53 bits, and it carries into the exponent if rounding gives it one bit more. -/
def ofRatio (negative : Bool) (num den : Nat) : Double :=
  let shift := (num * scale / den).log2 - 52
  let significand := roundHalfEven (num * scale) (den * Nat.pow 2 shift)
  ofMagnitude negative (min (shift * leadingBit + significand) infinityBits)

end Double

end CommandScript
