/-!
# Binary floating-point numbers, exactly

A double is read as a sign and the exact number `significand * 2 ^ exponent`, and a decimal number
`digits * 10 ^ exponent` is rounded to the nearest double, a tie going to the even significand.
All of it is arithmetic on natural numbers.

* `Binary64.magnitude?` – the exact absolute value of a finite double;
* `Decimal.toBinary64` – the bits of the nearest double, infinity if the number is too large.
-/

namespace Hocon

/-- The number `digits * 10 ^ exponent`. -/
structure Decimal where
  /-- The digits, read as one natural number. -/
  digits : Nat
  /-- The power of ten that scales them. -/
  exponent : Int
  deriving DecidableEq, Repr

/-- The number `significand * 2 ^ exponent`. -/
structure Dyadic where
  /-- The significand. -/
  significand : Nat
  /-- The power of two that scales it. -/
  exponent : Int
  deriving DecidableEq, Repr

/-! ### Doubles -/

namespace Binary64

/-- Whether the sign bit is set. -/
def isNegative (bits : UInt64) : Bool :=
  bits.toNat / Nat.pow 2 63 = 1

/-- The eleven bits of the biased exponent. -/
def biasedExponent (bits : UInt64) : Nat :=
  bits.toNat / Nat.pow 2 52 % Nat.pow 2 11

/-- The 52 bits behind the binary point. -/
def fraction (bits : UInt64) : Nat :=
  bits.toNat % Nat.pow 2 52

/-- Whether the bits stand for a number. -/
def isFinite (bits : UInt64) : Bool :=
  biasedExponent bits < 2047

/-- Whether the bits stand for no number at all. -/
def isNaN (bits : UInt64) : Bool :=
  biasedExponent bits = 2047 && fraction bits ≠ 0

/-- Whether the bits stand for zero, of either sign. -/
def isZero (bits : UInt64) : Bool :=
  bits.toNat % Nat.pow 2 63 = 0

/-- The exact absolute value of a finite double. -/
def magnitude (bits : UInt64) : Dyadic :=
  if biasedExponent bits = 0 then ⟨fraction bits, -1074⟩
  else ⟨fraction bits + Nat.pow 2 52, (biasedExponent bits : Int) - 1075⟩

/-- The bits of positive infinity. -/
def infinity : UInt64 := 0x7FF0000000000000

/-- The bits of a value that is no number. -/
def nan : UInt64 := 0x7FF8000000000000

/-- The same number with the sign bit set. -/
def negate (bits : UInt64) : UInt64 :=
  bits ||| 0x8000000000000000

end Binary64

/-! ### Rounding -/

/-- The quotient `numerator / denominator` rounded to the nearest natural number, a tie going to
the even one. -/
def roundToEven (numerator denominator : Nat) : Nat :=
  let quotient := numerator / denominator
  let twice := 2 * (numerator % denominator)
  if twice < denominator then quotient
  else if denominator < twice then quotient + 1
  else quotient + quotient % 2

/-- The bits of the double nearest to `numerator / denominator`, for a positive denominator. The
quotient is rounded on the grid of the largest exponent that leaves 53 bits, or of the least
exponent there is; a carry into the next binade needs no care, because the bits of consecutive
doubles are consecutive. -/
def nearestBinary64 (numerator denominator : Nat) : UInt64 :=
  if numerator = 0 then 0 else
  let length : Int := (numerator.log2 : Int) - denominator.log2
  -- the quotient has `length` or `length + 1` bits before the point
  let exponent := max (length - 53) (-1074)
  let scaled (e : Int) :=
    roundToEven (numerator * Nat.pow 2 (-e).toNat) (denominator * Nat.pow 2 e.toNat)
  let exponent := if scaled exponent ≤ Nat.pow 2 53 then exponent else exponent + 1
  let bits := (exponent + 1074).toNat * Nat.pow 2 52 + scaled exponent
  if bits < Binary64.infinity.toNat then UInt64.ofNat bits else Binary64.infinity

/-- The bits of the double nearest to a decimal number. -/
def Decimal.toBinary64 (d : Decimal) : UInt64 :=
  nearestBinary64 (d.digits * Nat.pow 10 d.exponent.toNat) (Nat.pow 10 (-d.exponent).toNat)

end Hocon
