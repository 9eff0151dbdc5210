import Hocon.Decimal.Binary64

/-!
# The shortest decimal that reads back

Of the decimal numbers whose nearest double is a given one, `Decimal.shortest` takes one with the
fewest digits, and of those the one nearest to the double's exact value.

The search walks through the grids of one, two, …, seventeen digits. On each grid only the two
neighbours of the exact value can be the nearest point that reads back, so only these are tried,
and the test is reading: a candidate is good when `Decimal.toBinary64` returns the bits it is meant
to write. Whatever is returned by the search therefore reads back
(`Decimal.toBinary64_of_candidate?`). Seventeen digits are enough for every double; the exact
decimal expansion, which would be written if they were not, keeps the function total.
-/

namespace Hocon

/-- The number of digits of a natural number in base ten; zero has one. -/
def decimalLength (n : Nat) : Nat :=
  (Nat.toDigits 10 n).length

namespace Dyadic

/-- The numerator of the number as a fraction. -/
def numerator (x : Dyadic) : Nat :=
  x.significand * Nat.pow 2 x.exponent.toNat

/-- The denominator of the number as a fraction. -/
def denominator (x : Dyadic) : Nat :=
  Nat.pow 2 (-x.exponent).toNat

/-- How many digits of the number stand before the decimal point, negative when zeros follow the
point. The number is scaled up by a power of ten that makes every positive double at least one,
which changes the count by that power and nothing else. -/
def leadingPosition (x : Dyadic) : Int :=
  (decimalLength (x.numerator * Nat.pow 10 400 / x.denominator) : Int) - 400

/-- The number as a decimal, exactly. -/
def toDecimal (x : Dyadic) : Decimal :=
  if 0 ≤ x.exponent then ⟨x.significand * Nat.pow 2 x.exponent.toNat, 0⟩
  else ⟨x.significand * Nat.pow 5 (-x.exponent).toNat, x.exponent⟩

end Dyadic

namespace Decimal

/-- The points next to `x` on the grid of multiples of `10 ^ exponent`, the nearer one first; of
two that are equally near the even one comes first. -/
def neighbours (x : Dyadic) (exponent : Int) : List Decimal :=
  let numerator := x.numerator * Nat.pow 10 (-exponent).toNat
  let denominator := x.denominator * Nat.pow 10 exponent.toNat
  let below := numerator / denominator
  if roundToEven numerator denominator = below then [⟨below, exponent⟩, ⟨below + 1, exponent⟩]
  else [⟨below + 1, exponent⟩, ⟨below, exponent⟩]

/-- The first decimal of at most `length` digits, fewer tried first, that is next to the value of a
double and reads back as its bits. -/
def candidate? (bits : UInt64) (x : Dyadic) (length : Nat) : Option Decimal :=
  (List.range length).findSome? fun (n : Nat) =>
    (neighbours x (x.leadingPosition - (n + 1))).find? fun d => d.toBinary64 == bits

/-- The candidate reads back. -/
theorem toBinary64_of_candidate? {bits : UInt64} {x : Dyadic} {length : Nat} {d : Decimal}
    (h : candidate? bits x length = some d) : d.toBinary64 = bits := by
  obtain ⟨n, _, hn⟩ := List.exists_of_findSome?_eq_some h
  simpa using List.find?_some hn

/-- The number without the zeros that end its digits. The fuel bounds their count. -/
def dropZeros : Nat → Decimal → Decimal
  | 0, d => d
  | fuel + 1, d =>
    if d.digits ≠ 0 ∧ d.digits % 10 = 0 then dropZeros fuel ⟨d.digits / 10, d.exponent + 1⟩ else d

/-- The shortest decimal that reads back as the absolute value of a finite double. -/
def shortest (bits : UInt64) : Decimal :=
  let bits := bits &&& 0x7FFFFFFFFFFFFFFF
  let x := Binary64.magnitude bits
  if x.significand = 0 then ⟨0, 0⟩
  else
    let d := (candidate? bits x 17).getD x.toDecimal
    d.dropZeros (decimalLength d.digits)

end Decimal

end Hocon
