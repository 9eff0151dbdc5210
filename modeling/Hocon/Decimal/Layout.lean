import Hocon.Decimal.Shortest

/-!
# Writing a decimal number

`DecimalLayout` records the decisions of a number format: which numbers are written with all their
places, how the exponent of the others looks, and the texts of the values that are no numbers.
`DecimalLayout.write` applies them to a double by way of its shortest decimal.
-/

namespace Hocon

/-- How a number format lays out a floating-point number. -/
structure DecimalLayout where
  /-- The least count of digits before the point that is written with all its places; a negative
  count stands for zeros behind the point. -/
  leastPlaces : Int
  /-- The greatest such count. -/
  greatestPlaces : Int
  /-- What ends a whole number that is written with all its places. -/
  wholeEnding : String
  /-- The mark between the digits and the exponent. -/
  exponentMark : Char
  /-- The sign of an exponent that is not negative. -/
  exponentPlus : String
  /-- The least number of digits of an exponent. -/
  exponentDigits : Nat
  /-- The text of positive infinity. -/
  infinity : String
  /-- The text of a value that is no number. -/
  nan : String
  deriving Repr

namespace DecimalLayout

/-- The digits of a natural number in base ten. -/
def digits (n : Nat) : List Char :=
  Nat.toDigits 10 n

/-- An exponent with its sign, filled up with zeros to the least number of digits. -/
def writeExponent (layout : DecimalLayout) (exponent : Int) : List Char :=
  let digits := digits exponent.natAbs
  (if exponent < 0 then ['-'] else layout.exponentPlus.toList) ++
    List.replicate (layout.exponentDigits - digits.length) '0' ++ digits

/-- A decimal number without sign. `places` counts the digits before the point. -/
def writeDecimal (layout : DecimalLayout) (d : Decimal) : List Char :=
  let ds := digits d.digits
  let places : Int := ds.length + d.exponent
  let places := if d.digits = 0 then 1 else places
  if layout.leastPlaces ≤ places ∧ places ≤ layout.greatestPlaces then
    if places ≤ 0 then
      ['0', '.'] ++ List.replicate (-places).toNat '0' ++ ds
    else if ds.length ≤ places.toNat then
      ds ++ List.replicate (places.toNat - ds.length) '0' ++ layout.wholeEnding.toList
    else
      ds.take places.toNat ++ ['.'] ++ ds.drop places.toNat
  else
    let mantissa := match ds with
      | [] => []
      | [c] => [c]
      | c :: rest => c :: '.' :: rest
    mantissa ++ [layout.exponentMark] ++ layout.writeExponent (places - 1)

/-- The text of a double. -/
def write (layout : DecimalLayout) (bits : UInt64) : List Char :=
  if Binary64.isNaN bits then layout.nan.toList
  else
    (if Binary64.isNegative bits then ['-'] else []) ++
      if Binary64.isFinite bits then layout.writeDecimal (Decimal.shortest bits)
      else layout.infinity.toList

end DecimalLayout

/-- The layout of the floating-point numbers of a document: all places are written from `0.0001`
up to sixteen digits before the point, a whole number ends in a point and a zero, and an exponent
has a sign and two digits at least. -/
def Decimal.documentLayout : DecimalLayout where
  leastPlaces := -3
  greatestPlaces := 16
  wholeEnding := ".0"
  exponentMark := 'e'
  exponentPlus := "+"
  exponentDigits := 2
  infinity := "inf"
  nan := "nan"

end Hocon
