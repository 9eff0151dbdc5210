import Hocon.Text.Display
import Hocon.Unicode.Digit

/-!
# Numerals

A numeral is a text of decimal digits of any script. A text of digits of any kind is not always a
numeral, because typographic digits, such as superscripts, form no number; reading such a text
fails with the text itself. Reading also fails at the digits of a very large number, of which only
the number is told.

The same limit holds in the other direction: an integer has a text in base ten only if it has no
more than `maxDigits` digits (`decimal?`).
-/

namespace Hocon

/-- Why a text is not read as a number. -/
inductive NumeralError where
  /-- The text is no numeral. -/
  | notDecimal (text : List Char)
  /-- The text starts with more decimal digits than are read. -/
  | tooLong (digits : Nat)
  deriving DecidableEq, Repr

/-- The number of digits up to which a numeral is read, and up to which one is written. -/
def maxDigits : Nat := 4300

/-- Whether an integer is small enough to have a text in base ten. -/
def hasDecimal (n : Int) : Bool :=
  decide ((Nat.toDigits 10 n.natAbs).length ≤ maxDigits)

/-- The text of an integer in base ten, if it is small enough to have one. -/
def decimal? (n : Int) : Option String :=
  if hasDecimal n then some (toString n) else none

/-- The wording of a numeral error. Of a long text, only the beginning is shown. -/
def NumeralError.message : NumeralError → String
  | notDecimal text =>
    "invalid literal for int() with base 10: " ++
      String.ofList ((displayText (String.ofList text)).toList.take 200)
  | tooLong digits =>
    "Exceeds the limit (" ++ toString maxDigits ++
      " digits) for integer string conversion: value has " ++ toString digits ++
      " digits; use sys.set_int_max_str_digits() to increase the limit"

/-- The number of decimal digits that a text starts with. -/
def leadingDigits (cs : List Char) : Nat :=
  (cs.takeWhile isDecimalDigit).length

/-- The number that a text writes in base ten. The digits are counted up to the first character that
is none, and before the number is formed. -/
def readNumeral (cs : List Char) : Except NumeralError Nat :=
  if maxDigits < leadingDigits cs then .error (.tooLong (leadingDigits cs))
  else
    match numeral? cs with
    | some n => .ok n
    | none => .error (.notDecimal cs)

end Hocon
