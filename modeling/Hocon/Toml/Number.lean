import Hocon.Decimal.Binary64
import Hocon.Toml.Edition
import Hocon.Value

/-!
# TOML numbers

The numbers of the format. An integer is decimal, with a sign if wanted and without leading zeros,
or unsigned in base sixteen, eight or two. A floating-point number has a fraction or an exponent or
both, or is one of `inf` and `nan` with a sign if wanted. Underscores may stand between digits.

A decimal integer has a limit of digits. Beyond it, the second edition reads the digits as those of
a floating-point number, and the first one refuses them.
-/

namespace Hocon

namespace Toml

/-- The value of a digit in bases up to sixteen. -/
def digitValue? (c : Char) : Option Nat :=
  if '0' ≤ c ∧ c ≤ '9' then some (c.toNat - '0'.toNat)
  else if 'a' ≤ c ∧ c ≤ 'f' then some (c.toNat - 'a'.toNat + 10)
  else if 'A' ≤ c ∧ c ≤ 'F' then some (c.toNat - 'A'.toNat + 10)
  else none

/-- The number that follows a prefix of the value `n`: digits of a base, with single underscores
between them. `after` says whether the character in front is a digit. -/
def digitsAfter (base n : Nat) (after : Bool) : List Char → Option Nat
  | [] => if after then some n else none
  | '_' :: rest => if after then digitsAfter base n false rest else none
  | c :: rest => do
    let d ← digitValue? c
    if d < base then digitsAfter base (n * base + d) true rest else none

/-- The number that a run of digits writes in a base. -/
def digits? (base : Nat) (cs : List Char) : Option Nat :=
  digitsAfter base 0 false cs

/-- How many digits a run of digits has. -/
def digitCount (cs : List Char) : Nat :=
  cs.countP (· != '_')

/-- A sign and what follows it. -/
def splitSign : List Char → Bool × List Char
  | '-' :: rest => (true, rest)
  | '+' :: rest => (false, rest)
  | cs => (false, cs)

/-- A decimal integer without sign; only zero itself starts with a zero. -/
def unsigned? (cs : List Char) : Option Nat :=
  match cs with
  | '0' :: _ :: _ => none
  | _ => digits? 10 cs

/-- An integer. A decimal one may not have too many digits. -/
def integer? (cs : List Char) : Option Int :=
  match cs with
  | '0' :: 'x' :: rest => (digits? 16 rest).map Int.ofNat
  | '0' :: 'o' :: rest => (digits? 8 rest).map Int.ofNat
  | '0' :: 'b' :: rest => (digits? 2 rest).map Int.ofNat
  | _ =>
    let (negative, rest) := splitSign cs
    if maxDigits < digitCount rest then none
    else (unsigned? rest).map fun n => if negative then -(n : Int) else n

/-- The exponent of a floating-point number, from what follows its mark; none if there is no mark.
Exponents beyond the range of the doubles are cut, which changes no double: `reach` bounds the
number of digits that the exponent scales. -/
def exponent? (reach : Nat) : List Char → Option Int
  | [] => some 0
  | _ :: cs =>
    let (negative, rest) := splitSign cs
    (digits? 10 rest).map fun n =>
      let n : Int := min n (400 + reach)
      if negative then -n else n

/-- The digits behind the point, if there is a point. -/
def fraction? : List Char → Option (List Char)
  | [] => some []
  | _ :: cs => if (digits? 10 cs).isSome then some cs else none

/-- The bits of a floating-point number without sign that is given by digits. -/
def decimal? (cs : List Char) : Option UInt64 := do
  let isMark (c : Char) := c == 'e' || c == 'E'
  let mantissa := cs.takeWhile fun c => !isMark c
  let whole := mantissa.takeWhile (· != '.')
  let fraction ← fraction? (mantissa.dropWhile (· != '.'))
  let exponent ← exponent? cs.length (cs.dropWhile fun c => !isMark c)
  let n ← unsigned? whole
  let digits := if fraction.isEmpty then some n else digitsAfter 10 n true fraction
  return Decimal.toBinary64 ⟨← digits, exponent - digitCount fraction⟩

/-- The bits of a floating-point number. -/
def float? (cs : List Char) : Option UInt64 := do
  let (negative, rest) := splitSign cs
  let bits ←
    if rest = ['i', 'n', 'f'] then some Binary64.infinity
    else if rest = ['n', 'a', 'n'] then some Binary64.nan
    else decimal? rest
  return if negative then Binary64.negate bits else bits

/-- Whether a word consists of digits alone, with a sign if wanted. -/
def isWhole (cs : List Char) : Bool :=
  cs.all fun c => c.isDigit || c == '_' || c == '+' || c == '-'

/-- The number that a word writes. -/
def number? (edition : Edition) (cs : List Char) : Option Value :=
  match integer? cs with
  | some n => some (.int n)
  | none => if edition = .first && isWhole cs then none else (float? cs).map .float

end Toml

end Hocon
