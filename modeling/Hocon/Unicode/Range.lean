/-!
# Tables of code points

The tables of character classes are lists of closed ranges of code points, written in ascending
order. This module holds the membership test, which stops at the first range that starts behind
the code point it looks for.
-/

namespace Hocon

/-- Whether `n` lies in one of the closed ranges of an ascending table. -/
def inRanges : List (Nat × Nat) → Nat → Bool
  | [], _ => false
  | (first, last) :: rest, n =>
    if n < first then false else n ≤ last || inRanges rest n

end Hocon
