import Hocon.Unicode.Range

/-!
# Blanks

The white space of Unicode 14.0 as far as trimming is concerned: the separators, the controls
that move the position, and the four information separators of ASCII. `strip` takes blanks off
both ends of a text and leaves those inside.
-/

namespace Hocon

/-- The blank characters, in ascending closed ranges. -/
def blankRanges : List (Nat × Nat) := [
  (0x9, 0xD), (0x1C, 0x20), (0x85, 0x85), (0xA0, 0xA0), (0x1680, 0x1680), (0x2000, 0x200A),
  (0x2028, 0x2029), (0x202F, 0x202F), (0x205F, 0x205F), (0x3000, 0x3000)]

/-- Whether a character is blank. -/
def isBlank (c : Char) : Bool :=
  inRanges blankRanges c.toNat

/-- A text without the blanks at its two ends. -/
def strip (cs : List Char) : List Char :=
  ((cs.dropWhile isBlank).reverse.dropWhile isBlank).reverse

end Hocon
