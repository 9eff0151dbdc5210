import Hocon.Text.Display

/-!
# Quoted string literals

A text in double quotes, as a JSON string: the quote, the backslash and the usual controls have
escapes of one letter, every other control character is written by its code point in four
hexadecimal digits, and all other text stands for itself, whatever script it is in.
-/

namespace Hocon

namespace Quoted

/-- Whether a character belongs to one of the two blocks of control characters. -/
def isControl (c : Char) : Bool :=
  c.toNat ≤ 0x1F || (0x7F ≤ c.toNat && c.toNat ≤ 0x9F)

/-- The letter that stands behind the backslash for a character with a short escape. -/
def shortEscape : Char → Option Char
  | '"' => some '"'
  | '\\' => some '\\'
  | '\n' => some 'n'
  | '\x08' => some 'b'
  | '\x0c' => some 'f'
  | '\r' => some 'r'
  | '\t' => some 't'
  | _ => none

/-- One character inside a literal. -/
def encodeChar (c : Char) : List Char :=
  match shortEscape c with
  | some letter => ['\\', letter]
  | none => if isControl c then '\\' :: 'u' :: hexDigits 4 c.toNat else [c]

/-- A text as a literal, quotes included. -/
def encode (cs : List Char) : List Char :=
  '"' :: cs.flatMap encodeChar ++ ['"']

end Quoted

end Hocon
