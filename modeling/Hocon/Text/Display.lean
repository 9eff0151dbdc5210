import Hocon.Unicode.Printable

/-!
# Display texts

How a text or a string of bytes is shown inside a message: between quotes, with escapes for
whatever would not be seen. The quotes are single ones, unless the text holds a single quote and no
double one. A backslash and the chosen quote are escaped by a backslash, tabs and line breaks have
escapes of one letter, and any other character that is not printable is shown by its code point in
two, four or eight hexadecimal digits.
-/

namespace Hocon

/-- The hexadecimal digits of a number, in lower case, filled up with zeros to a width. -/
def hexDigits (width n : Nat) : List Char :=
  let digits := Nat.toDigits 16 n
  List.replicate (width - digits.length) '0' ++ digits

/-- The quote that encloses a text in which the given quotes occur. -/
def displayQuote (single double : Bool) : Char :=
  if single && !double then '"' else '\''

/-- The escapes that consist of a backslash and one letter, and those of the quote and of the
backslash itself. -/
def shortDisplayEscape (quote c : Char) : Option (List Char) :=
  if c = quote ∨ c = '\\' then some ['\\', c]
  else if c = '\t' then some ['\\', 't']
  else if c = '\n' then some ['\\', 'n']
  else if c = '\r' then some ['\\', 'r']
  else none

/-- One character of a displayed text. -/
def displayChar (quote c : Char) : List Char :=
  match shortDisplayEscape quote c with
  | some escape => escape
  | none =>
    if isPrintable c then [c]
    else if c.toNat < 0x100 then '\\' :: 'x' :: hexDigits 2 c.toNat
    else if c.toNat < 0x10000 then '\\' :: 'u' :: hexDigits 4 c.toNat
    else '\\' :: 'U' :: hexDigits 8 c.toNat

/-- A text as it is shown inside a message. -/
def displayText (s : String) : String :=
  let cs := s.toList
  let quote := displayQuote (cs.contains '\'') (cs.contains '"')
  String.ofList (quote :: cs.flatMap (displayChar quote) ++ [quote])

/-- One byte of a displayed string of bytes; only ASCII is shown as itself. -/
def displayByte (quote : Char) (b : UInt8) : List Char :=
  let c := Char.ofNat b.toNat
  match shortDisplayEscape quote c with
  | some escape => escape
  | none =>
    if 0x20 ≤ b.toNat ∧ b.toNat < 0x7F then [c] else '\\' :: 'x' :: hexDigits 2 b.toNat

/-- A string of bytes as it is shown inside a message. -/
def displayBytes (octets : List UInt8) : String :=
  let quote := displayQuote (octets.contains 0x27) (octets.contains 0x22)
  String.ofList ('b' :: quote :: octets.flatMap (displayByte quote) ++ [quote])

end Hocon
