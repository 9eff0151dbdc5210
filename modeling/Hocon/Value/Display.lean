import Hocon.Decimal.Layout
import Hocon.Text.Display
import Hocon.Value

/-!
# Displaying values

The text that stands for a value inside a message. `Value.display` writes a value so that it can be
told from any other: texts are quoted, floating-point numbers keep their point, and nodes show
their kind, their contents and their comment. `Value.plain` is the same except that a text at the
top stands for itself; it is how a key that is no text is turned into one. Neither has a text for
a value in which an integer has too many digits to be written, at any depth.
-/

namespace Hocon

/-- The parts of a complex number are laid out like other floating-point numbers, but a whole part
shows no point. -/
def Decimal.complexLayout : DecimalLayout :=
  { Decimal.documentLayout with wholeEnding := "" }

/-- A part of a complex number, rounded to a double. -/
def displayPart (n : Int) : String :=
  let bits := (Decimal.mk n.natAbs 0).toBinary64
  String.ofList (Decimal.complexLayout.write (if n < 0 then Binary64.negate bits else bits))

/-- A complex number: the imaginary part alone if the real part is zero, else both with the sign
between them. -/
def displayComplex (re im : Int) : String :=
  if re = 0 then displayPart im ++ "j"
  else "(" ++ displayPart re ++ (if im < 0 then "" else "+") ++ displayPart im ++ "j)"

/-- A text that may be missing, such as the comment of a node. -/
def displayOptional : Option String → String
  | none => "None"
  | some s => displayText s

namespace Value

mutual

/-- The text that shows a value inside a message, unless an integer in it has too many digits. -/
def display : Value → Option String
  | null => some "None"
  | bool b => some (if b then "True" else "False")
  | int n => decimal? n
  | float bits => some (String.ofList (Decimal.documentLayout.write bits))
  | str s => some (displayText s)
  | bytes octets => some (displayBytes octets)
  | complex re im => some (displayComplex re im)
  | ellipsis => some "Ellipsis"
  | set [] => some "set()"
  | set items => (displayItems items).map fun s => "\x7b" ++ s ++ "\x7d"
  | tuple [v] => (display v).map fun s => "(" ++ s ++ ",)"
  | tuple items => (displayItems items).map fun s => "(" ++ s ++ ")"
  | list items => (displayItems items).map fun s => "[" ++ s ++ "]"
  | map entries => (displayEntries entries).map fun s => "\x7b" ++ s ++ "\x7d"
  | scalarNode value comment => (display value).map fun s =>
    "ScalarNode(value=" ++ s ++ ", comment=" ++ displayOptional comment ++ ")"
  | listNode [v] _ _ comment => (display v).map fun s =>
    "ListNode(children=(" ++ s ++ ",), comment=" ++ displayOptional comment ++ ")"
  | listNode children _ _ comment => (displayItems children).map fun s =>
    "ListNode(children=(" ++ s ++ "), comment=" ++ displayOptional comment ++ ")"
  | mapNode entries _ comment => (displayEntries entries).map fun s =>
    "MapNode(children=\x7b" ++ s ++ "\x7d, comment=" ++ displayOptional comment ++ ")"

/-- The items of a sequence, separated by commas. -/
def displayItems : List Value → Option String
  | [] => some ""
  | [v] => display v
  | v :: rest => do return (← display v) ++ ", " ++ (← displayItems rest)

/-- The entries of a map, separated by commas. -/
def displayEntries : List (Value × Value) → Option String
  | [] => some ""
  | [(k, v)] => do return (← display k) ++ ": " ++ (← display v)
  | (k, v) :: rest => do
    return (← display k) ++ ": " ++ (← display v) ++ ", " ++ (← displayEntries rest)

end

/-- A value as a plain text: a text is itself, any other value is displayed. -/
def plain : Value → Option String
  | str s => some s
  | v => v.display

end Value

end Hocon
