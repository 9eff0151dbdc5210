/-!
# Terminal styles

A style is a list of attributes of the terminal, each of which has a code that switches it on and
one that switches it off. Styled text stands between the codes. Wherever the text itself switches an
attribute of the style off, the attribute is switched on again behind that; and the style is taken
off before each line break and put on again behind it, so that no line depends on another.
-/

namespace Hocon

/-- An attribute of the terminal. -/
structure Attribute where
  /-- The code that switches it on. -/
  on : Nat
  /-- The code that switches it off. -/
  off : Nat
  deriving DecidableEq, Repr

/-- Attributes that are switched on in order, and off in the same order. -/
structure Style where
  /-- The attributes. -/
  attributes : List Attribute
  deriving DecidableEq, Repr

/-- The control sequence of a code. -/
def controlSequence (code : Nat) : List Char :=
  ['\x1b', '['] ++ (toString code).toList ++ ['m']

/-- A text in which the attribute is switched on again wherever it is switched off. -/
def Attribute.reopen (a : Attribute) : List Char → List Char
  | [] => []
  | c :: rest =>
    if (controlSequence a.off).isPrefixOf (c :: rest) then
      controlSequence a.off ++ controlSequence a.on ++
        reopen a (rest.drop ((controlSequence a.off).length - 1))
    else c :: reopen a rest
termination_by text => text.length
decreasing_by all_goals grind

namespace Style

/-- The style of one foreground colour. -/
def colour (code : Nat) : Style := ⟨[{ on := code, off := 39 }]⟩

/-- Red. -/
def red : Style := colour 31

/-- Green. -/
def green : Style := colour 32

/-- Yellow. -/
def yellow : Style := colour 33

/-- Blue. -/
def blue : Style := colour 34

/-- Gray. -/
def gray : Style := colour 90

/-- Bright red. -/
def brightRed : Style := colour 91

/-- Faint red. -/
def dimRed : Style := ⟨[{ on := 2, off := 22 }, { on := 31, off := 39 }]⟩

/-- What puts the style on. -/
def opening (style : Style) : List Char :=
  style.attributes.flatMap fun a => controlSequence a.on

/-- What takes the style off. -/
def closing (style : Style) : List Char :=
  style.attributes.flatMap fun a => controlSequence a.off

/-- A text in which each attribute of the style is switched on again wherever it is switched off. -/
def reopen (style : Style) (text : List Char) : List Char :=
  style.attributes.foldl (fun text a => a.reopen text) text

/-- A text with the style taken off before each line break and put on again behind it. A line break
is a line feed, together with the carriage return before it if there is one. -/
def breakLines (style : Style) : List Char → List Char
  | [] => []
  | '\r' :: '\n' :: rest =>
    style.closing ++ ['\r', '\n'] ++ style.opening ++ breakLines style rest
  | '\n' :: rest => style.closing ++ ['\n'] ++ style.opening ++ breakLines style rest
  | c :: rest => c :: breakLines style rest

/-- A text in the style. -/
def apply (style : Style) (text : String) : String :=
  String.ofList (style.opening ++ breakLines style (style.reopen text.toList) ++ style.closing)

end Style

end Hocon
