import Hocon.Failure
import Hocon.Log.Record
import Hocon.Options.Sets

/-!
# Options and layers

`Options` hold every choice that the format of a document depends on. A `Layer` sets some of them
and leaves the others to whatever lies below it: layers are put on one another by `Layer.merge`,
where the upper one wins, and a layer is completed to options by `Layer.resolve`.
-/

namespace Hocon

/-- The format of a document. -/
structure Options where
  /-- The character between a key and its value. -/
  separatorCharacter : SeparatorCharacter := .colon
  /-- Whether the separator also stands before a nested map. -/
  objectSeparator : Setting ObjectSeparator := .member .omitted
  /-- When text values are quoted. -/
  stringQuoting : Setting Quoting := .member .whenRequired
  /-- When keys are quoted. -/
  keyQuoting : Setting Quoting := .member .whenRequired
  /-- How many spaces stand before the separator. -/
  spacesBefore : Int := 0
  /-- How many spaces stand after the separator. -/
  spacesAfter : Int := 1
  /-- The character that indents. -/
  indentCharacter : IndentCharacter := .space
  /-- How many of it make one level. -/
  indent : Int := 4
  /-- The mark of a comment line. -/
  commentStyle : CommentStyle := .hash
  /-- The line ending. -/
  lineSeparator : LineSeparator := .system
  deriving DecidableEq, Repr

/-- A partial choice of options; a field that is not set is inherited. -/
structure Layer where
  /-- The character between a key and its value. -/
  separatorCharacter : Option SeparatorCharacter := none
  /-- Whether the separator also stands before a nested map. -/
  objectSeparator : Option (Setting ObjectSeparator) := none
  /-- When text values are quoted. -/
  stringQuoting : Option (Setting Quoting) := none
  /-- When keys are quoted. -/
  keyQuoting : Option (Setting Quoting) := none
  /-- How many spaces stand before the separator. -/
  spacesBefore : Option Int := none
  /-- How many spaces stand after the separator. -/
  spacesAfter : Option Int := none
  /-- The character that indents. -/
  indentCharacter : Option IndentCharacter := none
  /-- How many of it make one level. -/
  indent : Option Int := none
  /-- The mark of a comment line. -/
  commentStyle : Option CommentStyle := none
  /-- The line ending. -/
  lineSeparator : Option LineSeparator := none
  deriving DecidableEq, Repr

/-! ### Derived texts -/

namespace Options

/-- Whether a count fits into a machine word of 64 bits. -/
def fitsWord (count : Int) : Bool :=
  -0x8000000000000000 ≤ count && count ≤ 0x7FFFFFFFFFFFFFFF

/-- A character as often as a count says; a negative count is none. A count that does not fit into
a machine word is refused, on either side of zero. -/
def repeated? (count : Int) (c : Char) : Except Failure (List Char) :=
  if fitsWord count then .ok (List.replicate count.toNat c) else .error .countTooLarge

/-- A character as often as a count says. Nothing stands for a count that is refused; no document
is written with such a count. -/
def repeated (count : Int) (c : Char) : List Char :=
  (repeated? count c).toOption.getD []

/-- The text of one level of indentation. -/
def indentUnit (o : Options) : List Char :=
  repeated o.indent o.indentCharacter.char

/-- The separator with the spaces around it. -/
def separatorToken (o : Options) : List Char :=
  repeated o.spacesBefore ' ' ++ o.separatorCharacter.payload.toList ++ repeated o.spacesAfter ' '

/-- Refuses counts of characters that do not fit into a machine word. -/
def checkCounts (o : Options) : Except Failure Unit := do
  let _ ← repeated? o.indent o.indentCharacter.char
  let _ ← repeated? o.spacesBefore ' '
  let _ ← repeated? o.spacesAfter ' '

/-- The mark before a line of a comment. -/
def commentMark (o : Options) : List Char :=
  o.commentStyle.payload.toList

/-- The characters that end a line. -/
def newline [Host] (o : Options) : List Char :=
  o.lineSeparator.payload.toList

/-- On every system, a line ends with a line feed, or with a carriage return and a line feed. -/
theorem newline_cases [Host] (o : Options) : o.newline = ['\n'] ∨ o.newline = ['\r', '\n'] := by
  cases hline : o.lineSeparator with
  | system =>
    rw [newline, hline, LineSeparator.payload, Host.lineEnding]
    split
    · exact .inr rfl
    · exact .inl rfl
  | lf => exact .inl (by simp [newline, hline, LineSeparator.payload])
  | crlf => exact .inr (by simp [newline, hline, LineSeparator.payload])

/-- The layer that sets every field as the options do. -/
def toLayer (o : Options) : Layer where
  separatorCharacter := some o.separatorCharacter
  objectSeparator := some o.objectSeparator
  stringQuoting := some o.stringQuoting
  keyQuoting := some o.keyQuoting
  spacesBefore := some o.spacesBefore
  spacesAfter := some o.spacesAfter
  indentCharacter := some o.indentCharacter
  indent := some o.indent
  commentStyle := some o.commentStyle
  lineSeparator := some o.lineSeparator

/-- Whether two options choose the same format, a word in the place of a member being the member
with that key. -/
def agree (a b : Options) : Bool :=
  decide (
    { a with objectSeparator := .word "", stringQuoting := .word "", keyQuoting := .word "" } =
    { b with objectSeparator := .word "", stringQuoting := .word "", keyQuoting := .word "" }) &&
  a.objectSeparator.key == b.objectSeparator.key && a.stringQuoting.key == b.stringQuoting.key &&
  a.keyQuoting.key == b.keyQuoting.key

end Options

/-! ### Layers -/

namespace Layer

/-- One layer on another: the fields that `upper` sets, and those of `lower` where it sets none. -/
def merge (lower upper : Layer) : Layer where
  separatorCharacter := upper.separatorCharacter <|> lower.separatorCharacter
  objectSeparator := upper.objectSeparator <|> lower.objectSeparator
  stringQuoting := upper.stringQuoting <|> lower.stringQuoting
  keyQuoting := upper.keyQuoting <|> lower.keyQuoting
  spacesBefore := upper.spacesBefore <|> lower.spacesBefore
  spacesAfter := upper.spacesAfter <|> lower.spacesAfter
  indentCharacter := upper.indentCharacter <|> lower.indentCharacter
  indent := upper.indent <|> lower.indent
  commentStyle := upper.commentStyle <|> lower.commentStyle
  lineSeparator := upper.lineSeparator <|> lower.lineSeparator

/-- A layer on complete options: the fields that the layer sets, and those of the options where it
sets none. -/
def resolve (layer : Layer) (base : Options) : Options where
  separatorCharacter := layer.separatorCharacter.getD base.separatorCharacter
  objectSeparator := layer.objectSeparator.getD base.objectSeparator
  stringQuoting := layer.stringQuoting.getD base.stringQuoting
  keyQuoting := layer.keyQuoting.getD base.keyQuoting
  spacesBefore := layer.spacesBefore.getD base.spacesBefore
  spacesAfter := layer.spacesAfter.getD base.spacesAfter
  indentCharacter := layer.indentCharacter.getD base.indentCharacter
  indent := layer.indent.getD base.indent
  commentStyle := layer.commentStyle.getD base.commentStyle
  lineSeparator := layer.lineSeparator.getD base.lineSeparator

/-- Whether two layers set the same fields to the same format. -/
def agree (a b : Layer) : Bool :=
  decide ({ a with objectSeparator := none, stringQuoting := none, keyQuoting := none } =
    { b with objectSeparator := none, stringQuoting := none, keyQuoting := none }) &&
  a.objectSeparator.map Setting.key == b.objectSeparator.map Setting.key &&
  a.stringQuoting.map Setting.key == b.stringQuoting.map Setting.key &&
  a.keyQuoting.map Setting.key == b.keyQuoting.map Setting.key

end Layer

/-- Options put over others: those of the layer's fields that are set replace the options'. -/
def Options.replace (o : Options) (overrides : Layer) : Options :=
  overrides.resolve o

end Hocon
