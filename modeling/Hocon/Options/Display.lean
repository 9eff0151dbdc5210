import Hocon.Options.Basic

/-!
# Showing options

The text that shows options or a layer inside a message: the name of the bundle and its fields in
order, each with its value. There is none if a count has too many digits to be shown. `Layer.freeze`
completes a layer and leaves such a text in the log.
-/

namespace Hocon

/-- The ten options. -/
inductive Field where
  /-- The character between a key and its value. -/
  | separatorCharacter
  /-- Whether the separator also stands before a nested map. -/
  | objectSeparator
  /-- When text values are quoted. -/
  | stringQuoting
  /-- When keys are quoted. -/
  | keyQuoting
  /-- How many spaces stand before the separator. -/
  | spacesBefore
  /-- How many spaces stand after the separator. -/
  | spacesAfter
  /-- The character that indents. -/
  | indentCharacter
  /-- How many of it make one level. -/
  | indent
  /-- The mark of a comment line. -/
  | commentStyle
  /-- The line ending. -/
  | lineSeparator
  deriving DecidableEq, Repr

namespace Field

/-- All options, in their order. -/
def all : List Field := [
  separatorCharacter, objectSeparator, stringQuoting, keyQuoting, spacesBefore, spacesAfter,
  indentCharacter, indent, commentStyle, lineSeparator]

/-- The name of an option. -/
def name : Field → String
  | separatorCharacter => "separator_character"
  | objectSeparator => "object_separator"
  | stringQuoting => "string_quoting"
  | keyQuoting => "key_quoting"
  | spacesBefore => "spaces_before_separator"
  | spacesAfter => "spaces_after_separator"
  | indentCharacter => "indent_character"
  | indent => "indent"
  | commentStyle => "comment_style"
  | lineSeparator => "line_separator"

end Field

/-- A bundle of fields as it is shown inside a message. -/
def displayFields (bundle : String) (value : Field → Option String) : Option String := do
  let fields ← Field.all.mapM fun f => (value f).map fun s => f.name ++ "=" ++ s
  return bundle ++ "(" ++ ", ".intercalate fields ++ ")"

/-- Options as they are shown inside a message. -/
def Options.display (o : Options) : Option String :=
  displayFields "RenderOptions" fun
    | .separatorCharacter => some (Choice.display o.separatorCharacter)
    | .objectSeparator => some o.objectSeparator.display
    | .stringQuoting => some o.stringQuoting.display
    | .keyQuoting => some o.keyQuoting.display
    | .spacesBefore => decimal? o.spacesBefore
    | .spacesAfter => decimal? o.spacesAfter
    | .indentCharacter => some (Choice.display o.indentCharacter)
    | .indent => decimal? o.indent
    | .commentStyle => some (Choice.display o.commentStyle)
    | .lineSeparator => some (Choice.display o.lineSeparator)

namespace Layer

/-- The text of a field that may be unset. -/
def displayField {α : Type} (display : α → Option String) (field : Option α) : Option String :=
  field.elim (some "None") display

/-- A layer as it is shown inside a message. -/
def display (l : Layer) : Option String :=
  displayFields "MutableRenderOptions" fun
    | .separatorCharacter => displayField (some ∘ Choice.display) l.separatorCharacter
    | .objectSeparator => displayField (some ∘ Setting.display) l.objectSeparator
    | .stringQuoting => displayField (some ∘ Setting.display) l.stringQuoting
    | .keyQuoting => displayField (some ∘ Setting.display) l.keyQuoting
    | .spacesBefore => displayField decimal? l.spacesBefore
    | .spacesAfter => displayField decimal? l.spacesAfter
    | .indentCharacter => displayField (some ∘ Choice.display) l.indentCharacter
    | .indent => displayField decimal? l.indent
    | .commentStyle => displayField (some ∘ Choice.display) l.commentStyle
    | .lineSeparator => displayField (some ∘ Choice.display) l.lineSeparator

/-- A layer completed to options, which are shown in the log. -/
def freeze (layer : Layer) (base : Options := {}) : Logged Options := do
  let options := layer.resolve base
  Logged.recordIf Log.trace .options (options.display.map ("Frozen render options: " ++ ·))
  return options

@[simp] theorem value_freeze (layer : Layer) (base : Options) :
    (layer.freeze base).value = layer.resolve base := rfl

end Layer

end Hocon
