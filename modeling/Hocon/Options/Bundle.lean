import Hocon.Options.Display

/-!
# Bundles of fields

Where layers and options stand side by side, either is a `Bundle`. A field of a layer can be given
another value, or be unset; options are fixed, and to assign to one of their fields is an error. A
layer and options are never the same bundle, even if they set the same fields.
-/

namespace Hocon

/-- The option with a name. -/
def Field.ofName? (name : String) : Option Field :=
  Field.all.find? fun f => f.name == name

/-- The layer with one field as another layer has it, set or not. -/
def Layer.copyField (layer source : Layer) : Field → Layer
  | .separatorCharacter => { layer with separatorCharacter := source.separatorCharacter }
  | .objectSeparator => { layer with objectSeparator := source.objectSeparator }
  | .stringQuoting => { layer with stringQuoting := source.stringQuoting }
  | .keyQuoting => { layer with keyQuoting := source.keyQuoting }
  | .spacesBefore => { layer with spacesBefore := source.spacesBefore }
  | .spacesAfter => { layer with spacesAfter := source.spacesAfter }
  | .indentCharacter => { layer with indentCharacter := source.indentCharacter }
  | .indent => { layer with indent := source.indent }
  | .commentStyle => { layer with commentStyle := source.commentStyle }
  | .lineSeparator => { layer with lineSeparator := source.lineSeparator }

/-- A layer, or options. -/
inductive Bundle where
  /-- A layer, which can be changed. -/
  | layer (l : Layer)
  /-- Options, which are fixed. -/
  | options (o : Options)
  deriving DecidableEq, Repr

/-- An assignment to a field that is fixed. -/
structure FixedField where
  /-- The name of the field. -/
  name : String
  deriving DecidableEq, Repr

/-- The wording of an assignment error. -/
def FixedField.message (e : FixedField) : String :=
  "cannot assign to field " ++ displayText e.name

namespace Bundle

/-- The fields that a bundle sets; options set all of them. -/
def toLayer : Bundle → Layer
  | layer l => l
  | options o => o.toLayer

/-- Gives the named field the value that it has in a layer. -/
def assign (name : String) (source : Layer) : Bundle → Except FixedField Bundle
  | layer l => .ok (layer (((Field.ofName? name).map (l.copyField source)).getD l))
  | options _ => .error { name }

/-- Whether two bundles are of one kind and choose the same format. -/
def agree : Bundle → Bundle → Bool
  | layer l, layer m => l.agree m
  | options o, options p => o.agree p
  | _, _ => false

/-- A bundle as it is shown inside a message. -/
def display : Bundle → Option String
  | layer l => l.display
  | options o => o.display

end Bundle

end Hocon
