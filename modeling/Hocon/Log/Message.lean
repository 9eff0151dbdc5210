import Hocon.Log.Record
import Hocon.Log.Style
import Hocon.Value.Display

/-!
# Messages of records

A message may be given as a template with slots for arguments: `%s` is filled with the plain text
of an argument and `%r` with the text that shows it; a number in the slot is the least width, and a
minus in front of it moves the argument to the left. `%%` is a percent sign. A template without
arguments stands for itself.

`Log.line` is a record as a terminal shows it, in the style of its level.
-/

namespace Hocon

namespace Log

/-! ### Templates -/

/-- Why a template cannot be filled. -/
inductive TemplateError where
  /-- There are more slots than arguments. -/
  | missing
  /-- There are more arguments than slots. -/
  | surplus
  /-- An argument has no text, because an integer in it has too many digits. -/
  | unwritten
  deriving DecidableEq, Repr

/-- The wording of a template error. -/
def TemplateError.message : TemplateError → String
  | missing => "not enough arguments for format string"
  | surplus => "not all arguments converted during string formatting"
  | unwritten => Failure.tooManyDigits.message

/-- A slot of a template, as far as it has been read. -/
structure Slot where
  /-- Whether the argument stands at the left. -/
  left : Bool := false
  /-- The least width. -/
  width : Nat := 0

/-- A text filled up with spaces to the width of a slot. -/
def Slot.pad (slot : Slot) (text : List Char) : List Char :=
  let space := List.replicate (slot.width - text.length) ' '
  if slot.left then text ++ space else space ++ text

/-- What is left of a template behind a slot that is being read, or behind none, with its slots
filled. -/
def fillFrom : Option Slot → List Char → List Value → Except TemplateError (List Char)
  | none, [], [] => .ok []
  | none, [], _ :: _ => .error .surplus
  | some _, [], _ => .error .missing
  | none, c :: rest, args =>
    if c = '%' then fillFrom (some {}) rest args
    else do return c :: (← fillFrom none rest args)
  | some slot, c :: rest, args =>
    if c = '-' then fillFrom (some { slot with left := true }) rest args
    else if c.isDigit then
      fillFrom (some { slot with width := 10 * slot.width + (c.toNat - '0'.toNat) }) rest args
    else if c = '%' then do return '%' :: (← fillFrom none rest args)
    else match args with
      | [] => .error .missing
      | arg :: args => do
        let some text := if c = 'r' then arg.display else arg.plain | .error .unwritten
        return slot.pad text.toList ++ (← fillFrom none rest args)

/-- A template with its slots filled. -/
def fill (template : String) (args : List Value) : Except TemplateError String :=
  if args.isEmpty then .ok template
  else (fillFrom none template.toList args).map String.ofList

/-- The record that a template makes, if its level reaches the threshold. Below the threshold the
template is not looked at. -/
def recordOf (threshold level : Int) (source : Source) (template : String) (args : List Value) :
    Except TemplateError (Option Record) :=
  if level < threshold then .ok none
  else (fill template args).map fun message => some { level, source, message }

/-! ### Lines -/

/-- The style of a level. -/
def styleOf (level : Int) : Style :=
  if critical ≤ level then .brightRed
  else if error ≤ level then .red
  else if warning ≤ level then .yellow
  else if info ≤ level then .green
  else if debug ≤ level then .gray
  else if trace ≤ level then .blue
  else .dimRed

/-- A message of a level as a terminal shows it. -/
def line (level : Int) (message : String) : String :=
  (styleOf level).apply ("[" ++ levelName level ++ "] " ++ message)

end Log

end Hocon
