import Hocon.Diagnostic
import Hocon.Options.Display
import Hocon.Section
import Hocon.Value.Display

/-!
# Options as a table

The table form of options: a table under the key `render` with one entry for each option, where a
member of a closed set is given by its key. `Options.toTable` writes it. `Layer.ofTable` reads it
and sets what it can: an entry that is missing or null sets nothing, and an entry that cannot be
used sets nothing either and leaves a `Warning`. Each entry is judged by itself, so no entry changes
what another one sets or warns of.

A warning is put into words when it is reported, and the words show what was found. If an integer in
it has too many digits to be shown, the reporting fails, and with it the loading.
-/

namespace Hocon

/-! ### Names -/

/-- The name of the section that holds the options. -/
def renderSection : String := "render"

/-- The key of an option in a table. -/
def Field.tableKey : Field → String
  | .separatorCharacter => "separator"
  | f => f.name

/-! ### Writing -/

/-- A member of a closed set, or the word in its place, as the value of an entry. -/
def Setting.toValue {α : Type} [Choice α] (s : Setting α) : Value :=
  .str s.key

/-- The value of an option's entry. -/
def Options.fieldValue (o : Options) : Field → Value
  | .separatorCharacter => .str o.separatorCharacter.key
  | .objectSeparator => o.objectSeparator.toValue
  | .stringQuoting => o.stringQuoting.toValue
  | .keyQuoting => o.keyQuoting.toValue
  | .spacesBefore => .int o.spacesBefore
  | .spacesAfter => .int o.spacesAfter
  | .indentCharacter => .str o.indentCharacter.key
  | .indent => .int o.indent
  | .commentStyle => .str o.commentStyle.key
  | .lineSeparator => .str o.lineSeparator.key

/-- The table form of options. -/
def Options.toTable (o : Options) : Entries :=
  [(.str renderSection, .map (Field.all.map fun f => (.str f.tableKey, o.fieldValue f)))]

/-- A word in the place of a member of a closed set, which has no key to be written. -/
structure StrayWord where
  /-- The word. -/
  word : String
  deriving DecidableEq, Repr

/-- The wording of the error of a stray word. -/
def StrayWord.message (e : StrayWord) : String :=
  "'" ++ (Value.str e.word).typeName ++ "' object has no attribute 'value'"

/-- The table form of options, if no word stands in the place of a member. -/
def Options.writeTable (o : Options) : Except StrayWord Entries :=
  match o.objectSeparator.stray? <|> o.stringQuoting.stray? <|> o.keyQuoting.stray? with
  | some word => .error { word }
  | none => .ok o.toTable

/-! ### Warnings -/

/-- Why an entry of a table was not used. -/
inductive Warning where
  /-- The key of the entry is not known in the section. -/
  | unknownKey (location : String) (key : Value)
  /-- The value is no integer. -/
  | notAnInt (location : String) (value : Value)
  /-- The value is a negative integer. -/
  | negative (location : String) (n : Int)
  /-- The value is no word. -/
  | notAWord (location : String) (value : Value)
  /-- The word means no member of the set, whose keys are given. -/
  | notAllowed (location word allowed : String)
  deriving Repr

namespace Warning

/-- What a value is, for a warning: its type and the value itself. -/
def found (v : Value) : Option String :=
  v.display.map fun s => ", got " ++ v.typeName ++ ": " ++ s

/-- The wording of a warning, unless what it shows has no text. -/
def message : Warning → Option String
  | unknownKey location key => key.plain.map fun s => "Unknown key in " ++ location ++ ": " ++ s
  | notAnInt location value => (found value).map fun s => "Expected int in " ++ location ++ s
  | negative location n =>
    (decimal? n).map fun s => "Expected non-negative int in " ++ location ++ ", got " ++ s
  | notAWord location value =>
    (found value).map fun s => "Expected string enum value in " ++ location ++ s
  | notAllowed location word allowed => some <|
    "Invalid value for " ++ location ++ ": " ++ displayText word ++ " (allowed: " ++ allowed ++ ")"

/-- A warning as a diagnostic, if there are words for it. -/
def diagnostic? (w : Warning) : Option Diagnostic :=
  w.message.map fun message => { level := .warning, message }

end Warning

/-! ### Reading one entry -/

/-- What an entry sets, and what it warns of. -/
structure Reading (α : Type) where
  /-- What is set. -/
  value : Option α := none
  /-- Why nothing is set. -/
  warning : Option Warning := none

/-- A non-negative integer. A truth value is no integer. -/
def Reading.int (location : String) : Value → Reading Int
  | .null => {}
  | .int n => if n < 0 then { warning := some (.negative location n) } else { value := some n }
  | v => { warning := some (.notAnInt location v) }

/-- A member of a closed set. -/
def Reading.choice (α : Type) [Choice α] (location : String) : Value → Reading α
  | .null => {}
  | .str word =>
    match Choice.ofWord? (α := α) word with
    | some m => { value := some m }
    | none => { warning := some (.notAllowed location word (Choice.allowed α)) }
  | v => { warning := some (.notAWord location v) }

/-- The value of an entry; a missing entry is null. -/
def Entries.value (table : Entries) (key : String) : Value :=
  (table.lookup key).getD .null

/-- Reads the integer at a key of the table that is said to be at `place`. -/
def Entries.readInt (table : Entries) (place key : String) : Reading Int :=
  Reading.int (place ++ "." ++ key) (table.value key)

/-- Reads the member of a closed set at a key of the table that is said to be at `place`. -/
def Entries.readChoice (α : Type) [Choice α] (table : Entries) (place key : String) : Reading α :=
  Reading.choice α (place ++ "." ++ key) (table.value key)

/-! ### Reading all entries -/

/-- How the section that holds the options is named in a warning. -/
def renderPlace : String := "[" ++ renderSection ++ "]"

/-- Whether a key is the key of an option. -/
def isOptionKey : Value → Bool
  | .str key => Field.all.any fun f => f.tableKey == key
  | _ => false

/-- The warnings of the keys that are no option, in the order of the table. -/
def unknownKeys (table : Entries) : List Warning :=
  (table.filter fun e => !isOptionKey e.1).map fun e => .unknownKey renderPlace e.1

/-- The layer that the entries of the option section set, and the warnings of the entries that
cannot be used: first the unknown keys in the order of the table, then the known ones in the order
of the options. -/
def Layer.ofEntries (table : Entries) : Layer × List Warning :=
  let separator := table.readChoice SeparatorCharacter renderPlace Field.separatorCharacter.tableKey
  let object := table.readChoice ObjectSeparator renderPlace Field.objectSeparator.tableKey
  let string := table.readChoice Quoting renderPlace Field.stringQuoting.tableKey
  let key := table.readChoice Quoting renderPlace Field.keyQuoting.tableKey
  let before := table.readInt renderPlace Field.spacesBefore.tableKey
  let after := table.readInt renderPlace Field.spacesAfter.tableKey
  let character := table.readChoice IndentCharacter renderPlace Field.indentCharacter.tableKey
  let indent := table.readInt renderPlace Field.indent.tableKey
  let comment := table.readChoice CommentStyle renderPlace Field.commentStyle.tableKey
  let line := table.readChoice LineSeparator renderPlace Field.lineSeparator.tableKey
  let layer : Layer := {
    separatorCharacter := separator.value
    objectSeparator := object.value.map .member
    stringQuoting := string.value.map .member
    keyQuoting := key.value.map .member
    spacesBefore := before.value
    spacesAfter := after.value
    indentCharacter := character.value
    indent := indent.value
    commentStyle := comment.value
    lineSeparator := line.value }
  (layer, unknownKeys table ++ [separator.warning, object.warning, string.warning, key.warning,
    before.warning, after.warning, character.warning, indent.warning, comment.warning,
    line.warning].reduceOption)

/-- The layer that a table sets by its option section, and the warnings of that section. -/
def Layer.ofTable (table : Entries) : Layer × List Warning :=
  Layer.ofEntries (table.sectionAt renderSection)

/-! ### Reporting warnings -/

/-- Adds warnings to the diagnostics, up to the first one for which there are no words. Each is
logged by the source that found it, and then by the diagnostics. -/
def Diagnostics.addWarnings (ds : Diagnostics) (source : Log.Source) :
    List Warning → Logged (Diagnostics × Except Failure Unit)
  | [] => return (ds, .ok ())
  | w :: rest => do
    Logged.recordIf Log.warning source w.message
    match w.diagnostic? with
    | none => return (ds, .error .tooManyDigits)
    | some d =>
      let ds ← ds.add d
      addWarnings ds source rest

/-- Warnings that can all be put into words are all added. -/
theorem Diagnostics.value_addWarnings (ds : Diagnostics) (source : Log.Source)
    {ws : List Warning} {added : Diagnostics} (h : ws.map Warning.diagnostic? = added.map some) :
    (ds.addWarnings source ws).value = (ds ++ added, .ok ()) := by
  induction ws generalizing ds added with
  | nil =>
    obtain rfl : added = [] := by simpa using h.symm
    simp [addWarnings]
  | cons w rest ih =>
    obtain ⟨d, others, rfl, hd, hothers⟩ : ∃ d others, added = d :: others ∧
        some d = w.diagnostic? ∧ others.map some = rest.map Warning.diagnostic? :=
      List.map_eq_cons_iff.mp h.symm
    simp [addWarnings, ← hd, ih (ds ++ [d]) hothers.symm]

/-- A warning without words ends the reporting. Those in front of it have been added. -/
theorem Diagnostics.value_addWarnings_of_none (ds : Diagnostics) (source : Log.Source)
    {before rest : List Warning} {w : Warning} {added : Diagnostics}
    (h : before.map Warning.diagnostic? = added.map some) (hw : w.message = none) :
    (ds.addWarnings source (before ++ w :: rest)).value = (ds ++ added, .error .tooManyDigits) := by
  induction before generalizing ds added with
  | nil =>
    obtain rfl : added = [] := by simpa using h.symm
    simp [addWarnings, Warning.diagnostic?, hw]
  | cons u before ih =>
    obtain ⟨d, others, rfl, hd, hothers⟩ : ∃ d others, added = d :: others ∧
        some d = u.diagnostic? ∧ others.map some = before.map Warning.diagnostic? :=
      List.map_eq_cons_iff.mp h.symm
    simp [addWarnings, ← hd, ih (ds ++ [d]) hothers.symm]

/-- Reports the warning of an entry, if it leaves one, and then says what the entry sets. -/
def Reading.report {α : Type} (r : Reading α) (ds : Diagnostics) (source : Log.Source) :
    Logged (Diagnostics × Except Failure (Option α)) := do
  let (ds, result) ← ds.addWarnings source r.warning.toList
  return (ds, result.map fun _ => r.value)

/-- Reads the layer that a table sets and reports the warnings to the diagnostics. -/
def Layer.load (table : Entries) (ds : Diagnostics) :
    Logged (Diagnostics × Except Failure Layer) := do
  let (layer, warnings) := Layer.ofTable table
  let (ds, result) ← ds.addWarnings .loading warnings
  return (ds, result.map fun _ => layer)

end Hocon
