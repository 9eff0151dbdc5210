import Hocon.Decimal.Layout
import Hocon.Text.Display
import Hocon.Toml.Text

/-!
# Writing TOML

A table is written as a TOML 1.1 document. The entries that are written on a line of their own come
first, and behind them the sub-tables and the arrays of tables in the order of the table; only in a
table that is itself an element of an array do the arrays of tables come before the sub-tables. A
list or tuple of tables is an array of tables if it stands directly in a table, and an inline array
otherwise; a table inside an array is written inline.

A sub-table has a header line with its full name, unless all it holds are tables and arrays of
tables. A blank line goes before whatever has a header if it is not the first entry of its table,
and before a later table of an array if the table in front is not empty. Moving the lines to the
front sets a sub-table that was the first entry apart from them by a blank line too, but not an
array of tables.
-/

namespace Hocon

namespace Toml

/-! ### Failures -/

/-- The full name of a value's type. -/
def fullTypeName (v : Value) : String :=
  if v.isNode then "hoconrender.tree.nodes." ++ v.typeName else v.typeName

/-- The failure of a value for which there is no TOML value. -/
def noTomlValue (v : Value) : Failure where
  kind := .other "ConvertError" false
  message := "Unable to convert an object of <class '" ++ fullTypeName v ++ "'> to a TOML item"

/-- The failure of a key that is no text. -/
def keyNotText : Failure where
  kind := .type
  message := "Keys must be strings"

/-! ### Texts and keys -/

/-- The letter that stands behind the backslash for a character with a short escape. -/
def escapeLetter : Char → Option Char
  | '"' => some '"'
  | '\\' => some '\\'
  | '\x08' => some 'b'
  | '\t' => some 't'
  | '\n' => some 'n'
  | '\x0c' => some 'f'
  | '\r' => some 'r'
  | '\x1b' => some 'e'
  | _ => none

/-- One character of a basic string. The controls of ASCII are escaped. -/
def escapeChar (c : Char) : List Char :=
  match escapeLetter c with
  | some letter => ['\\', letter]
  | none => if c.toNat < 0x20 ∨ c.toNat = 0x7F then '\\' :: 'u' :: hexDigits 4 c.toNat else [c]

/-- A text as a basic string. -/
def basicString (s : String) : List Char :=
  '"' :: s.toList.flatMap escapeChar ++ ['"']

/-- A key, bare if it can be. -/
def keyText (key : String) : List Char :=
  if !key.isEmpty && key.toList.all isBareKeyChar then key.toList else basicString key

/-- The text of an entry's key. -/
def entryKey : Value → Except Failure (List Char)
  | .str key => .ok (keyText key)
  | _ => .error keyNotText

/-! ### Inline values -/

/-- The text of an entry or an element, or what is wrong with it. -/
abbrev Written := Except Failure (List Char)

/-- What is written for a list of parts, or what is wrong with the first that is wrong. -/
def allWritten (parts : List Written) : Except Failure (List (List Char)) :=
  parts.mapM id

/-- Parts of a table that come with a mark, those with the mark behind those without it. -/
def markedLast {α : Type} (parts : List (Bool × α)) : List α :=
  (parts.filter fun p => !p.1).map (·.2) ++ (parts.filter fun p => p.1).map (·.2)

/-- An entry on one line, or in an inline table. -/
def assignment (key : Value) (value : Written) : Written := do
  let text ← value
  return (← entryKey key) ++ [' ', '=', ' '] ++ text

mutual

/-- A value inside an array or an inline table. Tables are written inline, and entries that are
tables come last. A space follows the commas of a table that is the element of an array, and none
those of a table in a table. -/
def inlineValue (inArray : Bool) : Value → Written
  | .bool b => .ok (toString b).toList
  | .int n => if hasDecimal n then .ok (toString n).toList else .error .tooManyDigits
  | .float bits => .ok (Decimal.documentLayout.write bits)
  | .str s => .ok (basicString s)
  | .list items => do
    return '[' :: [',', ' '].intercalate (← allWritten (inlineItems items)) ++ [']']
  | .tuple items => do
    return '[' :: [',', ' '].intercalate (← allWritten (inlineItems items)) ++ [']']
  | .map entries => do
    let parts ← allWritten (markedLast (inlineEntries entries))
    let comma := if inArray then [',', ' '] else [',']
    return '\x7b' :: comma.intercalate parts ++ ['\x7d']
  | v => .error (noTomlValue v)

/-- The elements of an array. -/
def inlineItems : List Value → List Written
  | [] => []
  | v :: rest => inlineValue true v :: inlineItems rest

/-- The entries of an inline table; those that are tables are marked. -/
def inlineEntries : List (Value × Value) → List (Bool × Written)
  | [] => []
  | (k, v) :: rest => (v.isMap, assignment k (inlineValue false v)) :: inlineEntries rest

end

/-! ### Tables -/

/-- How an entry of a table is written: on a line of its own, as an array of tables, or as a
sub-table. -/
inductive Group where
  /-- On a line of its own. -/
  | line
  /-- As an array of tables. -/
  | tables
  /-- As a sub-table. -/
  | table
  deriving DecidableEq, Repr

/-- Whether the items of a list or tuple make it an array of tables. -/
def areTables (items : List Value) : Bool :=
  !items.isEmpty && items.all Value.isMap

/-- The group of an entry, by its value. -/
def Group.of : Value → Group
  | .map _ => table
  | .list items | .tuple items => if areTables items then tables else line
  | _ => line

/-- Whether a table needs a header: it is empty, or it holds an entry on a line of its own. -/
def needsHeader (entries : Entries) : Bool :=
  entries.isEmpty || entries.any fun e => Group.of e.2 = .line

/-- A blank line, or none. -/
def blankLine (wanted : Bool) : List Char :=
  if wanted then ['\n'] else []

/-- The name of a sub-table, from that of its parent and its own key. -/
def qualified (parent key : List Char) : List Char :=
  if parent.isEmpty then key else parent ++ '.' :: key

/-- A part of a table: the group in which it is written, and its text with or without a blank line
in front of it. -/
structure Part where
  /-- How it is written. -/
  group : Group
  /-- The text, given whether a blank line goes before it. -/
  text : Bool → Written

/-- The texts of the parts of a table. `lines` says whether the table has entries on lines of their
own, and `first` whether the next part is the first one. -/
def placedTexts (lines first : Bool) : List Part → List Written
  | [] => []
  | p :: rest => p.text (!first || (lines && p.group = .table)) :: placedTexts lines false rest

/-- The parts of a table put together, those on lines of their own in front. -/
def assemble (parts : List Part) : Written := do
  let texts ← allWritten (placedTexts (parts.any fun p => p.group = .line) true parts)
  return (markedLast ((parts.map fun p => decide (p.group ≠ .line)).zip texts)).flatten

/-- The parts of a table with the sub-tables behind all others. -/
def subTablesLast (parts : List Part) : List Part :=
  markedLast (parts.map fun p => (p.group = .table, p))

mutual

/-- The text of an entry of a table, given its key, its full name, and whether a blank line goes
before it. -/
def entryText (key : Value) (name : List Char) (blank : Bool) : Value → Written
  | .map entries => do
    let body ← assemble (entryParts name entries)
    let header := if needsHeader entries then '[' :: name ++ [']', '\n'] else []
    return blankLine blank ++ header ++ body
  | .list items =>
    if areTables items then tableItems name blank items
    else do return (← assignment key (inlineValue false (.list items))) ++ ['\n']
  | .tuple items =>
    if areTables items then tableItems name blank items
    else do return (← assignment key (inlineValue false (.tuple items))) ++ ['\n']
  | v => do return (← assignment key (inlineValue false v)) ++ ['\n']

/-- The tables of an array of tables. -/
def tableItems (name : List Char) (blank : Bool) : List Value → Written
  | [] => .ok []
  | .map entries :: rest => do
    let body ← assemble (subTablesLast (entryParts name entries))
    let others ← tableItems name (!entries.isEmpty) rest
    return blankLine blank ++ ['[', '['] ++ name ++ [']', ']', '\n'] ++ body ++ others
  | _ :: rest => tableItems name blank rest

/-- The parts that the entries of a table make. A value that cannot be written is found before a
key that cannot. -/
def entryParts (name : List Char) : List (Value × Value) → List Part
  | [] => []
  | (k, v) :: rest =>
    let text (blank : Bool) : Written := do
      let text ← entryText k (qualified name ((entryKey k).toOption.getD [])) blank v
      let _ ← entryKey k
      return text
    { group := Group.of v, text } :: entryParts name rest

end

/-- A table as a document. -/
def write (table : Entries) : Except Failure String := do
  return String.ofList (← assemble (entryParts [] table))

end Toml

end Hocon
