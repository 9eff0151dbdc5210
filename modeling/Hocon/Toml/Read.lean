import Hocon.Toml.Statement

/-!
# Reading TOML

A header opens a section, whose entries follow it. What a section says is collected on its own. When
it is closed, the outcome is one item for the section around it, or for the outermost table, and is
joined with what is known there (`Draft.leave`). In the second edition sections are nested: the
header of a table whose name goes on the name of an open section opens a section in there, and any
other header first closes the sections whose names it does not go on. In the first edition every
header closes the section above it.

So a key can be given a second meaning *inside* of a section, while it is still open, or at the
outermost level, when its section and an earlier one contradict each other. The first refusal ends
the reading, as does a statement that breaks the grammar.
-/

namespace Hocon

namespace Toml

/-- A section that is open. -/
structure Section where
  /-- Its full name. -/
  name : List String
  /-- The first key of its name in the section around it. -/
  key : String
  /-- The other keys of that name. -/
  keys : List String
  /-- The earlier tables, if the section belongs to an array of tables. -/
  earlier : Option (List Table)
  /-- What it says of its keys. -/
  entries : Table := []

namespace Section

/-- What the section says of its first key. -/
def item (s : Section) : Item :=
  .under .implied s.keys <|
    match s.earlier with
    | none => .table .header s.entries
    | some complete => .tables complete s.entries

/-- The section with one more item for a key. -/
def add (edition : Edition) (key : String) (item : Item) (s : Section) :
    Except ReadError Section := do
  return { s with entries := ← Redefinition.toError true (s.entries.add edition key item) }

/-- Whether the section stays open behind the header of a table: the table has its place inside of
the section, or is the next one of the array that the section belongs to. -/
def stays (edition : Edition) (array : Bool) (name : List String) (s : Section) : Bool :=
  edition == .second &&
    if s.name == name then array && s.earlier.isSome && s.keys.isEmpty
    else s.name.isPrefixOf name

end Section

/-- A document as far as it has been read. -/
structure Draft where
  /-- The outermost table, without what the open sections say. -/
  root : Table := []
  /-- The open sections, from the innermost one outwards. -/
  sections : List Section := []

namespace Draft

/-- A draft with one more item for a key of its innermost section. -/
def add (edition : Edition) (key : String) (item : Item) (root : Table) :
    List Section → Except ReadError Draft
  | [] => do return { root := ← Redefinition.toError false (root.add edition key item) }
  | s :: outer => do return { root, sections := (← s.add edition key item) :: outer }

/-- Closes sections up to one that stays open. `said` is what the section that was closed before
says of a key of the next one. -/
def leave (edition : Edition) (stays : Section → Bool) (root : Table) :
    Option (String × Item) → List Section → Except ReadError Draft
  | none, [] => return { root }
  | some (key, item), [] => add edition key item root []
  | said, s :: outer => do
    let s ← match said with
      | none => pure s
      | some (key, item) => s.add edition key item
    if stays s then return { root, sections := s :: outer }
    leave edition stays root (some (s.key, s.item)) outer

/-- The draft behind a header. If the name of the innermost section is the whole name, the header
goes on with an array of tables. -/
def header (edition : Edition) (array : Bool) (key : String) (keys : List String) (d : Draft) :
    Except ReadError Draft := do
  let name := key :: keys
  let d ← leave edition (Section.stays edition array name) d.root none d.sections
  let earlier := if array then some [] else none
  match d.sections with
  | [] => return { d with sections := [{ name, key, keys, earlier }] }
  | s :: outer =>
    match name.drop s.name.length with
    | [] =>
      let earlier := s.earlier.map (· ++ [s.entries])
      return { d with sections := { s with earlier, entries := [] } :: outer }
    | key :: keys => return { d with sections := { name, key, keys, earlier } :: s :: outer }

/-- The draft with one more statement. -/
def apply (edition : Edition) (d : Draft) : Statement → Except ReadError Draft
  | .header array key keys => d.header edition array key keys
  | .entry key keys v => add edition key (.under .dotted keys (.value v)) d.root d.sections

end Draft

/-- Reads the statements of a document, at most as many as are given. -/
def Reader.document (edition : Edition) : Nat → Draft → Reader Draft
  | 0, _ => throw .malformed
  | count + 1, draft => do
    skipSpace
    if (← get).isEmpty then return draft
    let s ← statement edition
    let draft ← draft.apply edition s
    endOfLine s
    document edition count draft

/-- The table that a text writes in an edition of the format. A statement takes at least one
character, so there are no more statements than characters. -/
def read (edition : Edition) (text : List Char) : Except ReadError Entries := do
  let (draft, _) ← Reader.document edition (text.length + 1) {} |>.run text
  let draft ← Draft.leave edition (fun _ => false) draft.root none draft.sections
  return draft.root.toEntries

end Toml

end Hocon
