import Hocon.Text.Display
import Hocon.Text.Split
import Hocon.Value

/-!
# Sections of a table

A section of a table is named by the keys that lead to it, joined by points, as in `tool.format`.
`Entries.sectionAt` descends to a section, and `Entries.nestUnder` builds the tables around one. The
first is forgiving: where there is no table there is an empty one. The second refuses a name with an
empty key.
-/

namespace Hocon

/-- The keys of a section name. -/
def sectionKeys (name : String) : List String :=
  (splitOn '.' name.toList).map String.ofList

/-- The value that a chain of keys leads to; a key that is missing, and any key of what is no
table, leads to null. -/
def Value.follow : List String → Value → Value
  | [], v => v
  | key :: keys, .map entries => follow keys ((Entries.lookup key entries).getD .null)
  | _ :: _, _ => .null

/-- The entries of a table; a value of any other kind has none. -/
def Value.entries : Value → Entries
  | .map entries => entries
  | _ => []

/-- A section of a table, which is empty if there is no such table. -/
def Entries.sectionAt (name : String) (table : Entries) : Entries :=
  ((Value.map table).follow (sectionKeys name)).entries

/-- A section name that holds an empty key. -/
structure SectionError where
  /-- The name that was given. -/
  name : String
  deriving Repr

/-- The wording of a section error. -/
def SectionError.message (e : SectionError) : String :=
  "Invalid TOML section path: " ++ displayText e.name

/-- A table inside the tables that a chain of keys names, the first key outermost. -/
def Entries.nest (table : Entries) : List String → Entries
  | [] => table
  | key :: keys => [(.str key, .map (Entries.nest table keys))]

/-- A table inside the section that a name stands for. -/
def Entries.nestUnder (name : String) (table : Entries) : Except SectionError Entries :=
  let keys := sectionKeys name
  if keys.contains "" then .error { name } else .ok (Entries.nest table keys)

end Hocon
