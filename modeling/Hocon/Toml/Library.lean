import Hocon.Toml.Nulls
import Hocon.Toml.Read
import Hocon.Toml.Write

/-!
# Libraries for TOML

Option files are read and written by a library for the format. What such a library makes of a text
or of a table is left open here: a `Toml.Library` is a reader and a writer, each of which may fail.
A reader refuses a text that is no TOML in words of its own, which is forgiven where option files
are loaded, or it fails in some other way, which is not.

`Toml.Library.standard` is the library that runs: the second edition of the format, as it is read by
`Toml.read` and written by `Toml.write`. It knows no dates and times and refuses a text with one.
-/

namespace Hocon

namespace Toml

/-! ### Readers and writers -/

/-- Why a text is not read. -/
inductive Refusal where
  /-- The text is no TOML, as the words say. -/
  | malformed (words : String)
  /-- The reader fails in some other way. -/
  | failure (f : Failure)
  deriving DecidableEq, Repr

/-- A library for TOML. -/
structure Library where
  /-- The table that a text writes. -/
  read : List Char → Except Refusal Entries
  /-- The text that is written for a table. -/
  write : Entries → Except Failure String

/-! ### The library that runs -/

/-- The name of the kind of a redefinition. -/
def Redefinition.kindName : Redefinition → String
  | taken _ => "KeyAlreadyPresent"
  | dottedTable => "TOMLKitError"

/-- How a read error is refused. A redefinition makes a text no TOML if it is one of the outermost
level; inside of a section or a value it is a failure of its own kind. -/
def ReadError.toRefusal : ReadError → Refusal
  | redefined fault true =>
    .failure { kind := .other fault.kindName false, message := fault.message }
  | e => .malformed e.message

/-- The library that runs. -/
def Library.standard : Library where
  read text := (Toml.read .second text).mapError ReadError.toRefusal
  write := Toml.write

end Toml

/-- A table as a TOML document, without its nulls. -/
def Entries.toToml (table : Entries) (lib : Toml.Library) : Attempt Failure String := do
  let table ← table.dropNulls
  Attempt.ofExcept (lib.write table)

end Hocon
