import Hocon.Log.Record
import Hocon.Value.Display

/-!
# Tables without nulls

A TOML document has no null value, so null entries of maps and null elements of lists are left out
before a table is written, at every depth (`Value.withoutNulls`), and the log says which entries
were. Keys become texts on the way; if two keys of a map have the same text, the later entry gives
the value and the earlier one the place. Tuples are kept as they are.

A key that is no text and has too many digits to become one is a failure. Under a null it does no
harm: the entry is left out, and only its record in the log is lost.
-/

namespace Hocon

/-- An entry in front of entries that were added later: if one of these has the same key, it keeps
its value and takes the place in front. -/
def Entries.addBefore (key : String) (value : Value) (later : Entries) : Entries :=
  match Entries.lookup key later with
  | none => (.str key, value) :: later
  | some v => (.str key, v) :: later.filter fun e =>
      match e.1 with
      | .str k => k != key
      | _ => true

namespace Value

/-- The plain text of a key, or the failure of a key that has none. -/
def spelling (k : Value) : Except Failure String :=
  match k.plain with
  | some s => .ok s
  | none => .error .tooManyDigits

/-- Notes in the log that the entry of a key is left out. -/
def recordNull (k : Value) : Attempt Failure Unit :=
  Attempt.recordIf Log.debug .writing
    (k.plain.map ("Ignoring `None` entry in Mapping for key " ++ ·))

mutual

/-- A value without the null entries of its maps and the null elements of its lists. -/
def withoutNulls : Value → Attempt Failure Value
  | map entries => do return map (← entriesWithoutNulls entries)
  | list items => do return list (← itemsWithoutNulls items)
  | v => return v

/-- The entries of a map that are not null, under the texts of their keys. -/
def entriesWithoutNulls : List (Value × Value) → Attempt Failure Entries
  | [] => return []
  | (k, null) :: rest => do
    recordNull k
    entriesWithoutNulls rest
  | (k, v) :: rest => do
    let key ← Attempt.ofExcept k.spelling
    let v ← withoutNulls v
    return Entries.addBefore key v (← entriesWithoutNulls rest)

/-- The elements of a list that are not null. -/
def itemsWithoutNulls : List Value → Attempt Failure (List Value)
  | [] => return []
  | null :: rest => itemsWithoutNulls rest
  | v :: rest => do
    let v ← withoutNulls v
    return v :: (← itemsWithoutNulls rest)

end

end Value

/-- A table without nulls, at every depth. The keys of the entries that are left out are logged. -/
def Entries.dropNulls (table : Entries) : Attempt Failure Entries :=
  Value.entriesWithoutNulls table

end Hocon
