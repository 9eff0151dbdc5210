import Hocon.Toml.Edition
import Hocon.Value

/-!
# Tables under construction

A TOML document may speak of one table in several places: under a header of its own, in the names of
headers of other tables, and in dotted keys. Each place yields an `Item`, and the items of one key
are joined (`Item.join`). Joining remembers how a table was mentioned, its `Origin`, because that
decides what may still be said of it:

* a table that was only *implied* by the name of another one may still get a header;
* a table with a *header* may get neither a second one nor a dotted key from elsewhere;
* a table that a *dotted* key made may get no header.

In the first edition the strongest mention counts, and a name that leads to an array of tables leads
into its last table. In the second edition the last mention counts, and an array of tables is only
extended by further tables. Values are closed in both. Whatever would give a key a second meaning is
refused.
-/

namespace Hocon

namespace Toml

/-- How a table is mentioned. -/
inductive Origin where
  /-- The name of a table below it implies it. -/
  | implied
  /-- It has a header. -/
  | header
  /-- A dotted key makes it. -/
  | dotted
  deriving DecidableEq, Repr

/-- What stands under a key of a table under construction. -/
inductive Item where
  /-- A value that nothing can be added to. -/
  | value (v : Value)
  /-- A table that may be extended. -/
  | table (origin : Origin) (entries : List (String × Item))
  /-- An array of tables: those that are complete, and the last one. -/
  | tables (complete : List (List (String × Item))) (last : List (String × Item))
  deriving Inhabited

/-- The entries of a table under construction, in the order of their first mention. -/
abbrev Table := List (String × Item)

/-- Why something may not be said of a key. -/
inductive Redefinition where
  /-- The key would get a second meaning. -/
  | taken (key : String)
  /-- A table that a dotted key made would get a header. -/
  | dottedTable
  deriving DecidableEq, Repr

/-- The wording of a redefinition. -/
def Redefinition.message : Redefinition → String
  | taken key => "Key \"" ++ key ++ "\" already exists."
  | dottedTable => "Redefinition of an existing table"

/-- How the table under a key counts as mentioned after one more mention. -/
def Origin.again (edition : Edition) (key : String) : Origin → Origin → Except Redefinition Origin
  | dotted, header => .error .dottedTable
  | header, header => .error (.taken key)
  | header, dotted => .error (.taken key)
  | earlier, later =>
    .ok (if edition = .first ∧ later = implied then earlier else later)

/-- Changes what stands under a key; a key that is new comes last. -/
def Table.alter (key : String) (change : Option Item → Except Redefinition Item) :
    Table → Except Redefinition Table
  | [] => do return [(key, ← change none)]
  | (k, item) :: rest =>
    if k = key then do return (k, ← change (some item)) :: rest
    else do return (k, item) :: (← alter key change rest)

mutual

/-- What stands under a key and one more item for it, joined. -/
def Item.join (edition : Edition) (key : String) (known : Item) :
    Item → Except Redefinition Item
  | .value _ => .error (.taken key)
  | .table later entries =>
    match known with
    | .value _ => .error (.taken key)
    | .table earlier table => do
      let origin ← earlier.again edition key later
      return .table origin (← Table.addAll edition table entries)
    | .tables complete last =>
      if edition = .first ∧ later = .implied then do
        return .tables complete (← Table.addAll edition last entries)
      else .error (.taken key)
  | .tables further last =>
    match known with
    | .tables complete table => .ok (.tables (complete ++ table :: further) last)
    | _ => .error (.taken key)

/-- A table with further items for its keys, one after the other. -/
def Table.addAll (edition : Edition) (table : Table) :
    List (String × Item) → Except Redefinition Table
  | [] => .ok table
  | (key, item) :: rest => do
    let table ← Table.alter key (fun
      | none => .ok item
      | some known => Item.join edition key known item) table
    Table.addAll edition table rest

end

/-- A table with one more item for a key. -/
def Table.add (edition : Edition) (key : String) (item : Item) (table : Table) :
    Except Redefinition Table :=
  table.addAll edition [(key, item)]

/-- An item at the end of a name, below tables that the name mentions. -/
def Item.under (origin : Origin) (keys : List String) (item : Item) : Item :=
  keys.foldr (fun key item => .table origin [(key, item)]) item

/-! ### The finished values -/

mutual

/-- The value of what stands under a key. -/
def Item.toValue : Item → Value
  | .value v => v
  | .table _ entries => .map (itemEntries entries)
  | .tables complete last => .list (itemMaps complete ++ [.map (itemEntries last)])

/-- The entries of a table, with their values. -/
def itemEntries : List (String × Item) → List (Value × Value)
  | [] => []
  | (key, item) :: rest => (.str key, item.toValue) :: itemEntries rest

/-- The tables of an array. -/
def itemMaps : List (List (String × Item)) → List Value
  | [] => []
  | entries :: rest => .map (itemEntries entries) :: itemMaps rest

end

/-- A finished table. -/
def Table.toEntries (table : Table) : Entries :=
  itemEntries table

end Toml

end Hocon
