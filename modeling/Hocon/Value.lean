import Hocon.Failure

/-!
# Configuration data

Data that a document is rendered from. One type holds both the plain values – primitives, tuples,
lists, maps – and the *nodes* of a configuration tree, because each may stand inside the other: a
plain list may embed a node, and nothing stops a caller from putting a plain value where a node
belongs. What is out of place is an error that rendering reports, with the value in its text, so
values that have no written form at all (byte strings, complex numbers, sets) are values here too.

A node reads its children from a container that may change while it is read. Each reading of a
container is a `Pass`: the children it yields and the failure that breaks it off, if one does. A
map is read once; a list is read up to three times, so it holds its first pass and the later ones.
A container that is left alone yields the same children on each pass (`Value.listNode` with no
failure and no later pass).
-/

namespace Hocon

/-! ### Readings of a container -/

/-- One reading of a container: what it yields, and the failure that breaks it off, if any. -/
structure Pass (α : Type) where
  /-- What is yielded, in order. -/
  items : List α
  /-- What breaks the reading off after the last item. -/
  failure : Option Failure := none
  deriving Repr

/-! ### Values and nodes -/

/-- A configuration value: plain data, or a node of a configuration tree. -/
inductive Value where
  /-- The null value. -/
  | null
  /-- A truth value. -/
  | bool (b : Bool)
  /-- An integer of any size. -/
  | int (n : Int)
  /-- A binary floating-point number, as the 64 bits of its interchange format. -/
  | float (bits : UInt64)
  /-- A text. -/
  | str (s : String)
  /-- A string of bytes. -/
  | bytes (octets : List UInt8)
  /-- A complex number with integer parts. -/
  | complex (re im : Int)
  /-- The ellipsis. -/
  | ellipsis
  /-- A set. -/
  | set (items : List Value)
  /-- A tuple. -/
  | tuple (items : List Value)
  /-- A list. -/
  | list (items : List Value)
  /-- A map, with its entries in order. -/
  | map (entries : List (Value × Value))
  /-- A node that holds one primitive value, or a value that is wrong there. -/
  | scalarNode (value : Value) (comment : Option String)
  /-- A node that holds a sequence of children: its first pass, and the later ones if they
  differ. -/
  | listNode (children : List Value) (failure : Option Failure) (later : List (Pass Value))
      (comment : Option String)
  /-- A node that holds keyed children, in order, and what breaks the reading of them off. -/
  | mapNode (entries : List (Value × Value)) (failure : Option Failure) (comment : Option String)
  deriving Inhabited, Repr

/-- The keys and values of a map, in order. -/
abbrev Entries := List (Value × Value)

/-- The first entry under a text key. -/
def Entries.lookup (key : String) : Entries → Option Value
  | [] => none
  | (.str k, v) :: rest => if k = key then some v else Entries.lookup key rest
  | _ :: rest => Entries.lookup key rest

namespace Value

/-- Whether a value is one of the three kinds of nodes. -/
def isNode : Value → Bool
  | scalarNode .. | listNode .. | mapNode .. => true
  | _ => false

/-- Whether a value is a map of plain data. -/
def isMap : Value → Bool
  | map _ => true
  | _ => false

/-- The list node of the given children, which stay as they are. -/
def ofChildren (children : List Value) (comment : Option String := none) : Value :=
  listNode children none [] comment

/-- The map node of the given entries, which stay as they are. -/
def ofEntries (entries : Entries) (comment : Option String := none) : Value :=
  mapNode entries none comment

/-- The list node whose reading number `number`, counted from one, is broken off after `after`
children; all other readings yield every child. -/
def failingList (children : List Value) (number after : Nat) (failure : Failure)
    (comment : Option String) : Value :=
  let full : Pass Value := { items := children }
  let broken : Pass Value := { items := children.take after, failure }
  match number with
  | 0 => ofChildren children comment
  | 1 => listNode broken.items broken.failure [full] comment
  | n + 2 => listNode children none (List.replicate n full ++ [broken, full]) comment

/-- The list node that yields one list of children after the other, and the last one for good. -/
def changingList (readings : List (List Value)) (comment : Option String) : Value :=
  match readings with
  | [] => ofChildren [] comment
  | children :: rest => listNode children none (rest.map fun items => { items }) comment

/-- The map node whose reading is broken off after `after` entries. -/
def failingMap (entries : Entries) (after : Nat) (failure : Failure) (comment : Option String) :
    Value :=
  mapNode (entries.take after) (some failure) comment

/-- The pass with a given number, counted from zero, over a list with the given first pass and the
given later ones; the last pass is repeated for good. -/
def pass (first : Pass Value) (later : List (Pass Value)) : Nat → Pass Value
  | 0 => first
  | n + 1 => later[n]?.getD (later.getLast?.getD first)

/-- The name of a value's type, as the error texts give it. -/
def typeName : Value → String
  | null => "NoneType"
  | bool _ => "bool"
  | int _ => "int"
  | float _ => "float"
  | str _ => "str"
  | bytes _ => "bytes"
  | complex .. => "complex"
  | ellipsis => "ellipsis"
  | set _ => "set"
  | tuple _ => "tuple"
  | list _ => "list"
  | map _ => "dict"
  | scalarNode .. => "ScalarNode"
  | listNode .. => "ListNode"
  | mapNode .. => "MapNode"

end Value

end Hocon
