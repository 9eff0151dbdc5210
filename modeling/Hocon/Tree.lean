import Hocon.Render

/-!
# Plain data as a tree

`Value.toNode` builds a configuration tree from plain data: maps become map nodes, lists and tuples
become list nodes, primitive values become scalar nodes, and nodes that are already there are kept
as they are, whatever they hold. The first value without a node form ends it. `Value.toData` goes
the other way and drops the comments. `renderValue` renders plain data.
-/

namespace Hocon

namespace Value

mutual

/-- The tree of a value, before it is given a comment. -/
def buildNode : Value → Except Halt Value
  | map entries => do return ofEntries (← buildEntries entries)
  | list items => do return ofChildren (← buildItems items)
  | tuple items => do return ofChildren (← buildItems items)
  | null => .ok (scalarNode null none)
  | bool b => .ok (scalarNode (bool b) none)
  | int n => .ok (scalarNode (int n) none)
  | float bits => .ok (scalarNode (float bits) none)
  | str s => .ok (scalarNode (str s) none)
  | v => if v.isNode then .ok v else .error (.ofProblem (.unsupported v none))

/-- The trees of the items of a sequence. -/
def buildItems : List Value → Except Halt (List Value)
  | [] => .ok []
  | v :: rest => do
    let child ← buildNode v
    return child :: (← buildItems rest)

/-- The trees of the values of a map, under the same keys. -/
def buildEntries : List (Value × Value) → Except Halt (List (Value × Value))
  | [] => .ok []
  | (k, v) :: rest => do
    let child ← buildNode v
    return (k, child) :: (← buildEntries rest)

end

/-- A node with another comment. -/
def withComment (comment : String) : Value → Value
  | scalarNode value _ => scalarNode value (some comment)
  | listNode children failure later _ => listNode children failure later (some comment)
  | mapNode entries failure _ => mapNode entries failure (some comment)
  | v => v

/-- The tree of a value. A comment that is given replaces that of a node that is kept. -/
def toNode (v : Value) (comment : Option String := none) : Except Halt Value := do
  let n ← buildNode v
  return comment.elim n n.withComment

mutual

/-- The plain data of a tree, without comments; what is no node holds nothing. Reading a container
may fail. -/
def toData : Value → Except Failure Value
  | scalarNode value _ => .ok value
  | listNode children failure _ _ => do
    let items ← itemsToData children
    match failure with
    | some f => .error f
    | none => .ok (list items)
  | mapNode entries failure _ => do
    let data ← entriesToData entries
    match failure with
    | some f => .error f
    | none => .ok (map data)
  | _ => .ok null

/-- The plain data of the children of a list. -/
def itemsToData : List Value → Except Failure (List Value)
  | [] => .ok []
  | v :: rest => do
    let data ← toData v
    return data :: (← itemsToData rest)

/-- The plain data of the children of a map, under the same keys. -/
def entriesToData : List (Value × Value) → Except Failure (List (Value × Value))
  | [] => .ok []
  | (k, v) :: rest => do
    let data ← toData v
    return (k, data) :: (← entriesToData rest)

end

end Value

/-- The text of plain data. -/
def renderValue [Host] (o : Options) (v : Value) : Attempt Halt String :=
  match v.toNode with
  | .ok root => render o root
  | .error halt => throw halt

end Hocon
