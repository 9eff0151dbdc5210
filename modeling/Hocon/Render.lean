import Hocon.Document
import Hocon.Layout

/-!
# Rendering a tree

A tree is walked depth first and turned into a document. The map at the root is written bare, one
entry after the other; a nested map stands in braces. Each entry is the comment of its child, the
indentation, the key, the separator, the value and a line break. A list is written on one line or
as a block, one element to a line with a comma behind each but the last (`Hocon.Layout`). A list or
a primitive value at the root is written as if it stood one level below a bare map, and is followed
by a line break.

Everything is rendered relative to a `level`, which is the indentation of the lines inside a
container; the bracket that closes the container stands one level further out. The elements of a
list on one line are rendered at level zero, and a map at level zero is bare.

The first problem in the order of the walk ends it (`Halt`), and no text is returned. A container
is read when the walk reaches it, so a failure of a map is met after the entries before it.

* `Value.document` – the document of a tree;
* `render` – its text;
* `renderValue` – the text of plain data, in `Hocon.Tree`.
-/

namespace Hocon

/-- The comment of a node; whatever is no node has none to ask for. -/
def Value.comment? : Value → Except Problem (Option String)
  | .scalarNode _ comment => .ok comment
  | .listNode _ _ _ comment => .ok comment
  | .mapNode _ _ comment => .ok comment
  | v => .error (.noComment v)

namespace Render

/-- What a failure while a map is read becomes: an error at the path of the map if the map is
unstable, and otherwise the failure itself. A map is read step by step, and a map that says that it
is at its end when it is asked to begin makes that reading fail. -/
def haltOfMap (path : Path) (f : Failure) : Halt :=
  if f.isInstability then .error { problem := .mapChanged f, path }
  else .failure (if f.kind = .exhausted then ⟨.runtime, "generator raised StopIteration"⟩ else f)

/-- What a failure while a list is read or measured becomes: an error at the path of the list if
the list is unstable, and otherwise the failure itself. A position in it is completed by that of
the list. -/
def haltOfList (path : Path) (f : Failure) : Halt :=
  if f.isInstability then .error { problem := .listChanged f, path }
  else match f.kind with
    | .unsupported below => .failure { f with kind := .unsupported (path ++ below) }
    | _ => .failure f

/-- What an abandoned layout of the list at `path` becomes: a failure is the list's own, and the
position of a value without literal form is completed by that of the list. -/
def haltOfLayout (path : Path) : Halt → Halt
  | .failure f => haltOfList path f
  | .error e =>
    if e.problem.category = .unsupportedValue then .error { e with path := path ++ e.path }
    else .error e

/-- The comment lines above a child. -/
def commentAbove (level : Nat) (child : Value) : Attempt Halt Document :=
  match child.comment? with
  | .ok comment => return Document.ofComment level comment
  | .error problem => throw (.ofProblem problem)

/-- The literal of a scalar node. -/
def scalar (o : Options) (path : Path) (value : Value) : Attempt Halt Document :=
  match Literal.ofValue o.stringQuoting.policy value with
  | .ok literal => return [.literal literal]
  | .error halt => throw (halt.locate path)

/-- What stands between a key and a value: a space before a nested map whose separator is omitted,
and otherwise the separator. A word in the place of the rule omits nothing. -/
def separatorBefore (o : Options) : Value → Piece
  | .mapNode .. => if o.objectSeparator = .member .omitted then .space else .separator
  | _ => .separator

/-- What breaks off the reading of a container, as the end of the walk. -/
def brokenOff (halt : Failure → Halt) : Option Failure → Attempt Halt Unit
  | none => return ()
  | some f => throw (halt f)

/-- The text of a map's key, which ends the walk if it has none. -/
def keyTextOf (k : Value) : Attempt Halt String :=
  match keyText? k with
  | some key => return key
  | none => throw (.failure .tooManyDigits)

/-- The entries of a map put into braces, unless the map is bare. -/
def inBraces (level : Nat) (entries : Document) : Document :=
  if level = 0 then entries
  else [.opening .brace, .newline] ++ entries ++ [.indent (level - 1), .closing .brace]

/-- The elements of a list put into brackets. An empty list keeps one space. -/
def inBrackets (inline : Bool) (level : Nat) (empty : Bool) (elements : Document) : Document :=
  if inline && empty then [.opening .square, .space, .closing .square]
  else if inline then [.opening .square] ++ elements ++ [.space, .closing .square]
  else [.opening .square] ++ elements ++ [.newline, .indent (level - 1), .closing .square]

/-- The choice of a list's layout, and its record in the log. -/
def layoutOf (o : Options) (path : Path) (shape length : Pass Value) : Attempt Halt Bool := do
  let inline ← (Layout.isInline o.stringQuoting.policy shape length).adapt (haltOfLayout path)
  Attempt.record Log.trace .rendering
    ("List at " ++ path.display ++ ": " ++ if inline then "inline" else "block")
  return inline

mutual

/-- The document of a node at a level. -/
def node (o : Options) (level : Nat) (path : Path) : Value → Attempt Halt Document
  | .mapNode children failure _ => do
    let body ← entries o level path children
    brokenOff (haltOfMap path) failure
    return inBraces level body
  | .listNode children failure later _ => do
    brokenOff (haltOfList path) failure
    let first : Pass Value := { items := children, failure }
    let inline ← layoutOf o path (Value.pass first later 1) (Value.pass first later 2)
    let body ← if inline then inlineElements o path 0 children
      else blockElements o level path 0 children
    return inBrackets inline level children.isEmpty body
  | .scalarNode value _ => scalar o path value
  | v => throw (.ofProblem (.notANode v) path)

/-- The entries of a map, each on lines of its own. -/
def entries (o : Options) (level : Nat) (path : Path) :
    List (Value × Value) → Attempt Halt Document
  | [] => return []
  | (k, child) :: rest => do
    let key ← keyTextOf k
    let comment ← commentAbove level child
    let body ← node o (level + 1) (path ++ [.key key]) child
    let others ← entries o level path rest
    return comment ++ [.indent level, .key (Key.ofText o.keyQuoting key.toList),
      separatorBefore o child] ++ body ++ [.newline] ++ others

/-- The elements of a list on one line, from the element at `index` on. -/
def inlineElements (o : Options) (path : Path) (index : Nat) :
    List Value → Attempt Halt Document
  | [] => return []
  | child :: rest => do
    let body ← node o 0 (path ++ [.index index]) child
    let others ← inlineElements o path (index + 1) rest
    return [.space] ++ body ++ (if rest.isEmpty then [] else [.comma]) ++ others

/-- The elements of a block, from the element at `index` on. -/
def blockElements (o : Options) (level : Nat) (path : Path) (index : Nat) :
    List Value → Attempt Halt Document
  | [] => return []
  | child :: rest => do
    let comment ← commentAbove level child
    let body ← node o (level + 1) (path ++ [.index index]) child
    let others ← blockElements o level path (index + 1) rest
    return [.newline] ++ comment ++ [.indent level] ++ body ++
      (if rest.isEmpty then [] else [.comma]) ++ others

end

/-- The document of a whole tree. -/
def document (o : Options) : Value → Attempt Halt Document
  | v@(.mapNode _ _ comment) => do
    let body ← node o 0 [] v
    return Document.ofComment 0 comment ++ body
  | v@(.listNode _ _ _ comment) | v@(.scalarNode _ comment) => do
    let body ← node o 1 [] v
    return Document.ofComment 0 comment ++ body ++ [.newline]
  | v => throw (.ofProblem (.notANode v))

end Render

/-- The text of a tree. Its length is left in the log. Options that ask for more characters than
can be counted are refused before the tree is looked at. -/
def render [Host] (o : Options) (root : Value) : Attempt Halt String := do
  Attempt.ofExcept (o.checkCounts.mapError .failure)
  let document ← Render.document o root
  let text := document.text o
  Attempt.record Log.debug .rendering
    ("Rendered " ++ root.typeName ++ " root into " ++ toString text.length ++ " characters")
  return String.ofList text

end Hocon
