import Hocon.Literal

/-!
# The layout of a list

A list is written on one line when none of its elements is a map or a list, none carries a comment,
and the literals of its elements, with one character each for what separates them, stay below
`inlineLimit` characters. Otherwise it is a block with one element to a line.

The list is read twice for this, first for its shape and then for its length, and either reading
may be broken off by a failure. Measuring stops as soon as the limit is reached, so what stands
behind that point is not looked at.
-/

namespace Hocon

/-- The measured length at which a list no longer fits on one line. -/
def inlineLimit : Nat := 80

namespace Layout

/-- Why an element makes its list a block, whatever the length of the list. -/
def blockReason? : Value → Option String
  | .scalarNode _ none => none
  | .scalarNode _ (some _) => some "Block list: element carries a comment"
  | v => if v.isNode then some ("Block list: nested " ++ v.typeName) else none

/-- What a failed measuring ends with: the position of a value without literal form is known, that
of any other problem is not. -/
def measuringHalt (index : Nat) : Halt → Halt
  | .error e =>
    .error { e with path := if e.problem.category = .unsupportedValue then [.index index] else [] }
  | .failure f => .failure f

/-- Whether the elements, which begin at `index` and follow elements of the measured length
`length`, stay below the limit. What is no node at all is never on one line. -/
def measure (policy : Except Problem Quoting) (failure : Option Failure) (index length : Nat) :
    List Value → Attempt Halt Bool
  | [] =>
    match failure with
    | some f => throw (.failure f)
    | none => return true
  | .scalarNode v _ :: rest =>
    match Literal.ofValue policy v with
    | .error halt => throw (measuringHalt index halt)
    | .ok literal =>
      let length := length + literal.text.length + 1
      if inlineLimit ≤ length then do
        Attempt.record Log.trace .layout
          ("Block list: rendered length reached " ++ toString length)
        return false
      else measure policy failure (index + 1) length rest
  | _ :: _ => return false

/-- Whether a list is written on one line, decided on two readings of it. -/
def isInline (policy : Except Problem Quoting) (shape length : Pass Value) : Attempt Halt Bool :=
  match shape.items.findSome? blockReason? with
  | some reason => do
    Attempt.record Log.trace .layout reason
    return false
  | none =>
    match shape.failure with
    | some f => throw (.failure f)
    | none => measure policy length.failure 0 0 length.items

end Layout

end Hocon
