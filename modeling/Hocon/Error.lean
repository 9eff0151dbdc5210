import Hocon.Value.Display

/-!
# What can go wrong in a rendering

A `Problem` is the cause of a failed rendering; its wording is `Problem.message`. An `Error` is a
problem at a path. A rendering can also be ended by a failure, so what ends it is a `Halt`.

An error is raised with its wording, and the wording shows the value that is to blame. If an integer
in that value has too many digits to be shown, there is no error to raise, and the failure to write
the integer ends the rendering in its place (`Halt.ofProblem`).
-/

namespace Hocon

/-- The three families of errors, and the general one that holds them all. -/
inductive Category where
  /-- Any error. -/
  | general
  /-- A value has no literal form. -/
  | unsupportedValue
  /-- The tree changed while it was read. -/
  | unstableTree
  /-- An option or a kind of node is outside its closed set. -/
  | optionsConstraint
  deriving DecidableEq, Repr

/-- The families that an error of a category belongs to, its own one first. -/
def Category.families : Category → List Category
  | .general => [.general]
  | category => [category, .general]

/-- What is wrong. -/
inductive Problem where
  /-- The value has no literal form, for the reason given or because of its type. -/
  | unsupported (value : Value) (reason : Option String)
  /-- Reading a map was broken off because the map had changed. -/
  | mapChanged (cause : Failure)
  /-- Reading a list was broken off because the list had changed. -/
  | listChanged (cause : Failure)
  /-- The value stands where a node belongs. -/
  | notANode (value : Value)
  /-- The value stands where a node belongs, and was asked for its comment. -/
  | noComment (value : Value)
  /-- The word, or the lack of one, is no quoting policy. -/
  | unknownQuoting (word : Option String)
  /-- A problem of a category, in the words of whoever found it. -/
  | stated (category : Category) (words : String)
  deriving Repr

namespace Problem

/-- The family of a problem. -/
def category : Problem → Category
  | unsupported .. => .unsupportedValue
  | mapChanged _ | listChanged _ => .unstableTree
  | notANode _ | noComment _ | unknownQuoting _ => .optionsConstraint
  | stated category _ => category

/-- Why a value is unsupported: the reason given, or, if there is none or it is empty, the type. -/
def unsupportedDetail (value : Value) (reason : Option String) : String :=
  (reason.filter (· ≠ "")).getD ("unsupported type " ++ value.typeName)

/-- The wording of a problem, without its position, unless the value that it shows has no text. -/
def message : Problem → Option String
  | unsupported value reason => value.display.map fun s =>
    "Cannot render value " ++ s ++ ": " ++ unsupportedDetail value reason
  | mapChanged cause => some ("Map changed during rendering: " ++ cause.message)
  | listChanged cause => some ("List changed during rendering: " ++ cause.message)
  | notANode value => value.display.map fun s => "Not a configuration node: " ++ s
  | noComment value => value.display.map fun s => "Node cannot carry a comment: " ++ s
  | unknownQuoting word => some ("Unexpected quoting value: " ++ displayOptional word)
  | stated _ words => some words

/-- The failure behind a problem. -/
def cause? : Problem → Option Failure
  | mapChanged cause | listChanged cause => some cause
  | _ => none

end Problem

/-- A problem and the path of the node that has it. The path is empty when the problem is at the
root, and when whoever found it did not know the position. -/
structure Error where
  /-- What is wrong. -/
  problem : Problem
  /-- Where it is wrong. -/
  path : Path := []
  deriving Repr

/-- The wording of an error: that of its problem, followed by the position if there is a path. -/
def Error.message (e : Error) : Option String :=
  e.problem.message.map fun s => if e.path = [] then s else s ++ " (at " ++ e.path.text ++ ")"

/-- What ends a rendering without a text. -/
inductive Halt where
  /-- An error in the tree or in the options. -/
  | error (e : Error)
  /-- A failure, passed on as it is. -/
  | failure (f : Failure)
  deriving Repr

namespace Halt

/-- What a problem at a path ends a rendering with: the error, or the failure to put it into
words. -/
def ofProblem (problem : Problem) (path : Path := []) : Halt :=
  if problem.message.isSome then error { problem, path } else failure .tooManyDigits

/-- The halt of a node at a path: an error without a position gets that of the node. -/
def locate (path : Path) : Halt → Halt
  | error e => error (if e.path = [] then { e with path } else e)
  | failure f => failure f

end Halt

end Hocon
