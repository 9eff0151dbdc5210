import Hocon.Text.Display

/-!
# Paths

The position of a node: the keys and indices that lead to it from the root, first step first. A
path is written like an access, `server.ports[2]`, and the root as `<root>`.
-/

namespace Hocon

/-- One step from a container to a child. -/
inductive Step where
  /-- To the child under a key, given by the key's text. -/
  | key (text : String)
  /-- To the child at an index. -/
  | index (n : Int)
  deriving DecidableEq, Repr

/-- A step as it is shown inside a log message. -/
def Step.display : Step → String
  | key k => displayText k
  | index n => toString n

/-- The steps from the root to a node. -/
abbrev Path := List Step

namespace Path

/-- The steps behind the first one: a key follows a point, an index stands in brackets. -/
def textAfter : Path → String
  | [] => ""
  | .key k :: rest => "." ++ k ++ textAfter rest
  | .index n :: rest => "[" ++ toString n ++ "]" ++ textAfter rest

/-- A path as a reader would write it. No point stands before the first step. -/
def text : Path → String
  | [] => "<root>"
  | .key k :: rest => k ++ textAfter rest
  | .index n :: rest => "[" ++ toString n ++ "]" ++ textAfter rest

/-- A path as it is shown inside a log message: a tuple of its steps. -/
def display : Path → String
  | [step] => "(" ++ step.display ++ ",)"
  | steps => "(" ++ ", ".intercalate (steps.map Step.display) ++ ")"

end Path

end Hocon
