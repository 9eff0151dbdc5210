import Hocon.Log.Record
import Hocon.Log.Style
import Hocon.Text.Display

/-!
# Diagnostics

What is found in an option file and does not keep the file from being used. Diagnostics have one of
three levels and a message, and are collected in order. Each diagnostic that is added leaves a
record in the log.
-/

namespace Hocon

/-- How grave a diagnostic is. -/
inductive Diagnostic.Level where
  /-- A notice. -/
  | info
  /-- A setting was ignored. -/
  | warning
  /-- A setting is wrong. -/
  | error
  deriving DecidableEq, Repr

namespace Diagnostic.Level

/-- The key of a level. -/
def key : Level → String
  | info => "info"
  | warning => "warning"
  | error => "error"

/-- The colour of a level on a terminal. -/
def style : Level → Style
  | info => .blue
  | warning => .yellow
  | error => .brightRed

end Diagnostic.Level

/-- A level and a message. -/
structure Diagnostic where
  /-- How grave it is. -/
  level : Diagnostic.Level
  /-- What was found. -/
  message : String
  deriving DecidableEq, Repr

/-- A diagnostic as a terminal shows it. -/
def Diagnostic.styled (d : Diagnostic) : String :=
  d.level.style.apply ("[" ++ d.level.key ++ "] " ++ d.message)

/-- Diagnostics in the order in which they were added. -/
abbrev Diagnostics := List Diagnostic

namespace Diagnostics

/-- How many diagnostics there are of a level. -/
def count (ds : Diagnostics) (level : Diagnostic.Level) : Nat :=
  ds.countP fun d => d.level = level

/-- Whether there is a diagnostic of a level. -/
def has (ds : Diagnostics) (level : Diagnostic.Level) : Bool :=
  ds.any fun d => d.level = level

/-- The record that a diagnostic leaves in the log. -/
def record (d : Diagnostic) : Log.Record where
  level := Log.trace
  source := .diagnostics
  message := "Adding [" ++ d.level.key ++ "]: " ++ displayText d.message

/-- One more diagnostic. -/
def add (ds : Diagnostics) (d : Diagnostic) : Logged Diagnostics := do
  Logged.leave [record d]
  return ds ++ [d]

@[simp] theorem value_add (ds : Diagnostics) (d : Diagnostic) : (ds.add d).value = ds ++ [d] := rfl

end Diagnostics

end Hocon
