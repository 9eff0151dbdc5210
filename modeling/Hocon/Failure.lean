import Hocon.Path
import Hocon.Text.Numeral

/-!
# Failures

A failure is what ends a computation and is no error of the rendering itself: the reading of a
container was broken off, an integer has too many digits to be written, a count of characters does
not fit into a machine word. It has a kind and its own words. A container may fail for any reason,
so the kinds are open; those are told apart to which a rendering reacts.
-/

namespace Hocon

/-- What kind of failure it is. -/
inductive Failure.Kind where
  /-- The container found itself changed. -/
  | runtime
  /-- The container does not support the reading; counts as a change. -/
  | notImplemented
  /-- The reading ran out of stack. -/
  | recursion
  /-- A value was refused. -/
  | value
  /-- A type was refused. -/
  | type
  /-- A number is too large for the machine. -/
  | overflow
  /-- The container said that it is at its end, when it was asked to begin. -/
  | exhausted
  /-- A value has no literal form; the container says so itself, of a position below its own. -/
  | unsupported (path : Path)
  /-- Any other kind, by its name, and whether it counts as a change of the container. -/
  | other (name : String) (isInstability : Bool)
  deriving DecidableEq, Repr

/-- A failure, with its own words. -/
structure Failure where
  /-- What kind of failure it is. -/
  kind : Failure.Kind
  /-- What it says. -/
  message : String
  deriving DecidableEq, Repr

namespace Failure

/-- Whether a failure says that the container is unstable. Running out of stack does not: a tree
that is too deep has not changed. -/
def isInstability (f : Failure) : Bool :=
  match f.kind with
  | .runtime | .notImplemented => true
  | .other _ isInstability => isInstability
  | .recursion | .value | .type | .overflow | .exhausted | .unsupported _ => false

/-- An integer has more digits than can be written. -/
def tooManyDigits : Failure where
  kind := .value
  message := "Exceeds the limit (" ++ toString maxDigits ++
    " digits) for integer string conversion; use sys.set_int_max_str_digits() to increase the limit"

/-- A count of characters does not fit into a machine word. -/
def countTooLarge : Failure where
  kind := .overflow
  message := "cannot fit 'int' into an index-sized integer"

end Failure

end Hocon
