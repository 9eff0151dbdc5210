import Hocon.Log.Record
import Hocon.Text.Numeral
import Hocon.Unicode.Blank
import Hocon.Unicode.Case

/-!
# Setting up the log

The log has one root, which holds the level below which records are dropped and the handlers that
write the others. `Root.setUp` gives it a level and exactly one handler, however many it had.

The level is the one that is asked for, or else the one that a word of the environment names
(`environmentLevel`), or else that of critical errors. The word zero counts as no level.
-/

namespace Hocon

namespace Log

/-! ### The environment -/

/-- The words for levels. -/
def levelWords : List (List Char × Int) := [
  ("TRACE", trace), ("DEBUG", debug), ("INFO", info), ("WARNING", warning), ("WARN", warning),
  ("ERROR", error), ("CRITICAL", critical), ("FATAL", critical), ("NOTSET", 0)].map
    fun entry => (entry.1.toList, entry.2)

/-- The level that a variable of the environment asks for: by a numeral, or by a word for it in any
case; blanks around it do not count. A variable that is not set or empty asks for none, nor does
another word. -/
def environmentLevel (setting : Option String) : Except NumeralError (Option Int) :=
  match setting with
  | none => .ok none
  | some text =>
    let word := toUpper (strip text.toList)
    if isDigits word then (readNumeral word).map fun n => some (n : Int)
    else .ok (levelWords.lookup word)

/-! ### The root -/

/-- How a handler lays a record out. -/
inductive Layout where
  /-- Level and message. -/
  | brief
  /-- Level, place in the program, and message. -/
  | detailed
  deriving DecidableEq, Repr

/-- The template of a layout. -/
def Layout.template : Layout → String
  | brief => "[%(levelname)s] %(message)s"
  | detailed => "[%(levelname)s] [%(filename)s:%(lineno)d] [%(funcName)s] %(message)s"

/-- The layout for a level: below notices, the place in the program is shown. -/
def Layout.ofLevel (level : Int) : Layout :=
  if info ≤ level then brief else detailed

/-- The root of the log. -/
structure Root where
  /-- The level below which records are dropped. -/
  level : Int := warning
  /-- The handlers, each with its layout. -/
  handlers : List Layout := []
  /-- Whether records are passed on beyond the root. -/
  propagates : Bool := true
  deriving DecidableEq, Repr

/-- The level that is set, from the one that is asked for and the one that the environment asks
for. -/
def chosenLevel (wanted environment : Option Int) : Int :=
  match wanted with
  | some level => level
  | none =>
    let level := environment.getD 0
    if level = 0 then critical else level

/-- The root with a level and with one handler that fits it. The environment is asked only if no
level is given. -/
def Root.setUp (wanted : Option Int) (setting : Option String) (_ : Root) :
    Except NumeralError Root := do
  let environment ← if wanted.isSome then pure none else environmentLevel setting
  let level := chosenLevel wanted environment
  return { level, handlers := [Layout.ofLevel level], propagates := false }

end Log

end Hocon
