import Hocon.Project.Version
import Hocon.Value.Display

/-!
# Sessions of project automation

A session is a list of commands that check or build the project: packages are installed and
programs are run. Two sessions pass extra words of the caller on to the test program, and one of
them is run once for each interpreter version and needs to know the version.
-/

namespace Hocon

namespace Project

/-- A command that a session asks for. -/
inductive Command where
  /-- Install packages. -/
  | install (words : List String)
  /-- Run a program. -/
  | run (words : List String)
  deriving DecidableEq, Repr

/-- The sessions. -/
inductive Session where
  /-- Tests and type checks. -/
  | qa
  /-- The tests that run for long. -/
  | propertyTest
  /-- Static analysis. -/
  | lint
  /-- Static analysis with mending. -/
  | lintFix
  /-- Check of the layout of the code. -/
  | formatCheck
  /-- Mending of the layout of the code. -/
  | format
  /-- Build of the packages, and a check of their descriptions. -/
  | packageCheck
  deriving DecidableEq, Repr

namespace Session

/-- All sessions, in their order. -/
def all : List Session :=
  [qa, propertyTest, lint, lintFix, formatCheck, format, packageCheck]

/-- The sessions that are run if none is asked for. -/
def byDefault : List Session :=
  [lint, formatCheck]

/-- The name of a session. -/
def name : Session → String
  | qa => "qa"
  | propertyTest => "property_test"
  | lint => "lint"
  | lintFix => "lint_fixall"
  | formatCheck => "format_check"
  | format => "format"
  | packageCheck => "package_check"

/-- The versions that a session is run for. -/
inductive Interpreters where
  /-- Whatever version there is. -/
  | any
  /-- One version. -/
  | one (version : Version)
  /-- Each of several versions. -/
  | each (versions : List Version)
  deriving DecidableEq, Repr

/-- The versions that a session is run for in a project that supports the given ones, next to the
running one. -/
def interpreters (running : Version) (supported : List Version) : Session → Interpreters
  | qa => .each supported
  | packageCheck => .one running
  | _ => .any

/-- The failure of an interpreter that is not named by a version, whose wording shows what is given
in its place. -/
def unexpectedInterpreter (given : Value) : Failure :=
  match given.display with
  | some s => { kind := .runtime, message := "Unexpected session.python value: " ++ s }
  | none => .tooManyDigits

/-- The name of an interpreter version. -/
def interpreterName : Value → Except Failure String
  | .str name => if name = "" then .error (unexpectedInterpreter (.str name)) else .ok name
  | v => .error (unexpectedInterpreter v)

/-- The commands that a session asks for with an interpreter and with extra words, and how it
ends. -/
def run (interpreter : Value) (extra : List String) :
    Session → List Command × Except Failure Unit
  | qa =>
    let tests := [.install ["-e", ".[dev]"],
      .run (["pytest", "-q", "tests", "-m", "not slow and not hypothesis_slow"] ++ extra)]
    match interpreterName interpreter with
    | .error e => (tests, .error e)
    | .ok name => (tests ++ [.run ["pyright", "--pythonversion", name]], .ok ())
  | propertyTest =>
    ([.install ["-e", ".[test]"],
      .run (["pytest", "-vv", "tests/rendering/test_renderer_property.py"] ++ extra)], .ok ())
  | lint => ([.install ["ruff"], .run ["ruff", "check", "."]], .ok ())
  | lintFix => ([.install ["ruff"], .run ["ruff", "check", "--fix", "."]], .ok ())
  | formatCheck => ([.install ["ruff"], .run ["ruff", "format", "--check", "."]], .ok ())
  | format => ([.install ["ruff"], .run ["ruff", "format", "."]], .ok ())
  | packageCheck =>
    ([.install ["build", "twine"],
      .run ["python", "-c", "import shutil; shutil.rmtree('dist', ignore_errors=True)"],
      .run ["python", "-m", "build", "--sdist", "--wheel"],
      .run ["twine", "check", "dist/*"]], .ok ())

end Session

/-- The classifiers of this project. -/
def ownClassifiers : List String := [
  "Development Status :: 3 - Alpha",
  "Intended Audience :: Developers",
  "License :: OSI Approved :: MIT License",
  "Operating System :: OS Independent",
  "Programming Language :: Python :: 3",
  "Programming Language :: Python :: 3.10",
  "Programming Language :: Python :: 3.11",
  "Programming Language :: Python :: 3.12",
  "Programming Language :: Python :: 3.13",
  "Topic :: Software Development :: Libraries"]

/-- What the project file of this project says of its interpreter versions. -/
def ownTable : Entries :=
  [(.str "project", .map [(.str "classifiers", .list (ownClassifiers.map .str))])]

end Project

end Hocon
