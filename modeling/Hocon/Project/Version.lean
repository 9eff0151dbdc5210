import Hocon.Directory
import Hocon.Text.Numeral
import Hocon.Toml.Read
import Hocon.Unicode.Blank

/-!
# Interpreter versions of a project

A project file names the interpreter versions that the project supports by classifiers, texts that
start with a fixed mark and go on with a version of two numbers. `supportedVersions` collects these
versions, each once and in ascending order; if there are none, the version of the running
interpreter stands in for them.

The classifiers are not checked to be a list of texts: a text counts as the list of its characters
and a table as the list of its keys, and whatever else stands there is an error.
-/

namespace Hocon

namespace Project

/-! ### Versions -/

/-- A version of two numbers. -/
structure Version where
  /-- The first number. -/
  major : Nat
  /-- The second number. -/
  minor : Nat
  deriving DecidableEq, Repr

namespace Version

/-- The text of a version. -/
def text (v : Version) : String :=
  toString v.major ++ "." ++ toString v.minor

/-- Whether a version is not above another one. The numbers are compared, not their texts. -/
def le (v w : Version) : Bool :=
  v.major < w.major || (v.major = w.major && v.minor ≤ w.minor)

end Version

/-! ### Classifiers -/

/-- What a classifier of an interpreter version starts with. -/
def versionMark : String := "Programming Language :: Python :: "

/-- Why the versions of a project cannot be told. -/
inductive VersionError where
  /-- The classifiers are neither a list nor a text nor a table. -/
  | notAList (value : Value)
  /-- A classifier is no text. -/
  | notAText (value : Value)
  /-- A number of a version is written with digits that form no number. -/
  | notANumber (error : NumeralError)
  deriving Repr

/-- The wording of a version error. -/
def VersionError.message : VersionError → String
  | notAList v => "'" ++ v.typeName ++ "' object is not iterable"
  | notAText v => "'" ++ v.typeName ++ "' object has no attribute 'startswith'"
  | notANumber e => e.message

/-- A number of a version. -/
def readComponent (digits : List Char) : Except VersionError Nat :=
  (readNumeral digits).mapError .notANumber

/-- The version that a text names: two runs of digits with a point between them, and blanks around
them. -/
def readVersion (text : List Char) : Except VersionError (Option Version) :=
  match splitOn '.' (strip text) with
  | [major, minor] =>
    if isDigits major && isDigits minor then do
      return some { major := ← readComponent major, minor := ← readComponent minor }
    else return none
  | _ => return none

/-- The version that a classifier names, if it is one of an interpreter version. -/
def classifierVersion (classifier : String) : Except VersionError (Option Version) :=
  if versionMark.toList.isPrefixOf classifier.toList then
    readVersion (classifier.toList.drop versionMark.length)
  else return none

/-- The versions that classifiers name, in their order. -/
def classifierVersions : List Value → Except VersionError (List Version)
  | [] => return []
  | .str classifier :: rest => do
    return (← classifierVersion classifier).toList ++ (← classifierVersions rest)
  | v :: _ => throw (.notAText v)

/-- The versions, each once, in ascending order. -/
def sortVersions (versions : List Version) : List Version :=
  versions.eraseDups.mergeSort Version.le

/-! ### Project files -/

/-- The table that a project file holds. A file that is missing or cannot be read holds none. -/
def readTable (file : Option (List UInt8)) : Entries :=
  match file with
  | none => []
  | some octets =>
    match textOfOctets octets with
    | .error _ => []
    | .ok text => (Toml.read .first text).toOption.getD []

/-- The table that describes the project, if the file has one. -/
def description? (table : Entries) : Option Entries :=
  match table.lookup "project" with
  | some (.map entries) => some entries
  | _ => none

/-- The classifiers as a list. What is empty, zero or false counts as none. -/
def classifiers : Value → Except VersionError (List Value)
  | .null | .bool false => .ok []
  | .list items => .ok items
  | .str text => .ok (text.toList.map fun c => .str c.toString)
  | .map entries => .ok (entries.map (·.1))
  | .int n => if n = 0 then .ok [] else .error (.notAList (.int n))
  | .float bits =>
    if Binary64.isZero bits then .ok [] else .error (.notAList (.float bits))
  | v => .error (.notAList v)

/-- The interpreter versions that a project supports, or the running one if it names none. -/
def supportedVersions (running : Version) (table : Entries) :
    Except VersionError (List Version) := do
  match description? table with
  | none => return [running]
  | some project =>
    let found ← classifierVersions (← classifiers ((project.lookup "classifiers").getD .null))
    return if found.isEmpty then [running] else sortVersions found

/-- The warning that a project file has no project table, if it has none. -/
def missingWarning? (running : Version) (table : Entries) : Option String :=
  if (description? table).isSome then none
  else some ("Could not find 'project' table. Falling back to Python " ++ running.text ++ ".")

end Project

end Hocon
