import Hocon.Directory
import Hocon.Options.Table
import Hocon.Toml.Library

/-!
# Option files

Options are kept in TOML files: in a file of their own, whose outermost table is the table form of
options, or in the file that describes a project, where that table is a section among others. A
directory stands for the option file in it.

A file that cannot be read or that is no TOML sets nothing, and the log says why. Other things are
not forgiven: that it cannot be told whether a path leads to a directory, a path with a null
character, octets that are no UTF-8, a failure of the library that reads TOML, and a warning for
which there are no words.
-/

namespace Hocon

/-! ### Names -/

/-- The name of an option file. -/
def optionFileName : String := "hoconrender.toml"

/-- The name of a file that describes a project. -/
def projectFileName : String := "pyproject.toml"

/-- The section of a project file that holds the options. -/
def projectSection : String := "tool.hoconrender"

/-! ### Reading -/

/-- Why the loading of an option file is given up. -/
inductive LoadError where
  /-- The file is no UTF-8. -/
  | notUtf8 (fault : Utf8.Fault)
  /-- What a path leads to cannot be told. -/
  | file (e : FileError)
  /-- The library that reads TOML fails, or a warning cannot be put into words. -/
  | failure (f : Failure)
  deriving DecidableEq, Repr

/-- The wording of a load error, for a file with the given name. -/
def LoadError.message (name : String) : LoadError → String
  | notUtf8 fault => fault.message
  | file e => e.message name
  | failure f => f.message

namespace Directory

/-- Notes in the log that a table is missing. -/
def recordMissing (d : Directory) (path : FilePath) (activity reason : String) :
    Attempt LoadError Unit :=
  Attempt.record Log.error .loading
    ("Error " ++ activity ++ " TOML from " ++ d.nameOf path ++ ": " ++ reason)

/-- The table that a library reads from a file. -/
def readTable (lib : Toml.Library) (d : Directory) (path : FilePath) :
    Attempt LoadError Entries := do
  match d.octets path with
  | .error .nullInside => throw (.file .nullInside)
  | .error e =>
    d.recordMissing path "loading" (e.message (d.nameOf path))
    return []
  | .ok octets =>
    let text ← Attempt.ofExcept ((textOfOctets octets).mapError .notUtf8)
    match lib.read text with
    | .ok table => return table
    | .error (.failure f) => throw (.failure f)
    | .error (.malformed words) =>
      d.recordMissing path "decoding" words
      return []

/-- The file that options are loaded from: what a path leads to, or the option file in it if it is a
directory. -/
def optionFile (d : Directory) (path : FilePath) : Except FileError FilePath := do
  return if ← d.isDirectory path then path ++ [optionFileName] else path

/-- The part of a file's table that is the table form of options. -/
def optionsIn (file : FilePath) (table : Entries) : Entries :=
  if file.getLast? = some projectFileName then table.sectionAt projectSection else table

/-- The file that options are loaded from, and the table form of options in it. -/
def readOptions (lib : Toml.Library) (d : Directory) (path : FilePath) :
    Attempt LoadError (FilePath × Entries) := do
  let file ← Attempt.ofExcept ((d.optionFile path).mapError .file)
  let table ← d.readTable lib file
  return (file, optionsIn file table)

/-- The options that a file sets, on the given ones, and the diagnostics of its settings behind the
given ones. -/
def loadOptions (lib : Toml.Library) (d : Directory) (path : FilePath) (base : Options)
    (ds : Diagnostics) : Logged (Diagnostics × Except LoadError Options) := do
  match ← ExceptT.run (d.readOptions lib path) with
  | .error e => return (ds, .error e)
  | .ok (file, table) =>
    match ← Layer.load table ds with
    | (ds, .error f) => return (ds, .error (.failure f))
    | (ds, .ok layer) =>
      Logged.recordIf Log.debug .loading (layer.display.map fun s =>
        "Loaded render options from " ++ d.nameOf file ++ ": " ++ s)
      return (ds, .ok (← layer.freeze base))

end Directory

/-! ### Writing -/

/-- The table of a file that sets options: an option file, or a project file with nothing else. -/
def Options.fileTable (o : Options) (inProject : Bool) : Except StrayWord Entries := do
  let table ← o.writeTable
  return if inProject then table.nest (sectionKeys projectSection) else table

end Hocon
