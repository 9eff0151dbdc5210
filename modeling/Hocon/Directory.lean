import Hocon.Text.Display
import Hocon.Text.Line
import Hocon.Text.Split
import Hocon.Text.Utf8

/-!
# Directories

A directory as a value: a tree of named files, each of which holds octets. A path is a list of
names that lead from the directory downwards. What is found at a path is a file, a directory, or
nothing. Nothing is found because a name is missing, because one stands for a file that would have
to be a directory, because a directory on the way may not be searched, or because the path is one
that no system takes.

To ask whether a path leads to a directory is to look for it, and this may fail as well. Where
nothing can be there, the answer is no; where it is not known what is there, there is none
(`Directory.isDirectory`).
-/

namespace Hocon

/-- A file, or a directory with its entries. What is there may be closed to the program: to reading,
and in the case of a directory to the search for an entry. -/
inductive FileTree where
  /-- A file with its octets. -/
  | file (octets : List UInt8) (readable : Bool := true)
  /-- A directory with its named entries. -/
  | directory (entries : List (String × FileTree)) (readable searchable : Bool := true)
  deriving Inhabited

/-- The names on the way to a file. -/
abbrev FilePath := List String

/-- The names in the text of a path. A point stands for no step. -/
def FilePath.ofText (text : String) : FilePath :=
  ((splitOn '/' text.toList).map String.ofList).filter fun name => name ≠ "" ∧ name ≠ "."

/-! ### Errors -/

/-- Why a file cannot be read. -/
inductive FileError where
  /-- There is nothing at the path. -/
  | missing
  /-- What is there may not be read, or a directory on the way not be searched. -/
  | denied
  /-- A name on the way stands for a file. -/
  | notADirectory
  /-- The path leads to a directory. -/
  | isADirectory
  /-- A name, or the path as a whole, is too long. -/
  | tooLong
  /-- A name holds a null character, so that no system can be asked. -/
  | nullInside
  deriving DecidableEq, Repr

namespace FileError

/-- The number by which a system knows a file error, if it comes from the system. -/
def code? : FileError → Option Nat
  | missing => some 2
  | denied => some 13
  | notADirectory => some 20
  | isADirectory => some 21
  | tooLong => some 36
  | nullInside => none

/-- The words for a file error. -/
def words : FileError → String
  | missing => "No such file or directory"
  | denied => "Permission denied"
  | notADirectory => "Not a directory"
  | isADirectory => "Is a directory"
  | tooLong => "File name too long"
  | nullInside => "embedded null byte"

/-- The wording of a file error for a file with the given name. -/
def message (e : FileError) (name : String) : String :=
  match e.code? with
  | some code => "[Errno " ++ toString code ++ "] " ++ e.words ++ ": " ++ displayText name
  | none => e.words

/-- Whether an error says that there is no directory at the path. Others leave that open. -/
def excludesDirectory : FileError → Bool
  | missing | notADirectory | nullInside => true
  | denied | isADirectory | tooLong => false

end FileError

/-! ### Finding -/

/-- The number of octets that a name may have. -/
def maxNameOctets : Nat := 255

/-- The number of octets that a path may have. -/
def maxPathOctets : Nat := 4095

namespace FileTree

/-- What a path leads to. -/
def find (tree : FileTree) : FilePath → Except FileError FileTree
  | [] => .ok tree
  | name :: path =>
    match tree with
    | file .. => .error .notADirectory
    | directory entries _ searchable =>
      if !searchable then .error .denied
      else if maxNameOctets < name.utf8ByteSize then .error .tooLong
      else
        match entries.lookup name with
        | some entry => entry.find path
        | none => .error .missing

/-- Whether what is found is a directory. -/
def isDirectory : FileTree → Bool
  | file .. => false
  | directory .. => true

/-- The octets of what is found, if it is a file that may be read. -/
def octets : FileTree → Except FileError (List UInt8)
  | file octets readable => if readable then .ok octets else .error .denied
  | directory _ readable _ => .error (if readable then .isADirectory else .denied)

/-- Changes what stands at a path. Where there is nothing, directories are made, for the last name
of the path too. -/
def alter (change : FileTree → FileTree) : FilePath → FileTree → FileTree
  | [], tree => change tree
  | name :: path, tree =>
    let entries := match tree with
      | file .. => []
      | directory entries _ _ => entries
    let entry := (entries.lookup name).getD (directory [])
    directory ((name, alter change path entry) :: entries.filter (·.1 ≠ name))

/-- Puts a file at a path. -/
def writeFile (path : FilePath) (octets : List UInt8) (tree : FileTree) : FileTree :=
  tree.alter (fun _ => file octets) path

/-- Puts a directory at a path, unless there is something already. -/
def makeDirectory (path : FilePath) (tree : FileTree) : FileTree :=
  tree.alter id path

end FileTree

/-! ### Named directories -/

/-- A directory and the name under which messages and the system speak of it. -/
structure Directory where
  /-- The name. -/
  name : String
  /-- The directory itself. -/
  tree : FileTree

namespace Directory

/-- The name of a file in a directory. -/
def nameOf (d : Directory) (path : FilePath) : String :=
  "/".intercalate (d.name :: path)

/-- What a path leads to, if it is one that a system takes. -/
def find (d : Directory) (path : FilePath) : Except FileError FileTree :=
  if path.any fun name => name.toList.contains '\x00' then .error .nullInside
  else if maxPathOctets < (d.nameOf path).utf8ByteSize then .error .tooLong
  else d.tree.find path

/-- Whether a path leads to a directory, if that can be told. -/
def isDirectory (d : Directory) (path : FilePath) : Except FileError Bool :=
  match d.find path with
  | .ok found => .ok found.isDirectory
  | .error e => if e.excludesDirectory then .ok false else .error e

/-- The octets of the file that a path leads to. -/
def octets (d : Directory) (path : FilePath) : Except FileError (List UInt8) := do
  (← d.find path).octets

end Directory

/-! ### Texts -/

/-- The text of octets that are UTF-8, in which every line break is a line feed. -/
def textOfOctets (octets : List UInt8) : Except Utf8.Fault (List Char) := do
  return withLineFeeds (← Utf8.decode octets)

end Hocon
