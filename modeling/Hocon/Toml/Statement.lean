import Hocon.Toml.Table
import Hocon.Toml.Text

/-!
# The statements of a TOML document

A TOML document is a sequence of statements: headers of tables or of new tables of an array, and
entries. Each stands on a line of its own, and there may be blank lines and comments
between them. A `Reader` reads something from the front of a text and leaves the rest.

Values may be nested, so `Reader.value` and the readers of arrays and inline tables call each
other. Each turn from one to the next takes a character or is followed by one that does, so twice
the length of the text bounds the depth.

In the second edition an inline table may go over several lines, with comments, and may have a comma
behind its last entry; in the first it may not.
-/

namespace Hocon

namespace Toml

/-! ### Errors -/

/-- Why a text cannot be read. -/
inductive ReadError where
  /-- It breaks the grammar. -/
  | malformed
  /-- A key is spoken of again: inside of a section or a value, or at the outermost level. -/
  | redefined (fault : Redefinition) (inside : Bool)
  deriving DecidableEq, Repr

/-- The wording of a read error. -/
def ReadError.message : ReadError → String
  | malformed => "The text is not valid TOML."
  | redefined fault _ => fault.message

/-- A redefinition, at a known depth. -/
def Redefinition.toError (inside : Bool) {α : Type} :
    Except Redefinition α → Except ReadError α
  | .ok a => .ok a
  | .error fault => .error (.redefined fault inside)

/-! ### Readers -/

/-- Reads from the front of a text, and leaves the rest. -/
abbrev Reader := StateT (List Char) (Except ReadError)

namespace Reader

/-- What stands in front, which must not be missing. -/
def ofOption {α : Type} : Option (α × List Char) → Reader α
  | some (a, rest) => do
    set rest
    return a
  | none => throw .malformed

/-- Takes a character if it stands in front, and says whether it did. -/
def accept (c : Char) : Reader Bool := do
  match ← get with
  | d :: rest =>
    if c = d then
      set rest
      return true
    return false
  | [] => return false

/-- Takes a character that must stand in front. -/
def expect (c : Char) : Reader Unit := do
  unless ← accept c do throw .malformed

/-! ### Space -/

/-- Whether a character separates the words of a line. -/
def isSpacing (c : Char) : Bool :=
  c == ' ' || c == '\t'

/-- Skips spaces and tabs. -/
def skipSpacing : Reader Unit :=
  modify (List.dropWhile isSpacing)

/-- A text without the spaces, line breaks and comments at its front. -/
def withoutSpace (inComment : Bool) : List Char → Option (List Char)
  | [] => some []
  | c :: rest =>
    if c = '\n' then withoutSpace false rest
    else if inComment then if isForbidden c then none else withoutSpace true rest
    else if c = '#' then withoutSpace true rest
    else if isSpacing c then withoutSpace false rest
    else some (c :: rest)

/-- Skips spaces, line breaks and comments. -/
def skipSpace : Reader Unit := do
  ofOption ((withoutSpace false (← get)).map fun rest => ((), rest))

/-- Skips what may follow a statement, up to the end of its line. -/
def skipLine : Reader Unit := do
  skipSpacing
  if ← accept '#' then
    let (comment, rest) := (← get).span (· != '\n')
    if comment.any isForbidden then throw .malformed
    set rest
  unless (← get).isEmpty do expect '\n'

/-! ### Keys -/

/-- Reads one key, bare or quoted. -/
def key (edition : Edition) : Reader String := do
  if ← accept '"' then ofOption (lineString edition '"' (← get))
  else if ← accept '\'' then ofOption (lineString edition '\'' (← get))
  else
    let (bare, rest) := (← get).span isBareKeyChar
    if bare.isEmpty then throw .malformed
    set rest
    return String.ofList bare

/-- Reads the further keys of a dotted key, at most as many as are given. -/
def keysAfter (edition : Edition) : Nat → Reader (List String)
  | 0 => throw .malformed
  | count + 1 => do
    skipSpacing
    unless ← accept '.' do return []
    skipSpacing
    return (← key edition) :: (← keysAfter edition count)

/-- Reads a dotted key: the first key and the further ones. -/
def dottedKey (edition : Edition) : Reader (String × List String) := do
  return (← key edition, ← keysAfter edition ((← get).length + 1))

/-! ### Values -/

/-- Whether a character ends a word. -/
def endsWord (c : Char) : Bool :=
  isSpacing c || c == '\n' || c == ',' || c == ']' || c == '\x7d' || c == '#'

/-- Reads a truth value or a number. -/
def word (edition : Edition) : Reader Value := do
  let (cs, rest) := (← get).span fun c => !endsWord c
  set rest
  if cs = ['t', 'r', 'u', 'e'] then return .bool true
  if cs = ['f', 'a', 'l', 's', 'e'] then return .bool false
  match number? edition cs with
  | some v => return v
  | none => throw .malformed

/-- Skips what may stand between the entries of an inline table. In the first edition they all stand
on one line. -/
def skipInside : Edition → Reader Unit
  | .first => skipSpacing
  | .second => skipSpace

mutual

/-- Reads a value of a bounded depth. -/
def value (edition : Edition) : Nat → Reader Value
  | 0 => throw .malformed
  | depth + 1 => do
    if ← accept '"' then return .str (← ofOption (string edition '"' (← get)))
    if ← accept '\'' then return .str (← ofOption (string edition '\'' (← get)))
    if ← accept '[' then return .list (← elements edition depth)
    if ← accept '\x7b' then
      skipInside edition
      if ← accept '\x7d' then return .map []
      return .map (← entries edition depth []).toEntries
    word edition

/-- Reads the elements of an array, up to its end. A comma may stand behind the last one. -/
def elements (edition : Edition) : Nat → Reader (List Value)
  | 0 => throw .malformed
  | depth + 1 => do
    skipSpace
    if ← accept ']' then return []
    let v ← value edition depth
    skipSpace
    if ← accept ',' then return v :: (← elements edition depth)
    expect ']'
    return [v]

/-- Reads the entries of an inline table, from the next one up to the end of the table. Only in the
second edition a comma may stand behind the last one. -/
def entries (edition : Edition) : Nat → Table → Reader Table
  | 0, _ => throw .malformed
  | depth + 1, table => do
    let (key, keys) ← dottedKey edition
    expect '='
    skipSpacing
    let v ← value edition depth
    let table ← Redefinition.toError true (table.add edition key (.under .dotted keys (.value v)))
    skipInside edition
    if ← accept ',' then
      skipInside edition
      if edition = .second then
        if ← accept '\x7d' then return table
      return ← entries edition depth table
    expect '\x7d'
    return table

end

end Reader

/-! ### Statements -/

/-- A statement of a document. The keys of a name are given as the first key and the others. -/
inductive Statement where
  /-- The header of a table, or of a new table of an array. -/
  | header (array : Bool) (key : String) (keys : List String)
  /-- An entry of the table whose header stands above it. -/
  | entry (key : String) (keys : List String) (value : Value)

/-- Reads a statement; of a header, as far as its name goes. -/
def Reader.statement (edition : Edition) : Reader Statement := do
  if ← accept '[' then
    let array ← accept '['
    skipSpacing
    let (key, keys) ← dottedKey edition
    return .header array key keys
  let (key, keys) ← dottedKey edition
  expect '='
  skipSpacing
  let v ← value edition (2 * (← get).length + 2)
  skipLine
  return .entry key keys v

/-- Reads what is left of the line of a statement. -/
def Reader.endOfLine : Statement → Reader Unit
  | .entry .. => return
  | .header array .. => do
    expect ']'
    if array then expect ']'
    skipLine

end Toml

end Hocon
