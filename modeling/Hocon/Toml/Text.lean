import Hocon.Toml.Edition
import Hocon.Toml.Number

/-!
# TOML keys and strings

The characters of bare keys, and the four kinds of strings: basic and literal ones, on one line or
on several. A string is read in two steps. The first finds the closing quotes and yields what stands
before them as it is written; the second, for basic strings only, replaces the escapes. On several
lines a line break right behind the opening quotes does not belong to the string, up to two quotes
may stand before the closing ones, and a backslash at the end of a line takes all white space behind
it away.

The second edition of the format has two escapes more than the first: a short one for the escape
character, and one for the code points of two digits.
-/

namespace Hocon

namespace Toml

/-- Whether a character may stand in a key without quotes. -/
def isBareKeyChar (c : Char) : Bool :=
  c.isAlphanum || c == '-' || c == '_'

/-- Whether a character may not stand in a string or a comment. -/
def isForbidden (c : Char) : Bool :=
  (c.toNat < 0x20 && c != '\t') || c.toNat == 0x7F

/-- What stands before the quote that closes a string on one line, and what follows it. In a basic
string a backslash keeps the next character from closing. -/
def untilQuote (basic : Bool) (quote : Char) : List Char → Option (List Char × List Char)
  | [] => none
  | c :: rest =>
    if c = quote then some ([], rest)
    else if isForbidden c then none
    else if basic && c == '\\' then
      match rest with
      | [] => none
      | d :: rest => (untilQuote basic quote rest).map fun (s, r) => (c :: d :: s, r)
    else (untilQuote basic quote rest).map fun (s, r) => (c :: s, r)

/-- Up to two quotes that stand before the closing ones, and what follows all of them. -/
def extraQuotes (quote : Char) : List Char → List Char × List Char
  | c :: d :: rest =>
    if c = quote then if d = quote then ([c, d], rest) else ([c], d :: rest)
    else ([], c :: d :: rest)
  | [c] => if c = quote then ([c], []) else ([], [c])
  | [] => ([], [])

/-- What stands before the three quotes that close a string on several lines, and what follows
them. -/
def untilQuotes (basic : Bool) (quote : Char) : List Char → Option (List Char × List Char)
  | [] => none
  | c :: rest =>
    if [quote, quote, quote].isPrefixOf (c :: rest) then
      some (extraQuotes quote (rest.drop 2))
    else if isForbidden c && c != '\n' then none
    else if basic && c == '\\' then
      match rest with
      | [] => none
      | d :: rest => (untilQuotes basic quote rest).map fun (s, r) => (c :: d :: s, r)
    else (untilQuotes basic quote rest).map fun (s, r) => (c :: s, r)

/-- The character with a code given by hexadecimal digits. -/
def charOfHex? (cs : List Char) : Option Char := do
  let code ← cs.foldlM (fun n c => (digitValue? c).map (16 * n + ·)) 0
  if code.isValidChar then some (Char.ofNat code) else none

/-- The character that a letter behind a backslash stands for. -/
def shortEscape? (edition : Edition) : Char → Option Char
  | 'e' => if edition = .second then some '\x1b' else none
  | 'b' => some '\x08'
  | 't' => some '\t'
  | 'n' => some '\n'
  | 'f' => some '\x0c'
  | 'r' => some '\r'
  | '"' => some '"'
  | '\\' => some '\\'
  | _ => none

/-- Whether a backslash in front of a text is the last mark of its line. -/
def endsLine (cs : List Char) : Bool :=
  (cs.dropWhile fun c => c == ' ' || c == '\t').head? == some '\n'

/-- A basic string with its escapes replaced. `trimming` says whether white space is being taken
away behind a backslash at the end of a line, which only a string on several lines can have. -/
def unescape (edition : Edition) (lines trimming : Bool) : List Char → Option (List Char)
  | [] => some []
  | '\\' :: 'x' :: a :: b :: rest => do
    if edition = .first then none
    let char ← charOfHex? [a, b]
    return char :: (← unescape edition lines false rest)
  | '\\' :: 'u' :: a :: b :: c :: d :: rest => do
    let char ← charOfHex? [a, b, c, d]
    return char :: (← unescape edition lines false rest)
  | '\\' :: 'U' :: a :: b :: c :: d :: e :: f :: g :: h :: rest => do
    let char ← charOfHex? [a, b, c, d, e, f, g, h]
    return char :: (← unescape edition lines false rest)
  | '\\' :: c :: rest =>
    match shortEscape? edition c with
    | some char => (unescape edition lines false rest).map (char :: ·)
    | none => if lines && endsLine (c :: rest) then unescape edition lines true rest else none
  | c :: rest =>
    if trimming && (c == ' ' || c == '\t' || c == '\n') then unescape edition lines true rest
    else (unescape edition lines false rest).map (c :: ·)

/-- A text without the line break that it starts with. -/
def dropLineBreak : List Char → List Char
  | '\n' :: rest => rest
  | cs => cs

/-- The contents of a string, as far as its escapes. -/
def contents (edition : Edition) (basic lines : Bool) (written : List Char) : Option String :=
  if basic then (unescape edition lines false written).map String.ofList
  else some (String.ofList written)

/-- Reads a string on one line, from behind its opening quote. -/
def lineString (edition : Edition) (quote : Char) (cs : List Char) :
    Option (String × List Char) := do
  let (written, rest) ← untilQuote (quote == '"') quote cs
  return (← contents edition (quote == '"') false written, rest)

/-- Reads a string, from behind its first quote. -/
def string (edition : Edition) (quote : Char) (cs : List Char) : Option (String × List Char) := do
  if [quote, quote].isPrefixOf cs then
    let (written, rest) ← untilQuotes (quote == '"') quote (dropLineBreak (cs.drop 2))
    return (← contents edition (quote == '"') true written, rest)
  else lineString edition quote cs

end Toml

end Hocon
