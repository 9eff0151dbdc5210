import Hocon.Options.Choice

/-!
# The closed option sets

The six closed sets from which a document's format is chosen. The members of four of them stand
for a piece of the document's text: the separator of keys and values, the character that indents,
the mark of a comment and the line ending. The members of the other two switch a rule on or off.

One line ending is that of the system on which the program runs. Which one that is, is left open
(`Host`).
-/

namespace Hocon

/-- The character between a key and its value. -/
inductive SeparatorCharacter where
  /-- A colon. -/
  | colon
  /-- An equals sign. -/
  | equals
  deriving DecidableEq, Repr

/-- Whether a separator stands between a key and a nested map. -/
inductive ObjectSeparator where
  /-- No separator, but a single space. -/
  | omitted
  /-- The separator, as before any other value. -/
  | included
  deriving DecidableEq, Repr

/-- When texts and keys are quoted. -/
inductive Quoting where
  /-- Only where they could be mistaken for something else. -/
  | whenRequired
  /-- Always. -/
  | always
  deriving DecidableEq, Repr

/-- The character that is repeated to indent a line. -/
inductive IndentCharacter where
  /-- A space. -/
  | space
  /-- A tab. -/
  | tab
  deriving DecidableEq, Repr

/-- The mark before a line of a comment. -/
inductive CommentStyle where
  /-- A hash sign. -/
  | hash
  /-- Two slashes. -/
  | doubleSlash
  deriving DecidableEq, Repr

/-- The line ending. -/
inductive LineSeparator where
  /-- That of the host. -/
  | system
  /-- A line feed. -/
  | lf
  /-- A carriage return and a line feed. -/
  | crlf
  deriving DecidableEq, Repr

/-! ### Keys, names and spellings -/

namespace SeparatorCharacter

/-- The key of a separator character. -/
def key : SeparatorCharacter → String
  | colon => "colon"
  | equals => "equals"

/-- The name of a separator character. -/
def name : SeparatorCharacter → String
  | colon => "COLON"
  | equals => "EQUALS"

/-- The character itself. -/
def payload : SeparatorCharacter → String
  | colon => ":"
  | equals => "="

/-- A separator character may be spelled by itself. -/
def aliases (c : SeparatorCharacter) : List String :=
  [c.payload]

instance : Choice.Payload SeparatorCharacter where
  setName := "SeparatorCharacter"
  members := [colon, equals]
  name := name
  key := key
  ofWord? := Choice.ofSpelling? [colon, equals] key name aliases
  payload := payload
  aliases := aliases

end SeparatorCharacter

namespace ObjectSeparator

/-- The key of the rule for nested maps. -/
def key : ObjectSeparator → String
  | omitted => "omitted"
  | included => "included"

/-- The name of the rule for nested maps. -/
def name : ObjectSeparator → String
  | omitted => "OMITTED"
  | included => "INCLUDED"

instance : Choice ObjectSeparator where
  setName := "ObjectSeparator"
  members := [omitted, included]
  name := name
  key := key
  ofWord? := Choice.ofKey? [omitted, included] key

end ObjectSeparator

namespace Quoting

/-- The key of a quoting policy. -/
def key : Quoting → String
  | whenRequired => "when_required"
  | always => "always"

/-- The name of a quoting policy. -/
def name : Quoting → String
  | whenRequired => "WHEN_REQUIRED"
  | always => "ALWAYS"

instance : Choice Quoting where
  setName := "Quoting"
  members := [whenRequired, always]
  name := name
  key := key
  ofWord? := Choice.ofKey? [whenRequired, always] key

end Quoting

namespace IndentCharacter

/-- The key of an indent character. -/
def key : IndentCharacter → String
  | space => "space"
  | tab => "tab"

/-- The name of an indent character. -/
def name : IndentCharacter → String
  | space => "SPACE"
  | tab => "TAB"

/-- The character itself. -/
def char : IndentCharacter → Char
  | space => ' '
  | tab => '\t'

/-- The character as a text. -/
def payload (c : IndentCharacter) : String :=
  c.char.toString

/-- An indent character may be spelled by itself. -/
def aliases (c : IndentCharacter) : List String :=
  [c.payload]

instance : Choice.Payload IndentCharacter where
  setName := "IndentCharacter"
  members := [space, tab]
  name := name
  key := key
  ofWord? := Choice.ofSpelling? [space, tab] key name aliases
  payload := payload
  aliases := aliases

end IndentCharacter

namespace CommentStyle

/-- The key of a comment style. -/
def key : CommentStyle → String
  | hash => "hash"
  | doubleSlash => "double_slash"

/-- The name of a comment style. -/
def name : CommentStyle → String
  | hash => "HASH"
  | doubleSlash => "DOUBLE_SLASH"

/-- The mark itself. -/
def payload : CommentStyle → String
  | hash => "#"
  | doubleSlash => "//"

/-- A comment style may be spelled by its mark, and the two slashes by one word. -/
def aliases : CommentStyle → List String
  | hash => ["#"]
  | doubleSlash => ["//", "slash"]

instance : Choice.Payload CommentStyle where
  setName := "CommentStyle"
  members := [hash, doubleSlash]
  name := name
  key := key
  ofWord? := Choice.ofSpelling? [hash, doubleSlash] key name aliases
  payload := payload
  aliases := aliases

end CommentStyle

/-- The system on which the program runs. -/
class Host where
  /-- Whether a carriage return goes before the line feed at the end of a line. -/
  hasCarriageReturn : Bool

/-- The characters that end a line on the host. -/
def Host.lineEnding [Host] : String :=
  if hasCarriageReturn then "\r\n" else "\n"

namespace Unix

/-- A system on which a line ends with a line feed alone. -/
scoped instance host : Host where
  hasCarriageReturn := false

end Unix

namespace LineSeparator

/-- The key of a line ending. -/
def key : LineSeparator → String
  | system => "system"
  | lf => "lf"
  | crlf => "crlf"

/-- The name of a line ending. -/
def name : LineSeparator → String
  | system => "SYSTEM"
  | lf => "LF"
  | crlf => "CRLF"

/-- The characters of the line ending. -/
def payload [Host] : LineSeparator → String
  | system => Host.lineEnding
  | lf => "\n"
  | crlf => "\r\n"

/-- A line ending may be spelled by the system it belongs to, or by itself. -/
def aliases : LineSeparator → List String
  | system => ["platform", "native"]
  | lf => ["\n", "unix"]
  | crlf => ["\r\n", "windows"]

instance : Choice.Spelled LineSeparator where
  setName := "LineSeparator"
  members := [system, lf, crlf]
  name := name
  key := key
  ofWord? := Choice.ofSpelling? [system, lf, crlf] key name aliases
  aliases := aliases

instance [Host] : Choice.Payload LineSeparator where
  payload := payload

end LineSeparator

end Hocon
