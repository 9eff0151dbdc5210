import Hocon.Literal
import Hocon.Text.Line

/-!
# Documents

A document is a sequence of pieces: indentations, comment lines, keys, separators, literals,
brackets, commas, spaces and line breaks. It says everything about a rendering except how wide a
level of indentation is, what separates keys from values, how a comment is marked and how a line
ends; these are filled in by `Document.text`. Two renderings that differ in nothing else are
therefore the same document.
-/

namespace Hocon

/-- The two kinds of brackets. -/
inductive Bracket where
  /-- The braces around a map. -/
  | brace
  /-- The brackets around a list. -/
  | square
  deriving DecidableEq, Repr

/-- The opening bracket. -/
def Bracket.opening : Bracket → Char
  | brace => '\x7b'
  | square => '['

/-- The closing bracket. -/
def Bracket.closing : Bracket → Char
  | brace => '\x7d'
  | square => ']'

/-- A piece of a document. -/
inductive Piece where
  /-- The indentation of a line, by its level. -/
  | indent (level : Nat)
  /-- The end of a line. -/
  | newline
  /-- A comment mark with one line of a comment. -/
  | comment (line : List Char)
  /-- A key. -/
  | key (k : Key)
  /-- What stands between a key and a value. -/
  | separator
  /-- A literal. -/
  | literal (l : Literal)
  /-- An opening bracket. -/
  | opening (b : Bracket)
  /-- A closing bracket. -/
  | closing (b : Bracket)
  /-- A comma. -/
  | comma
  /-- A space. -/
  | space
  deriving DecidableEq, Repr

/-- The characters of a piece. -/
def Piece.text [Host] (o : Options) : Piece → List Char
  | indent level => (List.replicate level o.indentUnit).flatten
  | newline => o.newline
  | comment line => o.commentMark ++ ' ' :: line
  | key k => k.text
  | separator => o.separatorToken
  | literal l => l.text
  | opening b => [b.opening]
  | closing b => [b.closing]
  | comma => [',']
  | space => [' ']

/-- The pieces of a rendering, in order. -/
abbrev Document := List Piece

namespace Document

/-- The characters of a document. -/
def text [Host] (o : Options) (d : Document) : List Char :=
  d.flatMap (Piece.text o)

@[simp] theorem text_nil [Host] (o : Options) : text o [] = [] := rfl

@[simp] theorem text_cons [Host] (o : Options) (p : Piece) (d : Document) :
    text o (p :: d) = p.text o ++ text o d := rfl

@[simp] theorem text_append [Host] (o : Options) (d e : Document) :
    text o (d ++ e) = text o d ++ text o e := by
  simp [text]

/-- The lines of a comment, each indented and ended. -/
def ofComment (level : Nat) (comment : Option String) : Document :=
  match comment with
  | none => []
  | some s => (commentLines s).flatMap fun line => [.indent level, .comment line, .newline]

end Document

end Hocon
