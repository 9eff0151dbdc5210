import Hocon.Proofs.Tree

/-!
# The lines of a tree

A walk over a tree writes a document piece by piece, and the body of a nested node begins and ends
in the middle of a line. Whatever is said about indentation, comments or nesting is said about
whole lines, so this module rewrites a document as a list of *lines*, each with the level that it
is indented by (`Hocon.Line`).

The lines of a node depend on what else stands on the first and on the last of them – the key in
front of the value of an entry, the comma behind an element – so `Hocon.Value.lines` takes these as
arguments, `head` and `tail`. With them the lines of a map are its opening line, the lines of its
entries and its closing line, and nothing ever has to be cut out of a line again.

That the lines are what the walk writes is `Hocon.Render.outcome_document`, in
`Hocon.Proofs.Walk`. Here is only what can be said without the walk.

| list of lines | of what |
|---|---|
| `Hocon.Line.ofComment` | a comment |
| `Hocon.Value.lines` | a node, on lines of its own or behind its key |
| `Hocon.Value.entryLines` | the entries of a map |
| `Hocon.Value.blockLines` | the elements of a block |
| `Hocon.Value.documentLines` | a whole document |
-/

namespace Hocon

/-! ### Lines -/

/-- A line of a document: how far it is indented, and the pieces behind the indentation. -/
structure Line where
  /-- The level of the indentation. -/
  level : ℕ
  /-- What stands on the line. -/
  content : Document
  deriving DecidableEq, Repr

namespace Line

/-- The pieces of a line, its indentation and its end included. -/
def pieces (l : Line) : Document := .indent l.level :: (l.content ++ [.newline])

/-- The characters of a line, without those that end it. -/
def text [Host] (o : Options) (l : Line) : List Char :=
  (List.replicate l.level o.indentUnit).flatten ++ Document.text o l.content

/-- The lines of a comment. -/
def ofComment (level : ℕ) : Option String → List Line
  | none => []
  | some s => (commentLines s).map fun line => ⟨level, [.comment line]⟩

end Line

/-- The document that consists of the given lines. -/
def Document.ofLines (ls : List Line) : Document := ls.flatMap Line.pieces

namespace Document

@[simp] theorem ofLines_nil : ofLines [] = [] := rfl

@[simp] theorem ofLines_cons (l : Line) (ls : List Line) :
    ofLines (l :: ls) = l.pieces ++ ofLines ls := rfl

@[simp] theorem ofLines_append (ls ls' : List Line) :
    ofLines (ls ++ ls') = ofLines ls ++ ofLines ls' := by
  simp [ofLines]

theorem ofComment_eq_ofLines (level : ℕ) (comment : Option String) :
    ofComment level comment = ofLines (Line.ofComment level comment) := by
  cases comment with
  | none => rfl
  | some s => simp [ofComment, ofLines, Line.ofComment, Line.pieces, List.flatMap_map]

/-- The text of a document of lines is the texts of the lines, each with the characters that end
it. -/
theorem text_ofLines [Host] (o : Options) (ls : List Line) :
    text o (ofLines ls) = ls.flatMap fun l => l.text o ++ o.newline := by
  induction ls with
  | nil => rfl
  | cons l ls ih =>
    rw [ofLines_cons, text_append, ih, List.flatMap_cons]
    simp [Line.pieces, Line.text, Piece.text]

end Document

/-! ### Lists on one line -/

/-- The literal of a value. What has none is given the one of the null value; it is never written
(`Hocon.Render.outcome_document`). -/
def Options.literal (o : Options) (v : Value) : Literal :=
  match Literal.ofValue o.stringQuoting.policy v with
  | .ok l => l
  | .error _ => .null

/-- What a scalar node holds. -/
def Value.held : Value → Value
  | .scalarNode value _ => value
  | v => v

@[simp] theorem Value.held_scalarNode (value : Value) (comment : Option String) :
    (Value.scalarNode value comment).held = value := rfl

/-- Whether a value is a scalar node without a comment. -/
def Value.isPlainScalar : Value → Bool
  | .scalarNode _ none => true
  | _ => false

theorem Value.eq_of_isPlainScalar {v : Value} (h : v.isPlainScalar = true) :
    v = .scalarNode v.held none := by
  cases v with
  | scalarNode value comment => cases comment with
    | none => rfl
    | some s => exact absurd h (by simp [Value.isPlainScalar])
  | _ => exact absurd h (by simp [Value.isPlainScalar])

namespace Layout

variable (o : Options)

/-- The literals of the elements of a list. -/
def literals (children : List Value) : List Literal :=
  children.map fun child => o.literal child.held

/-- How long literals are when they are measured: each counts one character more than it has. -/
def measured (ls : List Literal) : ℕ := ls.foldr (fun l n => l.text.length + 1 + n) 0

/-- **Whether a list fits on one line**: its elements are scalar nodes without comments, and their
literals stay below the limit. -/
def fits (children : List Value) : Bool :=
  children.all Value.isPlainScalar && decide (measured (literals o children) < inlineLimit)

end Layout

/-- Literals on one line, each behind a space and separated by commas. -/
def Document.ofLiterals : List Literal → Document
  | [] => []
  | [l] => [.space, .literal l]
  | l :: ls => .space :: .literal l :: .comma :: ofLiterals ls

/-- Literals on one line, in brackets. -/
def Document.inBrackets (ls : List Literal) : Document :=
  .opening .square :: (Document.ofLiterals ls ++ [.space, .closing .square])

/-! ### The lines of a node -/

/-- What stands before the value of an entry: its key and a separator. -/
def Document.ofKey (o : Options) (k child : Value) : Document :=
  [.key (Key.ofText o.keyQuoting (keyText k).toList), Render.separatorBefore o child]

namespace Value

variable (o : Options)

mutual

/-- The lines of a node. The first one is indented by `level` and begins with `head`, and the last
one ends with `tail`. -/
def lines (level : ℕ) (head tail : Document) : Value → List Line
  | .scalarNode value _ => [⟨level, head ++ .literal (o.literal value) :: tail⟩]
  | .listNode children _ _ _ =>
    if Layout.fits o children then
      [⟨level, head ++ (Document.inBrackets (Layout.literals o children) ++ tail)⟩]
    else
      ⟨level, head ++ [.opening .square]⟩ ::
        (blockLines (level + 1) children ++ [⟨level, .closing .square :: tail⟩])
  | .mapNode entries _ _ =>
    ⟨level, head ++ [.opening .brace]⟩ ::
      (entryLines (level + 1) entries ++ [⟨level, .closing .brace :: tail⟩])
  | _ => []

/-- The lines of the entries of a map. -/
def entryLines (level : ℕ) : List (Value × Value) → List Line
  | [] => []
  | (k, child) :: rest =>
    Line.ofComment level child.comment ++
      (lines level (Document.ofKey o k child) [] child ++ entryLines level rest)

/-- The lines of the elements of a block. -/
def blockLines (level : ℕ) : List Value → List Line
  | [] => []
  | child :: rest =>
    Line.ofComment level child.comment ++
      (lines level [] (if rest.isEmpty then [] else [.comma]) child ++ blockLines level rest)

end

/-- The lines below the comment of a document: those of the entries if the root is a map, and those
of the root itself if it is none. -/
def bodyLines : Value → List Line
  | .mapNode entries _ _ => entryLines o 0 entries
  | v => lines o 0 [] [] v

@[simp] theorem bodyLines_scalarNode (value : Value) (comment : Option String) :
    (scalarNode value comment).bodyLines o = lines o 0 [] [] (scalarNode value comment) := rfl

@[simp] theorem bodyLines_listNode (children : List Value) (failure : Option Failure)
    (later : List (Pass Value)) (comment : Option String) :
    (listNode children failure later comment).bodyLines o =
      lines o 0 [] [] (listNode children failure later comment) := rfl

@[simp] theorem bodyLines_mapNode (entries : List (Value × Value)) (failure : Option Failure)
    (comment : Option String) :
    (mapNode entries failure comment).bodyLines o = entryLines o 0 entries := rfl

/-- The lines of a document. -/
def documentLines (v : Value) : List Line := Line.ofComment 0 v.comment ++ v.bodyLines o

end Value

end Hocon
