import Hocon.Proofs.Walk
import Hocon.Proofs.WellFormed

/-!
# Brackets and indentation

Two things hold of the lines of every document, and they hold together: the brackets are nested
properly, and each line is indented by as many levels as there are brackets open before it, one
level less if it begins with the bracket that closes the innermost of them.

Both are stated for a reader who goes through the characters line by line and remembers which
brackets are open, the innermost first (`Hocon.nest`). `Hocon.IndentedLine` is what such a reader
asks of one line, and `Hocon.Indented` is a run over several lines, from the brackets that are open
before them to those that are open behind them. Neither mentions trees, levels or pieces.

The invariant of the walk is that the lines of a node, written at the level that equals the number
of open brackets, leave the same brackets open (`Hocon.Value.LeavesOpen`). An opening bracket and
the deeper level of what stands behind it therefore always come together.
-/

namespace Hocon

/-! ### Nesting -/

/-- The brackets that are open behind some tokens, if each closing bracket among them closes the
innermost one that is open. -/
def nest : List Bracket → List Token → Option (List Bracket)
  | before, [] => some before
  | before, .opening b :: ts => nest (b :: before) ts
  | b' :: before, .closing b :: ts => if b = b' then nest before ts else none
  | [], .closing _ :: _ => none
  | before, .word _ :: ts => nest before ts
  | before, .quoted _ :: ts => nest before ts

/-- **What is asked of one line** that has the brackets `before` open in front of it and the
brackets `after` open behind it. -/
structure IndentedLine (unit : List Char) (before after : List Bracket) (line : List Char) :
    Prop where
  /-- The brackets of the line lead from the ones to the others. -/
  nested : ∃ ts, tokens line = some ts ∧ nest before ts = some after
  /-- The line begins with as many units as there are brackets open, one less in front of a closing
  bracket, and goes on with neither a space nor a tab. -/
  indented : ∃ c cs, c ≠ ' ' ∧ c ≠ '\t' ∧
    line = (List.replicate (before.length - if isClosingChar c then 1 else 0) unit).flatten ++
      c :: cs

/-- **What is asked of lines one below the other**: what each one leaves open is open before the
next. -/
inductive Indented (unit : List Char) : List Bracket → List (List Char) → List Bracket → Prop
  /-- No line, and nothing changes. -/
  | nil (before : List Bracket) : Indented unit before [] before
  /-- A line above others. -/
  | cons {before between after : List Bracket} {line : List Char} {rest : List (List Char)}
      (first : IndentedLine unit before between line) (others : Indented unit between rest after) :
      Indented unit before (line :: rest) after

theorem Indented.append {unit : List Char} {before between after : List Bracket}
    {ls ls' : List (List Char)} (h : Indented unit before ls between)
    (h' : Indented unit between ls' after) : Indented unit before (ls ++ ls') after := by
  induction h with
  | nil => exact h'
  | cons hfirst _ ih => exact .cons hfirst (ih h')

theorem Indented.singleton {unit : List Char} {before after : List Bracket} {line : List Char}
    (h : IndentedLine unit before after line) : Indented unit before [line] after :=
  .cons h (.nil after)

/-! ### Pieces and lines -/

/-- Whether a piece is a bracket. -/
def Piece.isBracket : Piece → Bool
  | opening _ | closing _ => true
  | _ => false

/-- Pieces that are no brackets leave all brackets as they are. -/
theorem nest_flatMap {d : Document} (h : d.all (!·.isBracket) = true) (before : List Bracket)
    (ts : List Token) : nest before (d.flatMap Piece.tokens ++ ts) = nest before ts := by
  induction d with
  | nil => rfl
  | cons p d ih =>
    rw [List.all_cons, Bool.and_eq_true, Bool.not_eq_true'] at h
    have hp : nest before (p.tokens ++ (d.flatMap Piece.tokens ++ ts)) =
        nest before (d.flatMap Piece.tokens ++ ts) := by
      cases p with
      | key k => cases k <;> simp [Piece.tokens, nest]
      | literal l => cases l <;> simp [Piece.tokens, nest]
      | opening | closing => exact absurd h.1 (by simp [Piece.isBracket])
      | _ => rfl
    rw [List.flatMap_cons, List.append_assoc, hp, ih h.2]

theorem Document.IsHead.all_isBracket {head : Document} (h : head.IsHead) :
    head.all (!·.isBracket) = true := by
  cases h with
  | nil => rfl
  | key hsound hs => rcases hs with rfl | rfl <;> rfl

theorem Document.IsTail.all_isBracket {tail : Document} (h : tail.IsTail) :
    tail.all (!·.isBracket) = true := by
  cases h <;> rfl

theorem Document.all_isBracket_ofLiterals (ls : List Literal) :
    (ofLiterals ls).all (!·.isBracket) = true := by
  induction ls with
  | nil => rfl
  | cons l ls ih => cases ls with
    | nil => rfl
    | cons l' ls => exact ih

/-- A tail leaves all brackets as they are. -/
theorem nest_tail {tail : Document} (h : tail.IsTail) (before : List Bracket) :
    nest before (tail.flatMap Piece.tokens) = some before := by
  have hnest := nest_flatMap h.all_isBracket before []
  rwa [List.append_nil, nest] at hnest

/-- Literals in brackets close the bracket that they open. -/
theorem nest_inBrackets (ls : List Literal) {tail : Document} (h : tail.IsTail)
    (before : List Bracket) :
    nest before ((Document.inBrackets ls ++ tail).flatMap Piece.tokens) = some before := by
  have hinside := nest_flatMap (Document.all_isBracket_ofLiterals ls) (.square :: before)
    (.closing .square :: tail.flatMap Piece.tokens)
  rw [nest, if_pos rfl, nest_tail h] at hinside
  simpa [Document.inBrackets, Piece.tokens, nest] using hinside

/-- A well-formed line is an indented one, if its level is the one that its reader expects. -/
theorem Line.WellFormed.indentedLine [Host] {l : Line} (h : l.WellFormed) (o : Options)
    {before after : List Bracket}
    (hnest : nest before (l.content.flatMap Piece.tokens) = some after)
    (hlevel : ∀ p ∈ l.content.head?, l.level = before.length - if p.isClosing then 1 else 0) :
    IndentedLine o.indentUnit before after (l.text o) := by
  obtain ⟨c, cs, htext, hgap, hclosing⟩ := l.exists_text_eq o h
  obtain ⟨p, d, hcontent, -⟩ := h.begins
  have hp : p ∈ l.content.head? := by rw [hcontent]; rfl
  refine ⟨⟨_, l.tokens_text o h, hnest⟩, c, cs, ?_, ?_, ?_⟩
  · rintro rfl; exact hgap (by decide)
  · rintro rfl; exact hgap (by decide)
  · rw [htext, hlevel p hp, hclosing p hp]

/-! ### Trees -/

/-- A run of a reader over lines that are given by their pieces. -/
def Line.Nested [Host] (o : Options) (before : List Bracket) (ls : List Line)
    (after : List Bracket) :
    Prop :=
  Indented o.indentUnit before (ls.map (Line.text o)) after

namespace Value

variable (o : Options)

/-- **The invariant of the walk**: wherever a node stands, its lines leave open what they find
open, if they are written at the level of the open brackets. -/
def LeavesOpen [Host] (v : Value) : Prop :=
  ∀ (before : List Bracket) {head tail : Document}, head.IsHead → tail.IsTail →
    Line.Nested o before (v.lines o before.length head tail) before

variable {o : Options}

/-- Lines that each leave open what they find open do so together. -/
theorem indented_of_forall [Host] {before : List Bracket} {ls : List Line}
    (h : ∀ l ∈ ls, IndentedLine o.indentUnit before before (l.text o)) :
    Line.Nested o before ls before := by
  induction ls with
  | nil => exact .nil before
  | cons l rest ih =>
    exact .cons (h l List.mem_cons_self) (ih fun l' hl' => h l' (List.mem_cons_of_mem _ hl'))

theorem indented_ofComment [Host] (before : List Bracket) (comment : Option String) :
    Line.Nested o before (Line.ofComment before.length comment) before := by
  refine indented_of_forall fun l hl => ?_
  have hwf := Line.wellFormed_of_mem_ofComment hl
  cases comment with
  | none => exact absurd hl (by simp [Line.ofComment])
  | some s =>
    obtain ⟨line, -, rfl⟩ := List.mem_map.mp hl
    refine hwf.indentedLine o rfl ?_
    rintro _ ⟨⟩
    rfl

theorem indented_entryLines [Host] {es : List (Value × Value)} (h : ∀ e ∈ es, e.2.LeavesOpen o)
    (before : List Bracket) : Line.Nested o before (entryLines o before.length es) before := by
  induction es with
  | nil => exact .nil before
  | cons e rest ih =>
    obtain ⟨k, child⟩ := e
    have hchild := h _ List.mem_cons_self before (Document.isHead_ofKey o k child) .nil
    have hrest := ih fun e he => h e (List.mem_cons_of_mem _ he)
    rw [Line.Nested, entryLines, List.map_append, List.map_append]
    exact (indented_ofComment before child.comment).append (hchild.append hrest)

theorem indented_blockLines [Host] {children : List Value}
    (h : ∀ child ∈ children, child.LeavesOpen o)
    (before : List Bracket) :
    Line.Nested o before (blockLines o before.length children) before := by
  induction children with
  | nil => exact .nil before
  | cons child rest ih =>
    have hchild := h _ List.mem_cons_self before .nil (Document.isTail_ite rest.isEmpty)
    have hrest := ih fun c hc => h c (List.mem_cons_of_mem _ hc)
    rw [Line.Nested, blockLines, List.map_append, List.map_append]
    exact (indented_ofComment before child.comment).append (hchild.append hrest)

/-- A head and what stands behind it on the line that opens or holds a value. -/
theorem indentedLine_head [Host] {before after : List Bracket} {head : Document}
    (hhead : head.IsHead)
    {p : Piece} {d : Document}
    (hwf : Line.WellFormed ⟨before.length, head ++ p :: d⟩) (hp : p.isClosing = false)
    (hnest : nest before ((p :: d).flatMap Piece.tokens) = some after) :
    IndentedLine o.indentUnit before after (Line.text o ⟨before.length, head ++ p :: d⟩) := by
  refine hwf.indentedLine o ?_ ?_
  · rw [List.flatMap_append, nest_flatMap hhead.all_isBracket, hnest]
  · cases hhead with
    | nil =>
      rintro _ ⟨⟩
      rw [hp]
      rfl
    | key =>
      rintro _ ⟨⟩
      rfl

/-- The line that closes a bracket. -/
theorem indentedLine_closing [Host] (b : Bracket) (before : List Bracket) {tail : Document}
    (htail : tail.IsTail) :
    IndentedLine o.indentUnit (b :: before) before
      (Line.text o ⟨before.length, .closing b :: tail⟩) := by
  refine (Line.wellFormed_closing b htail).indentedLine o ?_ ?_
  · rw [List.flatMap_cons]
    simp only [Piece.tokens, List.singleton_append, nest, if_true, nest_tail htail]
  · rintro _ ⟨⟩
    rfl

/-- A line that opens a bracket, what stands inside it, and the line that closes it. -/
theorem indented_inside [Host] {b : Bracket} {before : List Bracket} {head tail : Document}
    {ls : List Line}
    (hhead : head.IsHead) (htail : tail.IsTail) (h : Line.Nested o (b :: before) ls (b :: before)) :
    Line.Nested o before (⟨before.length, head ++ [.opening b]⟩ ::
      (ls ++ [⟨before.length, .closing b :: tail⟩])) before := by
  have hspaced : Document.Spaced [.opening b] := ⟨trivial, trivial, trivial⟩
  have hopening : IndentedLine o.indentUnit before (b :: before) _ :=
    indentedLine_head hhead (Line.wellFormed_head hhead rfl hspaced) rfl rfl
  -- inside, one more bracket is open and the level is greater by one, so the two stay equal
  rw [Line.Nested, List.map_cons, List.map_append]
  exact .cons hopening (h.append (.singleton (indentedLine_closing b before htail)))

/-- **The lines of a tree leave open what they find open.** -/
theorem IsTree.leavesOpen [Host] {v : Value} (h : v.IsTree) : v.LeavesOpen o := by
  induction h with
  | scalar value comment =>
    intro before head tail hhead htail
    have hwf := (IsTree.scalar value comment).writesWellFormed o before.length
      hhead htail _ List.mem_cons_self
    refine .singleton (indentedLine_head hhead hwf rfl ?_)
    have hnest := nest_flatMap (d := .literal (o.literal value) :: tail)
      (by simpa [Piece.isBracket] using htail.all_isBracket) before []
    rwa [List.append_nil] at hnest
  | @list children later comment htree hstable ih =>
    intro before head tail hhead htail
    have hwf := (IsTree.list comment htree hstable).writesWellFormed o before.length
      hhead htail
    rw [lines] at hwf ⊢
    split_ifs at hwf ⊢ with hfits
    · refine .singleton (indentedLine_head hhead (hwf _ List.mem_cons_self) rfl ?_)
      exact nest_inBrackets (Layout.literals o children) htail before
    · exact indented_inside hhead htail (indented_blockLines ih (.square :: before))
  | @map entries comment htree ih =>
    intro before head tail hhead htail
    rw [lines]
    exact indented_inside hhead htail (indented_entryLines ih (.brace :: before))

end Value

/-! ### Documents -/

section Rendering

variable {o : Options} {root : Value}

/-- The lines of a document leave nothing open. -/
theorem indented_documentLines [Host] (h : root.IsTree) :
    Line.Nested o [] (root.documentLines o) [] := by
  have hbody : Line.Nested o [] (root.bodyLines o) [] := by
    have hlines := h.leavesOpen (o := o) [] .nil .nil
    cases h with
    | map comment htree => exact Value.indented_entryLines (fun e he => (htree e he).leavesOpen) []
    | scalar | list => exact hlines
  rw [Line.Nested, Value.documentLines, List.map_append]
  exact (Value.indented_ofComment [] root.comment).append hbody

/-- **Brackets and indentation of a document.** The text of a tree consists of lines that each end
in the line break of the options. Read from the first to the last they open and close brackets
properly, none is open at the end, and each line is indented by the count of the brackets that are
open before it, one less if it begins with a closing bracket. -/
theorem exists_indented_lines_of_render [Host] (ho : o.HasMembers) (h : root.IsTree) {text : String}
    (hr : (render o root).outcome = .ok text) :
    ∃ lines : List (List Char), text.toList = lines.flatMap (· ++ o.newline) ∧
      (∀ line ∈ lines, IsOneLine line) ∧ Indented o.indentUnit [] lines [] := by
  refine ⟨(root.documentLines o).map (Line.text o), ?_, ?_, indented_documentLines h⟩
  · rw [toList_of_render ho h hr, Document.text_ofLines, List.flatMap_map]
  · intro line hline
    obtain ⟨l, hl, rfl⟩ := List.mem_map.mp hline
    exact l.isOneLine_text o (h.wellFormed_of_mem_documentLines o hl)

end Rendering

/-- A map with a block whose elements are a list, a map, and a text with a comment; the text and
the comment hold brackets. -/
def nestedBlock : Value :=
  .ofEntries [(.str "a", .ofChildren [.ofChildren [.scalarNode (.int 1) none],
    .ofEntries [(.str "b", .scalarNode .null none)], .scalarNode (.str "]") (some "[\n\x7b")])]

/-- The text of the map, with the default options. -/
def nestedBlockText : String :=
  "a: [\n    [ 1 ],\n    \x7b\n        b: null\n    \x7d,\n    # [\n    # \x7b\n    \"]\"\n]\n"

theorem isTree_nestedBlock : nestedBlock.IsTree := by
  have hb : ∀ e ∈ [(Value.str "b", Value.scalarNode .null none)], e.2.IsTree :=
    List.forall_mem_singleton.mpr (.scalar .null none)
  have hitems : ∀ child ∈ [Value.scalarNode (.int 1) none], child.IsTree :=
    List.forall_mem_singleton.mpr (.scalar (.int 1) none)
  refine .map none (List.forall_mem_singleton.mpr (.list none ?_ (by simp)))
  simp only [List.mem_cons, List.not_mem_nil, or_false, forall_eq_or_imp, forall_eq]
  exact ⟨.list none hitems (by simp), .map none hb, .scalar _ _⟩

open scoped Unix

/-- Brackets in texts and in comments count for nothing. -/
theorem exists_indented_lines_of_nestedBlock :
    Options.HasMembers {} ∧ nestedBlock.IsTree ∧
      (render {} nestedBlock).outcome = .ok nestedBlockText ∧
      ∃ lines : List (List Char), nestedBlockText.toList = lines.flatMap (· ++ ['\n']) ∧
        (∀ line ∈ lines, IsOneLine line) ∧ Indented [' ', ' ', ' ', ' '] [] lines [] := by
  have ho : Options.HasMembers {} := ⟨⟨_, rfl⟩, ⟨_, rfl⟩, ⟨_, rfl⟩⟩
  have hr : (render {} nestedBlock).outcome = .ok nestedBlockText := rfl
  exact ⟨ho, isTree_nestedBlock, hr, exists_indented_lines_of_render ho isTree_nestedBlock hr⟩

end Hocon
