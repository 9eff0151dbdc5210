import Hocon.Proofs.Walk
import Hocon.Proofs.WellFormed

/-!
# Comments stand on lines of their own

A comment is the only text of a tree that is written as it is, without quotes and escapes. Still it
cannot get in the way of anything else: the comments of a document can be deleted line by line, and
what is left is the document of a tree that says nothing in its comments
(`Hocon.Value.silenced`). That tree does not lack the comments of the other one, because a comment
makes its list a block even if no line is written for it; its comments consist of a line break.

Where the comments stand is said by going through the lines that are left, together with the nodes
in document order (`Hocon.CommentsAbove`). A line that begins with a closing bracket closes a
container. Every other line begins a node, the next one, and the lines of that node's comment stand
directly above it, each indented like it.

The relation speaks of characters only, so it is built once for the lines of a tree
(`Hocon.Value.IsTree.commentsAbove`), and what it gives is read off it without looking at the tree
again:

| statement | content |
|---|---|
| `Hocon.CommentsAbove.filter_not` | without the comments, the lines that are left remain |
| `Hocon.CommentsAbove.filter` | the comments are those of the nodes, in order |

The nodes that begin a line are not all nodes, since the elements of a list on one line begin none;
but those have no comments (`Hocon.Value.IsTree.flatMap_commentLines`).
-/

namespace Hocon

/-! ### Lines of comments -/

/-- Whether a character indents. -/
def isIndentation (c : Char) : Bool := c == ' ' || c == '\t'

/-- **Whether a line is the line of a comment**: behind its indentation stands the mark. -/
def isCommentLine (o : Options) (line : List Char) : Bool :=
  o.commentMark.isPrefixOf (line.dropWhile isIndentation)

/-- Whether a line closes a container: behind its indentation stands a closing bracket. -/
def isClosingLine (line : List Char) : Bool :=
  (line.dropWhile isIndentation).head?.any isClosingChar

/-- The lines that are written for the comment of a node, if it has one. -/
def Value.commentLines (v : Value) : List (List Char) :=
  v.comment.elim [] Hocon.commentLines

/-- A line of a comment behind its mark. -/
def Options.commentText (o : Options) (line : List Char) : List Char :=
  o.commentMark ++ ' ' :: line

/-- **Lines with the comments of nodes above them.** The first list of lines is the second one with
comments: a line that closes a container stands alone, and above any other line stand the lines of
the comment of the next node, with the indentation of that line. -/
inductive CommentsAbove (o : Options) :
    List Value → List (List Char) → List (List Char) → Prop
  /-- No lines, and no nodes. -/
  | nil : CommentsAbove o [] [] []
  /-- A line that closes a container. -/
  | closing {nodes : List Value} {line : List Char} {lines bare : List (List Char)}
      (closes : isClosingLine line = true) (noComment : isCommentLine o line = false)
      (others : CommentsAbove o nodes lines bare) :
      CommentsAbove o nodes (line :: lines) (line :: bare)
  /-- A line that begins a node, behind the comment of the node. -/
  | begins (v : Value) {nodes : List Value} {line : List Char} {lines bare : List (List Char)}
      (closes : isClosingLine line = false) (noComment : isCommentLine o line = false)
      (others : CommentsAbove o nodes lines bare) :
      CommentsAbove o (v :: nodes)
        (v.commentLines.map (fun c => line.takeWhile isIndentation ++ o.commentText c) ++
          line :: lines) (line :: bare)

/-- A text that consists of the given lines, each with the characters that end it. -/
structure IsLines [Host] (o : Options) (lines : List (List Char)) (text : String) : Prop where
  /-- The lines one after the other are the text. -/
  toList_eq : text.toList = lines.flatMap (· ++ o.newline)
  /-- No line goes on behind a line break. -/
  isOneLine : ∀ line ∈ lines, IsOneLine line

section Characters

variable {o : Options}

/-- What stands behind an indentation. -/
theorem dropWhile_isIndentation {unit : List Char} (hunit : ∀ c ∈ unit, isIndentation c = true)
    {c : Char} (hc : c ∉ gapChars) (cs : List Char) :
    (unit ++ c :: cs).dropWhile isIndentation = c :: cs ∧
      (unit ++ c :: cs).takeWhile isIndentation = unit := by
  have hc' : isIndentation c = false := by
    rw [isIndentation, Bool.or_eq_false_iff, beq_eq_false_iff_ne, beq_eq_false_iff_ne]
    exact ⟨by rintro rfl; exact hc (by decide), by rintro rfl; exact hc (by decide)⟩
  have hhead : ∀ x ∈ (c :: cs).head?, isIndentation x = false := by simpa using hc'
  exact ⟨dropWhile_append hunit hhead, takeWhile_append hunit hhead⟩

theorem isIndentation_of_mem_indent {level : ℕ} {c : Char}
    (h : c ∈ (List.replicate level o.indentUnit).flatten) : isIndentation c = true := by
  simp only [List.mem_flatten, List.mem_replicate] at h
  obtain ⟨_, ⟨-, rfl⟩, hc⟩ := h
  rw [Options.eq_of_mem_repeated hc]
  cases o.indentCharacter <;> decide

/-- Whether a piece is the line of a comment. -/
def Piece.isComment : Piece → Bool
  | comment _ => true
  | _ => false

/-- A piece that is no comment does not begin like one. -/
theorem Piece.commentMark_isPrefixOf [Host] {p : Piece} (h : p.Sound) (hgap : p.isGap = false)
    (rest : List Char) : o.commentMark.isPrefixOf (p.text o ++ rest) = p.isComment := by
  have hmark : ∀ c cs, c ≠ '#' → c ≠ '/' → o.commentMark.isPrefixOf (c :: cs) = false := by
    intro c cs hhash hslash
    rw [Options.commentMark]
    cases o.commentStyle with
    | hash => simp [CommentStyle.payload, Ne.symm hhash, List.isPrefixOf]
    | doubleSlash => simp [CommentStyle.payload, Ne.symm hslash, List.isPrefixOf]
  have hword : ∀ w, IsWord w → o.commentMark.isPrefixOf (w ++ rest) = false := by
    intro w hw
    obtain ⟨c, cs, rfl⟩ := List.exists_cons_of_ne_nil hw.ne_nil
    have hc := hw.chars c List.mem_cons_self
    exact hmark c _ (by rintro rfl; exact absurd hc (by decide))
      (by rintro rfl; exact absurd hc (by decide))
  have hquoted : ∀ cs, o.commentMark.isPrefixOf (Quoted.encode cs ++ rest) = false :=
    fun cs => hmark '"' _ (by decide) (by decide)
  cases p with
  | key k => cases k with
    | bare cs => exact hword cs (isWord_of_isSimpleKey h)
    | quoted cs => exact hquoted cs
  | literal l =>
    rcases literal_cases h with ⟨cs, rfl⟩ | ⟨hl, -⟩
    · exact hquoted cs
    · exact hword _ hl
  | opening b | closing b => cases b <;> exact hmark _ _ (by decide) (by decide)
  | comment line =>
    rw [text, List.append_assoc]
    exact List.isPrefixOf_iff_prefix.mpr (List.prefix_append _ _)
  | separator | comma | space => exact absurd hgap (by simp [isGap])
  | indent level => exact h.elim
  | newline => exact h.elim

/-- **What a reader of the characters sees of a well-formed line**: its indentation, whether it is
the line of a comment, and whether it closes a container. -/
theorem Line.WellFormed.reads [Host] {l : Line} (h : l.WellFormed) {p : Piece} {d : Document}
    (hcontent : l.content = p :: d) :
    (l.text o).takeWhile isIndentation = (List.replicate l.level o.indentUnit).flatten ∧
      (l.text o).dropWhile isIndentation = Document.text o l.content ∧
      isCommentLine o (l.text o) = p.isComment ∧ isClosingLine (l.text o) = p.isClosing := by
  obtain ⟨q, d', hq, hgap⟩ := h.begins
  obtain ⟨rfl, rfl⟩ := List.cons.inj (hcontent.symm.trans hq)
  have hsound : p.Sound := by
    have hspaced := h.spaced
    rw [hcontent] at hspaced
    exact hspaced.1
  obtain ⟨c, cs, htext, hc, hclosing⟩ := Piece.exists_text_eq_cons o hsound hgap
  have hline : Document.text o l.content = c :: (cs ++ Document.text o d) := by
    rw [hcontent, Document.text_cons, htext, List.cons_append]
  have hunit : ∀ c ∈ (List.replicate l.level o.indentUnit).flatten, isIndentation c = true :=
    fun _ hc => isIndentation_of_mem_indent hc
  have hreads := dropWhile_isIndentation hunit hc (cs ++ Document.text o d)
  rw [← hline] at hreads
  refine ⟨hreads.2, hreads.1, ?_, ?_⟩
  · rw [isCommentLine, Line.text, hreads.1, hcontent, Document.text_cons]
    exact Piece.commentMark_isPrefixOf hsound hgap _
  · rw [isClosingLine, Line.text, hreads.1, hline, List.head?_cons]
    exact hclosing

end Characters

/-! ### What the relation gives -/

section Filter

variable {o : Options} {unit : List Char}

/-- A line of a comment behind an indentation. -/
theorem isCommentLine_append (hunit : ∀ c ∈ unit, isIndentation c = true) (c : List Char) :
    (unit ++ o.commentText c).dropWhile isIndentation = o.commentText c ∧
      isCommentLine o (unit ++ o.commentText c) = true := by
  have hmark : ∃ m ms, o.commentMark = m :: ms ∧ m ∉ gapChars := by
    rw [Options.commentMark]
    cases o.commentStyle <;> exact ⟨_, _, rfl, by decide⟩
  obtain ⟨m, ms, hm, hgap⟩ := hmark
  have hdrop : (unit ++ o.commentText c).dropWhile isIndentation = o.commentText c := by
    rw [Options.commentText, hm]
    exact (dropWhile_isIndentation hunit hgap _).1
  refine ⟨hdrop, ?_⟩
  rw [isCommentLine, hdrop]
  exact List.isPrefixOf_iff_prefix.mpr (List.prefix_append _ _)

/-- Lines of comments are kept by whoever looks for them. -/
theorem filter_isCommentLine (hunit : ∀ c ∈ unit, isIndentation c = true) (cs : List (List Char)) :
    ((cs.map fun c => unit ++ o.commentText c).filter (isCommentLine o)).map
      (List.dropWhile isIndentation) = cs.map o.commentText := by
  rw [List.filter_eq_self.mpr, List.map_map]
  · exact List.map_congr_left fun c _ => (isCommentLine_append hunit c).1
  · exact List.forall_mem_map.mpr fun c _ => (isCommentLine_append hunit c).2

/-- Lines of comments are dropped by whoever looks for other lines. -/
theorem filter_not_isCommentLine (hunit : ∀ c ∈ unit, isIndentation c = true)
    (cs : List (List Char)) :
    (cs.map fun c => unit ++ o.commentText c).filter (fun line => !isCommentLine o line) = [] := by
  refine List.filter_eq_nil_iff.mpr (List.forall_mem_map.mpr fun c _ => ?_)
  simp [(isCommentLine_append hunit c).2]

end Filter

namespace CommentsAbove

variable {o : Options} {nodes nodes' : List Value} {lines lines' bare bare' : List (List Char)}

theorem append (h : CommentsAbove o nodes lines bare) (h' : CommentsAbove o nodes' lines' bare') :
    CommentsAbove o (nodes ++ nodes') (lines ++ lines') (bare ++ bare') := by
  induction h with
  | nil => exact h'
  | closing hcloses hcomment _ ih => exact .closing hcloses hcomment ih
  | begins v hcloses hcomment _ ih =>
    rw [List.append_assoc]
    exact .begins v hcloses hcomment ih

/-- **Without the comments, the lines that are left remain.** -/
theorem filter_not (h : CommentsAbove o nodes lines bare) :
    lines.filter (fun line => !isCommentLine o line) = bare := by
  induction h with
  | nil => rfl
  | closing hcloses hcomment _ ih => rw [List.filter_cons_of_pos (by simp [hcomment]), ih]
  | begins v hcloses hcomment _ ih =>
    rw [List.filter_append, filter_not_isCommentLine fun _ hc => List.mem_takeWhile_imp hc,
      List.nil_append, List.filter_cons_of_pos (by simp [hcomment]), ih]

/-- **The lines of comments are those of the nodes**, in order. -/
theorem filter (h : CommentsAbove o nodes lines bare) :
    (lines.filter (isCommentLine o)).map (List.dropWhile isIndentation) =
      nodes.flatMap fun v => v.commentLines.map o.commentText := by
  induction h with
  | nil => rfl
  | closing hcloses hcomment _ ih => rw [List.filter_cons_of_neg (by simp [hcomment]), ih]
  | begins v hcloses hcomment _ ih =>
    rw [List.filter_append, List.map_append,
      filter_isCommentLine fun _ hc => List.mem_takeWhile_imp hc,
      List.filter_cons_of_neg (by simp [hcomment]), ih, List.flatMap_cons]

end CommentsAbove

/-! ### The nodes of a tree -/

namespace Value

mutual

/-- The nodes below a node in document order, without the elements of the lists that are `hidden`
and what is below them. -/
def nodesBelow (hidden : List Value → Bool) : Value → List Value
  | listNode children _ _ _ => if hidden children then [] else itemNodes hidden children
  | mapNode entries _ _ => entryNodes hidden entries
  | _ => []

/-- The elements of a list and the nodes below them. -/
def itemNodes (hidden : List Value → Bool) : List Value → List Value
  | [] => []
  | child :: rest => child :: (nodesBelow hidden child ++ itemNodes hidden rest)

/-- The nodes under the keys of a map and those below them. -/
def entryNodes (hidden : List Value → Bool) : List (Value × Value) → List Value
  | [] => []
  | (_, child) :: rest => child :: (nodesBelow hidden child ++ entryNodes hidden rest)

end

/-- All nodes of a tree, in document order. -/
def nodes (v : Value) : List Value := v :: v.nodesBelow fun _ => false

/-- The nodes that begin a line below the comment of a document, in order. A bare map does not
begin a line itself, and any other root has its comment on top of the document already. -/
def startingNodes (o : Options) : Value → List Value
  | mapNode entries _ _ => entryNodes (Layout.fits o) entries
  | v => v.withoutComment :: v.nodesBelow (Layout.fits o)

/-- A comment that says nothing, in the place of any comment. -/
def silence (comment : Option String) : Option String := comment.map fun _ => "\n"

mutual

/-- **A tree that says nothing in its comments**: each comment is a line break. -/
def silenced : Value → Value
  | scalarNode value comment => scalarNode value (silence comment)
  | listNode children failure later comment =>
    listNode (silencedItems children) failure (silencedPasses later) (silence comment)
  | mapNode entries failure comment => mapNode (silencedEntries entries) failure (silence comment)
  | v => v

/-- The elements of a list with comments that say nothing. -/
def silencedItems : List Value → List Value
  | [] => []
  | child :: rest => silenced child :: silencedItems rest

/-- The readings of a list with comments that say nothing. -/
def silencedPasses : List (Pass Value) → List (Pass Value)
  | [] => []
  | ⟨items, failure⟩ :: rest => ⟨silencedItems items, failure⟩ :: silencedPasses rest

/-- The entries of a map with comments that say nothing. -/
def silencedEntries : List (Value × Value) → List (Value × Value)
  | [] => []
  | (k, child) :: rest => (k, silenced child) :: silencedEntries rest

end

theorem silencedItems_eq (children : List Value) :
    silencedItems children = children.map silenced := by
  induction children with
  | nil => rfl
  | cons child rest ih => rw [silencedItems, ih, List.map_cons]

theorem silencedEntries_eq (es : List (Value × Value)) :
    silencedEntries es = es.map fun e => (e.1, e.2.silenced) := by
  induction es with
  | nil => rfl
  | cons e rest ih => rw [silencedEntries, ih, List.map_cons]

/-- The readings of a list stay equal. -/
theorem silencedPasses_eq {children : List Value} {later : List (Pass Value)}
    (h : ∀ pass ∈ later, pass = { items := children }) :
    ∀ pass ∈ silencedPasses later, pass = { items := silencedItems children } := by
  induction later with
  | nil => simp [silencedPasses]
  | cons pass rest ih =>
    rw [h pass List.mem_cons_self, silencedPasses]
    rintro _ (_ | ⟨_, hmem⟩)
    · rfl
    · exact ih (fun pass hpass => h pass (List.mem_cons_of_mem _ hpass)) _ hmem

theorem IsTree.silenced {v : Value} (h : v.IsTree) : v.silenced.IsTree := by
  induction h with
  | scalar value comment => exact .scalar value _
  | list comment _ hstable ih =>
    refine .list _ ?_ (silencedPasses_eq hstable)
    rw [silencedItems_eq]
    exact List.forall_mem_map.mpr ih
  | map comment _ ih =>
    refine .map _ ?_
    rw [silencedEntries_eq]
    exact List.forall_mem_map.mpr ih

theorem IsTree.isWritable_silenced {v : Value} (h : v.IsTree) :
    v.silenced.IsWritable ↔ v.IsWritable := by
  induction h with
  | scalar value comment => exact Iff.rfl
  | list comment htree _ ih =>
    have hsilenced := fun c hc => (htree c hc).silenced
    rw [Value.silenced, silencedItems_eq,
      isWritable_listNode (List.forall_mem_map.mpr hsilenced), isWritable_listNode htree,
      List.forall_mem_map]
    exact forall₂_congr ih
  | map comment htree ih =>
    have hsilenced := fun e he => (htree e he).silenced
    rw [Value.silenced, silencedEntries_eq,
      isWritable_mapNode (List.forall_mem_map.mpr hsilenced), isWritable_mapNode htree,
      List.forall_mem_map]
    exact forall₂_congr fun e he => and_congr_right fun _ => ih e he

/-! ### Layout

A comment that says nothing is still a comment, so no list changes its layout. -/

variable (o : Options)

theorem isPlainScalar_silenced (v : Value) : v.silenced.isPlainScalar = v.isPlainScalar := by
  cases v with
  | scalarNode value comment => cases comment <;> rfl
  | _ => rfl

/-- Scalar nodes without comments stay as they are. -/
theorem silencedItems_of_isPlainScalar {children : List Value}
    (h : ∀ child ∈ children, child.isPlainScalar = true) : silencedItems children = children := by
  induction children with
  | nil => rfl
  | cons child rest ih =>
    rw [silencedItems, ih fun c hc => h c (List.mem_cons_of_mem _ hc),
      eq_of_isPlainScalar (h child List.mem_cons_self)]
    rfl

theorem fits_silencedItems (children : List Value) :
    Layout.fits o (silencedItems children) = Layout.fits o children := by
  by_cases hplain : ∀ child ∈ children, child.isPlainScalar = true
  · rw [silencedItems_of_isPlainScalar hplain]
  · have hall : children.all isPlainScalar = false := by
      simpa [List.all_eq_true] using hplain
    have hsilenced : (silencedItems children).all isPlainScalar = false := by
      rw [silencedItems_eq, List.all_map, ← hall]
      exact congrArg children.all (funext isPlainScalar_silenced)
    rw [Layout.fits, Layout.fits, hall, hsilenced, Bool.false_and, Bool.false_and]

theorem ofKey_silenced (k child : Value) :
    Document.ofKey o k child.silenced = Document.ofKey o k child := by
  cases child <;> rfl

/-! ### The lines of a tree -/

variable {o}

theorem map_text_ofComment [Host] (level : ℕ) (v : Value) :
    (Line.ofComment level v.comment).map (Line.text o) = v.commentLines.map fun c =>
      (List.replicate level o.indentUnit).flatten ++ o.commentText c := by
  rw [Value.commentLines]
  cases v.comment with
  | none => rfl
  | some s => simp [Line.ofComment, Line.text, Options.commentText, Piece.text]

/-- A line that begins a node, behind the comment of the node. -/
theorem commentsAbove_begins [Host] (v : Value) {l : Line} (hwf : l.WellFormed) {p : Piece}
    {d : Document}
    (hcontent : l.content = p :: d) (hcomment : p.isComment = false)
    (hclosing : p.isClosing = false)
    {nodes : List Value} {lines : List Line} {bare : List (List Char)}
    (h : CommentsAbove o nodes (lines.map (Line.text o)) bare) :
    CommentsAbove o (v :: nodes)
      ((Line.ofComment l.level v.comment ++ l :: lines).map (Line.text o)) (l.text o :: bare) := by
  obtain ⟨hindent, -, hisComment, hisClosing⟩ := hwf.reads (o := o) hcontent
  rw [List.map_append, map_text_ofComment, ← hindent, List.map_cons]
  exact .begins v (hisClosing.trans hclosing) (hisComment.trans hcomment) h

/-- A line with a closing bracket. -/
theorem commentsAbove_closing [Host] (level : ℕ) (b : Bracket) {tail : Document}
    (htail : tail.IsTail) :
    CommentsAbove o [] ([⟨level, .closing b :: tail⟩].map (Line.text o))
      ([⟨level, .closing b :: tail⟩].map (Line.text o)) := by
  have hwf : Line.WellFormed ⟨level, .closing b :: tail⟩ := Line.wellFormed_closing b htail
  obtain ⟨-, -, hisComment, hisClosing⟩ := hwf.reads (o := o) rfl
  exact .closing hisClosing hisComment .nil

/-- **What is said of a node**: wherever it stands, its lines with its comment on top are those of
the silenced node with comments above them. -/
def WritesCommentsAbove [Host] (o : Options) (v : Value) : Prop :=
  ∀ (level : ℕ) {head tail : Document}, head.IsHead → tail.IsTail →
    CommentsAbove o (v :: v.nodesBelow (Layout.fits o))
      ((Line.ofComment level v.comment ++ v.lines o level head tail).map (Line.text o))
      ((v.silenced.lines o level head tail).map (Line.text o))

theorem commentLines_silence (level : ℕ) (comment : Option String) :
    Line.ofComment level (silence comment) = [] := by
  cases comment with
  | none => rfl
  | some s => simp [silence, Line.ofComment, Hocon.commentLines, splitLines, dropEmptyEnd]

theorem comment_silenced (v : Value) : v.silenced.comment = silence v.comment := by
  cases v <;> rfl

theorem commentsAbove_entryLines [Host] {es : List (Value × Value)}
    (h : ∀ e ∈ es, e.2.WritesCommentsAbove o) (level : ℕ) :
    CommentsAbove o (entryNodes (Layout.fits o) es) ((entryLines o level es).map (Line.text o))
      ((entryLines o level (silencedEntries es)).map (Line.text o)) := by
  induction es with
  | nil => exact .nil
  | cons e rest ih =>
    obtain ⟨k, child⟩ := e
    have hchild := h _ List.mem_cons_self level (Document.isHead_ofKey o k child) .nil
    have hrest := ih fun e he => h e (List.mem_cons_of_mem _ he)
    rw [entryNodes, entryLines, silencedEntries, entryLines, comment_silenced, commentLines_silence,
      List.nil_append, ofKey_silenced]
    simpa only [List.map_append, List.append_assoc, List.cons_append] using hchild.append hrest

theorem commentsAbove_blockLines [Host] {children : List Value}
    (h : ∀ child ∈ children, child.WritesCommentsAbove o) (level : ℕ) :
    CommentsAbove o (itemNodes (Layout.fits o) children)
      ((blockLines o level children).map (Line.text o))
      ((blockLines o level (silencedItems children)).map (Line.text o)) := by
  induction children with
  | nil => exact .nil
  | cons child rest ih =>
    have hchild := h _ List.mem_cons_self level .nil (Document.isTail_ite rest.isEmpty)
    have hrest := ih fun c hc => h c (List.mem_cons_of_mem _ hc)
    have hempty : (silencedItems rest).isEmpty = rest.isEmpty := by cases rest <;> rfl
    rw [itemNodes, blockLines, silencedItems, blockLines, comment_silenced, commentLines_silence,
      List.nil_append, hempty]
    simpa only [List.map_append, List.append_assoc, List.cons_append] using hchild.append hrest

/-- A line with a head begins with neither a comment nor a closing bracket, if the rest does not. -/
theorem exists_head_append {head : Document} (hhead : head.IsHead) {p : Piece}
    (hcomment : p.isComment = false) (hclosing : p.isClosing = false) (d : Document) :
    ∃ q d', head ++ p :: d = q :: d' ∧ q.isComment = false ∧ q.isClosing = false := by
  cases hhead with
  | nil => exact ⟨p, d, rfl, hcomment, hclosing⟩
  | key => exact ⟨_, _, rfl, rfl, rfl⟩

/-- The line that opens a container begins its node, and the line that closes it begins none. -/
theorem commentsAbove_inside [Host] (v : Value) (level : ℕ) {head tail : Document}
    (hhead : head.IsHead)
    (htail : tail.IsTail) (b : Bracket) {nodes : List Value} {ls bare : List Line}
    (h : CommentsAbove o nodes (ls.map (Line.text o)) (bare.map (Line.text o))) :
    CommentsAbove o (v :: nodes)
      (List.map (Line.text o) (Line.ofComment level v.comment ++
        ⟨level, head ++ [.opening b]⟩ :: (ls ++ [⟨level, .closing b :: tail⟩])))
      (List.map (Line.text o)
        (⟨level, head ++ [.opening b]⟩ :: (bare ++ [⟨level, .closing b :: tail⟩]))) := by
  have hspaced : Document.Spaced [.opening b] := ⟨trivial, trivial, trivial⟩
  have hwf : Line.WellFormed ⟨level, head ++ [.opening b]⟩ := Line.wellFormed_head hhead rfl hspaced
  obtain ⟨q, d, hcontent, hcomment, hclosing⟩ :=
    exists_head_append hhead (p := .opening b) rfl rfl []
  have hinside := h.append (commentsAbove_closing level b htail)
  rw [List.append_nil, ← List.map_append, ← List.map_append] at hinside
  exact commentsAbove_begins v hwf hcontent hcomment hclosing hinside

/-- A node on a single line begins it. -/
theorem commentsAbove_single [Host] (v : Value) (level : ℕ) {head : Document} (hhead : head.IsHead)
    {p : Piece} {d : Document} (hwf : Line.WellFormed ⟨level, head ++ p :: d⟩)
    (hcomment : p.isComment = false) (hclosing : p.isClosing = false) :
    CommentsAbove o [v]
      (List.map (Line.text o) (Line.ofComment level v.comment ++ [⟨level, head ++ p :: d⟩]))
      (List.map (Line.text o) [⟨level, head ++ p :: d⟩]) := by
  obtain ⟨q, d', hcontent, hcomment, hclosing⟩ := exists_head_append hhead hcomment hclosing d
  have hnil : CommentsAbove o [] (List.map (Line.text o) []) [] := .nil
  exact commentsAbove_begins v hwf hcontent hcomment hclosing hnil

/-- **The lines of a tree are those of the silenced tree with comments above them.** -/
theorem IsTree.writesCommentsAbove [Host] {v : Value} (h : v.IsTree) : v.WritesCommentsAbove o := by
  induction h with
  | scalar value comment =>
    intro level head tail hhead htail
    have hwf := (IsTree.scalar value comment).writesWellFormed o level hhead htail _
      List.mem_cons_self
    exact commentsAbove_single _ level hhead hwf rfl rfl
  | @list children later comment htree hstable ih =>
    intro level head tail hhead htail
    have hwf := (IsTree.list comment htree hstable).writesWellFormed o level hhead htail
    rw [Value.silenced, nodesBelow, lines, lines, fits_silencedItems]
    rw [lines] at hwf
    split_ifs at hwf ⊢ with hfits
    · have hplain : ∀ child ∈ children, child.isPlainScalar = true := by
        rw [Layout.fits, Bool.and_eq_true] at hfits
        exact List.all_eq_true.mp hfits.1
      rw [silencedItems_of_isPlainScalar hplain]
      exact commentsAbove_single _ level hhead (hwf _ List.mem_cons_self) rfl rfl
    · exact commentsAbove_inside _ level hhead htail .square (commentsAbove_blockLines ih _)
  | @map entries comment htree ih =>
    intro level head tail hhead htail
    rw [Value.silenced, nodesBelow, lines, lines]
    exact commentsAbove_inside _ level hhead htail .brace (commentsAbove_entryLines ih _)

/-! ### Documents -/

/-- The elements of a list on one line have no comments, and no nodes are below them. -/
theorem flatMap_commentLines_of_isPlainScalar {children : List Value}
    (h : ∀ child ∈ children, child.isPlainScalar = true) :
    (itemNodes (fun _ => false) children).flatMap Value.commentLines = [] := by
  induction children with
  | nil => rfl
  | cons child rest ih =>
    have hrest := ih fun c hc => h c (List.mem_cons_of_mem _ hc)
    rw [eq_of_isPlainScalar (h child List.mem_cons_self)]
    simpa [itemNodes, nodesBelow, Value.commentLines, Value.comment] using hrest

/-- What is said of a node: the nodes below it that begin no line have no comments. -/
def HidesNoComments (o : Options) (v : Value) : Prop :=
  (v.nodesBelow (Layout.fits o)).flatMap Value.commentLines =
    (v.nodesBelow fun _ => false).flatMap Value.commentLines

theorem flatMap_itemNodes {children : List Value} (h : ∀ c ∈ children, c.HidesNoComments o) :
    (itemNodes (Layout.fits o) children).flatMap Value.commentLines =
      (itemNodes (fun _ => false) children).flatMap Value.commentLines := by
  induction children with
  | nil => rfl
  | cons child rest ih =>
    have hchild : child.HidesNoComments o := h child List.mem_cons_self
    have hrest := ih fun c hc => h c (List.mem_cons_of_mem _ hc)
    rw [HidesNoComments] at hchild
    simp only [itemNodes, List.flatMap_cons, List.flatMap_append, hchild, hrest]

theorem flatMap_entryNodes {es : List (Value × Value)} (h : ∀ e ∈ es, e.2.HidesNoComments o) :
    (entryNodes (Layout.fits o) es).flatMap Value.commentLines =
      (entryNodes (fun _ => false) es).flatMap Value.commentLines := by
  induction es with
  | nil => rfl
  | cons e rest ih =>
    have hchild : e.2.HidesNoComments o := h e List.mem_cons_self
    have hrest := ih fun e he => h e (List.mem_cons_of_mem _ he)
    rw [HidesNoComments] at hchild
    simp only [entryNodes, List.flatMap_cons, List.flatMap_append, hchild, hrest]

/-- **The nodes that begin no line have no comments.** -/
theorem IsTree.hidesNoComments {v : Value} (h : v.IsTree) : v.HidesNoComments o := by
  induction h with
  | scalar value comment => rfl
  | @list children later comment htree hstable ih =>
    rw [HidesNoComments, nodesBelow, nodesBelow]
    by_cases hfits : Layout.fits o children = true
    · have hplain := hfits
      rw [Layout.fits, Bool.and_eq_true] at hplain
      rw [if_pos hfits]
      exact (flatMap_commentLines_of_isPlainScalar (List.all_eq_true.mp hplain.1)).symm
    · rw [if_neg hfits]
      exact flatMap_itemNodes ih
  | map comment htree ih => exact flatMap_entryNodes ih

/-- The comments of the nodes that begin a line of a document, together with that of its root, are
all comments. -/
theorem IsTree.flatMap_commentLines {root : Value} (h : root.IsTree) :
    root.commentLines ++ (root.startingNodes o).flatMap Value.commentLines =
      root.nodes.flatMap Value.commentLines := by
  have hbelow := h.hidesNoComments (o := o)
  rw [HidesNoComments] at hbelow
  rw [nodes, List.flatMap_cons, ← hbelow]
  cases h <;> rfl

/-- The lines below the comment of a document, with comments above them. -/
theorem IsTree.commentsAbove [Host] {root : Value} (h : root.IsTree) :
    CommentsAbove o (root.startingNodes o) ((root.bodyLines o).map (Line.text o))
      ((root.silenced.bodyLines o).map (Line.text o)) := by
  have hnode := h.withoutComment.writesCommentsAbove (o := o) 0 .nil .nil
  cases h with
  | map comment htree =>
    exact commentsAbove_entryLines (fun e he => (htree e he).writesCommentsAbove) 0
  | scalar | list => exact hnode

end Value

section Rendering

variable {o : Options} {root : Value}

theorem isLines_of_render [Host] (ho : o.HasMembers) (h : root.IsTree) {text : String}
    (hr : (render o root).outcome = .ok text) :
    IsLines o ((root.documentLines o).map (Line.text o)) text := by
  refine ⟨?_, fun line hline => ?_⟩
  · rw [toList_of_render ho h hr, Document.text_ofLines, List.flatMap_map]
  · obtain ⟨l, hl, rfl⟩ := List.mem_map.mp hline
    exact l.isOneLine_text o (h.wellFormed_of_mem_documentLines o hl)

/-- **Comments stand on lines of their own.** The text of a tree consists of lines. Those that
begin with the mark of a comment are the lines of the comments of all nodes, in document order.
Without them the text is that of the silenced tree. The comment of the root stands on top, and that
of any other node directly above the line where the node begins, indented like it. -/
theorem exists_commentsAbove_of_render [Host] (ho : o.HasMembers) (h : root.IsTree) {text : String}
    (hr : (render o root).outcome = .ok text) :
    ∃ lines below bare text', (render o root.silenced).outcome = .ok text' ∧
      IsLines o lines text ∧ IsLines o bare text' ∧
      (lines.filter (isCommentLine o)).map (List.dropWhile isIndentation) =
        root.nodes.flatMap (fun v => v.commentLines.map o.commentText) ∧
      lines.filter (fun line => !isCommentLine o line) = bare ∧
      lines = root.commentLines.map o.commentText ++ below ∧
      CommentsAbove o (root.startingNodes o) below bare := by
  have hwritable := (exists_render_iff ho h).mp ⟨text, hr⟩
  obtain ⟨text', hr'⟩ := (exists_render_iff ho h.silenced).mpr
    ⟨hwritable.1, h.isWritable_silenced.mpr hwritable.2⟩
  have hbelow := h.commentsAbove (o := o)
  have hnone : ∀ c ∈ ([] : List Char), isIndentation c = true := by simp
  have htop : (Line.ofComment 0 root.comment).map (Line.text o) =
      root.commentLines.map fun c => [] ++ o.commentText c := Value.map_text_ofComment 0 root
  have hlines := isLines_of_render ho h hr
  have hbare := isLines_of_render ho h.silenced hr'
  rw [Value.documentLines, List.map_append, htop] at hlines
  rw [Value.documentLines, Value.comment_silenced, Value.commentLines_silence, List.nil_append]
    at hbare
  refine ⟨_, _, _, text', hr', hlines, hbare, ?_, ?_, by simp, hbelow⟩
  · rw [List.filter_append, List.map_append, filter_isCommentLine hnone, hbelow.filter,
      ← List.map_flatMap, ← List.map_append, h.flatMap_commentLines, List.map_flatMap]
  · rw [List.filter_append, filter_not_isCommentLine hnone, hbelow.filter_not, List.nil_append]

end Rendering

/-- A map with comments on all of its nodes: on the root, on a block, on an element with a line
break of its own kind, and on an element for which no line is written. -/
def commentedBlock : Value :=
  .ofEntries [(.str "a", .ofChildren [.scalarNode (.str "#") (some "\x7b\r]"),
    .ofChildren [.scalarNode .null none] (some "\r\n")] (some ""))] (some "\"\n\n# b: 1\n")

/-- The text of the map, with the default options. -/
def commentedBlockText : String :=
  "# \"\n# \n# # b: 1\n# \na: [\n    # \x7b\n    # ]\n    \"#\",\n    [ null ]\n]\n"

theorem isTree_commentedBlock : commentedBlock.IsTree := by
  have hitems : ∀ child ∈ [Value.scalarNode .null none], child.IsTree :=
    List.forall_mem_singleton.mpr (.scalar .null none)
  refine .map _ (List.forall_mem_singleton.mpr (.list _ ?_ (by simp)))
  simp only [List.mem_cons, List.not_mem_nil, or_false, forall_eq_or_imp, forall_eq]
  exact ⟨.scalar _ _, .list _ hitems (by simp)⟩

open scoped Unix

/-- Whatever a comment holds, it goes with its lines. -/
theorem exists_commentsAbove_of_commentedBlock :
    Options.HasMembers {} ∧ commentedBlock.IsTree ∧
      (render {} commentedBlock).outcome = .ok commentedBlockText ∧
      ∃ lines below bare text', (render {} commentedBlock.silenced).outcome = .ok text' ∧
        IsLines {} lines commentedBlockText ∧ IsLines {} bare text' ∧
        (lines.filter (isCommentLine {})).map (List.dropWhile isIndentation) =
          commentedBlock.nodes.flatMap (fun v => v.commentLines.map (Options.commentText {})) ∧
        lines.filter (fun line => !isCommentLine {} line) = bare ∧
        lines = commentedBlock.commentLines.map (Options.commentText {}) ++ below ∧
        CommentsAbove {} (commentedBlock.startingNodes {}) below bare := by
  have ho : Options.HasMembers {} := ⟨⟨_, rfl⟩, ⟨_, rfl⟩, ⟨_, rfl⟩⟩
  have hr : (render {} commentedBlock).outcome = .ok commentedBlockText := rfl
  exact ⟨ho, isTree_commentedBlock, hr, exists_commentsAbove_of_render ho isTree_commentedBlock hr⟩

end Hocon
