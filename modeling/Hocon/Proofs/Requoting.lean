import Hocon.Proofs.Comments
import Hocon.Proofs.Fitting
import Hocon.Proofs.WellFormed

/-!
# Quotes around bare texts

A text that stands bare has nothing to escape, so in quotes it is itself between two quotes. This
module follows the quotes through a document when texts are always quoted instead of only where
that is required, with all other options as they are.

The one thing that may change beside the quotes is the layout of a list, since the quotes count
when it is measured. It can change in one direction only: literals get longer, so a list that fits
with quotes fits without them (`Hocon.Layout.fits_of_always`). As long as no list changes, the two
documents have the same pieces but for the bare texts, and they are made of the same lines.

| of what | in quotes |
|---|---|
| `Hocon.Literal.inQuotes` | a literal |
| `Hocon.Piece.inQuotes` | a piece |
| `Hocon.Line.inQuotes` | a line |
| `Hocon.Document.textInQuotes` | the text of a document, with two quotes more for each bare text |

Keys have a quoting policy of their own, and a comment is never quoted, so neither is touched: of
all pieces, only literals are put in quotes.
-/

namespace Hocon

/-! ### Bare texts -/

/-- A character of a bare text is not escaped. -/
theorem Quoted.encodeChar_of_isBareChar {c : Char} (h : isBareChar c = true) :
    encodeChar c = [c] := by
  by_cases hlow : c.toNat < 0xA0
  · have hall : ∀ n < 0xA0, isBareChar (Char.ofNat n) = true →
        encodeChar (Char.ofNat n) = [Char.ofNat n] := by decide +kernel
    have hc := hall c.toNat hlow
    rw [Char.ofNat_toNat] at hc
    exact hc h
  · -- whatever is escaped has a small code point
    have hcontrol : isControl c = false := by
      rw [← Bool.not_eq_true]
      exact fun hcontrol => hlow (toNat_lt_of_isControl hcontrol)
    have hshort : shortEscape c = none := by
      unfold shortEscape
      split
      case h_8 => rfl
      all_goals exact absurd (by decide) hlow
    rw [encodeChar, hshort]
    simp [hcontrol]

/-- **A bare text has nothing to escape.** -/
theorem Quoted.encode_of_isBareText {cs : List Char} (h : isBareText cs = true) :
    encode cs = '"' :: (cs ++ ['"']) := by
  have hchars : ∀ c ∈ cs, encodeChar c = [c] := by
    cases cs with
    | nil => exact fun _ hc => absurd hc List.not_mem_nil
    | cons c rest =>
      rw [isBareText, Bool.and_eq_true] at h
      exact fun x hx => encodeChar_of_isBareChar (List.all_eq_true.mp h.2 x hx)
  rw [encode, List.flatMap_congr hchars, List.flatMap_singleton', List.cons_append]

/-! ### Putting in quotes -/

/-- A bare text in quotes; any other literal is what it was. -/
def Literal.inQuotes : Literal → Literal
  | bare cs => quoted cs
  | l => l

namespace Piece

/-- A literal in quotes; any other piece is what it was. -/
def inQuotes : Piece → Piece
  | literal l => literal l.inQuotes
  | p => p

/-- Whether a piece is a bare text. -/
def isBare : Piece → Bool
  | literal (.bare _) => true
  | _ => false

/-- The literal that a piece is, if it is one. -/
def literal? : Piece → Option Literal
  | literal l => some l
  | _ => none

/-- The characters of a piece, between two quotes if it is a bare text. -/
def textInQuotes [Host] (o : Options) (p : Piece) : List Char :=
  if p.isBare then '"' :: (p.text o ++ ['"']) else p.text o

end Piece

/-- A line with its literals in quotes. -/
def Line.inQuotes (l : Line) : Line := { l with content := l.content.map Piece.inQuotes }

/-- **The text of a document with a quote in front of each bare text and one behind it.** -/
def Document.textInQuotes [Host] (o : Options) (d : Document) : List Char :=
  d.flatMap (Piece.textInQuotes o)

/-- The literals among the pieces of a document. -/
def Document.literals (d : Document) : List Literal := d.filterMap Piece.literal?

/-- Options with another quoting policy for texts. -/
def Options.requoted (o : Options) (quoting : Quoting) : Options :=
  { o with stringQuoting := .member quoting }

/-- A literal that is put in quotes has the quotes more. -/
theorem Literal.length_text_le_inQuotes {l : Literal} (h : (Piece.literal l).Sound) :
    l.text.length ≤ l.inQuotes.text.length := by
  cases l with
  | bare cs =>
    have hencode : Quoted.encode cs = '"' :: (cs ++ ['"']) := Quoted.encode_of_isBareText h
    simp only [inQuotes, text, hencode, List.length_cons, List.length_append]
    omega
  | _ => exact Nat.le_refl _

/-- **The text of a piece in quotes.** -/
theorem Piece.text_inQuotes [Host] (o : Options) {p : Piece}
    (h : ∀ l, p.literal? = some l → (Piece.literal l).Sound) :
    p.inQuotes.text o = p.textInQuotes o := by
  cases p with
  | literal l =>
    cases l with
    | bare cs => exact Quoted.encode_of_isBareText (h _ rfl)
    | _ => rfl
  | _ => rfl

/-- The text of a document in quotes. -/
theorem Document.text_map_inQuotes [Host] (o : Options) {d : Document}
    (h : ∀ l ∈ d.literals, (Piece.literal l).Sound) :
    text o (d.map Piece.inQuotes) = d.textInQuotes o := by
  rw [text, List.flatMap_map, textInQuotes]
  refine List.flatMap_congr fun p hp => p.text_inQuotes o fun l hl => h l ?_
  exact List.mem_filterMap.mpr ⟨p, hp, hl⟩

namespace Document

theorem ofLiterals_map_inQuotes (ls : List Literal) :
    ofLiterals (ls.map Literal.inQuotes) = (ofLiterals ls).map Piece.inQuotes := by
  induction ls using ofLiterals.induct with
  | case1 | case2 => rfl
  | case3 l ls hls ih =>
    rw [List.map_cons, ofLiterals, ofLiterals, ih]
    · rfl
    · exact hls
    · simpa using hls

theorem inBrackets_map_inQuotes (ls : List Literal) :
    inBrackets (ls.map Literal.inQuotes) = (inBrackets ls).map Piece.inQuotes := by
  rw [inBrackets, inBrackets, ofLiterals_map_inQuotes]
  simp [Piece.inQuotes]

theorem ofLines_map_inQuotes (ls : List Line) :
    ofLines (ls.map Line.inQuotes) = (ofLines ls).map Piece.inQuotes := by
  rw [ofLines, ofLines, List.flatMap_map, List.map_flatMap]
  refine List.flatMap_congr fun l _ => ?_
  simp [Line.pieces, Line.inQuotes, Piece.inQuotes]

end Document

/-! ### Always quoted -/

section Always

variable (o : Options)

/-- **Where texts are always quoted, literals stand in quotes.** -/
theorem Options.literal_always (v : Value) :
    (o.requoted .always).literal v = ((o.requoted .whenRequired).literal v).inQuotes := by
  cases v with
  | str s =>
    change Literal.quoted s.toList = (Literal.ofText .whenRequired s.toList).inQuotes
    rw [Literal.ofText]
    split_ifs <;> rfl
  | float | int =>
    rw [Options.literal, Options.literal, Literal.ofValue, Literal.ofValue]
    split_ifs <;> rfl
  | _ => rfl

namespace Layout

theorem literals_always (children : List Value) :
    literals (o.requoted .always) children =
      (literals (o.requoted .whenRequired) children).map Literal.inQuotes := by
  rw [literals, literals, List.map_map]
  exact List.map_congr_left fun c _ => o.literal_always c.held

theorem measured_le_always (children : List Value) :
    measured (literals (o.requoted .whenRequired) children) ≤
      measured (literals (o.requoted .always) children) := by
  induction children with
  | nil => exact Nat.le_refl _
  | cons c rest ih =>
    have hlength := Literal.length_text_le_inQuotes
      ((o.requoted .whenRequired).sound_literal c.held)
    rw [← o.literal_always] at hlength
    rw [literals_cons, literals_cons, measured_cons, measured_cons]
    omega

variable {o}

/-- **What fits on one line with quotes fits without them.** -/
theorem fits_of_always {children : List Value}
    (h : fits (o.requoted .always) children = true) :
    fits (o.requoted .whenRequired) children = true := by
  simp only [fits, Bool.and_eq_true, decide_eq_true_eq] at h ⊢
  exact ⟨h.1, (measured_le_always o children).trans_lt h.2⟩

end Layout

namespace Value

/-- What is said of a node: no list among it and the nodes below it changes its layout. -/
def KeepsLayouts (v : Value) : Prop :=
  ∀ children failure later comment, .listNode children failure later comment ∈ v.nodes →
    Layout.fits (o.requoted .always) children = Layout.fits (o.requoted .whenRequired) children

/-- What is said of a node: where texts are always quoted, its lines are the same in quotes. -/
def WritesInQuotes (v : Value) : Prop :=
  ∀ level head tail, v.lines (o.requoted .always) level (head.map Piece.inQuotes)
      (tail.map Piece.inQuotes) =
    (v.lines (o.requoted .whenRequired) level head tail).map Line.inQuotes

variable {o}

theorem itemNodes_eq_flatMap (children : List Value) :
    itemNodes (fun _ => false) children = children.flatMap nodes := by
  induction children with
  | nil => rfl
  | cons child rest ih =>
    rw [itemNodes, ih, List.flatMap_cons]
    rfl

theorem entryNodes_eq_flatMap (es : List (Value × Value)) :
    entryNodes (fun _ => false) es = es.flatMap fun e => e.2.nodes := by
  induction es with
  | nil => rfl
  | cons e rest ih =>
    rw [entryNodes, ih, List.flatMap_cons]
    rfl

theorem mem_nodes_listNode {children : List Value} {failure : Option Failure}
    {later : List (Pass Value)} {comment : Option String} {n : Value} :
    n ∈ (listNode children failure later comment).nodes ↔
      n = listNode children failure later comment ∨ ∃ c ∈ children, n ∈ c.nodes := by
  rw [nodes, List.mem_cons, nodesBelow, itemNodes_eq_flatMap]
  simp

theorem mem_nodes_mapNode {es : List (Value × Value)} {failure : Option Failure}
    {comment : Option String} {n : Value} :
    n ∈ (mapNode es failure comment).nodes ↔
      n = mapNode es failure comment ∨ ∃ e ∈ es, n ∈ e.2.nodes := by
  rw [nodes, List.mem_cons, nodesBelow, entryNodes_eq_flatMap, List.mem_flatMap]

/-- The nodes of a tree are trees. -/
theorem IsTree.of_mem_nodes {v n : Value} (h : v.IsTree) (hn : n ∈ v.nodes) : n.IsTree := by
  induction h with
  | scalar value comment =>
    obtain rfl : n = scalarNode value comment := List.mem_singleton.mp hn
    exact .scalar value comment
  | list comment htree hstable ih =>
    rcases mem_nodes_listNode.mp hn with rfl | ⟨c, hc, hmem⟩
    · exact .list comment htree hstable
    · exact ih c hc hmem
  | map comment htree ih =>
    rcases mem_nodes_mapNode.mp hn with rfl | ⟨e, he, hmem⟩
    · exact .map comment htree
    · exact ih e he hmem

theorem inQuotes_ofComment (level : ℕ) (comment : Option String) :
    (Line.ofComment level comment).map Line.inQuotes = Line.ofComment level comment := by
  cases comment with
  | none => rfl
  | some s => simp [Line.ofComment, Line.inQuotes, Piece.inQuotes]

theorem inQuotes_ofKey (k child : Value) :
    (Document.ofKey (o.requoted .whenRequired) k child).map Piece.inQuotes =
      Document.ofKey (o.requoted .always) k child := by
  have hseparator : (Render.separatorBefore (o.requoted .whenRequired) child).inQuotes =
      Render.separatorBefore (o.requoted .always) child := by
    cases child with
    | mapNode =>
      rw [Render.separatorBefore, Render.separatorBefore]
      change (if o.objectSeparator = .member .omitted then Piece.space else .separator).inQuotes =
        if o.objectSeparator = .member .omitted then Piece.space else .separator
      split_ifs <;> rfl
    | _ => rfl
  rw [Document.ofKey, Document.ofKey, List.map_cons, List.map_singleton, hseparator]
  rfl

theorem entryLines_always {es : List (Value × Value)} (h : ∀ e ∈ es, e.2.WritesInQuotes o)
    (level : ℕ) :
    entryLines (o.requoted .always) level es =
      (entryLines (o.requoted .whenRequired) level es).map Line.inQuotes := by
  induction es with
  | nil => rfl
  | cons e rest ih =>
    obtain ⟨k, child⟩ := e
    have hchild := h _ List.mem_cons_self level
      (Document.ofKey (o.requoted .whenRequired) k child) []
    rw [inQuotes_ofKey, List.map_nil] at hchild
    rw [entryLines, entryLines, List.map_append, List.map_append, inQuotes_ofComment, hchild,
      ih fun e he => h e (List.mem_cons_of_mem _ he)]

theorem blockLines_always {children : List Value} (h : ∀ c ∈ children, c.WritesInQuotes o)
    (level : ℕ) :
    blockLines (o.requoted .always) level children =
      (blockLines (o.requoted .whenRequired) level children).map Line.inQuotes := by
  induction children with
  | nil => rfl
  | cons child rest ih =>
    have hchild := h _ List.mem_cons_self level [] (if rest.isEmpty then [] else [.comma])
    have hcomma : (if rest.isEmpty then [] else [Piece.comma]).map Piece.inQuotes =
        if rest.isEmpty then [] else [.comma] := by
      split_ifs <;> rfl
    rw [hcomma, List.map_nil] at hchild
    rw [blockLines, blockLines, List.map_append, List.map_append, inQuotes_ofComment, hchild,
      ih fun c hc => h c (List.mem_cons_of_mem _ hc)]

/-- **A node whose lists keep their layouts** is written on the same lines, in quotes. -/
theorem IsTree.writesInQuotes {v : Value} (h : v.IsTree) (hkeeps : v.KeepsLayouts o) :
    v.WritesInQuotes o := by
  induction h with
  | scalar value comment =>
    intro level head tail
    simp [lines, Line.inQuotes, Piece.inQuotes, o.literal_always]
  | @list children later comment htree hstable ih =>
    intro level head tail
    have hfits := hkeeps _ _ _ _ (mem_nodes_listNode.mpr (Or.inl rfl))
    have hblock := blockLines_always fun c hc => ih c hc fun _ _ _ _ hn =>
      hkeeps _ _ _ _ (mem_nodes_listNode.mpr (Or.inr ⟨c, hc, hn⟩))
    -- the layout is the same, so both are on one line or both are blocks
    rw [lines, lines, hfits]
    split_ifs
    · rw [Layout.literals_always, Document.inBrackets_map_inQuotes]
      simp [Line.inQuotes]
    · rw [hblock]
      simp [Line.inQuotes, Piece.inQuotes]
  | @map es comment htree ih =>
    intro level head tail
    have hentries := entryLines_always fun e he => ih e he fun _ _ _ _ hn =>
      hkeeps _ _ _ _ (mem_nodes_mapNode.mpr (Or.inr ⟨e, he, hn⟩))
    rw [lines, lines, hentries]
    simp [Line.inQuotes, Piece.inQuotes]

theorem IsTree.documentLines_always {root : Value} (h : root.IsTree)
    (hkeeps : root.KeepsLayouts o) :
    root.documentLines (o.requoted .always) =
      (root.documentLines (o.requoted .whenRequired)).map Line.inQuotes := by
  have hnode := h.writesInQuotes hkeeps 0 [] []
  rw [documentLines, documentLines, List.map_append, inQuotes_ofComment]
  congr 1
  cases h with
  | scalar | list => exact hnode
  | map comment htree =>
    refine entryLines_always (fun e he => (htree e he).writesInQuotes fun _ _ _ _ hn => ?_) 0
    exact hkeeps _ _ _ _ (mem_nodes_mapNode.mpr (Or.inr ⟨e, he, hn⟩))

end Value

end Always

/-! ### The literals of a document -/

namespace Document

@[simp] theorem literals_nil : literals [] = [] := rfl

@[simp] theorem literals_cons (p : Piece) (d : Document) :
    literals (p :: d) = p.literal?.toList ++ literals d := by
  cases h : p.literal? <;> simp [literals, h]

@[simp] theorem literals_append (d e : Document) :
    literals (d ++ e) = literals d ++ literals e := List.filterMap_append

/-- The literals of a document are those of its lines. -/
theorem literals_ofLines (ls : List Line) :
    literals (ofLines ls) = ls.flatMap fun l => literals l.content := by
  induction ls with
  | nil => rfl
  | cons l ls ih =>
    rw [ofLines_cons, literals_append, ih, List.flatMap_cons, Line.pieces]
    simp [Piece.literal?]

theorem literals_inBrackets (ls : List Literal) : literals (inBrackets ls) = ls := by
  have hliterals : literals (ofLiterals ls) = ls := by
    induction ls using ofLiterals.induct with
    | case1 | case2 => rfl
    | case3 l ls hls ih =>
      rw [ofLiterals]
      · exact congrArg (l :: ·) ih
      · exact hls
  simp [inBrackets, Piece.literal?, hliterals]

end Document

namespace Value

variable (o : Options)

/-- What is said of a node: the literals on its lines are those of its scalar nodes, in order. -/
def SpellsScalars (v : Value) : Prop :=
  ∀ level head tail path, (v.lines o level head tail).flatMap (fun l => l.content.literals) =
    head.literals ++ ((v.scalars path).map (fun s => o.literal s.2) ++ tail.literals)

variable {o}

theorem literals_ofComment (level : ℕ) (comment : Option String) :
    (Line.ofComment level comment).flatMap (fun l => l.content.literals) = [] := by
  cases comment with
  | none => rfl
  | some s => simp [Line.ofComment, Document.literals, Piece.literal?]

theorem literals_ofKey (k child : Value) : (Document.ofKey o k child).literals = [] := by
  cases child with
  | mapNode =>
    rw [Document.ofKey, Render.separatorBefore]
    split_ifs <;> rfl
  | _ => rfl

theorem literals_entryLines {es : List (Value × Value)} (h : ∀ e ∈ es, e.2.SpellsScalars o)
    (level : ℕ) (path : Path) :
    (entryLines o level es).flatMap (fun l => l.content.literals) =
      (entryScalars path es).map fun s => o.literal s.2 := by
  induction es with
  | nil => rfl
  | cons e rest ih =>
    obtain ⟨k, child⟩ := e
    rw [entryLines, entryScalars, List.flatMap_append, List.flatMap_append, literals_ofComment,
      h _ List.mem_cons_self _ _ _ (path ++ [.key (keyText k)]), literals_ofKey,
      ih fun e he => h e (List.mem_cons_of_mem _ he)]
    simp

theorem literals_blockLines {children : List Value} (h : ∀ c ∈ children, c.SpellsScalars o)
    (level : ℕ) (path : Path) (index : ℕ) :
    (blockLines o level children).flatMap (fun l => l.content.literals) =
      (itemScalars path index children).map fun s => o.literal s.2 := by
  induction children generalizing index with
  | nil => rfl
  | cons child rest ih =>
    have hcomma : Document.literals (if rest.isEmpty then [] else [.comma]) = [] := by
      split_ifs <;> rfl
    rw [blockLines, itemScalars, List.flatMap_append, List.flatMap_append, literals_ofComment,
      h _ List.mem_cons_self _ _ _ (path ++ [.index index]), hcomma,
      ih (fun c hc => h c (List.mem_cons_of_mem _ hc)) (index + 1)]
    simp

theorem literals_eq_of_isPlainScalar {children : List Value}
    (h : ∀ c ∈ children, c.isPlainScalar = true) (path : Path) (index : ℕ) :
    Layout.literals o children = (itemScalars path index children).map fun s => o.literal s.2 := by
  induction children generalizing index with
  | nil => rfl
  | cons child rest ih =>
    rw [eq_of_isPlainScalar (h child List.mem_cons_self), itemScalars, scalars,
      Layout.literals_cons, ih fun c hc => h c (List.mem_cons_of_mem _ hc)]
    rfl

/-- **The literals of a tree's lines** are those of its scalar nodes, in order. -/
theorem IsTree.spellsScalars {v : Value} (h : v.IsTree) : v.SpellsScalars o := by
  induction h with
  | scalar value comment =>
    intro level head tail path
    simp [lines, scalars, Piece.literal?]
  | @list children later comment htree hstable ih =>
    intro level head tail path
    rw [lines, scalars]
    by_cases hfits : Layout.fits o children = true
    · have hplain := hfits
      rw [Layout.fits, Bool.and_eq_true] at hplain
      rw [if_pos hfits, List.flatMap_singleton, Document.literals_append, Document.literals_append,
        Document.literals_inBrackets,
        literals_eq_of_isPlainScalar (List.all_eq_true.mp hplain.1) path 0]
    · rw [if_neg hfits, List.flatMap_cons, List.flatMap_append, literals_blockLines ih _ path 0]
      simp [Piece.literal?]
  | @map es comment htree ih =>
    intro level head tail path
    rw [lines, scalars, List.flatMap_cons, List.flatMap_append, literals_entryLines ih _ path]
    simp [Piece.literal?]

/-- **The literals of a document** are those of the tree's scalar nodes, in order. -/
theorem IsTree.literals_documentLines {root : Value} (h : root.IsTree) :
    (Document.ofLines (root.documentLines o)).literals =
      (root.scalars []).map fun s => o.literal s.2 := by
  have hnode := h.spellsScalars (o := o) 0 [] [] []
  rw [Document.literals_ofLines, documentLines, List.flatMap_append, literals_ofComment,
    List.nil_append]
  cases h with
  | scalar | list => simpa using hnode
  | map comment htree => exact literals_entryLines (fun e he => (htree e he).spellsScalars) 0 []

end Value

/-! ### Two renderings of one tree -/

section Rendering

variable {o : Options} {root : Value}

theorem Options.HasMembers.requoted (ho : o.HasMembers) (quoting : Quoting) :
    (o.requoted quoting).HasMembers :=
  ⟨ho.objectSeparator, ⟨quoting, rfl⟩, ho.keyQuoting⟩

theorem Options.CountsFit.requoted (hc : o.CountsFit) (quoting : Quoting) :
    (o.requoted quoting).CountsFit :=
  ⟨hc.indent, hc.spacesBefore, hc.spacesAfter⟩

/-- The quoting policy is no matter of what fills in a piece. -/
theorem Document.text_requoted [Host] (quoting : Quoting) (d : Document) :
    text (o.requoted quoting) d = text o d := by
  refine List.flatMap_congr fun p _ => ?_
  cases p <;> rfl

/-- The nodes of a tree that can be written can be written too. -/
theorem Value.IsTree.isWritable_of_mem_nodes {v n : Value} (h : v.IsTree) (hv : v.IsWritable)
    (hn : n ∈ v.nodes) : n.IsWritable := by
  induction h with
  | scalar value comment =>
    obtain rfl : n = scalarNode value comment := List.mem_singleton.mp hn
    exact hv
  | list comment htree hstable ih =>
    rcases mem_nodes_listNode.mp hn with rfl | ⟨c, hc, hmem⟩
    · exact hv
    · exact ih c hc ((isWritable_listNode htree).mp hv c hc) hmem
  | map comment htree ih =>
    rcases mem_nodes_mapNode.mp hn with rfl | ⟨e, he, hmem⟩
    · exact hv
    · exact ih e he ((isWritable_mapNode htree).mp hv e he).2 hmem

/-- In a tree that can be written, each list is written on one line if it fits there. -/
theorem Value.IsTree.chosen_eq_fits_of_mem_nodes (h : root.IsTree) (hroot : root.IsWritable)
    {children : List Value} {failure : Option Failure} {later : List (Pass Value)}
    {comment : Option String} (hn : listNode children failure later comment ∈ root.nodes)
    (quoting : Quoting) :
    Layout.chosen (o.requoted quoting) children =
      .ok (Layout.fits (o.requoted quoting) children) := by
  have hwritable := h.isWritable_of_mem_nodes hroot hn
  cases h.of_mem_nodes hn with
  | list _ htree hstable =>
    have hall := (isWritable_listNode htree).mp hwritable
    refine Layout.chosen_eq_fits rfl (fun c hc => (htree c hc).isNode) fun v comment hmem => ?_
    exact (isWritable_scalarNode v comment).mp (hall _ hmem)

/-- **Quotes are all that is added** where texts are always quoted instead of only where that is
required. Of a tree that renders,

1. each list that is on one line with the quotes is on one line without them;
2. if no list changes its layout, the tree is written in the same pieces, of which the literals are
   those of its values, in order; and where texts are always quoted, there is a quote in front of
   each bare text and one behind it, and nothing else is different. -/
theorem render_always_quoted [Host] (ho : o.HasMembers) (h : root.IsTree) {rendered : String}
    (hr : (render o root).outcome = .ok rendered) :
    (∀ children failure later comment, .listNode children failure later comment ∈ root.nodes →
      Layout.chosen (o.requoted .always) children = .ok true →
        Layout.chosen (o.requoted .whenRequired) children = .ok true) ∧
    ((∀ children failure later comment, .listNode children failure later comment ∈ root.nodes →
        Layout.chosen (o.requoted .always) children =
          Layout.chosen (o.requoted .whenRequired) children) →
      ∃ (d : Document) (text text' : String),
        d = Document.ofLines (root.documentLines (o.requoted .whenRequired)) ∧
        d.literals = (root.scalars []).map (fun s => (o.requoted .whenRequired).literal s.2) ∧
        (render (o.requoted .whenRequired) root).outcome = .ok text ∧
        (render (o.requoted .always) root).outcome = .ok text' ∧
        text.toList = d.text o ∧ text'.toList = d.textInQuotes o) := by
  obtain ⟨hc, hroot⟩ := (exists_render_iff ho h).mp ⟨rendered, hr⟩
  constructor
  · intro children failure later comment hn hinline
    rw [h.chosen_eq_fits_of_mem_nodes hroot hn, Except.ok.injEq] at hinline ⊢
    exact Layout.fits_of_always hinline
  · intro hsame
    have hkeeps : root.KeepsLayouts o := by
      intro children failure later comment hn
      have hchosen := hsame children failure later comment hn
      rwa [h.chosen_eq_fits_of_mem_nodes hroot hn, h.chosen_eq_fits_of_mem_nodes hroot hn,
        Except.ok.injEq] at hchosen
    obtain ⟨text, htext⟩ :=
      (exists_render_iff (ho.requoted .whenRequired) h).mpr ⟨hc.requoted .whenRequired, hroot⟩
    obtain ⟨text', htext'⟩ :=
      (exists_render_iff (ho.requoted .always) h).mpr ⟨hc.requoted .always, hroot⟩
    have hliterals := h.literals_documentLines (o := o.requoted .whenRequired)
    -- the literals are those of values, so whatever stands bare is a bare text
    have hsound : ∀ l ∈ (Document.ofLines
        (root.documentLines (o.requoted .whenRequired))).literals, (Piece.literal l).Sound := by
      rw [hliterals]
      exact List.forall_mem_map.mpr fun s _ => (o.requoted .whenRequired).sound_literal s.2
    refine ⟨_, text, text', rfl, hliterals, htext, htext', ?_, ?_⟩
    · rw [toList_of_render (ho.requoted .whenRequired) h htext, Document.text_requoted]
    · rw [toList_of_render (ho.requoted .always) h htext', Document.text_requoted,
        h.documentLines_always hkeeps, Document.ofLines_map_inQuotes,
        Document.text_map_inQuotes o hsound]

end Rendering

/-- A bare text, a quoted one and a number. -/
def mixedItems : List Value := Layout.lineOf [.str "x", .str "y z", .int 1]

/-- The list of them, and a bare text under a comment. -/
def mixedTexts : Value :=
  .ofEntries [(.str "b c", .ofChildren mixedItems), (.str "a", .scalarNode (.str "w") (some "v"))]

/-- The text of the map, with the default options. -/
def mixedTextsBare : String := "\"b c\": [ x, \"y z\", 1 ]\n# v\na: w\n"

/-- Its text where texts are always quoted. -/
def mixedTextsQuoted : String := "\"b c\": [ \"x\", \"y z\", 1 ]\n# v\na: \"w\"\n"

theorem isTree_mixedTexts : mixedTexts.IsTree := by
  have hitems : ∀ c ∈ mixedItems, c.IsTree := List.forall_mem_map.mpr fun _ _ => .scalar _ _
  refine .map none ?_
  simp only [List.mem_cons, List.not_mem_nil, or_false, forall_eq_or_imp, forall_eq]
  exact ⟨.list none hitems (by simp), .scalar _ _⟩

open scoped Unix

/-- Neither the key nor the comment gets quotes, and the quoted text gets no second ones. -/
theorem render_mixedTexts_always_quoted :
    Options.HasMembers {} ∧ mixedTexts.IsTree ∧
      (render {} mixedTexts).outcome = .ok mixedTextsBare ∧
      (render (Options.requoted {} .always) mixedTexts).outcome = .ok mixedTextsQuoted ∧
      Layout.chosen (Options.requoted {} .always) mixedItems = .ok true ∧
      Layout.chosen (Options.requoted {} .whenRequired) mixedItems = .ok true ∧
      ∃ d : Document,
        d.literals = [.bare ['x'], .quoted ['y', ' ', 'z'], .int 1 rfl, .bare ['w']] ∧
        mixedTextsBare.toList = d.text {} ∧ mixedTextsQuoted.toList = d.textInQuotes {} := by
  have ho : Options.HasMembers {} := ⟨⟨_, rfl⟩, ⟨_, rfl⟩, ⟨_, rfl⟩⟩
  have hr : (render {} mixedTexts).outcome = .ok mixedTextsBare := rfl
  have hr' : (render (Options.requoted {} .always) mixedTexts).outcome = .ok mixedTextsQuoted := rfl
  have hinline : Layout.chosen (Options.requoted {} .always) mixedItems = .ok true := rfl
  obtain ⟨hshorter, hquotes⟩ := render_always_quoted ho isTree_mixedTexts hr
  have hinline' := hshorter mixedItems none [] none
    (Value.mem_nodes_mapNode.mpr (Or.inr ⟨_, List.mem_cons_self, List.mem_cons_self⟩)) hinline
  have hsame : ∀ children failure later comment,
      .listNode children failure later comment ∈ mixedTexts.nodes →
        Layout.chosen (Options.requoted {} .always) children =
          Layout.chosen (Options.requoted {} .whenRequired) children := by
    intro children failure later comment hn
    obtain ⟨rfl, -⟩ : children = mixedItems ∧ _ := by
      simpa [mixedTexts, mixedItems, Layout.lineOf, Value.ofEntries, Value.ofChildren, Value.nodes,
        Value.nodesBelow, Value.entryNodes, Value.itemNodes] using hn
    rw [hinline, hinline']
  obtain ⟨d, text, text', -, hliterals, htext, htext', hbare, hquoted⟩ := hquotes hsame
  obtain rfl : mixedTextsBare = text := Except.ok.inj (hr.symm.trans htext)
  obtain rfl : mixedTextsQuoted = text' := Except.ok.inj (hr'.symm.trans htext')
  exact ⟨ho, isTree_mixedTexts, hr, hr', hinline, hinline', d, hliterals, hbare, hquoted⟩

end Hocon
