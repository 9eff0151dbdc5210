import Hocon.Proofs.Comments
import Hocon.Proofs.Decisions
import Mathlib.Data.List.Forall2

/-!
# Line endings and indentation

How a line ends and how it is indented says nothing about what stands on it. Options that differ in
nothing else (`Hocon.Options.respaced`) decide alike about everything, so they yield the same
document or fail alike, and their texts are made of the same lines of pieces
(`Hocon.render_respaced`). What can be read off two such texts depends on what was changed.

| changed | the texts |
|---|---|
| the line ending | one is the other one with a carriage return before each line feed |
| the indentation | they are alike line by line, behind the indentation |

The width of the indentation is a count of characters, and one beyond a machine word is refused
before anything is rendered. So two widths can be compared where both are refused or none is
(`Hocon.render_indentation_refused` has the other case).

Both rows need that a text of the tree brings no line break of its own into the document. A key and
a value are quoted and escaped where they have one, and a comment is cut at each of its own, so this
is not asked of the tree (`Hocon.Line.isOneLine_text`).
-/

namespace Hocon

/-! ### Rendering twice -/

/-- **Two renderings end alike**: both fail in the same way, or both yield a text, and the texts are
related. -/
inductive EndAlike (Related : String → String → Prop) (a b : Attempt Halt String) : Prop
  /-- Both fail, with the same problem at the same path or with the same failure. -/
  | failed {halt : Halt} (first : a.outcome = .error halt) (second : b.outcome = .error halt)
  /-- Both yield a text. -/
  | rendered {text text' : String} (first : a.outcome = .ok text) (second : b.outcome = .ok text')
      (related : Related text text')

theorem EndAlike.mono {R S : String → String → Prop} {a b : Attempt Halt String}
    (h : EndAlike R a b) (himp : ∀ text text', R text text' → S text text') :
    EndAlike S a b := by
  cases h with
  | failed first second => exact .failed first second
  | rendered first second related => exact .rendered first second (himp _ _ related)

/-- A text with a carriage return before each line feed. -/
def withCarriageReturns (cs : List Char) : List Char :=
  cs.flatMap fun c => if c = '\n' then ['\r', '\n'] else [c]

/-- **The same text with other line endings**: a carriage return stands before each line feed of the
first text, which holds none of its own. -/
structure EndedOtherwise (text text' : String) : Prop where
  /-- The carriage returns stand before the line feeds. -/
  toList_eq : text'.toList = withCarriageReturns text.toList
  /-- The first text holds no carriage return. -/
  carriageReturn : '\r' ∉ text.toList

/-- **The same text with another indentation**: as many lines, alike from the first character on
that does not indent. -/
def IndentedOtherwise (text text' : String) : Prop :=
  List.Forall₂ (fun line line' => line.dropWhile isIndentation = line'.dropWhile isIndentation)
    (splitLines text.toList) (splitLines text'.toList)

/-! ### Options that differ in spacing -/

/-- Options with another line ending and another indentation. -/
def Options.respaced (o : Options) (lineSeparator : LineSeparator)
    (indentCharacter : IndentCharacter) (indent : ℤ) : Options :=
  { o with lineSeparator, indentCharacter, indent }

section Respaced

variable (o : Options) (ending : LineSeparator) (character : IndentCharacter) (width : ℤ)

theorem Options.decidesLike_respaced : o.DecidesLike (o.respaced ending character width) :=
  ⟨rfl, fun _ => rfl, fun _ => rfl⟩

/-- A piece of a line has the same characters, whatever the spacing. -/
theorem Piece.text_respaced [Host] {p : Piece} (h : p.Sound) :
    p.text (o.respaced ending character width) = p.text o := by
  cases p with
  | indent level => exact h.elim
  | newline => exact h.elim
  | _ => rfl

/-- The pieces of a line have the same characters, whatever the spacing. -/
theorem Document.text_respaced [Host] {d : Document} (h : d.Spaced) :
    Document.text (o.respaced ending character width) d = Document.text o d := by
  induction d with
  | nil => rfl
  | cons p d ih => rw [text_cons, text_cons, p.text_respaced o _ _ _ h.1, ih h.2.2]

/-- A line behind its indentation has the same characters, whatever the spacing. -/
theorem Line.dropWhile_text_respaced [Host] {l : Line} (h : l.WellFormed) :
    (l.text (o.respaced ending character width)).dropWhile isIndentation =
      (l.text o).dropWhile isIndentation := by
  obtain ⟨p, d, hcontent, -⟩ := h.begins
  rw [(h.reads hcontent).2.1, (h.reads hcontent).2.1, Document.text_respaced o _ _ _ h.spaced]

/-- Another width of the indentation leaves the counts as they are, as far as they fit. -/
theorem Options.countsFit_respaced (hfit : fitsWord width = fitsWord o.indent) :
    (o.respaced ending character width).CountsFit ↔ o.CountsFit :=
  ⟨fun h => ⟨hfit ▸ h.indent, h.spacesBefore, h.spacesAfter⟩,
    fun h => ⟨hfit.trans h.indent, h.spacesBefore, h.spacesAfter⟩⟩

/-- **Two renderings with other spacing** fail alike, or yield texts of the same lines of pieces. -/
theorem render_respaced [Host] {root : Value} (ho : o.HasMembers) (h : root.IsTree)
    (hfit : Options.fitsWord width = Options.fitsWord o.indent) :
    EndAlike (fun text text' =>
        text.toList = ((root.documentLines o).map (Line.text o)).flatMap (· ++ o.newline) ∧
        text'.toList =
          ((root.documentLines o).map (Line.text (o.respaced ending character width))).flatMap
            (· ++ (o.respaced ending character width).newline))
      (render o root) (render (o.respaced ending character width) root) := by
  have hcounts := o.countsFit_respaced ending character width hfit
  by_cases hc : o.CountsFit
  swap
  · exact .failed (outcome_render_of_not_countsFit hc root)
      (outcome_render_of_not_countsFit (fun hc' => hc (hcounts.mp hc')) root)
  obtain ⟨quoting, hq⟩ := ho.policy
  have hends := Render.outcome_document hq h
  have hfirst := outcome_render_of_countsFit hc root
  have hsecond := outcome_render_of_countsFit (hcounts.mpr hc) root
  rw [← Render.document_congr (o.decidesLike_respaced ending character width) root] at hsecond
  cases hhalt : firstHalt o.stringQuoting.policy (root.parts []) with
  | some halt =>
    rw [hhalt] at hends
    rw [show (Render.document o root).outcome = .error halt from hends] at hfirst hsecond
    exact .failed hfirst hsecond
  | none =>
    rw [hhalt] at hends
    obtain ⟨d, hd, htext⟩ := hends
    rw [hd] at hfirst hsecond
    refine .rendered hfirst hsecond ⟨?_, ?_⟩
    · rw [String.toList_ofList, htext, Document.text_ofLines, List.flatMap_map]
    · rw [String.toList_ofList, htext, Document.text_ofLines, List.flatMap_map]

end Respaced

/-! ### Line endings -/

section LineEndings

variable {cs : List Char} {lines : List (List Char)}

theorem withCarriageReturns_append (cs ds : List Char) :
    withCarriageReturns (cs ++ ds) = withCarriageReturns cs ++ withCarriageReturns ds := by
  rw [withCarriageReturns, List.flatMap_append]
  rfl

/-- One line is left as it is. -/
theorem withCarriageReturns_of_isOneLine (h : IsOneLine cs) : withCarriageReturns cs = cs := by
  have hkept : ∀ c ∈ cs, (if c = '\n' then ['\r', '\n'] else [c]) = [c] := by
    intro c hc
    rw [if_neg]
    rintro rfl
    exact h.lineFeed hc
  rw [withCarriageReturns, List.flatMap_congr hkept, List.flatMap_singleton']

/-- Lines that are all ended by a line feed are ended by a carriage return and a line feed. -/
theorem withCarriageReturns_flatMap (h : ∀ line ∈ lines, IsOneLine line) :
    withCarriageReturns (lines.flatMap (· ++ ['\n'])) = lines.flatMap (· ++ ['\r', '\n']) := by
  induction lines with
  | nil => rfl
  | cons line lines ih =>
    simp only [List.flatMap_cons, withCarriageReturns_append,
      withCarriageReturns_of_isOneLine (h line List.mem_cons_self),
      ih fun l hl => h l (List.mem_cons_of_mem _ hl)]
    rfl

/-- Lines that are all ended by a line feed hold no carriage return. -/
theorem carriageReturn_notMem_flatMap (h : ∀ line ∈ lines, IsOneLine line) :
    '\r' ∉ lines.flatMap (· ++ ['\n']) := by
  rw [List.mem_flatMap]
  rintro ⟨line, hline, hmem⟩
  rcases List.mem_append.mp hmem with hmem | hmem
  · exact (h line hline).carriageReturn hmem
  · exact absurd hmem (by simp)

end LineEndings

/-! ### Trees -/

section Trees

variable {o : Options} {root : Value}

/-- **A carriage return more at the end of each line** is all that the other line ending changes. -/
theorem render_endedOtherwise [Host] (ho : o.HasMembers) (h : root.IsTree)
    (hlf : o.lineSeparator = .lf) :
    EndAlike EndedOtherwise (render o root) (render { o with lineSeparator := .crlf } root) := by
  have hnewline : o.newline = ['\n'] := by
    simp [Options.newline, hlf, LineSeparator.payload]
  have hnewline' : (o.respaced .crlf o.indentCharacter o.indent).newline = ['\r', '\n'] := by
    simp [Options.newline, Options.respaced, LineSeparator.payload]
  have hwf : ∀ l ∈ root.documentLines o, l.WellFormed :=
    fun _ hl => h.wellFormed_of_mem_documentLines o hl
  have hline : ∀ line ∈ (root.documentLines o).map (Line.text o), IsOneLine line :=
    List.forall_mem_map.mpr fun l hl => l.isOneLine_text o (hwf l hl)
  refine (render_respaced o .crlf o.indentCharacter o.indent ho h rfl).mono ?_
  rintro text text' ⟨htext, htext'⟩
  rw [hnewline] at htext
  rw [hnewline'] at htext'
  -- the indentation is the old one, so the lines are the same and only their ends differ
  have hsame : (root.documentLines o).map
      (Line.text (o.respaced .crlf o.indentCharacter o.indent)) =
        (root.documentLines o).map (Line.text o) :=
    List.map_congr_left fun l hl =>
      congrArg (_ ++ ·) (Document.text_respaced o _ _ _ (hwf l hl).spaced)
  refine ⟨?_, ?_⟩
  · rw [htext', hsame, htext, withCarriageReturns_flatMap hline]
  · rw [htext]
    exact carriageReturn_notMem_flatMap hline

/-- **Another indentation in front of each line** is all that the indentation changes. -/
theorem render_indentedOtherwise [Host] (ho : o.HasMembers) (h : root.IsTree)
    (indentCharacter : IndentCharacter) (indent : ℤ)
    (hfit : Options.fitsWord indent = Options.fitsWord o.indent) :
    EndAlike IndentedOtherwise (render o root)
      (render { o with indentCharacter, indent } root) := by
  have hwf : ∀ l ∈ root.documentLines o, l.WellFormed :=
    fun _ hl => h.wellFormed_of_mem_documentLines o hl
  have hline : ∀ o', ∀ line ∈ (root.documentLines o).map (Line.text o'), IsOneLine line :=
    fun o' => List.forall_mem_map.mpr fun l hl => l.isOneLine_text o' (hwf l hl)
  refine (render_respaced o o.lineSeparator indentCharacter indent ho h hfit).mono ?_
  rintro text text' ⟨htext, htext'⟩
  rw [IndentedOtherwise, htext, htext', splitLines_flatMap (hline _), splitLines_flatMap (hline _)]
  -- behind the last line that is ended stands an empty one in both texts
  refine List.rel_append ?_ (List.Forall₂.cons rfl .nil)
  rw [List.forall₂_map_left_iff, List.forall₂_map_right_iff, List.forall₂_same]
  exact fun l hl => (Line.dropWhile_text_respaced o _ _ _ (hwf l hl)).symm

/-- **Line endings and indentation are inert.** With a carriage return and a line feed instead of a
line feed at the end of a line, a tree fails alike, or its text has a carriage return before each
line feed and no others. With any other indentation it fails alike, or its text has the same lines
behind the indentation, unless one of the two widths fits into a machine word and the other one does
not: a width that does not fit is refused, whatever the tree. -/
theorem render_spacing_inert [Host] (ho : o.HasMembers) (h : root.IsTree) :
    EndAlike EndedOtherwise (render { o with lineSeparator := .lf } root)
        (render { o with lineSeparator := .crlf } root) ∧
      ∀ (indentCharacter : IndentCharacter) (indent : ℤ),
        (Options.fitsWord indent = Options.fitsWord o.indent →
          EndAlike IndentedOtherwise (render o root)
            (render { o with indentCharacter, indent } root)) ∧
        (Options.fitsWord indent = false →
          (render { o with indentCharacter, indent } root).outcome =
            .error (.failure .countTooLarge)) := by
  have hlf : Options.HasMembers { o with lineSeparator := .lf } := ⟨ho.1, ho.2, ho.3⟩
  refine ⟨render_endedOtherwise hlf h rfl, fun indentCharacter indent =>
    ⟨render_indentedOtherwise ho h indentCharacter indent, fun hwide => ?_⟩⟩
  refine outcome_render_of_not_countsFit (fun hc => ?_) root
  exact absurd hc.indent (by simp [hwide])

end Trees

/-- A tree with line breaks and tabs in its key, its value and its comments. -/
def brokenWords : Value :=
  .ofEntries [(.str "k\r\n",
    .ofEntries [(.str "a", .scalarNode (.str "\tx\ny\r") (some "b\rc\n\td"))])]

theorem isTree_brokenWords : brokenWords.IsTree := by
  refine .map none (List.forall_mem_singleton.mpr (.map none ?_))
  exact List.forall_mem_singleton.mpr (.scalar _ _)

/-- The text of the tree, with the default options. -/
def brokenWordsText : String :=
  "\"k\\r\\n\" \x7b\n    # b\n    # c\n    # \td\n    a: \"\\tx\\ny\\r\"\n\x7d\n"

open scoped Unix

/-- No line break of the tree is one of its text, and no tab indents unless it is asked to. -/
theorem render_brokenWords :
    Options.HasMembers {} ∧ brokenWords.IsTree ∧
      (render {} brokenWords).outcome = .ok brokenWordsText ∧
      EndAlike EndedOtherwise (render { lineSeparator := .lf } brokenWords)
        (render { lineSeparator := .crlf } brokenWords) ∧
      EndAlike IndentedOtherwise (render {} brokenWords)
        (render { indentCharacter := .tab, indent := 1 } brokenWords) := by
  have ho : Options.HasMembers {} := ⟨⟨_, rfl⟩, ⟨_, rfl⟩, ⟨_, rfl⟩⟩
  obtain ⟨hended, hindented⟩ := render_spacing_inert ho isTree_brokenWords
  exact ⟨ho, isTree_brokenWords, rfl, hended, (hindented .tab 1).1 rfl⟩

/-- **A width of the indentation that does not fit is not inert**: with the default width the tree
has a text, and with one far below zero it has none, although no character would be written. -/
theorem render_indentation_refused :
    (render {} brokenWords).outcome = .ok brokenWordsText ∧
      (render { indent := -100000000000000000000 } brokenWords).outcome =
        .error (.failure .countTooLarge) ∧
      ¬EndAlike IndentedOtherwise (render {} brokenWords)
        (render { indent := -100000000000000000000 } brokenWords) := by
  have hrendered : (render {} brokenWords).outcome = .ok brokenWordsText := rfl
  have hrefused : (render { indent := -100000000000000000000 } brokenWords).outcome =
      .error (.failure .countTooLarge) := rfl
  refine ⟨hrendered, hrefused, fun hends => ?_⟩
  cases hends with
  | failed first => exact absurd (first.symm.trans hrendered) (by simp)
  | rendered _ second => exact absurd (second.symm.trans hrefused) (by simp)

end Hocon
