import Hocon.Proofs.WellFormed
import Mathlib.Data.List.DropRight
import Mathlib.Data.List.Induction

/-!
# Line breaks and the lines between them

A line of a text may end with a carriage return and a line feed, or with either of the two alone.
The one thing to know is that a text is still read in one way: a carriage return takes a line feed
that follows it, so it is a break of its own only where none does
(`Hocon.LineBreak.EndsBefore`). Every text is therefore built from the empty one by putting a
character or a line break in front (`Hocon.induction_breaks`), and what is said about lines is
proved by that induction, with three cases and no look at pairs of characters.

| function of a text | in front of `rest` |
|---|---|
| `Hocon.splitLines` | a break opens an empty line, a character joins the first line |
| `Hocon.withFedBreaks` | a break is written as a line feed, a character as itself |

So cutting a text at its breaks and joining it with line feeds is to write line feeds for them
(`Hocon.withLineFeeds_eq`). The lines of a comment differ from the lines of its text in the
empty lines at the end, which are the line feeds at the end of the joined text
(`Hocon.intercalate_dropEmptyEnd`).

How a text breaks its lines cannot be seen from its lines: `Hocon.Restyled` relates two texts that
are built from the same characters, with breaks of any style at the same places.
-/

namespace Hocon

/-! ### Line breaks -/

/-- Whether a character breaks a line, alone or with another one. -/
def isBreakChar (c : Char) : Bool := c == '\r' || c == '\n'

/-- The three styles of a line break. -/
inductive LineBreak where
  /-- A carriage return and a line feed. -/
  | pair
  /-- A carriage return. -/
  | carriageReturn
  /-- A line feed. -/
  | lineFeed
  deriving DecidableEq, Repr

namespace LineBreak

/-- The characters of a line break. -/
def text : LineBreak → List Char
  | pair => ['\r', '\n']
  | carriageReturn => ['\r']
  | lineFeed => ['\n']

/-- Whether a line break ends where it seems to, in front of the given text: a carriage return
would take a line feed. -/
def EndsBefore : LineBreak → List Char → Prop
  | carriageReturn, rest => rest.head? ≠ some '\n'
  | pair, _ | lineFeed, _ => True

/-- **Whether a line break stands between two texts**, so that neither of them takes part of it nor
gives it a part. -/
structure StandsBetween (b : LineBreak) (before after : List Char) : Prop where
  /-- A carriage return does not take a line feed behind it. -/
  endsBefore : b.EndsBefore after
  /-- A line feed is not taken by a carriage return in front of it. -/
  notTaken : b = lineFeed → before.getLast? ≠ some '\r'

end LineBreak

theorem isBreakChar_eq_false_iff {c : Char} : isBreakChar c = false ↔ c ≠ '\r' ∧ c ≠ '\n' := by
  rw [isBreakChar, Bool.or_eq_false_iff, beq_eq_false_iff_ne, beq_eq_false_iff_ne]

/-- **Induction over the characters and the line breaks of a text.** -/
@[elab_as_elim]
theorem induction_breaks {P : List Char → Prop} (nil : P [])
    (char : ∀ c rest, isBreakChar c = false → P rest → P (c :: rest))
    (lineBreak : ∀ (b : LineBreak) (rest : List Char), b.EndsBefore rest → P rest →
      P (b.text ++ rest)) (cs : List Char) : P cs := by
  induction cs using splitLines.induct with
  | case1 => exact nil
  | case2 rest ih => exact lineBreak .pair rest trivial ih
  | case3 rest hrest ih =>
    refine lineBreak .carriageReturn rest ?_ ih
    intro hhead
    obtain ⟨tail, rfl⟩ := List.head?_eq_some_iff.mp hhead
    exact hrest tail rfl
  | case4 rest ih => exact lineBreak .lineFeed rest trivial ih
  | case5 c rest _ hr hn _ ih | case6 c rest _ hr hn _ _ _ ih =>
    exact char c rest (isBreakChar_eq_false_iff.mpr ⟨hr, hn⟩) ih

/-! ### The lines of a text -/

theorem splitLines_lineBreak {b : LineBreak} {rest : List Char} (h : b.EndsBefore rest) :
    splitLines (b.text ++ rest) = [] :: splitLines rest := by
  cases b with
  | pair | lineFeed => rfl
  | carriageReturn =>
    refine splitLines.eq_3 rest ?_
    rintro tail rfl
    exact h rfl

theorem splitLines_char {c : Char} (h : isBreakChar c = false) {rest line : List Char}
    {lines : List (List Char)} (hrest : splitLines rest = line :: lines) :
    splitLines (c :: rest) = (c :: line) :: lines := by
  obtain ⟨hr, hn⟩ := isBreakChar_eq_false_iff.mp h
  rw [splitLines_cons hn hr, hrest]
  rfl

/-- The lines hold what is no line break, in order. -/
theorem flatten_splitLines (cs : List Char) :
    (splitLines cs).flatten = cs.filter fun c => !isBreakChar c := by
  induction cs using induction_breaks with
  | nil => rfl
  | char c rest hc ih =>
    obtain ⟨line, lines, hlines⟩ := List.exists_cons_of_ne_nil (splitLines_ne_nil rest)
    rw [splitLines_char hc hlines, List.filter_cons_of_pos (by rw [hc]; rfl), ← ih, hlines]
    rfl
  | lineBreak b rest hb ih =>
    have hbreak : b.text.filter (fun c => !isBreakChar c) = [] := by
      cases b <;> rfl
    rw [splitLines_lineBreak hb, List.filter_append, hbreak, ← ih]
    rfl

/-- Only a text of line breaks has no other than empty lines. -/
theorem forall_splitLines_eq_nil_iff {cs : List Char} :
    (∀ line ∈ splitLines cs, line = []) ↔ ∀ c ∈ cs, isBreakChar c = true := by
  rw [← List.flatten_eq_nil_iff, flatten_splitLines, List.filter_eq_nil_iff]
  simp only [Bool.not_eq_true', Bool.not_eq_false]

/-! ### Joining the lines -/

/-- A text with a line feed for each line break, read from left to right. -/
def withFedBreaks : List Char → List Char
  | [] => []
  | '\r' :: '\n' :: rest => '\n' :: withFedBreaks rest
  | '\r' :: rest => '\n' :: withFedBreaks rest
  | c :: rest => c :: withFedBreaks rest

theorem withFedBreaks_lineBreak {b : LineBreak} {rest : List Char} (h : b.EndsBefore rest) :
    withFedBreaks (b.text ++ rest) = '\n' :: withFedBreaks rest := by
  cases b with
  | pair | lineFeed => rfl
  | carriageReturn =>
    refine withFedBreaks.eq_3 rest ?_
    rintro tail rfl
    exact h rfl

theorem withFedBreaks_char {c : Char} (h : isBreakChar c = false) (rest : List Char) :
    withFedBreaks (c :: rest) = c :: withFedBreaks rest := by
  obtain ⟨hr, -⟩ := isBreakChar_eq_false_iff.mp h
  refine withFedBreaks.eq_4 c rest ?_ hr
  rintro tail rfl
  exact absurd rfl hr

/-- **Lines that are cut at the breaks of a text and joined with line feeds** are the text with line
feeds for its breaks. -/
theorem withLineFeeds_eq (cs : List Char) : withLineFeeds cs = withFedBreaks cs := by
  rw [withLineFeeds]
  induction cs using induction_breaks with
  | nil => rfl
  | char c rest hc ih =>
    obtain ⟨line, lines, hlines⟩ := List.exists_cons_of_ne_nil (splitLines_ne_nil rest)
    rw [splitLines_char hc hlines, withFedBreaks_char hc, ← ih, hlines]
    cases lines <;> simp [List.intercalate_cons_cons]
  | lineBreak b rest hb ih =>
    obtain ⟨line, lines, hlines⟩ := List.exists_cons_of_ne_nil (splitLines_ne_nil rest)
    rw [splitLines_lineBreak hb, withFedBreaks_lineBreak hb, ← ih, hlines,
      List.intercalate_cons_cons]
    rfl

/-- The last line stands at the end of the joined lines, behind a line feed if there are others. -/
theorem intercalate_concat (lines : List (List Char)) (line : List Char) :
    ['\n'].intercalate (lines ++ [line]) =
      (if lines = [] then [] else ['\n'].intercalate lines ++ ['\n']) ++ line := by
  induction lines with
  | nil => simp
  | cons first lines ih =>
    cases lines with
    | nil => simp [List.intercalate_cons_cons]
    | cons second lines =>
      rw [List.cons_append, List.cons_append, List.intercalate_cons_cons, ← List.cons_append, ih]
      simp [List.intercalate_cons_cons]

/-- **The empty lines at the end are the line feeds at the end** of the joined lines. -/
theorem intercalate_dropEmptyEnd {lines : List (List Char)}
    (h : ∀ line ∈ lines, IsOneLine line) :
    ['\n'].intercalate (dropEmptyEnd lines) =
      (['\n'].intercalate lines).rdropWhile (· == '\n') := by
  change ['\n'].intercalate (lines.rdropWhile List.isEmpty) = _
  induction lines using List.reverseRecOn with
  | nil => rfl
  | append_singleton lines line ih =>
    have hlines := ih fun l hl => h l (List.mem_append_left _ hl)
    rw [intercalate_concat]
    rcases List.eq_nil_or_concat line with rfl | ⟨front, c, rfl⟩
    · rw [List.rdropWhile_concat_pos _ _ _ rfl, hlines, List.append_nil]
      split_ifs with hnil
      · rw [hnil]
        rfl
      · rw [List.rdropWhile_concat_pos _ _ _ rfl]
    · -- the last character of the last line is no line feed, so nothing is dropped
      have hc : ¬(c == '\n') = true := by
        rw [beq_iff_eq]
        rintro rfl
        exact (h _ (List.mem_append_right _ (List.mem_singleton_self _))).lineFeed (by simp)
      rw [List.rdropWhile_concat_neg _ _ _ (by simp), intercalate_concat, List.concat_eq_append,
        ← List.append_assoc, List.rdropWhile_concat_neg (· == '\n') _ c hc]

/-! ### Breaks at the end, and breaks of another style -/

/-- A text of line breaks has empty lines only. -/
theorem exists_splitLines_of_breaks {run : List Char} (h : ∀ c ∈ run, isBreakChar c = true) :
    ∃ k, splitLines run = [] :: List.replicate k [] := by
  obtain ⟨line, lines, hlines⟩ := List.exists_cons_of_ne_nil (splitLines_ne_nil run)
  have hempty := forall_splitLines_eq_nil_iff.mpr h
  rw [hlines, List.forall_mem_cons] at hempty
  have hrest : lines = List.replicate lines.length [] := List.eq_replicate_iff.mpr ⟨rfl, hempty.2⟩
  exact ⟨lines.length, by rw [hlines, hempty.1, ← hrest]⟩

/-- **Line breaks behind a text add empty lines at its end**, even if the first of them completes a
break of the text. -/
theorem exists_splitLines_append {run : List Char} (h : ∀ c ∈ run, isBreakChar c = true)
    (cs : List Char) : ∃ k, splitLines (cs ++ run) = splitLines cs ++ List.replicate k [] := by
  induction cs using induction_breaks with
  | nil => exact exists_splitLines_of_breaks h
  | char c rest hc ih =>
    obtain ⟨k, hk⟩ := ih
    obtain ⟨line, lines, hlines⟩ := List.exists_cons_of_ne_nil (splitLines_ne_nil rest)
    rw [hlines, List.cons_append] at hk
    refine ⟨k, ?_⟩
    rw [List.cons_append, splitLines_char hc hk, splitLines_char hc hlines, List.cons_append]
  | lineBreak b rest hb ih =>
    by_cases hends : b.EndsBefore (rest ++ run)
    · obtain ⟨k, hk⟩ := ih
      refine ⟨k, ?_⟩
      rw [List.append_assoc, splitLines_lineBreak hends, splitLines_lineBreak hb, hk,
        List.cons_append]
    · -- a carriage return at the end of the text takes the first line feed of the run
      cases b with
      | pair | lineFeed => exact absurd trivial hends
      | carriageReturn =>
        rw [LineBreak.EndsBefore, not_not, List.head?_append] at hends
        cases rest with
        | cons c rest => exact absurd hends hb
        | nil =>
          obtain ⟨run', rfl⟩ := List.head?_eq_some_iff.mp hends
          obtain ⟨k, hk⟩ :=
            exists_splitLines_of_breaks fun c hc => h c (List.mem_cons_of_mem _ hc)
          refine ⟨k, ?_⟩
          change [] :: splitLines run' = [] :: [] :: List.replicate k []
          rw [hk]

/-- **Texts that differ in the style of their line breaks**: they are built from the same characters
and, at the same places, from breaks of any style. -/
inductive Restyled : List Char → List Char → Prop
  /-- The empty text. -/
  | nil : Restyled [] []
  /-- A character that is no line break. -/
  | char {c : Char} {cs ds : List Char} (noBreak : isBreakChar c = false)
      (others : Restyled cs ds) : Restyled (c :: cs) (c :: ds)
  /-- A line break of one style in the first text and of another one in the second. -/
  | lineBreak {b b' : LineBreak} {cs ds : List Char} (ends : b.EndsBefore cs)
      (ends' : b'.EndsBefore ds) (others : Restyled cs ds) :
      Restyled (b.text ++ cs) (b'.text ++ ds)

namespace Restyled

variable {cs ds : List Char}

theorem refl (cs : List Char) : Restyled cs cs := by
  induction cs using induction_breaks with
  | nil => exact .nil
  | char c rest hc ih => exact .char hc ih
  | lineBreak b rest hb ih => exact .lineBreak hb hb ih

/-- A text can be written with line feeds only. -/
theorem fed (cs : List Char) : Restyled cs (withFedBreaks cs) := by
  induction cs using induction_breaks with
  | nil => exact .nil
  | char c rest hc ih =>
    rw [withFedBreaks_char hc]
    exact .char hc ih
  | lineBreak b rest hb ih =>
    have hfed : LineBreak.lineFeed.EndsBefore (withFedBreaks rest) := trivial
    rw [withFedBreaks_lineBreak hb]
    exact .lineBreak hb hfed ih

/-- Texts that differ in the style of their line breaks have the same lines. -/
theorem splitLines_eq (h : Restyled cs ds) : splitLines cs = splitLines ds := by
  induction h with
  | nil => rfl
  | @char c cs ds hc _ ih =>
    obtain ⟨line, lines, hlines⟩ := List.exists_cons_of_ne_nil (splitLines_ne_nil ds)
    rw [splitLines_char hc (ih.trans hlines), splitLines_char hc hlines]
  | lineBreak hb hb' _ ih => rw [splitLines_lineBreak hb, splitLines_lineBreak hb', ih]

theorem eq_nil_iff (h : Restyled cs ds) : cs = [] ↔ ds = [] := by
  cases h with
  | nil => exact Iff.rfl
  | char => simp
  | @lineBreak b b' => cases b <;> cases b' <;> simp [LineBreak.text]

/-- **One line break in another style**, where neither the old one nor the new one belongs to a
longer break. -/
theorem of_standsBetween {b b' : LineBreak} {after : List Char} (before : List Char)
    (h : b.StandsBetween before after) (h' : b'.StandsBetween before after) :
    Restyled (before ++ (b.text ++ after)) (before ++ (b'.text ++ after)) := by
  induction before using induction_breaks with
  | nil => exact .lineBreak h.endsBefore h'.endsBefore (refl after)
  | char c rest hc ih =>
    have hlast : rest.getLast? = some '\r' → (c :: rest).getLast? = some '\r' := by
      cases rest <;> simp
    exact .char hc (ih ⟨h.endsBefore, fun hb hr => h.notTaken hb (hlast hr)⟩
      ⟨h'.endsBefore, fun hb hr => h'.notTaken hb (hlast hr)⟩)
  | lineBreak b₀ rest hb₀ ih =>
    have hlast : rest.getLast? = some '\r' → (b₀.text ++ rest).getLast? = some '\r' := by
      intro hr
      rw [List.getLast?_append, hr, Option.some_or]
    -- a carriage return right in front of the break does not take its first character
    have hends : ∀ b : LineBreak, b.StandsBetween (b₀.text ++ rest) after →
        b₀.EndsBefore (rest ++ (b.text ++ after)) := by
      intro b hb
      cases b₀ with
      | pair | lineFeed => trivial
      | carriageReturn =>
        cases rest with
        | cons c rest => exact hb₀
        | nil =>
          cases b with
          | pair | carriageReturn => simp [LineBreak.EndsBefore, LineBreak.text]
          | lineFeed => exact absurd rfl (hb.notTaken rfl)
    rw [List.append_assoc, List.append_assoc]
    exact .lineBreak (hends b h) (hends b' h')
      (ih ⟨h.endsBefore, fun hb hr => h.notTaken hb (hlast hr)⟩
        ⟨h'.endsBefore, fun hb hr => h'.notTaken hb (hlast hr)⟩)

end Restyled

/-! ### The lines of a comment -/

theorem commentLines_of_ne {comment : String} (h : comment ≠ "") :
    commentLines comment = dropEmptyEnd (splitLines comment.toList) := by
  rw [commentLines, if_neg]
  rwa [String.toList_eq_nil_iff]

/-- Comments that differ in the style of their line breaks have the same lines. -/
theorem Restyled.commentLines_eq {comment comment' : String}
    (h : Restyled comment.toList comment'.toList) :
    commentLines comment = commentLines comment' := by
  rw [commentLines, commentLines, h.splitLines_eq]
  simp only [h.eq_nil_iff]

/-- What is left without the empty lines at the end does not end with an empty line. -/
theorem ne_nil_of_mem_getLast?_dropEmptyEnd {lines : List (List Char)} {line : List Char}
    (h : line ∈ (dropEmptyEnd lines).getLast?) : line ≠ [] := by
  have hne : lines.rdropWhile List.isEmpty ≠ [] := by
    intro hnil
    rw [show dropEmptyEnd lines = [] from hnil] at h
    cases h
  have hlast := List.rdropWhile_last_not _ _ hne
  rw [show dropEmptyEnd lines = lines.rdropWhile List.isEmpty from rfl,
    List.getLast?_eq_some_getLast hne, Option.mem_some_iff] at h
  rwa [h, List.isEmpty_iff] at hlast

/-- Further empty lines at the end are dropped as well. -/
theorem dropEmptyEnd_append_replicate (lines : List (List Char)) (k : ℕ) :
    dropEmptyEnd (lines ++ List.replicate k []) = dropEmptyEnd lines := by
  induction k with
  | zero => rw [List.replicate_zero, List.append_nil]
  | succ k ih =>
    rw [List.replicate_succ', ← List.append_assoc]
    exact (List.rdropWhile_concat_pos List.isEmpty _ _ rfl).trans ih

/-- **The lines of a comment are just its lines.** For a comment that is not empty,

1. no line holds a part of a line break;
2. the last line, if there is one, is not empty;
3. joined with line feeds, the lines are the comment with line feeds for its line breaks and without
   the line feeds at the end;
4. there are no lines just if the comment consists of line breaks.

So line breaks at the end of a comment that is not empty change nothing. Neither does the style of a
line break that gives no part to another one and takes none of it, nor that of any number of line
breaks. -/
theorem commentLines_exact :
    (∀ comment : String, comment ≠ "" →
      (∀ line ∈ commentLines comment, '\r' ∉ line ∧ '\n' ∉ line) ∧
      (∀ line ∈ (commentLines comment).getLast?, line ≠ []) ∧
      ['\n'].intercalate (commentLines comment) =
        (withFedBreaks comment.toList).rdropWhile (· == '\n') ∧
      (commentLines comment = [] ↔ ∀ c ∈ comment.toList, isBreakChar c = true)) ∧
    (∀ comment run : String, comment ≠ "" → (∀ c ∈ run.toList, isBreakChar c = true) →
      commentLines (comment ++ run) = commentLines comment) ∧
    (∀ (before after : List Char) (b b' : LineBreak), b.StandsBetween before after →
      b'.StandsBetween before after →
      commentLines (String.ofList (before ++ (b.text ++ after))) =
        commentLines (String.ofList (before ++ (b'.text ++ after)))) ∧
    ∀ comment comment' : String, Restyled comment.toList comment'.toList →
      commentLines comment = commentLines comment' := by
  refine ⟨fun comment hne => ⟨fun line hline => ?_, ?_, ?_, ?_⟩,
    fun comment run hne hrun => ?_, fun before after b b' h h' => ?_,
    fun comment comment' h => h.commentLines_eq⟩
  · have hline := isOneLine_of_mem_commentLines hline
    exact ⟨hline.carriageReturn, hline.lineFeed⟩
  · rw [commentLines_of_ne hne]
    exact fun line hline => ne_nil_of_mem_getLast?_dropEmptyEnd hline
  · rw [commentLines_of_ne hne, intercalate_dropEmptyEnd fun _ => isOneLine_of_mem_splitLines,
      ← withLineFeeds, withLineFeeds_eq]
  · rw [commentLines_of_ne hne, ← forall_splitLines_eq_nil_iff]
    refine List.rdropWhile_eq_nil_iff.trans ?_
    simp only [List.isEmpty_iff]
  · have hne' : comment ++ run ≠ "" := fun h => hne (String.append_eq_empty_iff.mp h).1
    obtain ⟨k, hk⟩ := exists_splitLines_append hrun comment.toList
    rw [commentLines_of_ne hne, commentLines_of_ne hne', String.toList_append, hk,
      dropEmptyEnd_append_replicate]
  · refine Restyled.commentLines_eq ?_
    rw [String.toList_ofList, String.toList_ofList]
    exact .of_standsBetween before h h'

/-- A comment with breaks of all three styles between its lines and at its end. -/
def mixedBreaks : String := "a\r\n\rb\n\r\n\r"

/-- The line feed behind the comment is taken by its last carriage return, and the first break can
lose its carriage return. -/
theorem commentLines_exact_of_mixedBreaks :
    mixedBreaks ≠ "" ∧ (∀ c ∈ "\n\r\n".toList, isBreakChar c = true) ∧
      LineBreak.pair.StandsBetween ['a'] "\rb\n\r\n\r".toList ∧
      LineBreak.lineFeed.StandsBetween ['a'] "\rb\n\r\n\r".toList ∧
      Restyled mixedBreaks.toList "a\n\nb\n\n\n".toList ∧
      (∀ line ∈ commentLines mixedBreaks, '\r' ∉ line ∧ '\n' ∉ line) ∧
      (∀ line ∈ (commentLines mixedBreaks).getLast?, line ≠ []) ∧
      ['\n'].intercalate (commentLines mixedBreaks) = ['a', '\n', '\n', 'b'] ∧
      commentLines mixedBreaks ≠ [] ∧
      commentLines (mixedBreaks ++ "\n\r\n") = commentLines mixedBreaks ∧
      commentLines mixedBreaks = commentLines "a\n\rb\n\r\n\r" ∧
      commentLines mixedBreaks = commentLines "a\n\nb\n\n\n" := by
  have hne : mixedBreaks ≠ "" := by decide
  have hrun : ∀ c ∈ "\n\r\n".toList, isBreakChar c = true := by simp [isBreakChar]
  have hpair : LineBreak.pair.StandsBetween ['a'] "\rb\n\r\n\r".toList := ⟨trivial, by simp⟩
  have hlineFeed : LineBreak.lineFeed.StandsBetween ['a'] "\rb\n\r\n\r".toList :=
    ⟨trivial, by simp⟩
  have hrestyled : Restyled mixedBreaks.toList "a\n\nb\n\n\n".toList := .fed mixedBreaks.toList
  obtain ⟨hlines, hend, hstyle, hstyles⟩ := commentLines_exact
  obtain ⟨hbreaks, hlast, hjoined, hnone⟩ := hlines mixedBreaks hne
  have hfirst : String.ofList (['a'] ++ (LineBreak.pair.text ++ "\rb\n\r\n\r".toList)) =
      mixedBreaks := by decide
  have hother : String.ofList (['a'] ++ (LineBreak.lineFeed.text ++ "\rb\n\r\n\r".toList)) =
      "a\n\rb\n\r\n\r" := by decide
  have hone := hstyle _ _ _ _ hpair hlineFeed
  rw [hfirst, hother] at hone
  refine ⟨hne, hrun, hpair, hlineFeed, hrestyled, hbreaks, hlast, hjoined, ?_, hend _ _ hne hrun,
    hone, hstyles _ _ hrestyled⟩
  rw [Ne, hnone]
  exact fun h => absurd (h 'a' (by decide)) (by decide)

end Hocon
