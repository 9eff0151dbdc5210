import Hocon.Proofs.Decimal.Text
import Hocon.Proofs.Lines
import Hocon.Proofs.Token

/-!
# Well-formed lines

A line of a document is *well-formed* if a reader of its characters sees the pieces that were
written, no more and no less. This module says what that takes (`Hocon.Line.WellFormed`), shows
what it gives, and shows that every line of a tree is well-formed.

What it takes is a condition on each piece and one on its neighbour.

* A piece is sound (`Hocon.Piece.Sound`): a bare key and a bare text are what they are meant to be,
  a floating-point number is finite, and a line of a comment holds no line break.
* No word stands next to a word, and nothing stands behind a comment (`Hocon.Document.Spaced`).

What it gives:

| statement | content |
|---|---|
| `Hocon.Line.tokens_text` | the tokens of the line are those of its pieces |
| `Hocon.Line.isOneLine_text` | the line holds no line break |
| `Hocon.Line.exists_text_eq` | behind the indentation stands neither a space nor a tab |

A tree can hold any text as a key, as a value and as a comment, so none of this is asked of the
tree (`Hocon.Value.IsTree.wellFormed_of_mem_documentLines`).
-/

namespace Hocon

/-! ### One line -/

/-- A text without line breaks. -/
structure IsOneLine (cs : List Char) : Prop where
  /-- There is no line feed. -/
  lineFeed : '\n' ∉ cs
  /-- There is no carriage return. -/
  carriageReturn : '\r' ∉ cs

theorem isOneLine_nil : IsOneLine [] := ⟨by simp, by simp⟩

theorem IsOneLine.append {cs ds : List Char} (h : IsOneLine cs) (h' : IsOneLine ds) :
    IsOneLine (cs ++ ds) :=
  ⟨by simp [h.lineFeed, h'.lineFeed], by simp [h.carriageReturn, h'.carriageReturn]⟩

/-- A text of a class of characters without line breaks is one line. -/
theorem isOneLine_of_class {p : Char → Bool} (hn : p '\n' = false) (hr : p '\r' = false)
    {cs : List Char} (h : ∀ c ∈ cs, p c = true) : IsOneLine cs :=
  ⟨fun hmem => absurd (h _ hmem) (by simp [hn]), fun hmem => absurd (h _ hmem) (by simp [hr])⟩

theorem IsWord.isOneLine {w : List Char} (h : IsWord w) : IsOneLine w :=
  isOneLine_of_class (by decide) (by decide) h.chars

theorem isOneLine_of_gap {gap : List Char} (h : ∀ c ∈ gap, c ∈ gapChars) : IsOneLine gap :=
  ⟨fun hmem => absurd (h _ hmem) (by decide), fun hmem => absurd (h _ hmem) (by decide)⟩

theorem isOneLine_encode (cs : List Char) : IsOneLine (Quoted.encode cs) :=
  ⟨fun h => absurd (Quoted.isControl_of_mem_encode h) (by decide),
    fun h => absurd (Quoted.isControl_of_mem_encode h) (by decide)⟩

/-- A character that is no line break belongs to the first line. -/
theorem splitLines_cons {c : Char} (hn : c ≠ '\n') (hr : c ≠ '\r') (rest : List Char) :
    splitLines (c :: rest) =
      (c :: (splitLines rest).headD []) :: (splitLines rest).tail := by
  rw [splitLines]
  · cases splitLines rest <;> rfl
  all_goals simp [hn, hr]

/-- A line in front of the characters that end it is the first line. -/
theorem splitLines_append [Host] {line : List Char} (h : IsOneLine line) (o : Options)
    (rest : List Char) :
    splitLines (line ++ (o.newline ++ rest)) = line :: splitLines rest := by
  induction line with
  | nil =>
    rcases o.newline_cases with hnewline | hnewline <;> simp [hnewline, splitLines]
  | cons c line ih =>
    have hn : c ≠ '\n' := by rintro rfl; exact h.lineFeed List.mem_cons_self
    have hr : c ≠ '\r' := by rintro rfl; exact h.carriageReturn List.mem_cons_self
    have hline : IsOneLine line :=
      ⟨fun hmem => h.lineFeed (List.mem_cons_of_mem _ hmem),
        fun hmem => h.carriageReturn (List.mem_cons_of_mem _ hmem)⟩
    rw [List.cons_append, splitLines_cons hn hr, ih hline]
    rfl

/-- Lines that are all ended are split into the lines, and behind the last one stands an empty
one. -/
theorem splitLines_flatMap [Host] {lines : List (List Char)} (h : ∀ line ∈ lines, IsOneLine line)
    (o : Options) : splitLines (lines.flatMap (· ++ o.newline)) = lines ++ [[]] := by
  induction lines with
  | nil => rfl
  | cons line lines ih =>
    rw [List.flatMap_cons, List.append_assoc, splitLines_append (h line List.mem_cons_self),
      ih fun l hl => h l (List.mem_cons_of_mem _ hl), List.cons_append]

theorem splitLines_ne_nil (cs : List Char) : splitLines cs ≠ [] := by
  fun_cases splitLines cs <;> simp

/-- The lines of a text hold no line breaks. -/
theorem isOneLine_of_mem_splitLines {cs line : List Char} (h : line ∈ splitLines cs) :
    IsOneLine line := by
  induction cs using splitLines.induct generalizing line with
  | case1 =>
    rw [List.mem_singleton.mp h]
    exact isOneLine_nil
  | case2 rest ih | case3 rest _ ih | case4 rest ih =>
    simp only [splitLines, List.mem_cons] at h
    rcases h with rfl | h
    · exact isOneLine_nil
    · exact ih h
  -- there is always a line to put the character in front of
  | case5 c rest _ _ _ hrest ih => exact absurd hrest (splitLines_ne_nil rest)
  | case6 c rest _ hr hn first others hrest ih =>
    rw [splitLines_cons hn hr, hrest, List.headD_cons, List.tail_cons, List.mem_cons] at h
    rcases h with rfl | h
    · have hfirst : IsOneLine first := ih (by rw [hrest]; exact List.mem_cons_self)
      exact ⟨by simp [Ne.symm hn, hfirst.lineFeed], by simp [Ne.symm hr, hfirst.carriageReturn]⟩
    · exact ih (by rw [hrest]; exact List.mem_cons_of_mem _ h)

/-- The lines that are written for a comment hold no line breaks. -/
theorem isOneLine_of_mem_commentLines {comment : String} {line : List Char}
    (h : line ∈ commentLines comment) : IsOneLine line := by
  rw [commentLines] at h
  split_ifs at h
  · rw [List.mem_singleton.mp h]
    exact isOneLine_nil
  · rw [dropEmptyEnd, List.mem_reverse] at h
    exact isOneLine_of_mem_splitLines (List.mem_reverse.mp (List.dropWhile_subset _ h))

/-! ### Pieces -/

theorem isWord_of_isSimpleKey {cs : List Char} (h : isSimpleKey cs = true) : IsWord cs := by
  rw [isSimpleKey, Bool.and_eq_true, Bool.not_eq_true', List.isEmpty_eq_false_iff,
    List.all_eq_true] at h
  exact ⟨h.1, fun c hc => isWordChar_of_isKeyChar (h.2 c hc)⟩

theorem isWord_of_isBareText {cs : List Char} (h : isBareText cs = true) : IsWord cs := by
  cases cs with
  | nil => exact absurd h (by simp [isBareText])
  | cons c rest =>
    rw [isBareText, Bool.and_eq_true, List.all_eq_true] at h
    exact ⟨by simp, fun x hx => isWordChar_of_isBareChar (h.2 x hx)⟩

theorem isWord_digits (n : ℕ) : IsWord (Nat.toDigits 10 n) :=
  ⟨Nat.toDigits_ne_nil, fun _ hc => isWordChar_of_isDigit (Decimal.isDigit_of_mem_digits hc)⟩

theorem IsWord.cons {c : Char} {w : List Char} (h : IsWord w) (hc : isWordChar c = true) :
    IsWord (c :: w) :=
  ⟨by simp, by simpa [hc] using h.chars⟩

theorem toList_toString_natCast (n : ℕ) :
    (toString (n : ℤ)).toList = Nat.toDigits 10 n := by
  simp [toString, Int.repr, Nat.repr]

theorem toList_toString_negSucc (n : ℕ) :
    (toString (Int.negSucc n)).toList = '-' :: Nat.toDigits 10 (n + 1) := by
  simp [toString, Int.repr, Nat.repr]

namespace Literal

theorem text_int_natCast (n : ℕ) (h : hasDecimal n = true) :
    (int n h).text = Nat.toDigits 10 n :=
  toList_toString_natCast n

theorem text_int_negSucc (n : ℕ) (h : hasDecimal (.negSucc n) = true) :
    (int (.negSucc n) h).text = '-' :: Nat.toDigits 10 (n + 1) :=
  toList_toString_negSucc n

theorem isWord_text_int (n : ℤ) (h : hasDecimal n = true) : IsWord (int n h).text := by
  cases n with
  | ofNat n =>
    rw [show (int (.ofNat n) h).text = Nat.toDigits 10 n from text_int_natCast n h]
    exact isWord_digits n
  | negSucc n =>
    rw [text_int_negSucc]
    exact (isWord_digits _).cons (by decide)

theorem isWord_text_float {bits : UInt64} (h : Binary64.isFinite bits = true) :
    IsWord (float bits).text := by
  obtain ⟨cs, d, hspells, -, hwrite⟩ := Binary64.exists_spells h
  have hcs : IsWord cs := by
    obtain ⟨c, rest, rfl, -⟩ := hspells.exists_digit
    refine ⟨by simp, fun x hx => ?_⟩
    rcases hspells.mem hx with hdigit | hmark
    · exact isWordChar_of_isDigit hdigit
    · exact List.all_eq_true.mp (show ['.', 'e', '-', '+'].all isWordChar = true by decide) x hmark
  rw [text, hwrite]
  split_ifs
  · exact hcs.cons (by decide)
  · exact hcs

end Literal

namespace Piece

/-- The tokens of a piece. -/
def tokens : Piece → List Token
  | key (.bare cs) => [.word cs]
  | key (.quoted cs) => [.quoted cs]
  | literal (.quoted cs) => [.quoted cs]
  | literal l => [.word l.text]
  | opening b => [.opening b]
  | closing b => [.closing b]
  | _ => []

/-- Whether a piece may be a word. -/
def isWord : Piece → Bool
  | key _ | literal _ => true
  | _ => false

/-- Whether a piece consists of characters that only keep tokens apart. -/
def isGap : Piece → Bool
  | separator | comma | space => true
  | _ => false

/-- **What is asked of a piece** of a line. -/
def Sound : Piece → Prop
  | key (.bare cs) => isSimpleKey cs = true
  | literal (.bare cs) => isBareText cs = true
  | literal (.float bits) => Binary64.isFinite bits = true
  | comment line => IsOneLine line
  | indent _ | newline => False
  | _ => True

/-- What may stand behind a piece: no word behind a word, and nothing behind a comment. -/
def Precedes (p : Piece) (d : Document) : Prop :=
  match p with
  | comment _ => d = []
  | key _ | literal _ => ∀ q ∈ d.head?, q.isWord = false
  | _ => True

/-- A sound literal is quoted, or it is a word. -/
theorem literal_cases {l : Literal} (h : (literal l).Sound) :
    (∃ cs, l = .quoted cs) ∨ (IsWord l.text ∧ (literal l).tokens = [.word l.text]) := by
  cases l with
  | quoted cs => exact Or.inl ⟨cs, rfl⟩
  | null => exact Or.inr ⟨isWord_of_all (by decide) (by decide), rfl⟩
  | bool b => exact Or.inr ⟨by cases b <;> exact isWord_of_all (by decide) (by decide), rfl⟩
  | int n hn => exact Or.inr ⟨Literal.isWord_text_int n hn, rfl⟩
  | float bits => exact Or.inr ⟨Literal.isWord_text_float h, rfl⟩
  | bare cs => exact Or.inr ⟨isWord_of_isBareText h, rfl⟩

variable (o : Options)

theorem mem_gapChars_of_isGap [Host] {p : Piece} (h : p.isGap = true) :
    ∀ c ∈ p.text o, c ∈ gapChars := by
  cases p with
  | comma | space => simp [text, gapChars]
  | separator =>
    intro c hc
    rw [text, Options.separatorToken, List.mem_append, List.mem_append] at hc
    rcases hc with (hc | hc) | hc
    · rw [Options.eq_of_mem_repeated hc]
      decide
    · have hall : ∀ s : SeparatorCharacter, s.payload.toList.all (gapChars.contains ·) = true := by
        intro s
        cases s <;> decide
      exact List.contains_iff_mem.mp (List.all_eq_true.mp (hall _) c hc)
    · rw [Options.eq_of_mem_repeated hc]
      decide
  | _ => exact absurd h (by simp [isGap])

theorem mem_gapChars_indent [Host] (level : ℕ) : ∀ c ∈ (indent level).text o, c ∈ gapChars := by
  intro c hc
  simp only [text, List.mem_flatten, List.mem_replicate] at hc
  obtain ⟨_, ⟨-, rfl⟩, hc⟩ := hc
  rw [Options.eq_of_mem_repeated hc]
  cases o.indentCharacter <;> decide

theorem text_ne_nil_of_isGap [Host] {p : Piece} (h : p.isGap = true) : p.text o ≠ [] := by
  cases p with
  | comma | space => simp [text]
  | separator =>
    have hne : ∀ s : SeparatorCharacter, s.payload.toList ≠ [] := by
      intro s
      cases s <;> decide
    simp [text, Options.separatorToken, hne]
  | _ => exact absurd h (by simp [isGap])

/-- Behind the first character of a piece that is no word, a word has ended. -/
theorem endsWord_text [Host] {p : Piece} (h : p.Sound) (hword : p.isWord = false)
    (rest : List Char) :
    EndsWord (p.text o ++ rest) := by
  cases p with
  | separator | comma | space =>
    exact endsWord_append (text_ne_nil_of_isGap o rfl)
      (fun c hc => isWordChar_of_mem_gapChars (mem_gapChars_of_isGap o rfl c hc)) rest
  | opening b | closing b => cases b <;> rintro _ ⟨⟩ <;> decide
  | comment line =>
    rw [text, Options.commentMark]
    cases o.commentStyle <;> rintro _ ⟨⟩ <;> decide
  | indent level => exact h.elim
  | newline => exact h.elim
  | key k | literal l => exact absurd hword (by simp [isWord])

/-- The characters of a comment have no tokens. -/
theorem tokens_text_comment [Host] (line : List Char) :
    Hocon.tokens ((comment line).text o) = some [] := by
  rw [text, Options.commentMark]
  cases o.commentStyle with
  | hash => exact tokens_hash _
  | doubleSlash => exact tokens_slashes _

/-- **A sound piece is read as its tokens**, if what stands behind it ends a word. -/
theorem tokens_text_append [Host] {p : Piece} (h : p.Sound) (hcomment : ∀ line, p ≠ comment line)
    {rest : List Char} (hrest : p.isWord = true → EndsWord rest) :
    Hocon.tokens (p.text o ++ rest) = (Hocon.tokens rest).map (p.tokens ++ ·) := by
  cases p with
  | key k => cases k with
    | bare cs => exact tokens_word (isWord_of_isSimpleKey h) (hrest rfl)
    | quoted cs => exact tokens_quoted cs rest
  | literal l =>
    rcases literal_cases h with ⟨cs, rfl⟩ | ⟨hword, htokens⟩
    · exact tokens_quoted cs rest
    · rw [htokens]
      exact tokens_word hword (hrest rfl)
  | opening b => exact tokens_opening b rest
  | closing b => exact tokens_closing b rest
  | separator | comma | space =>
    rw [tokens_gap (mem_gapChars_of_isGap o rfl)]
    simp [tokens]
  | comment line => exact absurd rfl (hcomment line)
  | indent level => exact h.elim
  | newline => exact h.elim

/-- A sound piece is written on one line. -/
theorem isOneLine_text [Host] {p : Piece} (h : p.Sound) : IsOneLine (p.text o) := by
  cases p with
  | key k => cases k with
    | bare cs => exact (isWord_of_isSimpleKey h).isOneLine
    | quoted cs => exact isOneLine_encode cs
  | literal l =>
    rcases literal_cases h with ⟨cs, rfl⟩ | ⟨hword, -⟩
    · exact isOneLine_encode cs
    · exact hword.isOneLine
  | opening b | closing b =>
    cases b <;> constructor <;> simp [text, Bracket.opening, Bracket.closing]
  | separator | comma | space => exact isOneLine_of_gap (mem_gapChars_of_isGap o rfl)
  | comment line =>
    have hmark : ∀ s : CommentStyle, IsOneLine (s.payload.toList ++ [' ']) := by
      intro s
      cases s <;> exact ⟨by decide, by decide⟩
    simpa [text, Options.commentMark] using (hmark o.commentStyle).append h
  | indent level => exact h.elim
  | newline => exact h.elim

/-- Whether a piece is a closing bracket. -/
def isClosing : Piece → Bool
  | closing _ => true
  | _ => false

end Piece

/-- Whether a character is a closing bracket. -/
def isClosingChar (c : Char) : Bool := c == '\x7d' || c == ']'

/-- A word begins neither with a gap nor with a closing bracket. -/
theorem IsWord.exists_cons {w : List Char} (h : IsWord w) :
    ∃ c cs, w = c :: cs ∧ c ∉ gapChars ∧ isClosingChar c = false := by
  obtain ⟨c, cs, rfl⟩ := List.exists_cons_of_ne_nil h.ne_nil
  have hc := h.chars c List.mem_cons_self
  refine ⟨c, cs, rfl, fun hgap => ?_, ?_⟩
  · exact absurd hc (by simp [isWordChar_of_mem_gapChars hgap])
  · rw [isClosingChar, Bool.or_eq_false_iff, beq_eq_false_iff_ne, beq_eq_false_iff_ne]
    exact ⟨by rintro rfl; exact absurd hc (by decide), by rintro rfl; exact absurd hc (by decide)⟩

/-- **A piece that is no gap** begins with a character that is no gap, and with a closing bracket
only if it is one. -/
theorem Piece.exists_text_eq_cons [Host] (o : Options) {p : Piece} (h : p.Sound)
    (hgap : p.isGap = false) :
    ∃ c cs, p.text o = c :: cs ∧ c ∉ gapChars ∧ isClosingChar c = p.isClosing := by
  have hquoted : ∀ cs, ∃ c rest, Quoted.encode cs = c :: rest ∧ c ∉ gapChars ∧
      isClosingChar c = false := fun cs => ⟨'"', _, rfl, by decide, by decide⟩
  cases p with
  | key k => cases k with
    | bare cs => exact (isWord_of_isSimpleKey h).exists_cons
    | quoted cs => exact hquoted cs
  | literal l =>
    rcases literal_cases h with ⟨cs, rfl⟩ | ⟨hword, -⟩
    · exact hquoted cs
    · exact hword.exists_cons
  | opening b | closing b => cases b <;> exact ⟨_, _, rfl, by decide, by decide⟩
  | comment line =>
    rw [text, Options.commentMark]
    cases o.commentStyle with
    | hash => exact ⟨'#', _, rfl, by decide, rfl⟩
    | doubleSlash => exact ⟨'/', _, rfl, by decide, rfl⟩
  | separator | comma | space => exact absurd hgap (by simp [isGap])
  | indent level => exact h.elim
  | newline => exact h.elim

/-! ### Lines -/

namespace Document

/-- **The pieces of a line side by side**: each is sound and may precede what stands behind it. -/
def Spaced : Document → Prop
  | [] => True
  | p :: d => p.Sound ∧ p.Precedes d ∧ Spaced d

variable (o : Options) {d : Document}

theorem endsWord_text [Host] (h : d.Spaced) (hword : ∀ p ∈ d.head?, p.isWord = false) :
    EndsWord (text o d) := by
  cases d with
  | nil => rintro _ ⟨⟩
  | cons p d => exact Piece.endsWord_text o h.1 (hword p rfl) _

/-- **The tokens of pieces side by side** are those of the pieces. -/
theorem tokens_text [Host] (h : d.Spaced) : tokens (text o d) = some (d.flatMap Piece.tokens) := by
  induction d with
  | nil => exact tokens_nil
  | cons p d ih =>
    obtain ⟨hsound, hprecedes, hd⟩ := h
    by_cases hcomment : ∃ line, p = .comment line
    · -- nothing stands behind a comment that it could swallow
      obtain ⟨line, rfl⟩ := hcomment
      obtain rfl : d = [] := hprecedes
      simpa [Piece.tokens] using Piece.tokens_text_comment o line
    · have hends : p.isWord = true → EndsWord (text o d) := by
        intro hword
        refine endsWord_text o hd ?_
        cases p with
        | key | literal => exact hprecedes
        | _ => exact absurd hword (by simp [Piece.isWord])
      rw [text_cons, Piece.tokens_text_append o hsound (not_exists.mp hcomment) hends, ih hd]
      simp

theorem isOneLine_text [Host] (h : d.Spaced) : IsOneLine (text o d) := by
  induction d with
  | nil => exact isOneLine_nil
  | cons p d ih => exact (p.isOneLine_text o h.1).append (ih h.2.2)

end Document

namespace Line

/-- **A well-formed line**: its pieces fit together, and the first one is no gap. -/
structure WellFormed (l : Line) : Prop where
  /-- The pieces fit together. -/
  spaced : Document.Spaced l.content
  /-- The line begins with a piece that is no gap. -/
  begins : ∃ p d, l.content = p :: d ∧ p.isGap = false

variable (o : Options) {l : Line}

theorem text_eq [Host] (l : Line) :
    l.text o = (Piece.indent l.level).text o ++ Document.text o l.content := rfl

/-- **The tokens of a line** are those of its pieces. -/
theorem tokens_text [Host] (h : l.WellFormed) :
    tokens (l.text o) = some (l.content.flatMap Piece.tokens) := by
  rw [text_eq, tokens_gap (Piece.mem_gapChars_indent o l.level), Document.tokens_text o h.spaced]

/-- A line holds no line break. -/
theorem isOneLine_text [Host] (h : l.WellFormed) : IsOneLine (l.text o) :=
  (isOneLine_of_gap (Piece.mem_gapChars_indent o l.level)).append
    (Document.isOneLine_text o h.spaced)

/-- Behind the indentation of a line stands a character that is no gap, and that is a closing
bracket only if the line begins with one. -/
theorem exists_text_eq [Host] (h : l.WellFormed) :
    ∃ c cs, l.text o = (List.replicate l.level o.indentUnit).flatten ++ c :: cs ∧ c ∉ gapChars ∧
      ∀ p ∈ l.content.head?, isClosingChar c = p.isClosing := by
  obtain ⟨p, d, hcontent, hgap⟩ := h.begins
  have hspaced := h.spaced
  rw [hcontent] at hspaced
  obtain ⟨c, cs, htext, hc, hclosing⟩ := Piece.exists_text_eq_cons o hspaced.1 hgap
  refine ⟨c, cs ++ Document.text o d, ?_, hc, ?_⟩
  · rw [text, hcontent, Document.text_cons, htext, List.cons_append]
  · rw [hcontent]
    rintro _ ⟨⟩
    exact hclosing

end Line

/-! ### The lines of a tree -/

/-- What may stand before a value on its line: nothing, or a key and what separates it. -/
inductive Document.IsHead : Document → Prop
  /-- Nothing stands before the value. -/
  | nil : IsHead []
  /-- The value stands behind its key. -/
  | key {k : Key} (sound : (Piece.key k).Sound) {s : Piece}
      (separates : s = .separator ∨ s = .space) : IsHead [.key k, s]

/-- What may stand behind a value on its line: nothing, or a comma. -/
inductive Document.IsTail : Document → Prop
  /-- Nothing stands behind the value. -/
  | nil : IsTail []
  /-- Another element follows. -/
  | comma : IsTail [.comma]

namespace Document

theorem isHead_ofKey (o : Options) (k child : Value) : IsHead (ofKey o k child) := by
  refine .key ?_ ?_
  · rw [Key.ofText]
    split_ifs with hquotes
    · trivial
    · rw [Key.needsQuotes, Bool.or_eq_true, not_or] at hquotes
      have hsimple : isSimpleKey (keyText k).toList = true := by simpa using hquotes.2
      exact hsimple
  · cases child with
    | mapNode => exact (ite_eq_or_eq _ _ _).symm
    | _ => exact Or.inl rfl

theorem isTail_ite (b : Bool) : IsTail (if b then [] else [.comma]) := by
  cases b
  · exact .comma
  · exact .nil

/-- A tail fits behind any sound piece but a comment. -/
theorem IsTail.spaced_cons {tail : Document} (h : tail.IsTail) {p : Piece} (hsound : p.Sound)
    (hcomment : ∀ line, p ≠ .comment line) : Spaced (p :: tail) := by
  have htail : Spaced tail := by
    cases h with
    | nil => trivial
    | comma => exact ⟨trivial, trivial, trivial⟩
  refine ⟨hsound, ?_, htail⟩
  cases p with
  | comment line => exact absurd rfl (hcomment line)
  | key | literal => cases h <;> simp [Piece.Precedes, Piece.isWord]
  | _ => trivial

/-- A head fits before any piece. -/
theorem IsHead.spaced_append {head : Document} (h : head.IsHead) {d : Document} (hd : d.Spaced) :
    Spaced (head ++ d) := by
  cases h with
  | nil => exact hd
  | key hsound hs =>
    rcases hs with rfl | rfl <;>
      exact ⟨hsound, by simp [Piece.Precedes, Piece.isWord], trivial, trivial, hd⟩

/-- A line with a head begins with a piece that is no gap, if the rest does. -/
theorem IsHead.begins_append {head : Document} (h : head.IsHead) {p : Piece} (hp : p.isGap = false)
    (d : Document) : ∃ q d', head ++ p :: d = q :: d' ∧ q.isGap = false := by
  cases h with
  | nil => exact ⟨p, d, rfl, hp⟩
  | key => exact ⟨_, _, rfl, rfl⟩

/-- Literals in brackets fit together. -/
theorem spaced_inBrackets {ls : List Literal} (h : ∀ l ∈ ls, (Piece.literal l).Sound)
    {tail : Document} (htail : tail.IsTail) : Spaced (inBrackets ls ++ tail) := by
  have hend : Spaced (.space :: .closing .square :: tail) :=
    ⟨trivial, trivial, htail.spaced_cons trivial (by simp)⟩
  have hliterals : Spaced (ofLiterals ls ++ .space :: .closing .square :: tail) := by
    induction ls with
    | nil => exact hend
    | cons l ls ih =>
      have hl : (Piece.literal l).Sound := h l List.mem_cons_self
      have hls := ih fun l' hl' => h l' (List.mem_cons_of_mem _ hl')
      cases ls with
      | nil => exact ⟨trivial, trivial, hl, by simp [Piece.Precedes, Piece.isWord], hend⟩
      | cons l' ls =>
        exact ⟨trivial, trivial, hl, by simp [Piece.Precedes, Piece.isWord], trivial, trivial, hls⟩
  rw [inBrackets, List.cons_append, List.append_assoc]
  exact ⟨trivial, trivial, hliterals⟩

end Document

/-- The literal of a text is sound. -/
theorem Literal.sound_ofText (quoting : Quoting) (cs : List Char) :
    (Piece.literal (ofText quoting cs)).Sound := by
  cases quoting with
  | always => trivial
  | whenRequired =>
    rw [ofText]
    split_ifs with hbare
    · exact hbare
    · trivial

/-- The literal of a value is sound. -/
theorem Options.sound_literal (o : Options) (v : Value) : (Piece.literal (o.literal v)).Sound := by
  rw [literal]
  cases hv : Literal.ofValue o.stringQuoting.policy v with
  | error problem => trivial
  | ok l =>
    cases v with
    | str s =>
      cases hq : o.stringQuoting.policy with
      | error problem =>
        rw [hq] at hv
        cases hv
      | ok quoting =>
        rw [hq] at hv
        cases hv
        exact Literal.sound_ofText quoting s.toList
    | float bits =>
      rw [Literal.ofValue] at hv
      split_ifs at hv with hfinite
      cases hv
      exact hfinite
    | int n =>
      rw [Literal.ofValue] at hv
      split_ifs at hv with hn
      cases hv
      trivial
    | null | bool =>
      cases hv
      trivial
    | _ => cases hv

namespace Line

variable {level : ℕ} {head tail : Document}

theorem wellFormed_of_mem_ofComment {comment : Option String} {l : Line}
    (h : l ∈ ofComment level comment) : l.WellFormed := by
  cases comment with
  | none => exact absurd h (by simp [ofComment])
  | some s =>
    rw [ofComment, List.mem_map] at h
    obtain ⟨line, hline, rfl⟩ := h
    exact ⟨⟨isOneLine_of_mem_commentLines hline, rfl, trivial⟩, ⟨_, _, rfl, rfl⟩⟩

/-- A head, a piece that is no gap and what fits behind it are a well-formed line. -/
theorem wellFormed_head (hhead : head.IsHead) {p : Piece} (hp : p.isGap = false) {d : Document}
    (hd : Document.Spaced (p :: d)) : WellFormed ⟨level, head ++ p :: d⟩ :=
  ⟨hhead.spaced_append hd, hhead.begins_append hp d⟩

/-- A closing bracket and a tail are a well-formed line. -/
theorem wellFormed_closing (b : Bracket) (htail : tail.IsTail) :
    WellFormed ⟨level, .closing b :: tail⟩ :=
  ⟨htail.spaced_cons trivial (by simp), ⟨_, _, rfl, rfl⟩⟩

end Line

namespace Value

variable (o : Options)

/-- What is said of a node: all of its lines are well-formed, wherever it stands. -/
def WritesWellFormed (v : Value) : Prop :=
  ∀ (level : ℕ) {head tail : Document}, head.IsHead → tail.IsTail →
    ∀ l ∈ v.lines o level head tail, l.WellFormed

theorem wellFormed_of_mem_entryLines {es : List (Value × Value)}
    (h : ∀ e ∈ es, e.2.WritesWellFormed o) {level : ℕ} {l : Line} (hl : l ∈ entryLines o level es) :
    l.WellFormed := by
  induction es with
  | nil => exact absurd hl (by simp [entryLines])
  | cons e rest ih =>
    obtain ⟨k, child⟩ := e
    rw [entryLines, List.mem_append, List.mem_append] at hl
    rcases hl with hl | hl | hl
    · exact Line.wellFormed_of_mem_ofComment hl
    · exact h _ List.mem_cons_self level (Document.isHead_ofKey o k child) .nil l hl
    · exact ih (fun e he => h e (List.mem_cons_of_mem _ he)) hl

theorem wellFormed_of_mem_blockLines {children : List Value}
    (h : ∀ child ∈ children, child.WritesWellFormed o) {level : ℕ} {l : Line}
    (hl : l ∈ blockLines o level children) : l.WellFormed := by
  induction children with
  | nil => exact absurd hl (by simp [blockLines])
  | cons child rest ih =>
    rw [blockLines, List.mem_append, List.mem_append] at hl
    rcases hl with hl | hl | hl
    · exact Line.wellFormed_of_mem_ofComment hl
    · exact h _ List.mem_cons_self level .nil (Document.isTail_ite _) l hl
    · exact ih (fun c hc => h c (List.mem_cons_of_mem _ hc)) hl

/-- **The lines of a tree are well-formed**, whatever its texts are. -/
theorem IsTree.writesWellFormed {v : Value} (h : v.IsTree) : v.WritesWellFormed o := by
  have hopening : ∀ b, Document.Spaced [.opening b] := fun b => ⟨trivial, trivial, trivial⟩
  induction h with
  | scalar value comment =>
    intro level head tail hhead htail l hl
    rw [lines, List.mem_singleton] at hl
    rw [hl]
    exact Line.wellFormed_head hhead rfl (htail.spaced_cons (o.sound_literal value) (by simp))
  | @list children later comment htree hstable ih =>
    intro level head tail hhead htail l hl
    rw [lines] at hl
    split_ifs at hl with hfits
    · rw [List.mem_singleton] at hl
      rw [hl]
      refine Line.wellFormed_head hhead rfl (Document.spaced_inBrackets ?_ htail)
      intro l hl
      obtain ⟨child, -, rfl⟩ := List.mem_map.mp hl
      exact o.sound_literal child.held
    · simp only [List.mem_cons, List.mem_append, List.not_mem_nil, or_false] at hl
      rcases hl with rfl | hl | rfl
      · exact Line.wellFormed_head hhead rfl (hopening .square)
      · exact wellFormed_of_mem_blockLines o ih hl
      · exact Line.wellFormed_closing .square htail
  | @map entries comment htree ih =>
    intro level head tail hhead htail l hl
    rw [lines] at hl
    simp only [List.mem_cons, List.mem_append, List.not_mem_nil, or_false] at hl
    rcases hl with rfl | hl | rfl
    · exact Line.wellFormed_head hhead rfl (hopening .brace)
    · exact wellFormed_of_mem_entryLines o ih hl
    · exact Line.wellFormed_closing .brace htail

/-- **The lines of a document are well-formed.** -/
theorem IsTree.wellFormed_of_mem_documentLines {v : Value} (h : v.IsTree) {l : Line}
    (hl : l ∈ v.documentLines o) : l.WellFormed := by
  rw [documentLines, List.mem_append] at hl
  rcases hl with hl | hl
  · exact Line.wellFormed_of_mem_ofComment hl
  · cases h with
    | scalar value comment =>
      exact (IsTree.scalar value comment).writesWellFormed o 0 .nil .nil l hl
    | list comment htree hstable =>
      exact (IsTree.list comment htree hstable).writesWellFormed o 0 .nil .nil l hl
    | map comment htree =>
      exact wellFormed_of_mem_entryLines o (fun e he => (htree e he).writesWellFormed o) hl

end Value

end Hocon
