import Hocon.Document
import Hocon.Proofs.Quoted
import Mathlib.Data.List.TakeWhile

/-!
# The tokens of a line

How a reader sees a line: as a run of *tokens*, which are words, quoted texts and brackets. Blanks,
commas and separators only keep tokens apart, and a comment ends the line. `Hocon.tokens` reads the
tokens of a line that is given as characters; it knows nothing of options, levels or pieces, and it
fails where a quoted text does not end or is not well-formed.

The equations below say how a line reads from its front: behind a bracket, behind a gap, behind a
quoted text and behind a word. Only the last of them has a condition on what follows, namely that
the word ends there (`Hocon.EndsWord`); this is why a line must not put two words side by side.

That the characters of bare keys, bare texts and numbers are characters of words
(`Hocon.isWordChar_of_class`) is decided once for each class, over the finitely many delimiters and
not over the characters of the class.
-/

namespace Hocon

/-! ### Characters -/

/-- The characters that keep tokens apart. -/
def gapChars : List Char := [' ', '\t', ',', ':', '=']

/-- The characters that are in no word. -/
def delimiters : List Char :=
  gapChars ++ ['\n', '\r', '"', '#', '/', '\x7b', '\x7d', '[', ']']

/-- Whether a character may stand in a word. -/
def isWordChar (c : Char) : Bool := !delimiters.contains c

/-- A class of characters without delimiters has characters of words only. -/
theorem isWordChar_of_class {p : Char → Bool} (hp : delimiters.all (fun c => !p c) = true)
    {c : Char} (h : p c = true) : isWordChar c = true := by
  rw [isWordChar, Bool.not_eq_true', List.contains_eq_mem, decide_eq_false_iff_not]
  intro hc
  have := List.all_eq_true.mp hp c hc
  simp [h] at this

theorem isWordChar_of_mem_gapChars {c : Char} (h : c ∈ gapChars) : isWordChar c = false := by
  have hall : gapChars.all (!isWordChar ·) = true := by decide
  simpa using List.all_eq_true.mp hall c h

theorem isWordChar_of_isKeyChar {c : Char} (h : isKeyChar c = true) : isWordChar c = true :=
  isWordChar_of_class (by decide) h

theorem isWordChar_of_isBareChar {c : Char} (h : isBareChar c = true) : isWordChar c = true :=
  isWordChar_of_class (by decide) h

theorem isWordChar_of_isDigit {c : Char} (h : c.isDigit = true) : isWordChar c = true :=
  isWordChar_of_class (by decide) h

/-! ### Tokens -/

/-- What a reader sees on a line. -/
inductive Token where
  /-- A run of characters without quotes. -/
  | word (cs : List Char)
  /-- A text that stood in quotes. -/
  | quoted (cs : List Char)
  /-- An opening bracket. -/
  | opening (b : Bracket)
  /-- A closing bracket. -/
  | closing (b : Bracket)
  deriving DecidableEq, Repr

/-- The token of a bracket. -/
def Token.ofBracket? : Char → Option Token
  | '\x7b' => some (.opening .brace)
  | '[' => some (.opening .square)
  | '\x7d' => some (.closing .brace)
  | ']' => some (.closing .square)
  | _ => none

/-- **The tokens of a line.** A hash sign or two slashes outside of quotes begin a comment. -/
def tokens (cs : List Char) : Option (List Token) :=
  match cs with
  | [] => some []
  | '#' :: _ => some []
  | '/' :: '/' :: _ => some []
  | '"' :: rest =>
    match h : Quoted.read rest with
    | none => none
    | some (s, rest') =>
      have := Quoted.length_lt_of_read h
      (tokens rest').map (.quoted s :: ·)
  | c :: rest =>
    match Token.ofBracket? c with
    | some t => (tokens rest).map (t :: ·)
    | none =>
      if isWordChar c then
        have := (List.dropWhile_suffix isWordChar (l := rest)).length_le
        (tokens (rest.dropWhile isWordChar)).map (.word (c :: rest.takeWhile isWordChar) :: ·)
      else tokens rest
termination_by cs.length

@[simp] theorem tokens_nil : tokens [] = some [] := by
  rw [tokens]

theorem tokens_hash (cs : List Char) : tokens ('#' :: cs) = some [] := by
  rw [tokens]

theorem tokens_slashes (cs : List Char) : tokens ('/' :: '/' :: cs) = some [] := by
  rw [tokens]

theorem tokens_opening (b : Bracket) (rest : List Char) :
    tokens (b.opening :: rest) = (tokens rest).map (.opening b :: ·) := by
  cases b <;> rw [Bracket.opening, tokens] <;> simp [Token.ofBracket?]

theorem tokens_closing (b : Bracket) (rest : List Char) :
    tokens (b.closing :: rest) = (tokens rest).map (.closing b :: ·) := by
  cases b <;> rw [Bracket.closing, tokens] <;> simp [Token.ofBracket?]

/-- Gaps between tokens are skipped. -/
theorem tokens_gap {gap : List Char} (h : ∀ c ∈ gap, c ∈ gapChars) (rest : List Char) :
    tokens (gap ++ rest) = tokens rest := by
  induction gap with
  | nil => rfl
  | cons c gap ih =>
    have hc := h c List.mem_cons_self
    rw [List.cons_append, ← ih fun x hx => h x (List.mem_cons_of_mem _ hx)]
    simp only [gapChars, List.mem_cons, List.not_mem_nil, or_false] at hc
    rcases hc with rfl | rfl | rfl | rfl | rfl <;>
      · rw [tokens] <;> simp [Token.ofBracket?, isWordChar, delimiters, gapChars]

theorem tokens_quoted (cs rest : List Char) :
    tokens (Quoted.encode cs ++ rest) = (tokens rest).map (.quoted cs :: ·) := by
  have hread := Quoted.read_encode cs rest
  have hencode : Quoted.encode cs ++ rest =
      '"' :: (cs.flatMap Quoted.encodeChar ++ '"' :: rest) := by
    simp [Quoted.encode]
  rw [hencode, tokens]
  split
  · next hnone => rw [hread] at hnone; cases hnone
  · next hsome => rw [hread] at hsome; cases hsome; rfl

theorem ofBracket?_of_isWordChar {c : Char} (h : isWordChar c = true) :
    Token.ofBracket? c = none := by
  unfold Token.ofBracket?
  split
  case h_5 => rfl
  all_goals exact absurd h (by decide)

/-- A word: characters of words, one at least. -/
structure IsWord (w : List Char) : Prop where
  /-- There is a character. -/
  ne_nil : w ≠ []
  /-- No character is a delimiter. -/
  chars : ∀ c ∈ w, isWordChar c = true

theorem isWord_of_all {w : List Char} (hne : w ≠ []) (h : w.all isWordChar = true) : IsWord w :=
  ⟨hne, List.all_eq_true.mp h⟩

/-- What may stand behind a word: nothing, or a character that ends it. -/
def EndsWord (rest : List Char) : Prop := ∀ c ∈ rest.head?, isWordChar c = false

theorem endsWord_append {cs : List Char} (hne : cs ≠ []) (h : ∀ c ∈ cs, isWordChar c = false)
    (rest : List Char) : EndsWord (cs ++ rest) := by
  obtain ⟨c, cs, rfl⟩ := List.exists_cons_of_ne_nil hne
  rintro x hx
  cases hx
  exact h c List.mem_cons_self

/-- What is taken from the front of a text ends where a character of another class follows. -/
theorem takeWhile_append {p : Char → Bool} {cs rest : List Char} (hcs : ∀ c ∈ cs, p c = true)
    (hrest : ∀ c ∈ rest.head?, p c = false) : (cs ++ rest).takeWhile p = cs := by
  rw [List.takeWhile_append_of_pos hcs]
  cases rest with
  | nil => simp
  | cons d rest => rw [List.takeWhile_cons_of_neg (by simp [hrest d rfl]), List.append_nil]

/-- What is left of a text begins where a character of another class follows. -/
theorem dropWhile_append {p : Char → Bool} {cs rest : List Char} (hcs : ∀ c ∈ cs, p c = true)
    (hrest : ∀ c ∈ rest.head?, p c = false) : (cs ++ rest).dropWhile p = rest := by
  rw [List.dropWhile_append_of_pos hcs]
  cases rest with
  | nil => rfl
  | cons d rest => rw [List.dropWhile_cons_of_neg (by simp [hrest d rfl])]

theorem tokens_word {w rest : List Char} (hw : IsWord w) (hrest : EndsWord rest) :
    tokens (w ++ rest) = (tokens rest).map (.word w :: ·) := by
  obtain ⟨c, w, rfl⟩ := List.exists_cons_of_ne_nil hw.ne_nil
  have hc : isWordChar c = true := hw.chars c List.mem_cons_self
  have htail : ∀ x ∈ w, isWordChar x = true := fun x hx => hw.chars x (List.mem_cons_of_mem _ hx)
  have hhash : c ≠ '#' := by rintro rfl; exact absurd hc (by decide)
  have hslash : c ≠ '/' := by rintro rfl; exact absurd hc (by decide)
  have hquote : c ≠ '"' := by rintro rfl; exact absurd hc (by decide)
  have htake := takeWhile_append htail hrest
  have hdrop := dropWhile_append htail hrest
  -- the first three equations of the reader are excluded by the side goals
  rw [List.cons_append, tokens]
  · simp [ofBracket?_of_isWordChar hc, hc, htake, hdrop]
  all_goals simp [hhash, hslash, hquote]

end Hocon
