import Hocon.Proofs.WellFormed
import Hocon.Toml.Number
import Hocon.Toml.Write

/-!
# Reading TOML texts and integers

What the writer makes of a text or of an integer is read back as that text or that integer, whatever
it holds.

| what is written | how it is read | theorem |
|---|---|---|
| a text, as a basic string | behind its opening quote | `Hocon.Toml.lineString_flatMap` |
| the same, where a value stands | as a string on one line | `Hocon.Toml.string_flatMap` |
| an integer, in decimal digits | as one word | `Hocon.Toml.integer?_toString` |

A basic string is read in two steps, first up to its closing quote and then escape by escape, and
both steps go along the written characters. So what is needed of a written character is said once,
as the ways in which it may be written (`Hocon.Toml.Escape`), and every later fact about strings is
one case analysis of that and an induction over the text.

For integers there are three things to exclude: that the digits begin with a zero, which only zero
itself may do, that there are too many of them, and that the word is one of the other words of the
format. The second one is the condition under which an integer has a text at all
(`Hocon.hasDecimal`), so it stands in the definition of what is read back (`Hocon.Toml.IsAtom`).
-/

namespace Hocon

namespace Toml

variable {c : Char} {cs : List Char}

/-- The characters from the space to the tilde are allowed. -/
theorem isForbidden_of_toNat (hlow : 0x20 ≤ c.toNat) (hhigh : c.toNat < 0x7F) :
    isForbidden c = false := by
  simp [isForbidden]
  omega

/-! ### Escapes -/

/-- Whether a character stands for itself in a basic string. -/
def isPlain (c : Char) : Bool :=
  c != '"' && c != '\\' && !isForbidden c

/-- How a character may be written in a basic string: as itself, by a letter behind a backslash, or
by the four digits of its code. -/
inductive Escape (c : Char) : List Char → Prop
  | plain (h : isPlain c = true) : Escape c [c]
  | short (letter : Char) (h : shortEscape? .second letter = some c) : Escape c ['\\', letter]
  | code (x₁ x₂ x₃ x₄ : Char) (h : charOfHex? [x₁, x₂, x₃, x₄] = some c)
      (hdigits : ∀ x ∈ [x₁, x₂, x₃, x₄], isPlain x = true) :
      Escape c ['\\', 'u', x₁, x₂, x₃, x₄]

/-- The four digits of a character of ASCII name it, and stand for themselves. -/
theorem exists_hexDigits {n : ℕ} (h : n < 0x80) :
    ∃ x₁ x₂ x₃ x₄, hexDigits 4 n = [x₁, x₂, x₃, x₄] ∧
      charOfHex? [x₁, x₂, x₃, x₄] = some (Char.ofNat n) ∧
      ∀ x ∈ [x₁, x₂, x₃, x₄], isPlain x = true := by
  have hall : ∀ n < 0x80, (hexDigits 4 n).length = 4 ∧
      charOfHex? (hexDigits 4 n) = some (Char.ofNat n) ∧
      (hexDigits 4 n).all isPlain = true := by decide +kernel
  obtain ⟨hlength, hcode, hdigits⟩ := hall n h
  match hexDigits 4 n, hlength, hcode, hdigits with
  | [x₁, x₂, x₃, x₄], _, hcode, hdigits =>
    exact ⟨x₁, x₂, x₃, x₄, rfl, hcode, List.all_eq_true.mp hdigits⟩

theorem escape_escapeChar (c : Char) : Escape c (escapeChar c) := by
  rw [escapeChar]
  cases hletter : escapeLetter c with
  | some letter =>
    unfold escapeLetter at hletter
    split at hletter <;> cases hletter <;> exact .short _ rfl
  | none =>
    dsimp only
    split_ifs with hcode
    · obtain ⟨x₁, x₂, x₃, x₄, hdigits, hchar, hplain⟩ := exists_hexDigits (n := c.toNat) (by omega)
      rw [Char.ofNat_toNat] at hchar
      rw [hdigits]
      exact .code x₁ x₂ x₃ x₄ hchar hplain
    · have hquote : c ≠ '"' := by rintro rfl; exact absurd hletter (by decide)
      have hslash : c ≠ '\\' := by rintro rfl; exact absurd hletter (by decide)
      refine .plain ?_
      simp [isPlain, hquote, hslash, isForbidden]
      omega

namespace Escape

variable {w : List Char}

/-- A written character does not look like the end of the string. -/
theorem exists_cons (h : Escape c w) : ∃ x xs, w = x :: xs ∧ x ≠ '"' := by
  cases h with
  | plain h => exact ⟨c, [], rfl, by rintro rfl; exact absurd h (by decide)⟩
  | short letter h => exact ⟨'\\', [letter], rfl, by decide⟩
  | code x₁ x₂ x₃ x₄ h hdigits => exact ⟨'\\', ['u', x₁, x₂, x₃, x₄], rfl, by decide⟩

/-- Nothing that is forbidden is written. -/
theorem isForbidden_of_mem (h : Escape c w) {x : Char} (hx : x ∈ w) : isForbidden x = false := by
  have hplain : ∀ {y : Char}, isPlain y = true → isForbidden y = false := by
    intro y hy
    simp only [isPlain, Bool.and_eq_true, Bool.not_eq_true'] at hy
    exact hy.2
  cases h with
  | plain h => rw [List.mem_singleton.mp hx]; exact hplain h
  | short letter h =>
    rcases List.mem_cons.mp hx with rfl | hx
    · decide
    · rw [List.mem_singleton.mp hx]
      unfold shortEscape? at h
      split at h <;> first | decide | cases h
  | code x₁ x₂ x₃ x₄ h hdigits =>
    rcases List.mem_cons.mp hx with rfl | hx
    · decide
    rcases List.mem_cons.mp hx with rfl | hx
    · decide
    exact hplain (hdigits x hx)

end Escape

/-! ### Strings -/

theorem untilQuote_plain (h : isPlain c = true) (cs : List Char) :
    untilQuote true '"' (c :: cs) = (untilQuote true '"' cs).map fun p => (c :: p.1, p.2) := by
  simp only [isPlain, Bool.and_eq_true, bne_iff_ne, Bool.not_eq_true'] at h
  rw [untilQuote.eq_def]
  simp [h.1.1, h.1.2, h.2]

theorem untilQuote_slash (d : Char) (cs : List Char) :
    untilQuote true '"' ('\\' :: d :: cs) =
      (untilQuote true '"' cs).map fun p => ('\\' :: d :: p.1, p.2) := by
  rw [untilQuote.eq_def]
  simp [isForbidden]

/-- A written character does not close the string that it stands in. -/
theorem Escape.untilQuote {w : List Char} (h : Escape c w) (cs : List Char) :
    untilQuote true '"' (w ++ cs) = (untilQuote true '"' cs).map fun p => (w ++ p.1, p.2) := by
  cases h with
  | plain h => exact untilQuote_plain h cs
  | short letter h => exact untilQuote_slash letter cs
  | code x₁ x₂ x₃ x₄ h hdigits =>
    have h₁ := hdigits x₁ (by simp)
    have h₂ := hdigits x₂ (by simp)
    have h₃ := hdigits x₃ (by simp)
    have h₄ := hdigits x₄ (by simp)
    simp only [List.cons_append, List.nil_append, untilQuote_slash, untilQuote_plain h₁,
      untilQuote_plain h₂, untilQuote_plain h₃, untilQuote_plain h₄, Option.map_map]
    rfl

/-- A written character is read back. -/
theorem Escape.unescape {w : List Char} (h : Escape c w) (cs : List Char) :
    unescape .second false false (w ++ cs) = (unescape .second false false cs).map (c :: ·) := by
  cases h with
  | plain h =>
    have hslash : c ≠ '\\' := by rintro rfl; exact absurd h (by decide)
    rw [List.cons_append, List.nil_append, Toml.unescape]
    all_goals simp [hslash]
  | short letter h =>
    unfold shortEscape? at h
    split at h <;> cases h <;> simp [Toml.unescape, shortEscape?]
  | code x₁ x₂ x₃ x₄ h hdigits =>
    simp only [List.cons_append, List.nil_append]
    rw [Toml.unescape, h]
    cases Toml.unescape .second false false cs <;> rfl

theorem untilQuote_flatMap (cs rest : List Char) :
    untilQuote true '"' (cs.flatMap escapeChar ++ '"' :: rest) =
      some (cs.flatMap escapeChar, rest) := by
  induction cs with
  | nil => rw [List.flatMap_nil, List.nil_append, untilQuote.eq_def]; rfl
  | cons c cs ih =>
    rw [List.flatMap_cons, List.append_assoc, (escape_escapeChar c).untilQuote, ih]
    rfl

theorem unescape_flatMap (cs : List Char) :
    unescape .second false false (cs.flatMap escapeChar) = some cs := by
  induction cs with
  | nil => simp [unescape]
  | cons c cs ih =>
    rw [List.flatMap_cons, (escape_escapeChar c).unescape, ih]
    rfl

/-- **A basic string is read back**, from behind its opening quote. -/
theorem lineString_flatMap (s : String) (rest : List Char) :
    lineString .second '"' (s.toList.flatMap escapeChar ++ '"' :: rest) = some (s, rest) := by
  have hcontents : contents .second true false (s.toList.flatMap escapeChar) = some s := by
    rw [contents, if_pos rfl, unescape_flatMap, Option.map_some, String.ofList_toList]
  simp [lineString, untilQuote_flatMap, hcontents]

/-- A basic string is read back as a value, unless another quote follows it. -/
theorem string_flatMap (s : String) {rest : List Char} (h : rest.head? ≠ some '"') :
    string .second '"' (s.toList.flatMap escapeChar ++ '"' :: rest) = some (s, rest) := by
  -- an empty string does not open one on several lines, and no other begins with a quote
  have hquotes : ['"', '"'].isPrefixOf (s.toList.flatMap escapeChar ++ '"' :: rest) = false := by
    cases s.toList with
    | nil =>
      cases rest with
      | nil => rfl
      | cons d rest => simpa [List.isPrefixOf] using fun hd => h (by rw [← hd]; rfl)
    | cons c cs =>
      obtain ⟨x, xs, hx, hne⟩ := (escape_escapeChar c).exists_cons
      rw [List.flatMap_cons, hx]
      simp [List.isPrefixOf, Ne.symm hne]
  rw [string, hquotes, if_neg (by simp), lineString_flatMap]

theorem isForbidden_of_mem_basicString {s : String} (h : c ∈ basicString s) :
    isForbidden c = false := by
  simp only [basicString, List.cons_append, List.mem_cons, List.mem_append, List.mem_flatMap,
    List.not_mem_nil, or_false] at h
  rcases h with rfl | ⟨d, -, hd⟩ | rfl
  · decide
  · exact (escape_escapeChar d).isForbidden_of_mem hd
  · decide

/-! ### Integers -/

theorem digitValue?_of_isDigit (h : c.isDigit = true) :
    digitValue? c = some (c.toNat - '0'.toNat) ∧ c.toNat - '0'.toNat < 10 := by
  simp only [Char.isDigit, Bool.and_eq_true, decide_eq_true_eq] at h
  have hlow : '0' ≤ c := h.1
  have hhigh : c ≤ '9' := h.2
  have hle : c.toNat ≤ 57 := h.2
  refine ⟨by rw [digitValue?, if_pos ⟨hlow, hhigh⟩], ?_⟩
  change c.toNat - 48 < 10
  omega

/-- A digit behind a number makes it longer. -/
theorem digitsAfter_cons (h : c.isDigit = true) (n : ℕ) (after : Bool) (cs : List Char) :
    digitsAfter 10 n after (c :: cs) = digitsAfter 10 (10 * n + (c.toNat - '0'.toNat)) true cs := by
  obtain ⟨hvalue, hlt⟩ := digitValue?_of_isDigit h
  rw [digitsAfter]
  · rw [hvalue, Nat.mul_comm 10]
    exact if_pos hlt
  · rintro rfl
    exact absurd h (by decide)

theorem digitsAfter_true (h : ∀ c ∈ cs, c.isDigit = true) (n : ℕ) :
    digitsAfter 10 n true cs = some (Nat.ofDigitChars 10 cs n) := by
  induction cs generalizing n with
  | nil => rfl
  | cons c cs ih =>
    rw [digitsAfter_cons (h c List.mem_cons_self),
      ih fun x hx => h x (List.mem_cons_of_mem _ hx), Nat.ofDigitChars_cons]

theorem digits?_toDigits (n : ℕ) : digits? 10 (Nat.toDigits 10 n) = some n := by
  have hdigits : ∀ c ∈ Nat.toDigits 10 n, c.isDigit = true :=
    fun c hc => Decimal.isDigit_of_mem_digits hc
  have hvalue : Nat.ofDigitChars 10 (Nat.toDigits 10 n) 0 = n := Nat.ofDigitChars_ten_toDigits
  obtain ⟨c, cs, hcs⟩ := List.exists_cons_of_ne_nil (Nat.toDigits_ne_nil (b := 10) (n := n))
  rw [hcs] at hdigits hvalue ⊢
  rw [digits?, digitsAfter_cons (hdigits c List.mem_cons_self),
    digitsAfter_true fun x hx => hdigits x (List.mem_cons_of_mem _ hx), ← Nat.ofDigitChars_cons,
    hvalue]

/-- The digits of a number that is not zero do not begin with a zero. -/
theorem head?_toDigits_ne {n : ℕ} (h : 0 < n) : (Nat.toDigits 10 n).head? ≠ some '0' := by
  induction n using Nat.strongRecOn with
  | ind n ih =>
    rw [Nat.toDigits_eq_if (by decide)]
    split_ifs with hlt
    · have hall : ∀ n < 10, 0 < n → Nat.digitChar n ≠ '0' := by decide
      simpa using hall n hlt h
    · -- the first digit is the first one of the number without its last digit
      have hhead := ih (n / 10) (by omega) (by omega)
      obtain ⟨c, cs, hcs⟩ :=
        List.exists_cons_of_ne_nil (Nat.toDigits_ne_nil (b := 10) (n := n / 10))
      rw [hcs] at hhead ⊢
      exact hhead

theorem unsigned?_toDigits (n : ℕ) : unsigned? (Nat.toDigits 10 n) = some n := by
  rcases Nat.eq_zero_or_pos n with rfl | h
  · rfl
  · have hhead := head?_toDigits_ne h
    rw [unsigned?]
    · exact digits?_toDigits n
    · intro c cs hcs
      exact hhead (by rw [hcs]; rfl)

/-- A word that does not go on behind a zero is read as a decimal integer. -/
theorem integer?_of_ne (h : ∀ c rest, cs ≠ '0' :: c :: rest)
    (hcount : digitCount (splitSign cs).2 ≤ maxDigits) :
    integer? cs =
      (unsigned? (splitSign cs).2).map fun n => if (splitSign cs).1 then -(n : ℤ) else n := by
  rw [integer?]
  · exact if_neg (Nat.not_lt.mpr hcount)
  · exact h 'x'
  · exact h 'o'
  · exact h 'b'

/-- The digits of a number that has a text are not too many to be read. -/
theorem digitCount_toDigits_le {n : ℕ} (h : hasDecimal (n : ℤ) = true) :
    digitCount (Nat.toDigits 10 n) ≤ maxDigits := by
  rw [hasDecimal, decide_eq_true_iff] at h
  exact List.countP_le_length.trans h

theorem integer?_toDigits {n : ℕ} (h : hasDecimal (n : ℤ) = true) :
    integer? (Nat.toDigits 10 n) = some (n : ℤ) := by
  have hsign : splitSign (Nat.toDigits 10 n) = (false, Nat.toDigits 10 n) := by
    rw [splitSign]
    · intro rest hrest
      have hmem : '-' ∈ Nat.toDigits 10 n := by simp [hrest]
      exact absurd (Decimal.isDigit_of_mem_digits hmem) (by decide)
    · intro rest hrest
      have hmem : '+' ∈ Nat.toDigits 10 n := by simp [hrest]
      exact absurd (Decimal.isDigit_of_mem_digits hmem) (by decide)
  rw [integer?_of_ne, hsign, unsigned?_toDigits]
  · rfl
  · intro c rest hrest
    rcases Nat.eq_zero_or_pos n with rfl | hpos
    · simp at hrest
    · exact head?_toDigits_ne hpos (by rw [hrest]; rfl)
  · rw [hsign]
    exact digitCount_toDigits_le h

/-- The text of an integer: its digits, behind a sign if it is negative. -/
theorem toList_toString_cases (n : ℤ) :
    (∃ m : ℕ, n = m ∧ (toString n).toList = Nat.toDigits 10 m) ∨
      ∃ m : ℕ, n = .negSucc m ∧ (toString n).toList = '-' :: Nat.toDigits 10 (m + 1) := by
  cases n with
  | ofNat m => exact .inl ⟨m, rfl, toList_toString_natCast m⟩
  | negSucc m => exact .inr ⟨m, rfl, toList_toString_negSucc m⟩

/-- **An integer is read back**, if it is small enough to have a text in base ten. -/
theorem integer?_toString {n : ℤ} (h : hasDecimal n = true) :
    integer? (toString n).toList = some n := by
  rcases toList_toString_cases n with ⟨m, rfl, htext⟩ | ⟨m, rfl, htext⟩
  · rw [htext]
    exact integer?_toDigits h
  · have hcount : digitCount (Nat.toDigits 10 (m + 1)) ≤ maxDigits := digitCount_toDigits_le h
    rw [htext, integer?_of_ne (by simp) (by rwa [splitSign]), splitSign, unsigned?_toDigits]
    rfl

/-- The text of an integer is made of digits and a sign. -/
theorem isDigit_of_mem_toString {n : ℤ} (h : c ∈ (toString n).toList) :
    c.isDigit = true ∨ c = '-' := by
  rcases toList_toString_cases n with ⟨m, -, htext⟩ | ⟨m, -, htext⟩
  · rw [htext] at h
    exact .inl (Decimal.isDigit_of_mem_digits h)
  · rw [htext] at h
    rcases List.mem_cons.mp h with rfl | h
    · exact .inr rfl
    · exact .inl (Decimal.isDigit_of_mem_digits h)

/-- No other character occurs in the text of an integer. -/
theorem ne_of_mem_toString {n : ℤ} (h : c ∈ (toString n).toList) {d : Char}
    (hdigit : d.isDigit = false) (hsign : d ≠ '-') : c ≠ d := by
  rintro rfl
  rcases isDigit_of_mem_toString h with h | h
  · simp [hdigit] at h
  · exact hsign h

theorem exists_toString_cons (n : ℤ) : ∃ c cs, (toString n).toList = c :: cs := by
  rcases toList_toString_cases n with ⟨m, -, htext⟩ | ⟨m, -, htext⟩
  · rw [htext]
    exact List.exists_cons_of_ne_nil Nat.toDigits_ne_nil
  · exact ⟨_, _, htext⟩

theorem isForbidden_of_mem_toString {n : ℤ} (h : c ∈ (toString n).toList) :
    isForbidden c = false := by
  rcases isDigit_of_mem_toString h with h | rfl
  · simp only [Char.isDigit, Bool.and_eq_true, decide_eq_true_eq] at h
    have hlow : 48 ≤ c.toNat := h.1
    have hhigh : c.toNat ≤ 57 := h.2
    exact isForbidden_of_toNat (by omega) (by omega)
  · decide

/-! ### Atoms -/

/-- A text, or an integer that is small enough to have a text in base ten. -/
inductive IsAtom : Value → Prop
  | str (s : String) : IsAtom (.str s)
  | int (n : ℤ) (h : hasDecimal n = true) : IsAtom (.int n)

/-- The text of an atom. -/
def atomText : Value → List Char
  | .str s => basicString s
  | .int n => (toString n).toList
  | _ => []

/-- Atoms are written on one line. -/
theorem IsAtom.inlineValue {v : Value} (h : IsAtom v) (inArray : Bool) :
    inlineValue inArray v = .ok (atomText v) := by
  cases h with
  | str s => simp [Toml.inlineValue, atomText]
  | int n h => simp [Toml.inlineValue, atomText, h]

theorem IsAtom.isForbidden_of_mem {v : Value} (h : IsAtom v) (hc : c ∈ atomText v) :
    isForbidden c = false := by
  cases h with
  | str s => exact isForbidden_of_mem_basicString hc
  | int n h => exact isForbidden_of_mem_toString hc

end Toml

end Hocon
