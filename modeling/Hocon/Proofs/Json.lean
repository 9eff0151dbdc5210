import Hocon.Proofs.Reading

/-!
# Quoted texts are JSON

A text in quotes is a JSON string. This module states the grammar of JSON strings (RFC 8259,
section 7) and shows that a quoted text follows it and spells the text that was quoted, and no
other one.

The grammar is wider than what is written: there are two escapes that are never used, the letters
in hexadecimal digits may be capital, and a character behind the first 65536 may be spelled by two
escapes (`Hocon.Json.Spells.pair`). So one text has many spellings. That one spelling has only one
text is read off `Hocon.Quoted.read`, which takes a string apart character by character: where it
succeeds, it agrees with the grammar (`Hocon.Json.Spells.eq_cons_of_read`), and it succeeds on
whatever is written (`Hocon.Quoted.read_encode`).

The other way to write a text is to leave it bare. A bare text is a word that starts with a letter
and not like a keyword (`Hocon.Json.IsBareWord`), so it is no literal of any other value.
-/

namespace Hocon

/-! ### JSON strings -/

namespace Json

/-- The number that hexadecimal digits spell. -/
def hexValue? (digits : List Char) : Option ℕ :=
  digits.foldlM (fun n c => (Quoted.hexDigit? c).map (16 * n + ·)) 0

/-- The code point that a pair of surrogates stands for. -/
def pairValue (high low : ℕ) : ℕ := 0x10000 + 0x400 * (high - 0xD800) + (low - 0xDC00)

/-- **How one character of a JSON string is spelled**. -/
inductive Spells : List Char → Char → Prop
  /-- A character stands for itself, unless it is a control, a quote or a backslash. -/
  | itself {c : Char} (control : 0x20 ≤ c.toNat) (quote : c ≠ '"') (backslash : c ≠ '\\') :
      Spells [c] c
  /-- A backslash and one of the letters that stand for a character. -/
  | letter {x c : Char} (unescape : Quoted.unescape? x = some c) : Spells ['\\', x] c
  /-- A code point in four hexadecimal digits. -/
  | code {a b c d : Char} {n : ℕ} (value : hexValue? [a, b, c, d] = some n)
      (isChar : n.isValidChar) : Spells ['\\', 'u', a, b, c, d] (Char.ofNat n)
  /-- A pair of surrogates, each in four hexadecimal digits. -/
  | pair {a b c d a' b' c' d' : Char} {high low : ℕ}
      (first : hexValue? [a, b, c, d] = some high) (isHigh : 0xD800 ≤ high ∧ high < 0xDC00)
      (second : hexValue? [a', b', c', d'] = some low) (isLow : 0xDC00 ≤ low ∧ low < 0xE000) :
      Spells ['\\', 'u', a, b, c, d, '\\', 'u', a', b', c', d'] (Char.ofNat (pairValue high low))

/-- **How a text is spelled** between the quotes of a JSON string. -/
inductive Body : List Char → List Char → Prop
  /-- The empty text. -/
  | nil : Body [] []
  /-- A character and the rest of the text. -/
  | cons {unit rest : List Char} {c : Char} {cs : List Char} (spells : Spells unit c)
      (others : Body rest cs) : Body (unit ++ rest) (c :: cs)

/-- **A JSON string for a text**: a spelling of the text between two quotes. -/
def IsString (string cs : List Char) : Prop :=
  ∃ body, Body body cs ∧ string = '"' :: (body ++ ['"'])

/-! ### One spelling, one text -/

theorem codePoint?_eq (digits : List Char) :
    Quoted.codePoint? digits =
      (hexValue? digits).bind fun n => if n.isValidChar then some (Char.ofNat n) else none := rfl

/-- **Where a spelling is read, it is read as its character.** -/
theorem Spells.eq_cons_of_read {unit : List Char} {c : Char} (h : Spells unit c)
    {rest cs after : List Char} (hread : Quoted.read (unit ++ rest) = some (cs, after)) :
    ∃ cs', cs = c :: cs' ∧ Quoted.read rest = some (cs', after) := by
  have hprepend : ∀ {o : Option Char}, Quoted.prepend o (Quoted.read rest) = some (cs, after) →
      o = some c → ∃ cs', cs = c :: cs' ∧ Quoted.read rest = some (cs', after) := by
    rintro _ hp rfl
    obtain ⟨⟨cs', after'⟩, hrest, hcons⟩ := Option.map_eq_some_iff.mp hp
    cases hcons
    exact ⟨cs', rfl, hrest⟩
  cases h with
  | itself hcontrol hquote hbackslash =>
    rw [List.singleton_append, Quoted.read] at hread
    · exact hprepend hread (if_neg (Nat.not_lt.mpr hcontrol))
    all_goals simp [hquote, hbackslash]
  | @letter x _ hunescape =>
    have hx : x ≠ 'u' := by
      rintro rfl
      exact absurd hunescape (by simp [Quoted.unescape?])
    rw [List.cons_append, List.singleton_append, Quoted.read] at hread
    · exact hprepend hread hunescape
    · simp [hx]
  | code hvalue hchar =>
    simp only [List.cons_append, List.nil_append, Quoted.read] at hread
    exact hprepend hread (by rw [codePoint?_eq, hvalue, Option.bind_some, if_pos hchar])
  | @pair a b c d _ _ _ _ high low hhigh hisHigh =>
    -- a surrogate alone is no character, so the first half is not read at all
    have hnone : Quoted.codePoint? [a, b, c, d] = none := by
      have hnot : ¬high.isValidChar := by
        rw [Nat.isValidChar]
        omega
      rw [codePoint?_eq, hhigh, Option.bind_some, if_neg hnot]
    simp only [List.cons_append, List.nil_append, Quoted.read, hnone] at hread
    exact absurd hread (by simp [Quoted.prepend])

/-- Where a text is read up to a quote, it is read as what it spells, and ends there. -/
theorem Body.eq_of_read {body ds : List Char} (h : Body body ds) {rest cs after : List Char}
    (hread : Quoted.read (body ++ '"' :: rest) = some (cs, after)) : ds = cs ∧ rest = after := by
  induction h generalizing cs with
  | nil =>
    rw [List.nil_append, Quoted.read] at hread
    cases hread
    exact ⟨rfl, rfl⟩
  | cons hspells _ ih =>
    rw [List.append_assoc] at hread
    obtain ⟨cs', rfl, hrest⟩ := hspells.eq_cons_of_read hread
    obtain ⟨rfl, hafter⟩ := ih hrest
    exact ⟨rfl, hafter⟩

/-! ### What is written -/

/-- **A written character is a spelling of it.** -/
theorem spells_encodeChar (c : Char) : Spells (Quoted.encodeChar c) c := by
  rw [Quoted.encodeChar]
  cases hshort : Quoted.shortEscape c with
  | some letter =>
    have hunescape : Quoted.unescape? letter = some c := by
      unfold Quoted.shortEscape at hshort
      split at hshort <;> cases hshort <;> rfl
    exact .letter hunescape
  | none =>
    by_cases hcontrol : Quoted.isControl c = true
    · obtain ⟨x₁, x₂, x₃, x₄, hdigits, hcode, -⟩ :=
        Quoted.codePoint?_hexDigits (Quoted.toNat_lt_of_isControl hcontrol)
      rw [codePoint?_eq, Option.bind_eq_some_iff] at hcode
      obtain ⟨n, hvalue, hn⟩ := hcode
      have hchar : n.isValidChar ∧ Char.ofNat n = c := by
        rw [Char.ofNat_toNat] at hn
        split_ifs at hn with hvalid
        exact ⟨hvalid, Option.some.inj hn⟩
      simp only [hcontrol, if_true, hdigits]
      exact hchar.2 ▸ .code hvalue hchar.1
    · have hlow : 0x20 ≤ c.toNat := by
        by_contra hlt
        refine hcontrol ?_
        simp only [Quoted.isControl, Bool.or_eq_true, decide_eq_true_eq]
        omega
      simp only [hcontrol, Bool.false_eq_true, if_false]
      exact .itself hlow (by rintro rfl; exact absurd hshort (by decide))
        (by rintro rfl; exact absurd hshort (by decide))

/-- **A quoted text is a JSON string** for the text. -/
theorem isString_encode (cs : List Char) : IsString (Quoted.encode cs) cs := by
  refine ⟨cs.flatMap Quoted.encodeChar, ?_, rfl⟩
  induction cs with
  | nil => exact .nil
  | cons c cs ih => exact .cons (spells_encodeChar c) ih

/-- **A JSON string that a quoted text begins with** is all of it, and is for no other text. -/
theorem eq_of_isString {string ds rest cs : List Char} (h : IsString string ds)
    (hencode : string ++ rest = Quoted.encode cs) : ds = cs ∧ rest = [] := by
  obtain ⟨body, hbody, rfl⟩ := h
  have hbehind : body ++ '"' :: rest = cs.flatMap Quoted.encodeChar ++ ['"'] := by
    rw [Quoted.encode] at hencode
    simpa using hencode
  exact hbody.eq_of_read (hbehind ▸ Quoted.read_encode cs [])

end Json

/-! ### Bare texts -/

/-- **A bare word**: letters, decimal digits and hyphens that start with a letter and not like a
keyword. -/
structure IsBareWord (cs : List Char) : Prop where
  /-- It starts with a letter, and not with a decimal digit. -/
  begins : ∃ c rest, cs = c :: rest ∧ isLetter c = true ∧ isDecimalDigit c = false
  /-- It has no other characters. -/
  chars : ∀ c ∈ cs, isLetter c = true ∨ isDecimalDigit c = true ∨ c = '-'
  /-- It does not start like a keyword. -/
  keyword : ∀ w ∈ ["include", "true", "false", "null"], ¬w.toList <+: cs

theorem isBareChar_iff {c : Char} :
    isBareChar c = true ↔ isLetter c = true ∨ isDecimalDigit c = true ∨ c = '-' := by
  rw [isBareChar, Bool.or_eq_true, Bool.or_eq_true, beq_iff_eq, or_assoc]

theorem any_reservedWords_eq_false_iff {cs : List Char} :
    (reservedWords.any fun w => w.toList.isPrefixOf cs) = false ↔
      ∀ w ∈ ["include", "true", "false", "null"], ¬w.toList <+: cs := by
  simp only [List.any_eq_false, List.isPrefixOf_iff_prefix, reservedWords]

/-- **The texts that may stand without quotes** are the bare words. -/
theorem isBareText_iff (cs : List Char) : isBareText cs = true ↔ IsBareWord cs := by
  cases cs with
  | nil => exact ⟨fun h => absurd h (by simp [isBareText]), fun h => by simpa using h.begins⟩
  | cons c rest =>
    simp only [isBareText, Bool.and_eq_true, Bool.not_eq_true', bne_iff_ne,
      any_reservedWords_eq_false_iff, List.all_eq_true, isBareChar_iff]
    constructor
    · rintro ⟨⟨⟨hdigit, hminus⟩, hkeyword⟩, hchars⟩
      have hletter : isLetter c = true := by
        rcases hchars c List.mem_cons_self with hletter | hdigit' | rfl
        · exact hletter
        · exact absurd hdigit' (by simp [hdigit])
        · exact absurd rfl hminus
      exact ⟨⟨c, rest, rfl, hletter, hdigit⟩, hchars, hkeyword⟩
    · rintro ⟨⟨_, _, hcons, hletter, hdigit⟩, hchars, hkeyword⟩
      cases hcons
      refine ⟨⟨⟨hdigit, ?_⟩, hkeyword⟩, hchars⟩
      rintro rfl
      exact absurd hletter (by decide)

/-- **A bare text is no literal of another value.** -/
theorem Literal.text_ne_of_isBareText {cs : List Char} (h : isBareText cs = true)
    {policy : Except Problem Quoting} {v : Value} (hv : ∀ s, v ≠ .str s) {l : Literal}
    (hl : Literal.ofValue policy v = .ok l) : l.text ≠ cs := by
  -- a literal reads back as its value, and a bare text as a text
  have hread : Value.ofWord l.text = v := by
    cases v with
    | null =>
      cases hl
      rfl
    | bool b =>
      cases hl
      cases b <;> rfl
    | int n =>
      rw [Literal.ofValue] at hl
      split_ifs at hl with hn
      cases hl
      exact Value.ofWord_text_int n hn
    | float bits =>
      rw [Literal.ofValue] at hl
      split_ifs at hl with hfinite
      cases hl
      exact Value.ofWord_text_float hfinite
    | str s => exact absurd rfl (hv s)
    | _ => cases hl
  rintro rfl
  exact hv _ (hread.symm.trans (Value.ofWord_of_isBareText h))

/-! ### The two forms of a text -/

/-- **A text is written as JSON, or as it is.** In quotes it is a JSON string for the text: no
string ends earlier in it, none with all of it is for another text, and it has no raw control
characters. It stands without quotes exactly if it is a bare word, and is then no literal of a value
that is no text. -/
theorem Literal.text_ofText_cases (cs : List Char) :
    (Json.IsString (Quoted.encode cs) cs ∧
      (∀ string ds rest, Json.IsString string ds → string ++ rest = Quoted.encode cs →
        ds = cs ∧ rest = []) ∧
      ∀ c ∈ Quoted.encode cs, Quoted.isControl c = false) ∧
    (Literal.ofText .always cs).text = Quoted.encode cs ∧
    ((¬IsBareWord cs ∧ (Literal.ofText .whenRequired cs).text = Quoted.encode cs) ∨
      (IsBareWord cs ∧ (Literal.ofText .whenRequired cs).text = cs ∧
        ∀ policy v l, (∀ s, v ≠ .str s) → Literal.ofValue policy v = .ok l → l.text ≠ cs)) := by
  refine ⟨⟨Json.isString_encode cs, fun _ _ _ => Json.eq_of_isString,
    fun _ => Quoted.isControl_of_mem_encode⟩, rfl, ?_⟩
  rw [← isBareText_iff, Literal.ofText]
  by_cases hbare : isBareText cs = true
  · rw [if_pos hbare]
    exact Or.inr ⟨hbare, rfl, fun _ _ _ hv hl => text_ne_of_isBareText hbare hv hl⟩
  · rw [if_neg hbare]
    exact Or.inl ⟨hbare, rfl⟩

end Hocon
