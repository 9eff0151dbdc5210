import Hocon.Text.Quoted
import Mathlib.Data.Nat.Notation

/-!
# Reading quoted text

The inverse of `Hocon.Quoted.encode`. `Hocon.Quoted.read` reads a JSON string behind its opening
quote, up to the closing quote that ends it, and returns what follows. It takes every escape of
JSON that stands for one character, and refuses raw control characters and everything else that
the grammar of JSON strings does not know, so it accepts more than one spelling of a text.

What is written reads back (`Hocon.Quoted.read_encode`), whatever stands behind it. The proof goes
character by character: a written character begins either with a backslash or with itself, and is
then neither a quote nor a backslash (`Hocon.Quoted.read_encodeChar`).
-/

namespace Hocon

namespace Quoted

/-! ### Escapes -/

/-- The value of a hexadecimal digit. -/
def hexDigit? (c : Char) : Option ℕ :=
  if '0' ≤ c ∧ c ≤ '9' then some (c.toNat - 0x30)
  else if 'a' ≤ c ∧ c ≤ 'f' then some (c.toNat - 0x57)
  else if 'A' ≤ c ∧ c ≤ 'F' then some (c.toNat - 0x37)
  else none

/-- The character with a code point that is given in hexadecimal digits, if there is one. -/
def codePoint? (digits : List Char) : Option Char := do
  let n ← digits.foldlM (fun n c => (hexDigit? c).map (16 * n + ·)) 0
  if n.isValidChar then some (Char.ofNat n) else none

/-- The character that a letter stands for behind a backslash. -/
def unescape? : Char → Option Char
  | '"' => some '"'
  | '\\' => some '\\'
  | '/' => some '/'
  | 'n' => some '\n'
  | 'b' => some '\x08'
  | 'f' => some '\x0c'
  | 'r' => some '\r'
  | 't' => some '\t'
  | _ => none

/-- Put a character that was read in front of what the rest reads as. -/
def prepend (c : Option Char) (r : Option (List Char × List Char)) :
    Option (List Char × List Char) :=
  c.bind fun c => r.map fun p => (c :: p.1, p.2)

/-- **Reading a quoted text** behind its opening quote: the text, and what stands behind the closing
quote. -/
def read : List Char → Option (List Char × List Char)
  | [] => none
  | '"' :: rest => some ([], rest)
  | '\\' :: 'u' :: a :: b :: c :: d :: rest => prepend (codePoint? [a, b, c, d]) (read rest)
  | '\\' :: letter :: rest => prepend (unescape? letter) (read rest)
  | c :: rest => prepend (if c.toNat < 0x20 then none else some c) (read rest)

theorem exists_of_prepend_eq_some {c : Option Char} {r : Option (List Char × List Char)}
    {s rest : List Char} (h : prepend c r = some (s, rest)) : ∃ s', r = some (s', rest) := by
  simp only [prepend, Option.bind_eq_some_iff, Option.map_eq_some_iff] at h
  obtain ⟨_, _, ⟨s', rest'⟩, hr, hcons⟩ := h
  cases hcons
  exact ⟨s', hr⟩

/-- What stands behind a quoted text is shorter than the text. -/
theorem length_lt_of_read {cs s rest : List Char} (h : read cs = some (s, rest)) :
    rest.length < cs.length := by
  induction cs using read.induct generalizing s with
  | case1 => simp [read] at h
  | case2 cs =>
    simp only [read, Option.some.injEq, Prod.mk.injEq] at h
    simp [← h.2]
  | case3 a b c d cs ih =>
    simp only [read] at h
    obtain ⟨s', hs'⟩ := exists_of_prepend_eq_some h
    have := ih hs'
    simp only [List.length_cons]
    omega
  | case4 letter cs _ ih | case5 letter cs _ _ _ ih =>
    simp only [read] at h
    obtain ⟨s', hs'⟩ := exists_of_prepend_eq_some h
    have := ih hs'
    simp only [List.length_cons]
    omega

/-! ### What is written reads back -/

/-- The four digits of a control character name it, and are no control characters. -/
theorem codePoint?_hexDigits {n : ℕ} (h : n < 0xA0) :
    ∃ a b c d, hexDigits 4 n = [a, b, c, d] ∧ codePoint? [a, b, c, d] = some (Char.ofNat n) ∧
      ∀ x ∈ [a, b, c, d], isControl x = false := by
  have hall : ∀ n < 0xA0, (hexDigits 4 n).length = 4 ∧
      codePoint? (hexDigits 4 n) = some (Char.ofNat n) ∧
      (hexDigits 4 n).all (!isControl ·) = true := by decide +kernel
  obtain ⟨hlength, hcode, hnone⟩ := hall n h
  match hexDigits 4 n, hlength, hcode, hnone with
  | [a, b, c, d], _, hcode, hnone =>
    refine ⟨a, b, c, d, rfl, hcode, fun x hx => ?_⟩
    simpa using List.all_eq_true.mp hnone x hx

theorem toNat_lt_of_isControl {c : Char} (h : isControl c = true) : c.toNat < 0xA0 := by
  simp only [isControl, Bool.or_eq_true, Bool.and_eq_true, decide_eq_true_eq] at h
  omega

/-- **A written character reads back.** -/
theorem read_encodeChar (c : Char) (rest : List Char) :
    read (encodeChar c ++ rest) = (read rest).map fun p => (c :: p.1, p.2) := by
  rw [encodeChar]
  -- a character has a letter of its own, or it is a control character, or it stands for itself
  cases hshort : shortEscape c with
  | some letter =>
    unfold shortEscape at hshort
    split at hshort <;> cases hshort <;> simp [read, prepend, unescape?]
  | none =>
    have hquote : c ≠ '"' := by rintro rfl; exact absurd hshort (by decide)
    have hslash : c ≠ '\\' := by rintro rfl; exact absurd hshort (by decide)
    by_cases hcontrol : isControl c = true
    · obtain ⟨x₁, x₂, x₃, x₄, hdigits, hcode, -⟩ :=
        codePoint?_hexDigits (toNat_lt_of_isControl hcontrol)
      rw [Char.ofNat_toNat] at hcode
      simp [hcontrol, hdigits, read, prepend, hcode]
    · have hlow : ¬c.toNat < 0x20 := by
        intro hlt
        refine hcontrol ?_
        simp only [isControl, Bool.or_eq_true, decide_eq_true_eq]
        omega
      have hread : read (c :: rest) = prepend (some c) (read rest) := by
        rw [read, if_neg hlow] <;> simp [hquote, hslash]
      simp [hcontrol, hread, prepend]

/-- **A written text reads back**, and what stands behind it is left. -/
theorem read_encode (cs rest : List Char) :
    read (cs.flatMap encodeChar ++ '"' :: rest) = some (cs, rest) := by
  induction cs with
  | nil => rfl
  | cons c cs ih => simp [read_encodeChar, ih]

/-! ### What is written has no control characters -/

theorem isControl_of_mem_encodeChar {c x : Char} (h : x ∈ encodeChar c) : isControl x = false := by
  rw [encodeChar] at h
  cases hshort : shortEscape c with
  | some letter =>
    unfold shortEscape at hshort
    split at hshort <;> cases hshort <;>
      · simp only [shortEscape, List.mem_cons, List.not_mem_nil, or_false] at h
        rcases h with rfl | rfl <;> decide
  | none =>
    by_cases hcontrol : isControl c = true
    · obtain ⟨x₁, x₂, x₃, x₄, hdigits, -, hnone⟩ :=
        codePoint?_hexDigits (toNat_lt_of_isControl hcontrol)
      simp only [hshort, hcontrol, if_true, hdigits, List.mem_cons] at h
      rcases h with rfl | rfl | h
      · decide
      · decide
      · exact hnone x (by simpa using h)
    · simp only [hshort, hcontrol, Bool.false_eq_true, if_false, List.mem_singleton] at h
      simpa [h] using hcontrol

/-- **A literal holds no control characters**, whatever the text holds. -/
theorem isControl_of_mem_encode {cs : List Char} {x : Char} (h : x ∈ encode cs) :
    isControl x = false := by
  simp only [encode, List.cons_append, List.mem_cons, List.mem_append, List.mem_flatMap,
    List.not_mem_nil, or_false] at h
  rcases h with rfl | ⟨c, -, hc⟩ | rfl
  · decide
  · exact isControl_of_mem_encodeChar hc
  · decide

end Quoted

end Hocon
