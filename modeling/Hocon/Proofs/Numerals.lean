import Hocon.Text.Numeral
import Mathlib.Data.List.TakeWhile

/-!
# Which digits form a number

A run of digits is a numeral just if all of its digits are decimal
(`Hocon.isSome_numeral?_iff`); a single typographic digit, such as a superscript, spoils it. The
text that is written for a number is a numeral of that number (`Hocon.numeral?_toDigits`), and it is
one of many: the digits may be of any script, and zeros in front change nothing. A numeral is read
unless it is too long (`Hocon.readNumeral_eq_ok_iff`), and zeros in front do count for that.
-/

namespace Hocon

variable {c : Char} {cs : List Char} {n : ℕ}

/-! ### Digits -/

theorem decimalValue?_of_isDigit (h : c.isDigit = true) :
    decimalValue? c = some (c.toNat - '0'.toNat) := by
  obtain ⟨zeros, hzeros⟩ : ∃ zeros, decimalZeros = '0'.toNat :: zeros := ⟨_, rfl⟩
  rw [decimalValue?, hzeros, List.find?_cons_of_pos]
  · rfl
  · have hbounds := Char.isDigit_iff_toNat.mp h
    simp only [Bool.and_eq_true, decide_eq_true_eq]
    exact ⟨hbounds.1, Nat.lt_succ_of_le hbounds.2⟩

theorem isDecimalDigit_of_isDigit (h : c.isDigit = true) : isDecimalDigit c = true := by
  rw [isDecimalDigit, decimalValue?_of_isDigit h]
  rfl

/-- A decimal digit of any script is a digit. -/
theorem isDigit_of_isDecimalDigit (h : isDecimalDigit c = true) : isDigit c = true := by
  rw [isDigit, h, Bool.true_or]

theorem isDigits_iff : isDigits cs = true ↔ cs ≠ [] ∧ ∀ c ∈ cs, isDigit c = true := by
  simp [isDigits]

/-! ### Numerals -/

/-- Reading goes on from the number that was read so far, and fails at the first character that is
no decimal digit. -/
theorem isSome_foldlM_iff (cs : List Char) (n : ℕ) :
    (cs.foldlM (fun n c => (decimalValue? c).map (10 * n + ·)) n).isSome = true ↔
      ∀ c ∈ cs, isDecimalDigit c = true := by
  induction cs generalizing n with
  | nil => simp
  | cons c rest ih =>
    rw [List.foldlM_cons, List.forall_mem_cons, isDecimalDigit]
    cases decimalValue? c with
    | none => simp
    | some d =>
      refine (ih (10 * n + d)).trans ?_
      simp

/-- **A text is a numeral just if all of its characters are decimal digits.** -/
theorem isSome_numeral?_iff : (numeral? cs).isSome = true ↔ ∀ c ∈ cs, isDecimalDigit c = true :=
  isSome_foldlM_iff cs 0

/-- A numeral of ASCII digits is read as usual. -/
theorem numeral?_of_isDigit (h : ∀ c ∈ cs, c.isDigit = true) :
    numeral? cs = some (Nat.ofDigitChars 10 cs 0) := by
  have hfold : ∀ n, cs.foldlM (fun n c => (decimalValue? c).map (10 * n + ·)) n =
      some (Nat.ofDigitChars 10 cs n) := by
    induction cs with
    | nil => exact fun n => rfl
    | cons c rest ih =>
      rw [List.forall_mem_cons] at h
      intro n
      rw [List.foldlM_cons, decimalValue?_of_isDigit h.1, Nat.ofDigitChars_cons]
      exact ih h.2 _
  exact hfold 0

/-- **The text of a number is read back.** -/
theorem numeral?_toDigits (n : ℕ) : numeral? (Nat.toDigits 10 n) = some n := by
  rw [numeral?_of_isDigit fun c hc => Nat.isDigit_of_mem_toDigits (by decide) (by decide) hc,
    Nat.ofDigitChars_ten_toDigits]

theorem isDigits_toDigits (n : ℕ) : isDigits (Nat.toDigits 10 n) = true := by
  rw [isDigits_iff]
  refine ⟨Nat.toDigits_ne_nil, fun c hc => ?_⟩
  have hdigit : c.isDigit = true := Nat.isDigit_of_mem_toDigits (by decide) (by decide) hc
  exact isDigit_of_isDecimalDigit (isDecimalDigit_of_isDigit hdigit)

/-! ### Reading -/

/-- A numeral starts with all of its digits. -/
theorem leadingDigits_of_isSome (h : (numeral? cs).isSome = true) :
    leadingDigits cs = cs.length := by
  rw [leadingDigits, List.takeWhile_eq_self_iff.mpr (isSome_numeral?_iff.mp h)]

/-- **A numeral is read unless it is too long.** -/
theorem readNumeral_eq_ok_iff :
    readNumeral cs = .ok n ↔ numeral? cs = some n ∧ cs.length ≤ maxDigits := by
  rw [readNumeral]
  cases hnumeral : numeral? cs with
  | none => split_ifs <;> simp
  | some m =>
    rw [leadingDigits_of_isSome (by rw [hnumeral]; rfl)]
    split_ifs with hlong
    · simp [Nat.not_le.mpr hlong]
    · simp [Nat.not_lt.mp hlong]

/-- **A text that is refused as a number**, and the error. -/
inductive Refused (cs : List Char) : NumeralError → Prop
  /-- The text starts with too many digits, whatever follows. -/
  | tooLong (many : maxDigits < leadingDigits cs) : Refused cs (.tooLong (leadingDigits cs))
  /-- The text starts with few enough digits, and some character is none. -/
  | notDecimal (few : leadingDigits cs ≤ maxDigits) (other : ∃ c ∈ cs, isDecimalDigit c = false) :
    Refused cs (.notDecimal cs)

/-- **Reading fails just at a text that is refused.** -/
theorem readNumeral_eq_error_iff {e : NumeralError} : readNumeral cs = .error e ↔ Refused cs e := by
  have hnone : numeral? cs = none ↔ ∃ c ∈ cs, isDecimalDigit c = false := by
    rw [← Option.not_isSome_iff_eq_none, isSome_numeral?_iff]
    simp
  rw [readNumeral]
  constructor
  · intro h
    split_ifs at h with hlong
    · cases h
      exact .tooLong hlong
    · cases hnumeral : numeral? cs with
      | some n =>
        rw [hnumeral] at h
        cases h
      | none =>
        rw [hnumeral] at h
        cases h
        exact .notDecimal (Nat.not_lt.mp hlong) (hnone.mp hnumeral)
  · rintro (hmany | ⟨hfew, hother⟩)
    · rw [if_pos hmany]
    · rw [if_neg (Nat.not_lt.mpr hfew), hnone.mpr hother]

end Hocon
