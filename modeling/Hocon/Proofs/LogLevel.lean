import Hocon.Log.Setup
import Hocon.Proofs.Numerals
import Mathlib.Data.Int.Notation

/-!
# The level that the environment asks for

A variable of the environment holds any text. What it asks for is told by rules that do not mention
the reader (`Hocon.Log.Asks`): blanks around the text and the case of its letters do not count, and
what is left is a numeral, a word for a level, or something that asks for nothing. There is a fourth
case, in which the reader fails: a run of digits that is refused as a number
(`Hocon.Log.Unreadable`), because they are not all decimal or because there are too many of them.
Just one of the four cases holds of a text, because no word for a level is made of digits.

The one thing to know about setting up the log is what becomes of a level that was asked for: it is
set, unless it is zero. Zero is what the word for no threshold means, and what the numeral zero
means, and both are taken for nothing.
-/

namespace Hocon

namespace Log

/-! ### What a setting asks for -/

/-- What counts of a setting: its text in upper case, without the blanks around it. -/
def settingWord (text : String) : List Char := toUpper (strip text.toList)

/-- **What a setting asks for**, where it can be read. -/
inductive Asks : Option String → Option ℤ → Prop
  /-- The variable is not set. -/
  | unset : Asks none none
  /-- The text is a numeral that is not too long. -/
  | numeral {text : String} {n : ℕ} (digits : isDigits (settingWord text) = true)
      (value : numeral? (settingWord text) = some n)
      (short : (settingWord text).length ≤ maxDigits) : Asks (some text) (some (n : ℤ))
  /-- The text is a word for a level. -/
  | word {text : String} {level : ℤ} (named : (settingWord text, level) ∈ levelWords) :
      Asks (some text) (some level)
  /-- The text is neither, and may be empty. -/
  | other {text : String} (noDigits : isDigits (settingWord text) = false)
      (unnamed : ∀ level, (settingWord text, level) ∉ levelWords) : Asks (some text) none

/-- **A setting that cannot be read**, and the error: a run of digits that is refused as a
number. -/
structure Unreadable (text : String) (e : NumeralError) : Prop where
  /-- There are only digits. -/
  digits : isDigits (settingWord text) = true
  /-- Not all of them are decimal, or there are too many. -/
  refused : Refused (settingWord text) e

/-! ### The words for levels -/

/-- An entry of a list without repeated keys is found under its key. -/
theorem lookup_eq_some_iff_mem {α β : Type} [BEq α] [LawfulBEq α] {entries : List (α × β)}
    (h : (entries.map Prod.fst).Nodup) {a : α} {b : β} :
    entries.lookup a = some b ↔ (a, b) ∈ entries := by
  induction entries with
  | nil => simp
  | cons e rest ih =>
    obtain ⟨a', b'⟩ := e
    rw [List.map_cons, List.nodup_cons] at h
    rw [List.lookup_cons, List.mem_cons, Prod.mk.injEq]
    by_cases ha : a = a'
    · subst ha
      have hrest : (a, b) ∉ rest := fun hmem => h.1 (List.mem_map.mpr ⟨_, hmem, rfl⟩)
      simp [hrest, eq_comm]
    · have hbeq : (a == a') = false := beq_eq_false_iff_ne.mpr ha
      rw [hbeq, ← ih h.2]
      simp [ha]

theorem nodup_levelWords : (levelWords.map Prod.fst).Nodup := by decide

/-- No word for a level is made of digits. -/
theorem isDigits_eq_false_of_mem_levelWords {word : List Char} {level : ℤ}
    (h : (word, level) ∈ levelWords) : isDigits word = false := by
  have hall : levelWords.all (fun entry => !isDigits entry.1) = true := by decide +kernel
  simpa using List.all_eq_true.mp hall _ h

theorem lookup_levelWords_eq_none_iff {word : List Char} :
    levelWords.lookup word = none ↔ ∀ level, (word, level) ∉ levelWords := by
  rw [Option.eq_none_iff_forall_ne_some]
  exact forall_congr' fun level => not_congr (lookup_eq_some_iff_mem nodup_levelWords)

/-! ### Reading the environment -/

theorem environmentLevel_of_isDigits {text : String} (h : isDigits (settingWord text) = true) :
    environmentLevel (some text) =
      (readNumeral (settingWord text)).map fun n => some (n : ℤ) := by
  rw [settingWord] at h ⊢
  rw [environmentLevel, if_pos h]

theorem environmentLevel_of_not_isDigits {text : String}
    (h : isDigits (settingWord text) = false) :
    environmentLevel (some text) = .ok (levelWords.lookup (settingWord text)) := by
  rw [settingWord] at h ⊢
  rw [environmentLevel, h, if_neg Bool.false_ne_true]

/-- What a run of digits asks for: its number, since no word for a level is made of digits. -/
theorem asks_iff_of_isDigits {text : String} {level : Option ℤ}
    (h : isDigits (settingWord text) = true) :
    Asks (some text) level ↔
      ∃ n : ℕ, readNumeral (settingWord text) = .ok n ∧ some (n : ℤ) = level := by
  constructor
  · intro hasks
    cases hasks with
    | numeral _ hvalue hshort => exact ⟨_, readNumeral_eq_ok_iff.mpr ⟨hvalue, hshort⟩, rfl⟩
    | word hnamed =>
      rw [isDigits_eq_false_of_mem_levelWords hnamed] at h
      cases h
    | other hnoDigits =>
      rw [hnoDigits] at h
      cases h
  · rintro ⟨n, hread, rfl⟩
    obtain ⟨hvalue, hshort⟩ := readNumeral_eq_ok_iff.mp hread
    exact .numeral h hvalue hshort

/-- What any other text asks for: what it stands for in the list of words. -/
theorem asks_iff_of_not_isDigits {text : String} {level : Option ℤ}
    (h : isDigits (settingWord text) = false) :
    Asks (some text) level ↔ levelWords.lookup (settingWord text) = level := by
  constructor
  · intro hasks
    cases hasks with
    | numeral hdigits =>
      rw [hdigits] at h
      cases h
    | word hnamed => exact (lookup_eq_some_iff_mem nodup_levelWords).mpr hnamed
    | other _ hunnamed => exact lookup_levelWords_eq_none_iff.mpr hunnamed
  · rintro rfl
    cases hlookup : levelWords.lookup (settingWord text) with
    | none => exact .other h (lookup_levelWords_eq_none_iff.mp hlookup)
    | some level => exact .word ((lookup_eq_some_iff_mem nodup_levelWords).mp hlookup)

/-- **A setting is read as what it asks for.** -/
theorem environmentLevel_eq_ok_iff {setting : Option String} {level : Option ℤ} :
    environmentLevel setting = .ok level ↔ Asks setting level := by
  cases setting with
  | none =>
    constructor
    · rintro ⟨⟩
      exact .unset
    · rintro ⟨⟩
      rfl
  | some text =>
    cases hdigits : isDigits (settingWord text) with
    | true =>
      rw [environmentLevel_of_isDigits hdigits, asks_iff_of_isDigits hdigits]
      cases readNumeral (settingWord text) <;> simp [Except.map]
    | false =>
      rw [environmentLevel_of_not_isDigits hdigits, asks_iff_of_not_isDigits hdigits,
        Except.ok.injEq]

/-- **Reading a setting fails just if it cannot be read.** -/
theorem environmentLevel_eq_error_iff {setting : Option String} {e : NumeralError} :
    environmentLevel setting = .error e ↔ ∃ text, setting = some text ∧ Unreadable text e := by
  constructor
  · intro h
    cases setting with
    | none => cases h
    | some text =>
      cases hdigits : isDigits (settingWord text) with
      | false =>
        rw [environmentLevel_of_not_isDigits hdigits] at h
        cases h
      | true =>
        rw [environmentLevel_of_isDigits hdigits] at h
        cases hread : readNumeral (settingWord text) with
        | ok n =>
          rw [hread] at h
          cases h
        | error e' =>
          rw [hread] at h
          cases h
          exact ⟨text, rfl, hdigits, readNumeral_eq_error_iff.mp hread⟩
  · rintro ⟨text, rfl, hdigits, hrefused⟩
    rw [environmentLevel_of_isDigits hdigits, readNumeral_eq_error_iff.mpr hrefused]
    rfl

/-! ### Setting up -/

/-- The root of the log with a level and one handler that fits it. -/
def Root.ofLevel (level : ℤ) : Root where
  level := level
  handlers := [Layout.ofLevel level]
  propagates := false

theorem Root.setUp_of_ok {setting : Option String} {level : Option ℤ}
    (h : environmentLevel setting = .ok level) (root : Root) :
    Root.setUp none setting root = .ok (Root.ofLevel (chosenLevel none level)) := by
  rw [Root.setUp, Option.isSome_none, if_neg Bool.false_ne_true, h]
  rfl

theorem Root.setUp_of_error {setting : Option String} {e : NumeralError}
    (h : environmentLevel setting = .error e) (root : Root) :
    Root.setUp none setting root = .error e := by
  rw [Root.setUp, Option.isSome_none, if_neg Bool.false_ne_true, h]
  rfl

/-- **What the environment does to the log**, whatever it holds, and whatever the log was like.

1. A setting is read as what it asks for, and as nothing else.
2. Reading fails just at a run of digits that are not all decimal or are too many; setting up the
   log fails with the same error.
3. A level other than zero is set.
4. If no level is asked for, or the level zero, then that of critical errors is set. -/
theorem setUp_environment (setting : Option String) (root : Root) :
    (∀ level, environmentLevel setting = .ok level ↔ Asks setting level) ∧
    (∀ e, environmentLevel setting = .error e ↔ ∃ text, setting = some text ∧ Unreadable text e) ∧
    (∀ e, environmentLevel setting = .error e → Root.setUp none setting root = .error e) ∧
    (∀ n, environmentLevel setting = .ok (some n) → n ≠ 0 →
      Root.setUp none setting root = .ok (Root.ofLevel n)) ∧
    (environmentLevel setting = .ok none ∨ environmentLevel setting = .ok (some 0) →
      Root.setUp none setting root = .ok (Root.ofLevel critical)) := by
  refine ⟨fun level => environmentLevel_eq_ok_iff, fun e => environmentLevel_eq_error_iff,
    fun e h => Root.setUp_of_error h root, fun n h hn => ?_, fun h => ?_⟩
  · have hchosen : chosenLevel none (some n) = n := if_neg hn
    rw [Root.setUp_of_ok h, hchosen]
  · rcases h with h | h
    · exact Root.setUp_of_ok h root
    · exact Root.setUp_of_ok h root

/-- A word for a level in mixed case and between blanks, a word that names no level, and a digit in
a circle. -/
theorem setUp_environment_of_words :
    environmentLevel (some " dEbUg\t") = .ok (some 10) ∧
      Root.setUp none (some " dEbUg\t") {} = .ok (Root.ofLevel 10) ∧
      environmentLevel (some "loud") = .ok none ∧
      Root.setUp none (some "loud") {} = .ok (Root.ofLevel critical) ∧
      environmentLevel (some "①") = .error (.notDecimal ['①']) ∧
      Root.setUp none (some "①") {} = .error (.notDecimal ['①']) := by
  have hdebug : Asks (some " dEbUg\t") (some 10) := .word (by decide +kernel)
  have hloud : environmentLevel (some "loud") = .ok none := rfl
  have hcircle : Unreadable "①" (.notDecimal ['①']) :=
    ⟨by decide +kernel, .notDecimal (by decide +kernel) ⟨'①', by decide +kernel, by decide +kernel⟩⟩
  obtain ⟨hread, -, -, hset, -⟩ := setUp_environment (some " dEbUg\t") {}
  obtain ⟨-, -, -, -, hforget⟩ := setUp_environment (some "loud") {}
  obtain ⟨-, hfail, herror, -, -⟩ := setUp_environment (some "①") {}
  have hdebug := (hread _).mpr hdebug
  have hcircle := (hfail _).mpr ⟨_, rfl, hcircle⟩
  exact ⟨hdebug, hset 10 hdebug (by decide), hloud, hforget (.inl hloud), hcircle, herror _ hcircle⟩

/-- **The level zero is lost, and a superscript breaks the reader.** The word for no threshold and
the numeral zero are read as the level zero, and that of critical errors is set. -/
theorem setUp_forgets_zero :
    environmentLevel (some "NOTSET") = .ok (some 0) ∧
      Root.setUp none (some "NOTSET") {} = .ok (Root.ofLevel critical) ∧
      environmentLevel (some "0") = .ok (some 0) ∧
      Root.setUp none (some "0") {} = .ok (Root.ofLevel critical) ∧
      (Root.ofLevel critical).level ≠ 0 ∧
      environmentLevel (some "²") = .error (.notDecimal ['²']) :=
  ⟨rfl, rfl, rfl, rfl, by decide, rfl⟩

end Log

end Hocon
