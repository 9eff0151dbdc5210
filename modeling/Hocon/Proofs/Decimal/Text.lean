import Hocon.Decimal.Layout
import Hocon.Proofs.Decimal.Nearest
import Mathlib.Data.List.TakeWhile

/-!
# Reading decimal numbers

The inverse of `Hocon.DecimalLayout.write` for the numbers of a document. A number is written with
all its places or with an exponent, and in either case it *spells* a decimal
(`Hocon.Decimal.Spells`): the digits before and behind the point, read as one number, scaled by the
exponent and by the count of the places. The spelled decimal need not be the one that was written,
since zeros are filled up on either side, but it has the same value
(`Hocon.Decimal.exists_spells`), and so the same nearest double.

* `Hocon.Decimal.ofText` – the decimal that a text spells;
* `Hocon.Binary64.ofText` – the double that a text spells, with its sign;
* `Hocon.Binary64.ofText_write` – a finite double that is written reads back.
-/

namespace Hocon

/-! ### Digits -/

namespace Decimal

theorem isDigit_of_mem_digits {n : ℕ} {c : Char} (h : c ∈ DecimalLayout.digits n) :
    c.isDigit = true :=
  Nat.isDigit_of_mem_toDigits (by norm_num) (by norm_num) h

theorem digits_ne_nil (n : ℕ) : DecimalLayout.digits n ≠ [] := Nat.toDigits_ne_nil

theorem ofDigitChars_digits (n : ℕ) : Nat.ofDigitChars 10 (DecimalLayout.digits n) 0 = n :=
  Nat.ofDigitChars_ten_toDigits

/-- Zeros in front of digits make no difference. -/
theorem ofDigitChars_zeros (k : ℕ) (cs : List Char) :
    Nat.ofDigitChars 10 (List.replicate k '0' ++ cs) 0 = Nat.ofDigitChars 10 cs 0 := by
  rw [Nat.ofDigitChars_append, Nat.ofDigitChars_replicate_zero, Nat.mul_zero]

/-! ### What a text spells -/

/-- The exponent that is written behind the mark. -/
def readExponent : List Char → ℤ
  | '-' :: cs => -(Nat.ofDigitChars 10 cs 0 : ℤ)
  | '+' :: cs => Nat.ofDigitChars 10 cs 0
  | cs => Nat.ofDigitChars 10 cs 0

/-- The decimal that digits before and behind a point spell, scaled by an exponent. -/
def ofPlaces (whole places : List Char) (exponent : ℤ) : Decimal :=
  ⟨Nat.ofDigitChars 10 (whole ++ places) 0, exponent - places.length⟩

/-- What stands before a mark and what stands behind it; all and nothing if there is no mark. -/
def cutAt (mark : Char) (cs : List Char) : List Char × List Char :=
  (cs.takeWhile (· ≠ mark), (cs.dropWhile (· ≠ mark)).drop 1)

/-- **The decimal that a text spells.** -/
def ofText (cs : List Char) : Decimal :=
  let (mantissa, exponent) := cutAt 'e' cs
  let (whole, places) := cutAt '.' mantissa
  ofPlaces whole places (readExponent exponent)

theorem cutAt_append {mark : Char} {cs : List Char} (h : ∀ c ∈ cs, c ≠ mark) (rest : List Char) :
    cutAt mark (cs ++ mark :: rest) = (cs, rest) := by
  have h' : ∀ c ∈ cs, decide (c ≠ mark) = true := fun c hc => decide_eq_true (h c hc)
  rw [cutAt, List.takeWhile_append_of_pos h', List.dropWhile_append_of_pos h']
  simp

theorem cutAt_of_notMem {mark : Char} {cs : List Char} (h : ∀ c ∈ cs, c ≠ mark) :
    cutAt mark cs = (cs, []) := by
  have h' : ∀ c ∈ cs, decide (c ≠ mark) = true := fun c hc => decide_eq_true (h c hc)
  rw [cutAt, List.takeWhile_eq_self_iff.mpr h', List.dropWhile_eq_nil_iff.mpr h', List.drop_nil]

/-- No digit is a mark. -/
theorem ne_of_isDigit (mark : Char) (hmark : mark.isDigit = false) {cs : List Char}
    (h : ∀ c ∈ cs, c.isDigit = true) : ∀ c ∈ cs, c ≠ mark := by
  rintro c hc rfl
  exact absurd (h c hc) (by simp [hmark])

/-- The exponents of the numbers of a document. -/
def writeExponent (exponent : ℤ) : List Char :=
  documentLayout.writeExponent exponent

/-- **What spells a decimal**: digits with a point in between, digits with an exponent, or digits
with both. -/
inductive Spells : List Char → Decimal → Prop
  /-- All places are written. -/
  | positional (whole places : List Char) (hne : whole ≠ [])
      (hwhole : ∀ c ∈ whole, c.isDigit = true) (hplaces : ∀ c ∈ places, c.isDigit = true) :
      Spells (whole ++ '.' :: places) (ofPlaces whole places 0)
  /-- There are no places, but an exponent. -/
  | whole (whole : List Char) (hne : whole ≠ [])
      (hwhole : ∀ c ∈ whole, c.isDigit = true) (exponent : ℤ) :
      Spells (whole ++ 'e' :: writeExponent exponent) (ofPlaces whole [] exponent)
  /-- There are places and an exponent. -/
  | scientific (whole places : List Char) (hne : whole ≠ [])
      (hwhole : ∀ c ∈ whole, c.isDigit = true) (hplaces : ∀ c ∈ places, c.isDigit = true)
      (exponent : ℤ) :
      Spells (whole ++ '.' :: (places ++ 'e' :: writeExponent exponent))
        (ofPlaces whole places exponent)

/-- A written exponent reads back. -/
theorem readExponent_writeExponent (exponent : ℤ) :
    readExponent (writeExponent exponent) = exponent := by
  have hdigits : ∀ n : ℕ, Nat.ofDigitChars 10
      (List.replicate (2 - (DecimalLayout.digits n).length) '0' ++ DecimalLayout.digits n) 0 = n :=
    fun n => by rw [ofDigitChars_zeros, ofDigitChars_digits]
  have hplus : documentLayout.exponentPlus.toList = ['+'] := rfl
  rw [writeExponent, DecimalLayout.writeExponent, hplus]
  split_ifs with hneg
  · simp only [documentLayout, List.cons_append, List.nil_append, readExponent, hdigits]
    omega
  · simp only [documentLayout, List.cons_append, List.nil_append, readExponent, hdigits]
    omega

theorem mem_writeExponent {exponent : ℤ} {c : Char} (h : c ∈ writeExponent exponent) :
    c.isDigit = true ∨ c = '-' ∨ c = '+' := by
  have hplus : documentLayout.exponentPlus.toList = ['+'] := rfl
  rw [writeExponent, DecimalLayout.writeExponent, hplus] at h
  simp only [List.mem_append, List.mem_replicate] at h
  rcases h with (h | ⟨-, rfl⟩) | h
  · split_ifs at h
    · exact Or.inr (Or.inl (List.mem_singleton.mp h))
    · exact Or.inr (Or.inr (List.mem_singleton.mp h))
  · exact Or.inl (by decide)
  · exact Or.inl (isDigit_of_mem_digits h)

namespace Spells

variable {cs : List Char} {d : Decimal}

/-- A spelled decimal begins with a digit. -/
theorem exists_digit (h : Spells cs d) : ∃ c rest, cs = c :: rest ∧ c.isDigit = true := by
  have hfirst : ∀ {whole : List Char}, whole ≠ [] → (∀ c ∈ whole, c.isDigit = true) →
      ∀ more, ∃ c rest, whole ++ more = c :: rest ∧ c.isDigit = true := by
    intro whole hne hwhole more
    obtain ⟨c, rest, rfl⟩ := List.exists_cons_of_ne_nil hne
    exact ⟨c, _, rfl, hwhole c List.mem_cons_self⟩
  cases h with
  | positional whole places hne hwhole => exact hfirst hne hwhole _
  | whole whole hne hwhole => exact hfirst hne hwhole _
  | scientific whole places hne hwhole => exact hfirst hne hwhole _

/-- A spelled decimal holds a point or an exponent mark, so it is no integer. -/
theorem exists_mark (h : Spells cs d) : '.' ∈ cs ∨ 'e' ∈ cs := by
  cases h with
  | positional | scientific => exact Or.inl (by simp)
  | whole => exact Or.inr (by simp)

/-- The characters of a spelled decimal are digits, points, exponent marks and signs. -/
theorem mem (h : Spells cs d) {c : Char} (hc : c ∈ cs) :
    c.isDigit = true ∨ c ∈ ['.', 'e', '-', '+'] := by
  have hexponent : ∀ {x : ℤ}, c ∈ writeExponent x → c.isDigit = true ∨ c ∈ ['.', 'e', '-', '+'] :=
    fun hx => by rcases mem_writeExponent hx with h | rfl | rfl <;> simp [*]
  cases h with
  | positional whole places hne hwhole hplaces =>
    simp only [List.mem_append, List.mem_cons] at hc
    rcases hc with hc | rfl | hc
    · exact Or.inl (hwhole c hc)
    · simp
    · exact Or.inl (hplaces c hc)
  | whole whole hne hwhole exponent =>
    simp only [List.mem_append, List.mem_cons] at hc
    rcases hc with hc | rfl | hc
    · exact Or.inl (hwhole c hc)
    · simp
    · exact hexponent hc
  | scientific whole places hne hwhole hplaces exponent =>
    simp only [List.mem_append, List.mem_cons] at hc
    rcases hc with hc | rfl | hc | rfl | hc
    · exact Or.inl (hwhole c hc)
    · simp
    · exact Or.inl (hplaces c hc)
    · simp
    · exact hexponent hc

/-- **What spells a decimal reads as that decimal.** -/
theorem ofText_eq (h : Spells cs d) : ofText cs = d := by
  cases h with
  | positional whole places hne hwhole hplaces =>
    have hmantissa : ∀ c ∈ whole ++ '.' :: places, c ≠ 'e' := by
      intro c hc
      simp only [List.mem_append, List.mem_cons] at hc
      rcases hc with hc | rfl | hc
      · exact ne_of_isDigit 'e' (by decide) hwhole c hc
      · decide
      · exact ne_of_isDigit 'e' (by decide) hplaces c hc
    simp only [ofText, cutAt_of_notMem hmantissa,
      cutAt_append (ne_of_isDigit '.' (by decide) hwhole)]
    rfl
  | whole whole hne hwhole exponent =>
    simp only [ofText, cutAt_append (ne_of_isDigit 'e' (by decide) hwhole),
      cutAt_of_notMem (ne_of_isDigit '.' (by decide) hwhole), readExponent_writeExponent]
  | scientific whole places hne hwhole hplaces exponent =>
    have hmantissa : ∀ c ∈ whole ++ '.' :: places, c ≠ 'e' := by
      intro c hc
      simp only [List.mem_append, List.mem_cons] at hc
      rcases hc with hc | rfl | hc
      · exact ne_of_isDigit 'e' (by decide) hwhole c hc
      · decide
      · exact ne_of_isDigit 'e' (by decide) hplaces c hc
    have hsplit : whole ++ '.' :: (places ++ 'e' :: writeExponent exponent) =
        (whole ++ '.' :: places) ++ 'e' :: writeExponent exponent := by
      simp
    simp only [ofText, hsplit, cutAt_append hmantissa,
      cutAt_append (ne_of_isDigit '.' (by decide) hwhole), readExponent_writeExponent]

end Spells

/-! ### What is written spells a decimal of the same value -/

/-- How many digits of a decimal stand before its point. -/
def places (d : Decimal) : ℤ :=
  if d.digits = 0 then 1 else (DecimalLayout.digits d.digits).length + d.exponent

theorem places_of_digits_ne_zero {d : Decimal} (h : d.digits ≠ 0) :
    d.places = (DecimalLayout.digits d.digits).length + d.exponent := by
  rw [places, if_neg h]

theorem isDigit_of_mem_zeros {k : ℕ} {c : Char} (h : c ∈ List.replicate k '0') :
    c.isDigit = true := by
  rw [(List.mem_replicate.mp h).2]
  decide

/-- Digits with places behind the point spell the decimal they come from, when there are as many
places as its exponent asks for. -/
theorem ofPlaces_eq {d : Decimal} {whole places : List Char} {exponent : ℤ}
    (hdigits : Nat.ofDigitChars 10 (whole ++ places) 0 = d.digits)
    (hexponent : exponent - places.length = d.exponent) : ofPlaces whole places exponent = d := by
  rw [ofPlaces, hdigits, hexponent]

section Shapes

variable {d : Decimal}

/-- A small number is written behind `0.` and zeros. -/
theorem spells_small (hplaces : d.places ≤ 0) :
    Spells (['0', '.'] ++ List.replicate (-d.places).toNat '0' ++ DecimalLayout.digits d.digits)
      d := by
  have hzero : d.digits ≠ 0 := by
    intro hzero
    rw [places, if_pos hzero] at hplaces
    omega
  have hcount := places_of_digits_ne_zero hzero
  have heq : ofPlaces ['0'] (List.replicate (-d.places).toNat '0' ++
      DecimalLayout.digits d.digits) 0 = d := by
    refine ofPlaces_eq ?_ ?_
    · rw [← List.append_assoc, ← List.replicate_one, List.replicate_append_replicate,
        ofDigitChars_zeros, ofDigitChars_digits]
    · simp only [List.length_append, List.length_replicate]
      omega
  have hspells := Spells.positional ['0']
    (List.replicate (-d.places).toNat '0' ++ DecimalLayout.digits d.digits) (by simp)
    (List.forall_mem_singleton.mpr rfl) (by
      intro c hc
      rcases List.mem_append.mp hc with hc | hc
      · exact isDigit_of_mem_zeros hc
      · exact isDigit_of_mem_digits hc)
  rw [heq] at hspells
  simpa using hspells

/-- A whole number is written with zeros behind its digits, and one behind the point. -/
theorem spells_whole (hplaces : (DecimalLayout.digits d.digits).length ≤ d.places.toNat) :
    ∃ d', Spells (DecimalLayout.digits d.digits ++ List.replicate
      (d.places.toNat - (DecimalLayout.digits d.digits).length) '0' ++ ['.', '0']) d' ∧
      d'.value = d.value := by
  set zeros := d.places.toNat - (DecimalLayout.digits d.digits).length with hzeros
  refine ⟨ofPlaces (DecimalLayout.digits d.digits ++ List.replicate zeros '0') ['0'] 0, ?_, ?_⟩
  · refine Spells.positional _ _ (by simp [digits_ne_nil]) ?_ (List.forall_mem_singleton.mpr rfl)
    intro c hc
    rcases List.mem_append.mp hc with hc | hc
    · exact isDigit_of_mem_digits hc
    · exact isDigit_of_mem_zeros hc
  · -- the spelled decimal is another one: its digits end with zeros, and its exponent is minus one
    have hread : Nat.ofDigitChars 10 ((DecimalLayout.digits d.digits ++
        List.replicate zeros '0') ++ ['0']) 0 = 10 ^ (zeros + 1) * d.digits := by
      rw [List.append_assoc, ← List.replicate_one, List.replicate_append_replicate,
        Nat.ofDigitChars_append, ofDigitChars_digits, Nat.ofDigitChars_replicate_zero]
    rw [value, ofPlaces, hread, value]
    by_cases hzero : d.digits = 0
    · simp [hzero]
    · have hexponent : d.exponent = zeros := by
        have hcount := places_of_digits_ne_zero hzero
        have hpos := List.length_pos_of_ne_nil (digits_ne_nil d.digits)
        omega
      rw [hexponent]
      push_cast
      rw [zpow_natCast, pow_succ]
      norm_num
      ring

/-- Any other number without an exponent is written with its digits around the point. -/
theorem spells_split (hpos : 0 < d.places)
    (hplaces : d.places.toNat < (DecimalLayout.digits d.digits).length) :
    Spells ((DecimalLayout.digits d.digits).take d.places.toNat ++ ['.'] ++
      (DecimalLayout.digits d.digits).drop d.places.toNat) d := by
  have hzero : d.digits ≠ 0 := by
    intro hzero
    rw [places, if_pos hzero, hzero] at hplaces
    exact absurd hplaces (by decide)
  have hcount := places_of_digits_ne_zero hzero
  have heq : ofPlaces ((DecimalLayout.digits d.digits).take d.places.toNat)
      ((DecimalLayout.digits d.digits).drop d.places.toNat) 0 = d := by
    refine ofPlaces_eq ?_ ?_
    · rw [List.take_append_drop, ofDigitChars_digits]
    · rw [List.length_drop]
      omega
  have hspells := Spells.positional
    ((DecimalLayout.digits d.digits).take d.places.toNat)
    ((DecimalLayout.digits d.digits).drop d.places.toNat)
    (by
      rw [ne_eq, List.take_eq_nil_iff, not_or]
      exact ⟨by omega, digits_ne_nil _⟩)
    (fun c hc => isDigit_of_mem_digits (List.mem_of_mem_take hc))
    (fun c hc => isDigit_of_mem_digits (List.mem_of_mem_drop hc))
  rw [heq] at hspells
  simpa using hspells

/-- With an exponent, one digit stands before the point. -/
theorem spells_scientific (hzero : d.digits ≠ 0) :
    Spells ((match DecimalLayout.digits d.digits with
      | [] => []
      | [c] => [c]
      | c :: rest => c :: '.' :: rest) ++ ['e'] ++ writeExponent (d.places - 1)) d := by
  have hcount := places_of_digits_ne_zero hzero
  have hdigits : ∀ c ∈ DecimalLayout.digits d.digits, c.isDigit = true :=
    fun c hc => isDigit_of_mem_digits hc
  have hread := ofDigitChars_digits d.digits
  cases hds : DecimalLayout.digits d.digits with
  | nil => exact absurd hds (digits_ne_nil _)
  | cons c rest =>
    rw [hds] at hcount hdigits hread
    cases rest with
    | nil =>
      have heq : ofPlaces [c] [] (d.places - 1) = d := by
        refine ofPlaces_eq (by simpa using hread) ?_
        simp only [List.length_singleton, List.length_nil] at *
        omega
      have hspells := Spells.whole [c] (by simp) hdigits (d.places - 1)
      rw [heq] at hspells
      simpa using hspells
    | cons c' rest =>
      have heq : ofPlaces [c] (c' :: rest) (d.places - 1) = d := by
        refine ofPlaces_eq (by simpa using hread) ?_
        simp only [List.length_cons] at *
        omega
      have hspells := Spells.scientific [c] (c' :: rest) (by simp)
        (fun x hx => hdigits x (by simp [List.mem_singleton.mp hx]))
        (fun x hx => hdigits x (List.mem_cons_of_mem _ hx)) (d.places - 1)
      rw [heq] at hspells
      simpa using hspells

end Shapes

/-- **A decimal is written as a spelling of a decimal with the same value.** -/
theorem exists_spells (d : Decimal) :
    ∃ d', Spells (documentLayout.writeDecimal d) d' ∧ d'.value = d.value := by
  have hunfold : documentLayout.writeDecimal d =
      if -3 ≤ d.places ∧ d.places ≤ 16 then
        if d.places ≤ 0 then
          ['0', '.'] ++ List.replicate (-d.places).toNat '0' ++ DecimalLayout.digits d.digits
        else if (DecimalLayout.digits d.digits).length ≤ d.places.toNat then
          DecimalLayout.digits d.digits ++ List.replicate
            (d.places.toNat - (DecimalLayout.digits d.digits).length) '0' ++ ['.', '0']
        else
          (DecimalLayout.digits d.digits).take d.places.toNat ++ ['.'] ++
            (DecimalLayout.digits d.digits).drop d.places.toNat
      else
        (match DecimalLayout.digits d.digits with
          | [] => []
          | [c] => [c]
          | c :: rest => c :: '.' :: rest) ++ ['e'] ++ writeExponent (d.places - 1) := rfl
  rw [hunfold]
  -- one case for each shape of a number; in the last one the decimal is not zero, since zero is
  -- written with all its places
  split_ifs with hpositional hsmall hwhole
  · exact ⟨d, spells_small hsmall, rfl⟩
  · exact spells_whole hwhole
  · exact ⟨d, spells_split (by omega) (by omega), rfl⟩
  · refine ⟨d, spells_scientific fun hzero => hpositional ?_, rfl⟩
    rw [places, if_pos hzero]
    omega

end Decimal

/-! ### Doubles -/

namespace Binary64

theorem unsigned_of_not_isNegative {bits : UInt64} (h : isNegative bits = false) :
    unsigned bits = bits := by
  have hlt : bits.toNat < 2 ^ 64 := bits.toNat_lt
  have hsign : ¬bits.toNat / 2 ^ 63 = 1 := by simpa [isNegative] using h
  refine UInt64.toNat_inj.mp ?_
  rw [toNat_unsigned]
  omega

theorem negate_unsigned {bits : UInt64} (h : isNegative bits = true) :
    negate (unsigned bits) = bits := by
  have hlt : bits.toNat < 2 ^ 64 := bits.toNat_lt
  have hsign : bits.toNat / 2 ^ 63 = 1 := by simpa [isNegative] using h
  have hrest : bits.toNat % 2 ^ 63 < 2 ^ 63 := Nat.mod_lt _ (Nat.two_pow_pos 63)
  refine UInt64.toNat_inj.mp ?_
  have hor : (negate (unsigned bits)).toNat = 2 ^ 63 * 1 + bits.toNat % 2 ^ 63 := by
    rw [Nat.two_pow_add_eq_or_of_lt hrest, Nat.or_comm, ← toNat_unsigned]
    exact UInt64.toNat_or (unsigned bits) 0x8000000000000000
  rw [hor]
  omega

/-- **The double that a text spells.** -/
def ofText : List Char → UInt64
  | '-' :: cs => negate (Decimal.ofText cs).toBinary64
  | cs => (Decimal.ofText cs).toBinary64

/-- A finite double is written as its sign and a spelling of its shortest decimal. -/
theorem exists_spells {bits : UInt64} (hf : isFinite bits = true) :
    ∃ cs d, Decimal.Spells cs d ∧ d.toBinary64 = unsigned bits ∧
      Decimal.documentLayout.write bits = (if isNegative bits then ['-'] else []) ++ cs := by
  obtain ⟨d, hspells, hvalue⟩ := (Decimal.shortest bits).exists_spells
  refine ⟨_, d, hspells, ?_, ?_⟩
  · rw [Decimal.toBinary64_congr hvalue, Decimal.toBinary64_shortest hf]
  · have hnan : isNaN bits = false := by
      have : biasedExponent bits < 2047 := by simpa [isFinite] using hf
      simp only [isNaN, Bool.and_eq_false_iff, decide_eq_false_iff_not]
      omega
    rw [DecimalLayout.write, hnan, hf]
    rfl

/-- **A finite double that is written reads back.** -/
theorem ofText_write {bits : UInt64} (hf : isFinite bits = true) :
    ofText (Decimal.documentLayout.write bits) = bits := by
  obtain ⟨cs, d, hspells, hd, hwrite⟩ := exists_spells hf
  rw [hwrite]
  cases hsign : isNegative bits with
  | true =>
    simp only [if_true, List.singleton_append, ofText, hspells.ofText_eq, hd]
    exact negate_unsigned hsign
  | false =>
    obtain ⟨c, rest, rfl, hc⟩ := hspells.exists_digit
    have hminus : c ≠ '-' := by rintro rfl; exact absurd hc (by decide)
    have hread : ofText (c :: rest) = (Decimal.ofText (c :: rest)).toBinary64 := by
      rw [ofText]
      simpa using hminus
    simp only [Bool.false_eq_true, if_false, List.nil_append, hread, hspells.ofText_eq, hd]
    exact unsigned_of_not_isNegative hsign

end Binary64

end Hocon
