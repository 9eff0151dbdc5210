import Hocon.Decimal.Shortest
import Mathlib.Algebra.Order.Field.Power
import Mathlib.Data.Rat.Cast.Order
import Mathlib.Tactic.FieldSimp
import Mathlib.Tactic.Linarith
import Mathlib.Tactic.NormNum
import Mathlib.Tactic.Positivity
import Mathlib.Tactic.Ring

/-!
# The nearest double

What `Hocon.Decimal.toBinary64` computes depends on nothing but the *value* of a decimal, and a
decimal with the value of a double is rounded to that double. Together these say that the shortest
decimal of a double reads back as the double (`Hocon.Decimal.toBinary64_shortest`), however it is
written.

The computation rounds a quotient on a grid `2 ^ e` that it guesses from the lengths of numerator
and denominator, and the guess depends on how the quotient is written. The way around this is to
say which exponents are good enough (`Hocon.Admissible`): the quotient has at most 53 bits on the
grid, and it has at least 53 unless the grid is the finest there is. A quotient may have two
admissible exponents, next to each other, when it is about to carry into the next binade; both
give the same bits (`Hocon.gridCode_eq`). So the bits are those of any admissible exponent, and
which of them was guessed does not matter.
-/

namespace Hocon

/-! ### Rounding a quotient -/

section Round

variable {n d n' d' m : ℕ}

theorem le_roundToEven (hd : 0 < d) (h : (m : ℚ) ≤ n / d) : m ≤ roundToEven n d := by
  have hm : m ≤ n / d := by
    rw [le_div_iff₀ (by exact_mod_cast hd)] at h
    exact (Nat.le_div_iff_mul_le hd).mpr (by exact_mod_cast h)
  unfold roundToEven
  dsimp only
  split_ifs <;> omega

theorem roundToEven_le (hd : 0 < d) (h : (n / d : ℚ) < m + 1 / 2) : roundToEven n d ≤ m := by
  have hm : 2 * n < (2 * m + 1) * d := by
    rw [div_lt_iff₀ (by exact_mod_cast hd)] at h
    have : (2 * n : ℚ) < (2 * m + 1) * d := by linarith
    exact_mod_cast this
  have hsplit := Nat.div_add_mod n d
  rcases Nat.lt_or_ge (n / d) m with hlt | hge
  · unfold roundToEven
    dsimp only
    split_ifs <;> omega
  · -- the quotient is `m` and less than half of the denominator is left
    have hmul : d * m ≤ d * (n / d) := Nat.mul_le_mul_left d hge
    have hexpand : (2 * m + 1) * d = 2 * (d * m) + d := by ring
    have hquot : n / d ≤ m := by
      by_contra hc
      have : d * (m + 1) ≤ d * (n / d) := Nat.mul_le_mul_left d (by omega)
      rw [Nat.mul_add, Nat.mul_one] at this
      omega
    unfold roundToEven
    dsimp only
    rw [if_pos (by omega)]
    exact hquot

/-- Rounding is the same for two spellings of a quotient. -/
theorem roundToEven_congr (hd : 0 < d) (hd' : 0 < d') (h : (n / d : ℚ) = n' / d') :
    roundToEven n d = roundToEven n' d' := by
  have hcross : n * d' = n' * d := by
    rw [div_eq_div_iff (by positivity) (by positivity)] at h
    exact_mod_cast h
  have hscale : ∀ {a b k : ℕ}, 0 < k → roundToEven (a * k) (b * k) = roundToEven a b := by
    intro a b k hk
    unfold roundToEven
    dsimp only
    rw [Nat.mul_div_mul_right a b hk, Nat.mul_mod_mul_right, ← Nat.mul_assoc]
    simp only [Nat.mul_lt_mul_right hk]
  rw [← hscale hd', hcross, Nat.mul_comm d d', hscale hd]

end Round

/-! ### Grids -/

/-- The quotient `n / d` rounded on the grid `2 ^ e`. -/
def gridPoint (n d : ℕ) (e : ℤ) : ℕ :=
  roundToEven (n * Nat.pow 2 (-e).toNat) (d * Nat.pow 2 e.toNat)

/-- The bits that a quotient has on the grid `2 ^ e`, read as a number. -/
def gridCode (n d : ℕ) (e : ℤ) : ℕ :=
  (e + 1074).toNat * Nat.pow 2 52 + gridPoint n d e

/-- **A grid that is good enough for a quotient**: it has at most 53 bits there, and at least 53
unless the grid is the finest one. -/
structure Admissible (n d : ℕ) (e : ℤ) : Prop where
  /-- The grid is one of those there are. -/
  ge : -1074 ≤ e
  /-- The quotient does not lose bits on the grid. -/
  fine : e = -1074 ∨ (2 : ℚ) ^ 52 ≤ n / d / 2 ^ e
  /-- The quotient fits on the grid. -/
  fits : gridPoint n d e ≤ 2 ^ 53

section Grid

variable {n d n' d' : ℕ} {e e' : ℤ}

theorem grid_ratio (n d : ℕ) (e : ℤ) :
    ((n * Nat.pow 2 (-e).toNat : ℕ) : ℚ) / ((d * Nat.pow 2 e.toNat : ℕ) : ℚ) = n / d / 2 ^ e := by
  have hpow : (2 : ℚ) ^ e * 2 ^ (-e).toNat = 2 ^ e.toNat := by
    rw [← zpow_natCast, ← zpow_natCast (2 : ℚ) e.toNat, ← zpow_add₀ (by norm_num)]
    congr 1
    omega
  simp only [Nat.pow_eq]
  push_cast
  rw [← hpow]
  field_simp

theorem grid_den_pos (hd : 0 < d) (e : ℤ) : 0 < d * Nat.pow 2 e.toNat :=
  Nat.mul_pos hd (Nat.two_pow_pos _)

theorem le_gridPoint (hd : 0 < d) {m : ℕ} (h : (m : ℚ) ≤ n / d / 2 ^ e) :
    m ≤ gridPoint n d e :=
  le_roundToEven (grid_den_pos hd e) (by rwa [grid_ratio])

theorem gridPoint_le (hd : 0 < d) {m : ℕ} (h : (n / d / 2 ^ e : ℚ) < m + 1 / 2) :
    gridPoint n d e ≤ m :=
  roundToEven_le (grid_den_pos hd e) (by rwa [grid_ratio])

theorem gridPoint_congr (hd : 0 < d) (hd' : 0 < d') (h : (n / d : ℚ) = n' / d') (e : ℤ) :
    gridPoint n d e = gridPoint n' d' e :=
  roundToEven_congr (grid_den_pos hd e) (grid_den_pos hd' e) (by rw [grid_ratio, grid_ratio, h])

/-- Going to the next grid but one halves the quotient twice. -/
theorem grid_add (q : ℚ) (e : ℤ) (k : ℕ) : q / 2 ^ e = 2 ^ k * (q / 2 ^ (e + k)) := by
  rw [zpow_add₀ (by norm_num), zpow_natCast]
  field_simp

/-- A quotient beyond `2 ^ 53 + 1` does not fit. -/
theorem lt_of_fits (hd : 0 < d) (h : gridPoint n d e ≤ 2 ^ 53) :
    (n / d / 2 ^ e : ℚ) < 2 ^ 53 + 1 := by
  by_contra hc
  have := le_gridPoint (n := n) (e := e) hd (m := 2 ^ 53 + 1) (by push_cast; linarith)
  omega

/-- **Two admissible grids give the same bits.** -/
theorem gridCode_eq (hd : 0 < d) (h : Admissible n d e) (h' : Admissible n d e') :
    gridCode n d e = gridCode n d e' := by
  wlog hle : e ≤ e' generalizing e e'
  · exact (this h' h (by omega)).symm
  rcases hle.eq_or_lt with rfl | hlt
  · rfl
  have hge := h.ge
  obtain ⟨k, rfl⟩ : ∃ k : ℕ, e' = e + k := ⟨(e' - e).toNat, by omega⟩
  have hfine : (2 : ℚ) ^ 52 ≤ n / d / 2 ^ (e + k) := h'.fine.resolve_left (by omega)
  have hscale := grid_add (n / d : ℚ) e k
  have hupper := lt_of_fits hd h.fits
  -- the quotient is at least `2 ^ 52` on the coarser grid and less than `2 ^ 53 + 1` on the finer
  -- one, so the grids are neighbours
  have hk : k = 1 := by
    by_contra hne
    have hpow : (2 : ℚ) ^ 2 ≤ 2 ^ k := pow_le_pow_right₀ (by norm_num) (by omega)
    have : (2 : ℚ) ^ 2 * 2 ^ 52 ≤ n / d / 2 ^ e := by
      rw [hscale]
      exact mul_le_mul hpow hfine (by positivity) (by positivity)
    norm_num at this hupper
    linarith
  subst hk
  have hlower : ((2 ^ 53 : ℕ) : ℚ) ≤ n / d / 2 ^ e := by
    rw [hscale]
    push_cast
    linarith
  have hupper' : (n / d / 2 ^ (e + (1 : ℕ)) : ℚ) < ((2 ^ 52 : ℕ) : ℚ) + 1 / 2 := by
    rw [hscale] at hupper
    push_cast
    linarith
  have hpoint : gridPoint n d e = 2 ^ 53 := le_antisymm h.fits (le_gridPoint hd hlower)
  have hpoint' : gridPoint n d (e + (1 : ℕ)) = 2 ^ 52 :=
    le_antisymm (gridPoint_le hd hupper') (le_gridPoint hd (by exact_mod_cast hfine))
  have hstep : (e + (1 : ℕ) + 1074).toNat = (e + 1074).toNat + 1 := by omega
  rw [gridCode, gridCode, hpoint, hpoint', hstep, Nat.pow_eq]
  ring

/-- Whether a grid is admissible depends on the value of the quotient only. -/
theorem Admissible.congr (hd : 0 < d) (hd' : 0 < d') (hq : (n / d : ℚ) = n' / d')
    (h : Admissible n d e) : Admissible n' d' e where
  ge := h.ge
  fine := by rw [← hq]; exact h.fine
  fits := by rw [← gridPoint_congr hd hd' hq]; exact h.fits

theorem gridCode_congr (hd : 0 < d) (hd' : 0 < d') (hq : (n / d : ℚ) = n' / d') (e : ℤ) :
    gridCode n d e = gridCode n' d' e := by
  rw [gridCode, gridCode, gridPoint_congr hd hd' hq]

/-! ### The nearest double of a quotient -/

/-- The bits with a given number, or those of infinity if there are none. -/
def bitsOfCode (code : ℕ) : UInt64 :=
  if code < Binary64.infinity.toNat then UInt64.ofNat code else Binary64.infinity

theorem two_zpow_log2_le {n : ℕ} (hn : n ≠ 0) : (2 : ℚ) ^ (n.log2 : ℤ) ≤ n := by
  rw [zpow_natCast]
  exact_mod_cast Nat.log2_self_le hn

theorem lt_two_zpow_log2 (n : ℕ) : (n : ℚ) < 2 ^ ((n.log2 : ℤ) + 1) := by
  have h := Nat.lt_log2_self (n := n)
  exact_mod_cast h

/-- The bit lengths of two numbers bound their quotient from below. -/
theorem two_zpow_lt_div (hn : n ≠ 0) (hd : d ≠ 0) :
    (2 : ℚ) ^ ((n.log2 : ℤ) - d.log2 - 1) < n / d := by
  have hdpos : (0 : ℚ) < d := by exact_mod_cast Nat.pos_of_ne_zero hd
  rw [lt_div_iff₀ hdpos]
  calc (2 : ℚ) ^ ((n.log2 : ℤ) - d.log2 - 1) * d
      < 2 ^ ((n.log2 : ℤ) - d.log2 - 1) * 2 ^ ((d.log2 : ℤ) + 1) :=
        mul_lt_mul_of_pos_left (lt_two_zpow_log2 d) (by positivity)
    _ = 2 ^ (n.log2 : ℤ) := by
        rw [← zpow_add₀ (by norm_num)]
        congr 1
        omega
    _ ≤ n := two_zpow_log2_le hn

/-- The bit lengths of two numbers bound their quotient from above. -/
theorem div_lt_two_zpow (n : ℕ) (hd : d ≠ 0) :
    (n / d : ℚ) < 2 ^ ((n.log2 : ℤ) - d.log2 + 1) := by
  have hdpos : (0 : ℚ) < d := by exact_mod_cast Nat.pos_of_ne_zero hd
  rw [div_lt_iff₀ hdpos]
  calc (n : ℚ) < 2 ^ ((n.log2 : ℤ) + 1) := lt_two_zpow_log2 n
    _ = 2 ^ ((n.log2 : ℤ) - d.log2 + 1) * 2 ^ (d.log2 : ℤ) := by
        rw [← zpow_add₀ (by norm_num)]
        congr 1
        omega
    _ ≤ 2 ^ ((n.log2 : ℤ) - d.log2 + 1) * d :=
        mul_le_mul_of_nonneg_left (two_zpow_log2_le hd) (by positivity)

/-- **The guess is good**: the bits that are computed for a quotient are those of an admissible
grid. -/
theorem exists_admissible (hn : n ≠ 0) (hd : d ≠ 0) :
    ∃ e, Admissible n d e ∧ nearestBinary64 n d = bitsOfCode (gridCode n d e) := by
  have hlower := two_zpow_lt_div hn hd
  have hupper := div_lt_two_zpow n hd
  set length : ℤ := (n.log2 : ℤ) - d.log2 with hlength
  set e := max (length - 53) (-1074) with he
  have hfine : e = -1074 ∨ (2 : ℚ) ^ 52 ≤ n / d / 2 ^ e := by
    rcases le_total (length - 53) (-1074) with hle | hle
    · exact Or.inl (max_eq_right hle)
    · refine Or.inr ?_
      rw [le_div_iff₀ (by positivity), ← zpow_natCast, ← zpow_add₀ (by norm_num)]
      refine le_trans (le_of_eq ?_) hlower.le
      congr 1
      omega
  have hnearest : nearestBinary64 n d =
      bitsOfCode (gridCode n d (if gridPoint n d e ≤ Nat.pow 2 53 then e else e + 1)) := by
    rw [nearestBinary64, if_neg hn]
    rfl
  by_cases hfits : gridPoint n d e ≤ 2 ^ 53
  · refine ⟨e, ⟨by omega, hfine, hfits⟩, ?_⟩
    rw [hnearest, if_pos (by rwa [Nat.pow_eq])]
  · -- the guess is too fine by one bit at most, so the next grid is admissible
    have hscale := grid_add (n / d : ℚ) e 1
    have hlarge : (2 : ℚ) ^ 53 ≤ n / d / 2 ^ e := by
      by_contra hc
      refine hfits (gridPoint_le (Nat.pos_of_ne_zero hd) ?_)
      push_cast
      linarith
    have hsmall : (n / d / 2 ^ (e + (1 : ℕ)) : ℚ) < 2 ^ 53 := by
      rw [div_lt_iff₀ (by positivity), ← zpow_natCast, ← zpow_add₀ (by norm_num)]
      refine hupper.trans_le (zpow_le_zpow_right₀ (by norm_num) ?_)
      omega
    refine ⟨e + (1 : ℕ), ⟨by omega, Or.inr ?_, ?_⟩, ?_⟩
    · rw [hscale] at hlarge
      linarith
    · refine gridPoint_le (Nat.pos_of_ne_zero hd) ?_
      push_cast
      linarith
    · rw [hnearest, if_neg (by rwa [Nat.pow_eq])]
      rfl

/-- The bits that are computed for a quotient are those of every admissible grid. -/
theorem nearestBinary64_eq (hn : n ≠ 0) (hd : d ≠ 0) (h : Admissible n d e) :
    nearestBinary64 n d = bitsOfCode (gridCode n d e) := by
  obtain ⟨e', he', hnearest⟩ := exists_admissible hn hd
  rw [hnearest, gridCode_eq (Nat.pos_of_ne_zero hd) he' h]

/-- **The nearest double depends on the value of a quotient only.** -/
theorem nearestBinary64_congr (hn : n ≠ 0) (hn' : n' ≠ 0) (hd : d ≠ 0) (hd' : d' ≠ 0)
    (hq : (n / d : ℚ) = n' / d') : nearestBinary64 n d = nearestBinary64 n' d' := by
  obtain ⟨e, he, hnearest⟩ := exists_admissible hn hd
  have hpos := Nat.pos_of_ne_zero hd
  have hpos' := Nat.pos_of_ne_zero hd'
  rw [hnearest, gridCode_congr hpos hpos' hq,
    nearestBinary64_eq hn' hd' (he.congr hpos hpos' hq)]

end Grid

/-! ### Values -/

/-- The number that a decimal stands for. -/
def Decimal.value (d : Decimal) : ℚ := d.digits * 10 ^ d.exponent

/-- The number that a dyadic stands for. -/
def Dyadic.value (x : Dyadic) : ℚ := x.significand * 2 ^ x.exponent

namespace Decimal

variable {d d' : Decimal}

theorem value_eq_div (d : Decimal) :
    d.value = ((d.digits * Nat.pow 10 d.exponent.toNat : ℕ) : ℚ) /
      ((Nat.pow 10 (-d.exponent).toNat : ℕ) : ℚ) := by
  have hpow : (10 : ℚ) ^ d.exponent * 10 ^ (-d.exponent).toNat = 10 ^ d.exponent.toNat := by
    rw [← zpow_natCast, ← zpow_natCast (10 : ℚ) d.exponent.toNat, ← zpow_add₀ (by norm_num)]
    congr 1
    omega
  simp only [Nat.pow_eq]
  push_cast
  rw [← hpow, value]
  field_simp

theorem value_eq_zero_iff : d.value = 0 ↔ d.digits = 0 := by
  rw [value, mul_eq_zero, or_iff_left (zpow_ne_zero _ (by norm_num)), Nat.cast_eq_zero]

/-- **Decimals with one value have one nearest double.** -/
theorem toBinary64_congr (h : d.value = d'.value) : d.toBinary64 = d'.toBinary64 := by
  have hpos : ∀ k, Nat.pow 10 k ≠ 0 := fun k => (Nat.pow_pos (by norm_num)).ne'
  by_cases hzero : d.digits = 0
  · have hzero' : d'.digits = 0 := by
      rwa [← value_eq_zero_iff, ← h, value_eq_zero_iff]
    simp [toBinary64, nearestBinary64, hzero, hzero']
  · have hzero' : d'.digits ≠ 0 := by
      rwa [ne_eq, ← value_eq_zero_iff, ← h, value_eq_zero_iff]
    rw [value_eq_div, value_eq_div] at h
    exact nearestBinary64_congr (Nat.mul_ne_zero hzero (hpos _)) (Nat.mul_ne_zero hzero' (hpos _))
      (hpos _) (hpos _) h

/-- The zeros that end the digits make no difference. -/
theorem value_dropZeros (fuel : ℕ) (d : Decimal) : (d.dropZeros fuel).value = d.value := by
  induction fuel generalizing d with
  | zero => rfl
  | succ fuel ih =>
    rw [dropZeros]
    split_ifs with hzero
    · rw [ih]
      have hdigits : d.digits = d.digits / 10 * 10 := by omega
      rw [value, value]
      conv_rhs => rw [hdigits]
      rw [zpow_add₀ (by norm_num)]
      push_cast
      ring
    · rfl

end Decimal

theorem Dyadic.value_toDecimal (x : Dyadic) : x.toDecimal.value = x.value := by
  rw [toDecimal]
  split_ifs with hexponent
  · obtain ⟨k, hk⟩ := Int.eq_ofNat_of_zero_le hexponent
    simp only [Decimal.value, value, hk, Nat.pow_eq]
    push_cast
    simp
  · obtain ⟨k, hk⟩ : ∃ k : ℕ, x.exponent = -(k : ℤ) := ⟨(-x.exponent).toNat, by omega⟩
    have hpow : (10 : ℚ) ^ k = 5 ^ k * 2 ^ k := by rw [← mul_pow]; norm_num
    simp only [Decimal.value, value, hk, Nat.pow_eq, neg_neg, Int.toNat_natCast, zpow_neg,
      zpow_natCast]
    push_cast
    rw [hpow]
    field_simp

/-! ### Doubles -/

namespace Binary64

variable {bits : UInt64}

/-- The bits without the sign, cut into exponent and fraction. -/
theorem toNat_eq_of_lt (h : bits.toNat < 2 ^ 63) :
    bits.toNat = biasedExponent bits * 2 ^ 52 + fraction bits := by
  simp only [biasedExponent, fraction, Nat.pow_eq]
  omega

theorem fraction_lt (bits : UInt64) : fraction bits < 2 ^ 52 :=
  Nat.mod_lt _ (Nat.two_pow_pos 52)

/-- The exact value of a double lies on an admissible grid, with the bits of the double. -/
theorem admissible_magnitude (hf : isFinite bits = true) (hsign : bits.toNat < 2 ^ 63) {n d : ℕ}
    (hd : 0 < d) (hq : (n / d : ℚ) = (magnitude bits).value) :
    Admissible n d (magnitude bits).exponent ∧
      gridCode n d (magnitude bits).exponent = bits.toNat := by
  have hsplit := toNat_eq_of_lt hsign
  have hfraction := fraction_lt bits
  have hbiased : biasedExponent bits < 2047 := by simpa [isFinite] using hf
  have hgrid : (n / d / 2 ^ (magnitude bits).exponent : ℚ) = (magnitude bits).significand := by
    rw [hq, Dyadic.value]
    field_simp
  have hpoint : gridPoint n d (magnitude bits).exponent = (magnitude bits).significand :=
    le_antisymm (gridPoint_le hd (by rw [hgrid]; linarith)) (le_gridPoint hd hgrid.ge)
  by_cases hzero : biasedExponent bits = 0
  · have hmagnitude : magnitude bits = ⟨fraction bits, -1074⟩ := by rw [magnitude, if_pos hzero]
    rw [hmagnitude] at hpoint ⊢
    simp only at hpoint ⊢
    refine ⟨⟨le_rfl, Or.inl rfl, by omega⟩, ?_⟩
    rw [gridCode, hpoint, hsplit, hzero]
    simp
  · have hmagnitude : magnitude bits =
        ⟨fraction bits + Nat.pow 2 52, (biasedExponent bits : ℤ) - 1075⟩ := by
      rw [magnitude, if_neg hzero]
    rw [hmagnitude] at hpoint hgrid ⊢
    simp only [Nat.pow_eq] at hpoint hgrid ⊢
    refine ⟨⟨by omega, Or.inr ?_, by omega⟩, ?_⟩
    · rw [hgrid]
      exact_mod_cast Nat.le_add_left (2 ^ 52) (fraction bits)
    · rw [gridCode, hpoint, hsplit, Nat.pow_eq]
      have hexponent :
          ((biasedExponent bits : ℤ) - 1075 + 1074).toNat + 1 = biasedExponent bits := by
        omega
      omega

/-- **A decimal with the value of a double is rounded to the double.** -/
theorem toBinary64_of_value_eq (hf : isFinite bits = true) (hsign : bits.toNat < 2 ^ 63)
    (hsignificand : (magnitude bits).significand ≠ 0) {d : Decimal}
    (h : d.value = (magnitude bits).value) : d.toBinary64 = bits := by
  have hdigits : d.digits ≠ 0 := by
    rw [ne_eq, ← Decimal.value_eq_zero_iff, h, Dyadic.value, mul_eq_zero, not_or]
    exact ⟨by exact_mod_cast hsignificand, zpow_ne_zero _ (by norm_num)⟩
  have hpos : ∀ k, Nat.pow 10 k ≠ 0 := fun k => (Nat.pow_pos (by norm_num)).ne'
  have hadmissible := admissible_magnitude hf hsign
    (Nat.pos_of_ne_zero (hpos (-d.exponent).toNat)) (d.value_eq_div.symm.trans h)
  rw [Decimal.toBinary64, nearestBinary64_eq (Nat.mul_ne_zero hdigits (hpos _)) (hpos _)
    hadmissible.1, hadmissible.2, bitsOfCode]
  have hsplit := toNat_eq_of_lt hsign
  have hfraction := fraction_lt bits
  have hbiased : biasedExponent bits < 2047 := by simpa [isFinite] using hf
  have hinfinity : infinity.toNat = 2047 * 2 ^ 52 := rfl
  rw [if_pos (by omega), UInt64.ofNat_toNat]

theorem eq_zero_of_significand (hsign : bits.toNat < 2 ^ 63)
    (h : (magnitude bits).significand = 0) : bits = 0 := by
  have hsplit := toNat_eq_of_lt hsign
  by_cases hbiased : biasedExponent bits = 0
  · rw [magnitude, if_pos hbiased] at h
    refine UInt64.toNat_inj.mp ?_
    rw [hsplit, hbiased, Nat.zero_mul, Nat.zero_add]
    exact h
  · rw [magnitude, if_neg hbiased, Nat.pow_eq] at h
    have hsum : fraction bits + 2 ^ 52 = 0 := h
    exact absurd hsum (Nat.ne_of_gt (Nat.add_pos_right _ (Nat.two_pow_pos 52)))

/-- A double without its sign. -/
def unsigned (bits : UInt64) : UInt64 := bits &&& 0x7FFFFFFFFFFFFFFF

theorem toNat_unsigned (bits : UInt64) : (unsigned bits).toNat = bits.toNat % 2 ^ 63 := by
  rw [unsigned, UInt64.toNat_and]
  exact Nat.and_two_pow_sub_one_eq_mod bits.toNat 63

theorem isFinite_unsigned (bits : UInt64) : isFinite (unsigned bits) = isFinite bits := by
  have h : biasedExponent (unsigned bits) = biasedExponent bits := by
    simp only [biasedExponent, toNat_unsigned, Nat.pow_eq]
    omega
  rw [isFinite, h, isFinite]

end Binary64

/-- **The shortest decimal of a double reads back as the double**, but for its sign. -/
theorem Decimal.toBinary64_shortest {bits : UInt64} (hf : Binary64.isFinite bits = true) :
    (Decimal.shortest bits).toBinary64 = Binary64.unsigned bits := by
  have hf' := (Binary64.isFinite_unsigned bits).trans hf
  have hsign : (Binary64.unsigned bits).toNat < 2 ^ 63 := by
    rw [Binary64.toNat_unsigned]
    exact Nat.mod_lt _ (by norm_num)
  have hshortest : shortest bits =
      if (Binary64.magnitude (Binary64.unsigned bits)).significand = 0 then ⟨0, 0⟩
      else
        let d := (candidate? (Binary64.unsigned bits)
          (Binary64.magnitude (Binary64.unsigned bits)) 17).getD
          (Binary64.magnitude (Binary64.unsigned bits)).toDecimal
        d.dropZeros (decimalLength d.digits) := rfl
  rw [hshortest]
  split_ifs with hzero
  · rw [Binary64.eq_zero_of_significand hsign hzero]
    rfl
  · rw [toBinary64_congr (value_dropZeros _ _)]
    cases hcandidate : candidate? (Binary64.unsigned bits)
        (Binary64.magnitude (Binary64.unsigned bits)) 17 with
    | some d => exact toBinary64_of_candidate? hcandidate
    | none =>
      exact Binary64.toBinary64_of_value_eq hf' hsign hzero (Dyadic.value_toDecimal _)

end Hocon
