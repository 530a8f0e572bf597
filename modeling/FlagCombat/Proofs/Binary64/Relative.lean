import FlagCombat.Proofs.Binary64.Arithmetic

/-!
Relative bounds. Above a real number that is neither too small nor too large there is, within one
part in 1024, one that a word can hold, and another one below; so a computed number is at most that
far beyond a bound of the exact result. Bounds are counted in multiples of a scale, of which those
from a hundredth to 17 tenths are in range.
-/

namespace FlagCombat

namespace Binary64

/-- The real numbers for which rounding has a small relative error. -/
structure InRange (u : ℝ) : Prop where
  low : power (-1022) ≤ u
  high : u ≤ 1023 * power 1014

section Approximation

variable {u q : ℝ} {z : Float}

/-- A real number in range counts at least 1024 units, and no more than a mantissa holds. -/
theorem InRange.exists_exponent (h : InRange u) :
    ∃ e : ℤ, -1074 ≤ e ∧ e ≤ 971 ∧ 1024 * 2 ^ e ≤ u ∧
      u ≤ (2 ^ 53 - 1 : ℕ) * 2 ^ e := by
  obtain ⟨hlow, hhigh⟩ := h
  have hpos : 0 < u := (power_pos _).trans_le hlow
  obtain ⟨n, hn, hn'⟩ := exists_mem_Ico_zpow hpos one_lt_two
  have hn0 : -1022 < n + 1 := (zpow_lt_zpow_iff_right₀ one_lt_two).1 (hlow.trans_lt hn')
  have hpow : (1024 : ℝ) * 2 ^ (n - 10) = 2 ^ n := by
    rw [show (1024 : ℝ) = 2 ^ (10 : ℤ) by norm_num, ← zpow_add₀ two_ne_zero]
    congr 1
    ring
  obtain hsmall | hlarge := le_or_gt (n - 10) 971
  · refine ⟨n - 10, by omega, hsmall, hpow.trans_le hn, hn'.le.trans ?_⟩
    rw [zpow_add_one₀ two_ne_zero, ← hpow, mul_assoc, mul_comm _ (2 : ℝ), ← mul_assoc]
    exact mul_le_mul_of_nonneg_right (by norm_num) (by positivity)
  · refine ⟨971, by norm_num, le_rfl, ?_, hhigh.trans ?_⟩
    · refine le_trans ?_ (hpow.trans_le hn)
      exact mul_le_mul_of_nonneg_left (zpow_le_zpow_right₀ one_le_two hlarge.le) (by norm_num)
    · rw [show (1014 : ℤ) = (43 : ℕ) + 971 by norm_num, power_add, power_natCast, ← mul_assoc]
      exact mul_le_mul_of_nonneg_right (by norm_num) (power_pos 971).le

/-- A number that words can hold, a little above. -/
theorem InRange.exists_above (h : InRange u) :
    ∃ f, Representable f ∧ u ≤ f ∧ f ≤ 1025 / 1024 * u := by
  obtain ⟨e, hlow, hhigh, hmany, hfew⟩ := h.exists_exponent
  have hunit : (0 : ℝ) < 2 ^ e := by positivity
  have hceil : (⌈u / 2 ^ e⌉₊ : ℝ) < u / 2 ^ e + 1 :=
    Nat.ceil_lt_add_one (div_nonneg (by linarith) hunit.le)
  have hmost : ⌈u / 2 ^ e⌉₊ ≤ 2 ^ 53 - 1 := Nat.ceil_le.2 ((div_le_iff₀ hunit).2 hfew)
  refine ⟨⌈u / 2 ^ e⌉₊ * 2 ^ e, representable_natCast_mul _ _ (by omega) hlow hhigh,
    (div_le_iff₀ hunit).1 (Nat.le_ceil _), ?_⟩
  have hnext := mul_lt_mul_of_pos_right hceil hunit
  rw [add_mul, div_mul_cancel₀ _ hunit.ne'] at hnext
  linarith

/-- A number that words can hold, a little below. -/
theorem InRange.exists_below (h : InRange u) :
    ∃ f, Representable f ∧ 1023 / 1024 * u ≤ f ∧ f ≤ u := by
  obtain ⟨e, hlow, hhigh, hmany, hfew⟩ := h.exists_exponent
  have hunit : (0 : ℝ) < 2 ^ e := by positivity
  have hfloor : u / 2 ^ e < ⌊u / 2 ^ e⌋₊ + 1 := Nat.lt_floor_add_one _
  have hbelow : (⌊u / 2 ^ e⌋₊ : ℝ) ≤ u / 2 ^ e :=
    Nat.floor_le (div_nonneg (by linarith) hunit.le)
  have hmost : ⌊u / 2 ^ e⌋₊ ≤ 2 ^ 53 - 1 :=
    Nat.cast_le.1 (hbelow.trans ((div_le_iff₀ hunit).2 hfew))
  refine ⟨⌊u / 2 ^ e⌋₊ * 2 ^ e, representable_natCast_mul _ _ (by omega) hlow hhigh, ?_,
    (le_div_iff₀ hunit).1 hbelow⟩
  have hnext := mul_lt_mul_of_pos_right hfloor hunit
  rw [add_mul, div_mul_cancel₀ _ hunit.ne'] at hnext
  linarith

theorem Rounds.le_of_inRange (h : Rounds q z) (hu : InRange u) (hq : q ≤ u) :
    value z ≤ 1025 / 1024 * u := by
  obtain ⟨f, hf, habove, hnear⟩ := hu.exists_above
  exact (h.le_of_le hf (hq.trans habove)).trans hnear

theorem Rounds.ge_of_inRange (h : Rounds q z) (hu : InRange u) (hq : u ≤ q) :
    1023 / 1024 * u ≤ value z := by
  obtain ⟨f, hf, hnear, hbelow⟩ := hu.exists_below
  exact hnear.trans (h.ge_of_ge hf (hbelow.trans hq))

end Approximation

/-- A scale of which small multiples are in range. -/
structure IsScale (s : ℝ) : Prop where
  low : power (-1000) ≤ s
  high : s ≤ 9 * power 1020

theorem IsScale.pos {s : ℝ} (h : IsScale s) : 0 < s := (power_pos _).trans_le h.low

/-- A multiple of a scale is in range, and `d` leaves a margin above it for rounding. -/
structure Margin (c d : ℝ) : Prop where
  low : 1 / 100 ≤ c
  high : c ≤ 17 / 10
  margin : 1025 / 1024 * c ≤ d

theorem IsScale.inRange {s c d : ℝ} (hs : IsScale s) (hc : Margin c d) : InRange (c * s) := by
  obtain ⟨hlow, hhigh, -⟩ := hc
  have hleast : 100 * power (-1022) ≤ power (-1000) := by
    rw [show (-1000 : ℤ) = (22 : ℕ) + -1022 by norm_num, power_add, power_natCast]
    exact mul_le_mul_of_nonneg_right (by norm_num) (power_pos _).le
  have hmost : power 1020 = 64 * power 1014 := by
    rw [show (1020 : ℤ) = (6 : ℕ) + 1014 by norm_num, power_add, power_natCast]
    norm_num
  have hpos := power_pos 1014
  constructor
  · have := mul_le_mul_of_nonneg_right hlow hs.pos.le
    have := hs.low
    linarith
  · have := mul_le_mul_of_nonneg_right hhigh hs.pos.le
    have := hs.high
    linarith

/-- A finite number of at most `c` in units of the scale `s`. -/
structure Within (s c : ℝ) (x : Float) : Prop where
  finite : x.isFinite = true
  abs_le : |value x| ≤ c * s

section Scaled

variable {s c c' d n q : ℝ} {k x y z : Float}

theorem Rounds.within (h : Rounds q z) (hs : IsScale s) (hc : Margin c d) (hq : |q| ≤ c * s) :
    Within s d z := by
  obtain ⟨f, hf, habove, hnear⟩ := (hs.inRange hc).exists_above
  refine ⟨h.isFinite hf (hq.trans habove), (h.abs_value_le hf (hq.trans habove)).trans
    (hnear.trans ?_)⟩
  rw [← mul_assoc]
  exact mul_le_mul_of_nonneg_right hc.margin hs.pos.le

theorem Within.add (hx : Within s c x) (hy : Within s c' y) (hs : IsScale s)
    (hc : Margin (c + c') d) : Within s d (x + y) := by
  refine (rounds_add hx.finite hy.finite).within hs hc ((abs_add_le _ _).trans ?_)
  rw [add_mul]
  exact add_le_add hx.abs_le hy.abs_le

theorem Within.sub (hx : Within s c x) (hy : Within s c' y) (hs : IsScale s)
    (hc : Margin (c + c') d) : Within s d (x - y) := by
  refine (rounds_sub hx.finite hy.finite).within hs hc ((abs_sub _ _).trans ?_)
  rw [add_mul]
  exact add_le_add hx.abs_le hy.abs_le

/-- A difference of numbers that are not negative is no larger than the larger one. -/
theorem Within.sub_of_nonneg (hx : Within s c x) (hy : Within s c' y) (hx0 : 0 ≤ value x)
    (hy0 : 0 ≤ value y) (hs : IsScale s) (hc : Margin (max c c') d) : Within s d (x - y) := by
  refine (rounds_sub hx.finite hy.finite).within hs hc (abs_sub_le_iff.2 ⟨?_, ?_⟩)
  · have := (le_abs_self _).trans hx.abs_le
    have := mul_le_mul_of_nonneg_right (le_max_left c c') hs.pos.le
    linarith
  · have := (le_abs_self _).trans hy.abs_le
    have := mul_le_mul_of_nonneg_right (le_max_right c c') hs.pos.le
    linarith

/-- A small multiple counts in the same units. -/
theorem Within.const_mul (hx : Within s c x) (hk : k.isFinite = true) (hvalue : value k = n)
    (hn : 0 ≤ n) (hs : IsScale s) (hc : Margin (n * c) d) : Within s d (k * x) := by
  refine (rounds_mul hk hx.finite).within hs hc ?_
  rw [hvalue, abs_mul, abs_of_nonneg hn, mul_assoc]
  exact mul_le_mul_of_nonneg_left hx.abs_le hn

/-- A product counts in units of the square of the scale. -/
theorem Within.mul (hx : Within s c x) (hy : Within s c' y) (hs : IsScale (s * s))
    (hc : Margin (c * c') d) : Within (s * s) d (x * y) := by
  refine (rounds_mul hx.finite hy.finite).within hs hc ?_
  rw [abs_mul, mul_mul_mul_comm]
  exact mul_le_mul hx.abs_le hy.abs_le (abs_nonneg _) ((abs_nonneg _).trans hx.abs_le)

end Scaled

end Binary64

end FlagCombat
