import FlagCombat.Proofs.Binary64.Amount
import Mathlib.Algebra.Order.Field.Power
import Mathlib.Data.Real.Basic
import Mathlib.Tactic.Positivity
import Mathlib.Tactic.NormNum
import Mathlib.Tactic.Linarith

/-!
Binary64 numbers as real numbers, and the real numbers that a word can hold. An infinity counts as
the first power of two that is too large, so every real number that a word can hold lies between the
two infinities.
-/

namespace FlagCombat

namespace Binary64

open Float.Model (Format UnpackedFloat)
open Float.Model.UnpackedFloat (Sign)

/-- One with a sign. -/
def unit (s : Sign) : ℝ := s.apply 1

theorem unit_positive : unit .positive = 1 := Int.cast_one

theorem unit_negative : unit .negative = -1 := by
  show ((-1 : ℤ) : ℝ) = -1
  norm_num

theorem unit_mul (s s' : Sign) : unit (s * s') = unit s * unit s' := by
  cases s <;> cases s'
  · show unit .positive = _
    rw [unit_positive, unit_negative]
    norm_num
  · show unit .negative = _
    rw [unit_positive, mul_one]
  · show unit .negative = _
    rw [unit_positive, one_mul]
  · show unit .positive = _
    rw [unit_positive, mul_one]

theorem apply_eq_unit_mul (s : Sign) (n : ℤ) : ((s.apply n : ℤ) : ℝ) = unit s * n := by
  cases s with
  | positive => rw [unit_positive, one_mul]; rfl
  | negative =>
    rw [unit_negative, neg_one_mul]
    exact Int.cast_neg n

/-- The real number that is read from a word; what is not a number is read as zero. -/
noncomputable def meaning : UnpackedFloat → ℝ
  | .finite s m e _ => unit s * (m * 2 ^ e)
  | .infinity s => unit s * 2 ^ (1024 : ℤ)
  | .zero _ | .notANumber => 0

noncomputable def value (x : Float) : ℝ := meaning x.toModel.unpack

theorem value_zero : value 0.0 = 0 := by
  have hunpack : (0.0 : Float).toModel.unpack = .zero .positive := rfl
  unfold value
  rw [hunpack]
  rfl

theorem meaning_neg (f : UnpackedFloat) : meaning f.neg = -meaning f := by
  have hunit (s : Sign) : unit (-s) = -unit s := by
    cases s with
    | positive =>
      rw [unit_positive]
      exact unit_negative
    | negative =>
      rw [unit_negative, neg_neg]
      exact unit_positive
  cases f with
  | notANumber | zero => exact neg_zero.symm
  | infinity s =>
    show unit (-s) * 2 ^ (1024 : ℤ) = _
    rw [hunit, neg_mul]
    rfl
  | finite s m e hm =>
    show unit (-s) * (m * 2 ^ e) = _
    rw [hunit, neg_mul]
    rfl

theorem value_neg (x : Float) : value (-x) = -value x := by
  unfold value
  rw [unpack_neg, meaning_neg]

theorem unpack_abs (x : Float) : x.abs.toModel.unpack = x.toModel.unpack.abs := by
  have hcanonical := canonical x
  refine unpack_pack ?_
  cases hunpack : x.toModel.unpack with
  | infinity | notANumber | zero => trivial
  | finite s m e hm => rwa [hunpack] at hcanonical

theorem isNaN_abs (x : Float) : x.abs.isNaN = x.isNaN := by
  rw [isNaN_eq, isNaN_eq, unpack_abs]
  cases x.toModel.unpack <;> rfl

theorem isFinite_abs (x : Float) : x.abs.isFinite = x.isFinite := by
  show x.abs.toModel.unpack.isFinite = x.toModel.unpack.isFinite
  rw [unpack_abs]
  cases x.toModel.unpack <;> rfl

theorem value_abs (x : Float) : value x.abs = |value x| := by
  have habs (s : Sign) {q : ℝ} (hq : 0 ≤ q) : unit .positive * q = |unit s * q| := by
    cases s with
    | positive => rw [unit_positive, one_mul, abs_of_nonneg hq]
    | negative => rw [unit_positive, unit_negative, one_mul, neg_one_mul, abs_neg, abs_of_nonneg hq]
  unfold value
  rw [unpack_abs]
  cases x.toModel.unpack with
  | notANumber | zero => exact abs_zero.symm
  | infinity s => exact habs s (by positivity)
  | finite s m e hm => exact habs s (by positivity)

section Amounts

variable {x y : Float}

/-- The real number of a finite number, by its amount. -/
theorem value_eq_amountOf (hx : x.isFinite = true) :
    value x = amountOf x * (2 : ℝ) ^ (-1074 : ℤ) := by
  have hcanonical := canonical x
  unfold value
  obtain ⟨s, hunpack⟩ | ⟨s, m, e, hm, hunpack⟩ := finite_cases hx
  · rw [amountOf_zero hunpack, hunpack, Int.cast_zero, zero_mul]
    rfl
  · rw [hunpack] at hcanonical
    have hpow : (2 : ℝ) ^ e = 2 ^ (e + 1074).toNat * (2 : ℝ) ^ (-1074 : ℤ) := by
      rw [← zpow_natCast, ← zpow_add₀ two_ne_zero,
        Int.toNat_of_nonneg (by have := hcanonical.1.least; omega), add_neg_cancel_right]
    rw [amountOf_finite hunpack, hunpack, apply_eq_unit_mul]
    show unit s * (m * 2 ^ e) = _
    rw [hpow]
    push_cast
    ring

/-- Finite numbers are ordered like the real numbers that they are. -/
theorem value_le_value (hx : x.isFinite = true) (hy : y.isFinite = true) (h : x ≤ y) :
    value x ≤ value y := by
  have hplace := (le_iff (isNaN_of_isFinite hx) (isNaN_of_isFinite hy)).1 h
  have hamount : amountOf x ≤ amountOf y := by
    obtain hneg | hnonneg := lt_or_ge (placeOf x) 0
    · have hneg' : 0 ≤ placeOf (-x) := by
        rw [placeOf_neg]
        omega
      obtain hpos | hnonpos := lt_or_ge (placeOf (-y)) 0
      · rw [placeOf_neg] at hpos
        have hlow := (amountOf_le (isFinite_neg hx) (isFinite_neg hx) hneg' (Int.le_refl _)).1
        have hhigh := (amountOf_le hy hy (by omega) (Int.le_refl _)).1
        rw [amountOf_neg hx] at hlow
        omega
      · have hle := (amountOf_le (isFinite_neg hy) (isFinite_neg hx) hnonpos
          (by rw [placeOf_neg, placeOf_neg]; omega)).2
        rw [amountOf_neg hx, amountOf_neg hy] at hle
        omega
    · exact (amountOf_le hx hy hnonneg hplace).2
  rw [value_eq_amountOf hx, value_eq_amountOf hy]
  exact mul_le_mul_of_nonneg_right (Int.cast_le.2 hamount) (by positivity)

end Amounts

/-- What is not below zero as a real number is at least zero in the order of words. -/
theorem zero_le_of_value {x : Float} (hx : x.isNaN = false) (h : 0 ≤ value x) : 0.0 ≤ x := by
  have hcanonical := canonical x
  rw [zero_le_iff hx]
  rw [isNaN_eq] at hx
  unfold value at h
  unfold placeOf
  cases hunpack : x.toModel.unpack with
  | notANumber =>
    rw [hunpack] at hx
    cases hx
  | zero s => exact Int.le_refl _
  | infinity s =>
    cases s with
    | positive => decide
    | negative =>
      rw [hunpack] at h
      change 0 ≤ unit .negative * 2 ^ (1024 : ℤ) at h
      have hpow : (0 : ℝ) < 2 ^ (1024 : ℤ) := by positivity
      rw [unit_negative, neg_one_mul] at h
      exact absurd (neg_nonneg.1 h) hpow.not_ge
  | finite s m e hm =>
    rw [hunpack] at h hcanonical
    cases s with
    | positive => exact Int.le_of_lt (place_positive hm hcanonical)
    | negative =>
      change 0 ≤ unit .negative * (m * 2 ^ e) at h
      have hpos : (0 : ℝ) < m * 2 ^ e := mul_pos (Nat.cast_pos.2 hm) (by positivity)
      rw [unit_negative] at h
      linarith

/-- The real numbers that words can hold: a mantissa of at most 53 bits at an exponent in range. -/
def Representable (q : ℝ) : Prop :=
  ∃ (m : ℤ) (e : ℤ), |m| < 2 ^ 53 ∧ -1074 ≤ e ∧ e ≤ 971 ∧ q = m * 2 ^ e

theorem representable_natCast_mul (n : ℕ) (e : ℤ) (hn : n < 2 ^ 53) (hlow : -1074 ≤ e)
    (hhigh : e ≤ 971) : Representable (n * 2 ^ e) :=
  ⟨n, e, by rw [Nat.abs_cast]; exact_mod_cast hn, hlow, hhigh, by rw [Int.cast_natCast]⟩

theorem representable_zero : Representable 0 := by
  simpa using representable_natCast_mul 0 0 (by norm_num) (by norm_num) (by norm_num)

theorem Representable.neg {q : ℝ} (h : Representable q) : Representable (-q) := by
  obtain ⟨m, e, hm, hlow, hhigh, rfl⟩ := h
  exact ⟨-m, e, by rwa [abs_neg], hlow, hhigh, by push_cast; ring⟩

/-- What a word can hold is smaller than an infinity. -/
theorem Representable.abs_lt {q : ℝ} (h : Representable q) : |q| < 2 ^ (1024 : ℤ) := by
  obtain ⟨m, e, hm, hlow, hhigh, rfl⟩ := h
  have hpow : (2 : ℝ) ^ e ≤ 2 ^ (971 : ℤ) := zpow_le_zpow_right₀ one_le_two hhigh
  have hm' : |(m : ℝ)| < 2 ^ 53 := by exact_mod_cast hm
  calc |(m : ℝ) * 2 ^ e| = |(m : ℝ)| * 2 ^ e := by
        rw [abs_mul, abs_of_pos (show (0 : ℝ) < 2 ^ e by positivity)]
    _ < 2 ^ 53 * 2 ^ e := mul_lt_mul_of_pos_right hm' (by positivity)
    _ ≤ 2 ^ 53 * 2 ^ (971 : ℤ) := mul_le_mul_of_nonneg_left hpow (by positivity)
    _ = 2 ^ (1024 : ℤ) := by
        rw [← zpow_natCast, ← zpow_add₀ two_ne_zero]
        rfl

theorem representable_value {x : Float} (hx : x.isFinite = true) : Representable (value x) := by
  have hcanonical := canonical x
  unfold value
  obtain ⟨s, hunpack⟩ | ⟨s, m, e, hm, hunpack⟩ := finite_cases hx
  · rw [hunpack]
    exact representable_zero
  · rw [hunpack] at hcanonical ⊢
    obtain ⟨hlegal, hmost⟩ := hcanonical
    have hpositive := representable_natCast_mul m e hlegal.mantissa_lt hlegal.least hmost
    show Representable (unit s * (m * 2 ^ e))
    cases s with
    | positive =>
      rw [unit_positive, one_mul]
      exact hpositive
    | negative =>
      rw [unit_negative, neg_one_mul]
      exact hpositive.neg

/-- A number between the two infinities is finite. -/
theorem isFinite_of_value {x : Float} (hx : x.isNaN = false) (h : |value x| < 2 ^ (1024 : ℤ)) :
    x.isFinite = true := by
  rw [isNaN_eq] at hx
  unfold value at h
  show x.toModel.unpack.isFinite = true
  cases hunpack : x.toModel.unpack with
  | zero | finite => rfl
  | notANumber =>
    rw [hunpack] at hx
    cases hx
  | infinity s =>
    rw [hunpack] at h
    change |unit s * 2 ^ (1024 : ℤ)| < _ at h
    cases s with
    | positive =>
      rw [unit_positive, one_mul, abs_of_pos (by positivity)] at h
      exact absurd rfl h.ne
    | negative =>
      rw [unit_negative, neg_one_mul, abs_neg, abs_of_pos (by positivity)] at h
      exact absurd rfl h.ne

section Powers

variable {q : ℝ} {k : ℤ} {x y : Float}

/-- A power of two, as an atom of linear arithmetic. -/
noncomputable def power (e : ℤ) : ℝ := 2 ^ e

theorem power_pos (e : ℤ) : 0 < power e := by
  unfold power
  positivity

theorem power_add (e e' : ℤ) : power (e + e') = power e * power e' := zpow_add₀ two_ne_zero e e'

theorem power_natCast (n : ℕ) : power n = 2 ^ n := zpow_natCast 2 n

theorem power_le_power {e e' : ℤ} (h : e ≤ e') : power e ≤ power e' :=
  zpow_le_zpow_right₀ one_le_two h

theorem two_mul_power (e : ℤ) : 2 * power e = power (e + 1) := by
  rw [show (1 : ℤ) = (1 : ℕ) from rfl, power_add, power_natCast, pow_one, mul_comm]

theorem representable_power {k : ℤ} (hlow : -1074 ≤ k) (hhigh : k ≤ 1023) :
    Representable (power k) := by
  obtain hsmall | hlarge := le_or_gt k 971
  · have hone := representable_natCast_mul 1 k (by norm_num) hlow hsmall
    rwa [Nat.cast_one, one_mul] at hone
  · have hcount : 2 ^ (k - 971).toNat < 2 ^ 53 := Nat.pow_lt_pow_right one_lt_two (by omega)
    have hfull := representable_natCast_mul (2 ^ (k - 971).toNat) 971 hcount (by norm_num) le_rfl
    rw [Nat.cast_pow, Nat.cast_two] at hfull
    rwa [show k = (k - 971).toNat + 971 by omega, power_add, power_natCast]

/-- What a word can hold is zero or at least the least number above zero. -/
theorem Representable.least_le_abs (h : Representable q) (hq : q ≠ 0) : power (-1074) ≤ |q| := by
  obtain ⟨m, e, -, hlow, -, rfl⟩ := h
  have hm : (1 : ℝ) ≤ |(m : ℝ)| := by
    exact_mod_cast Int.one_le_abs (by rintro rfl; simp at hq)
  rw [abs_mul, abs_of_pos (show (0 : ℝ) < 2 ^ e from power_pos e)]
  exact (power_le_power hlow).trans (le_mul_of_one_le_left (power_pos e).le hm)

/-- A power of two as a factor changes only the exponent, where the exponent stays in range. -/
theorem Representable.mul_power (h : Representable q) (hlow : power (-1021 - k) ≤ |q|)
    (hhigh : |q| ≤ power (971 - k)) : Representable (q * power k) := by
  obtain ⟨m, e, hm, -, -, rfl⟩ := h
  have hpos := power_pos e
  rw [abs_mul, abs_of_pos (show (0 : ℝ) < 2 ^ e from hpos)] at hlow hhigh
  have hm0 : m ≠ 0 := by
    rintro rfl
    rw [Int.cast_zero, abs_zero, zero_mul] at hlow
    exact absurd hlow (power_pos _).not_ge
  have hm1 : (1 : ℝ) ≤ |(m : ℝ)| := by exact_mod_cast Int.one_le_abs hm0
  have hm2 : |(m : ℝ)| < power (53 : ℕ) := by
    rw [power_natCast]
    exact_mod_cast hm
  have hbelow : power (-1021 - k) < power ((53 : ℕ) + e) := by
    rw [power_add]
    exact hlow.trans_lt (mul_lt_mul_of_pos_right hm2 hpos)
  have habove : power e ≤ power (971 - k) :=
    (le_mul_of_one_le_left hpos.le hm1).trans hhigh
  have hbelow' := (zpow_lt_zpow_iff_right₀ (one_lt_two (α := ℝ))).1 hbelow
  have habove' := (zpow_le_zpow_iff_right₀ (one_lt_two (α := ℝ))).1 habove
  refine ⟨m, e + k, hm, by push_cast at hbelow'; omega, by omega, ?_⟩
  rw [mul_assoc]
  exact congrArg _ (power_add e k).symm

/-- Twice what a word can hold, unless that is infinite. -/
theorem Representable.double (h : Representable q) (hq : |2 * q| < power 1024) :
    Representable (2 * q) := by
  obtain ⟨m, e, hm, hlow, hhigh, rfl⟩ := h
  obtain hless | rfl := lt_or_eq_of_le hhigh
  · refine ⟨m, e + 1, hm, by omega, by omega, ?_⟩
    rw [zpow_add_one₀ two_ne_zero]
    ring
  · refine ⟨2 * m, 971, ?_, hlow, le_rfl, by push_cast; ring⟩
    have hsplit : power 1024 = 2 ^ 53 * power 971 := by
      rw [← power_natCast 53, ← power_add]
      norm_num
    change |2 * ((m : ℝ) * power 971)| < _ at hq
    rw [hsplit, ← mul_assoc, abs_mul, abs_of_pos (power_pos 971)] at hq
    exact_mod_cast lt_of_mul_lt_mul_right hq (power_pos 971).le

theorem value_positive {m : ℕ} {e : ℤ} (hm : 0 < m)
    (h : x.toModel.unpack = .finite .positive m e hm) : value x = m * power e := by
  unfold value
  rw [h]
  show unit .positive * (m * power e) = _
  rw [unit_positive, one_mul]

theorem value_eq_power {e : ℤ} (h : x.toModel.unpack = .finite .positive (2 ^ 52) e (by decide)) :
    value x = power (e + 52) := by
  rw [value_positive (by decide) h, power_add, show (52 : ℤ) = (52 : ℕ) from rfl, power_natCast, mul_comm,
    Nat.cast_pow, Nat.cast_two]

theorem value_one : value 1.0 = 1 := value_eq_power (e := -52) rfl

theorem finite_one : (1.0 : Float).isFinite = true := by decide +kernel

/-- A finite number that is zero as a real number has the place of zero. -/
theorem placeOf_eq_zero (hx : x.isFinite = true) (h : value x = 0) : placeOf x = 0 := by
  have hnumber := isNaN_of_isFinite hx
  have hnumber' := (isNaN_neg x).trans hnumber
  have hlow := (zero_le_iff hnumber).1 (zero_le_of_value hnumber h.ge)
  have hhigh := (zero_le_iff hnumber').1
    (zero_le_of_value hnumber' (by rw [value_neg, h, neg_zero]))
  rw [placeOf_neg] at hhigh
  omega

theorem value_le_of_not_lt (hx : x.isFinite = true) (hy : y.isFinite = true) (h : ¬x < y) :
    value y ≤ value x := by
  have hnumber := isNaN_of_isFinite hx
  have hnumber' := isNaN_of_isFinite hy
  rw [lt_iff hnumber hnumber'] at h
  exact value_le_value hy hx ((le_iff hnumber' hnumber).2 (by omega))

end Powers

end Binary64

end FlagCombat
