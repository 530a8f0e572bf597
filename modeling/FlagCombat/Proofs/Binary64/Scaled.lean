import FlagCombat.Binary64.Arithmetic
import FlagCombat.Proofs.Binary64.Comparison
import Mathlib.Algebra.Order.Floor.Ring

/-!
Scaled integers as real numbers. A scaled integer is rounded to a neighbour of the real number that
it is, so a fused multiplication and addition rounds once, and the remainder of a division, which a
word can hold, is exact. A remainder raised by the divisor when it is negative rounds the one
between zero and the divisor.
-/

namespace FlagCombat

namespace Binary64

open Float.Model (Format UnpackedFloat)

/-- Every real number that a word can hold is that of some word. -/
theorem exists_number {q : ℝ} (h : Representable q) :
    ∃ z : Float, z.isFinite = true ∧ value z = q := by
  have hq := h
  obtain ⟨m, e, -, -, -, rfl⟩ := h
  have hrounds : Rounds (m * 2 ^ e) (Float.ofModel (Float.Model.pack
      (UnpackedFloat.normalize Format.binary64 m e .positive))) :=
    ⟨neighbours_normalize m e .positive, isNaN_unpack_pack (isNaN_normalize ..)⟩
  exact ⟨_, hrounds.isFinite_of_representable hq, hrounds.exact hq⟩

end Binary64

namespace Scaled

open Binary64

/-- The real number that a scaled integer is. -/
noncomputable def real (s : Scaled) : ℝ := s.inUnits s.exponent * power s.exponent

section Real

variable {s : Scaled} {e : ℤ}

theorem real_eq_inUnits (h : e ≤ s.exponent) : s.real = s.inUnits e * power e := by
  have hpower : power s.exponent = 2 ^ (s.exponent - e).toNat * power e := by
    rw [← power_natCast, ← power_add, Int.toNat_of_nonneg (by omega), sub_add_cancel]
  unfold real
  rw [← inUnits_mul_pow s h le_rfl, hpower]
  push_cast
  ring

theorem real_ofFloat {x : Float} (hx : x.isFinite = true) : (ofFloat x).real = value x :=
  (real_eq_inUnits (least_exponent x)).trans (value_eq_amountOf hx).symm

theorem real_mul (x y : Scaled) : (x.mul y).real = x.real * y.real := by
  have hunits := inUnits_mul x y le_rfl le_rfl
  change ((x.mul y).inUnits (x.exponent + y.exponent) : ℝ) * power (x.exponent + y.exponent) = _
  rw [hunits, power_add]
  unfold real
  push_cast
  ring

theorem real_add (x y : Scaled) : (x.add y).real = x.real + y.real := by
  have hexponent := exponent_add x y
  have hunits := inUnits_add x y (min_le_left x.exponent y.exponent)
    (min_le_right x.exponent y.exponent)
  rw [real_eq_inUnits hexponent.ge, real_eq_inUnits (min_le_left x.exponent y.exponent),
    real_eq_inUnits (min_le_right x.exponent y.exponent), hunits]
  push_cast
  ring

theorem inUnits_le_inUnits {s' : Scaled} (hs : e ≤ s.exponent) (hs' : e ≤ s'.exponent)
    (h : s.real ≤ s'.real) : s.inUnits e ≤ s'.inUnits e := by
  rw [real_eq_inUnits hs, real_eq_inUnits hs'] at h
  exact_mod_cast le_of_mul_le_mul_right h (power_pos e)

/-- A scaled integer is rounded to a neighbour of the real number that it is. -/
theorem rounds_toFloat (s : Scaled) : Rounds s.real s.toFloat := by
  have hnumber := (placeOf_toFloat s).1
  have hexponent : min s.exponent (-1074) ≤ s.exponent := min_le_left ..
  have hleast : min s.exponent (-1074) ≤ -1074 := min_le_right ..
  refine ⟨⟨fun hf hle => ?_, fun hf hge => ?_⟩, hnumber⟩
  · obtain ⟨z, hz, rfl⟩ := exists_number hf
    rw [← real_ofFloat hz] at hle
    rw [← le_iff_value hnumber (isNaN_of_isFinite hz), le_iff hnumber (isNaN_of_isFinite hz)]
    exact placeOf_toFloat_le_of hz hexponent hleast
      (inUnits_le_inUnits hexponent (hleast.trans (least_exponent z)) hle)
  · obtain ⟨z, hz, rfl⟩ := exists_number hf
    rw [← real_ofFloat hz] at hge
    rw [← le_iff_value (isNaN_of_isFinite hz) hnumber, le_iff (isNaN_of_isFinite hz) hnumber]
    exact placeOf_le_toFloat hz hexponent hleast
      (inUnits_le_inUnits (hleast.trans (least_exponent z)) hexponent hge)

end Real

section Remainder

variable {x y : Scaled} {e : ℤ}

theorem natAbs_inUnits (x : Scaled) (e : ℤ) : (x.inUnits e).natAbs = x.sizeIn e := by
  rw [inUnits_eq_apply]
  cases x.negative with
  | false => exact Int.natAbs_natCast _
  | true => exact (Int.natAbs_neg _).trans (Int.natAbs_natCast _)

theorem abs_real (h : e ≤ x.exponent) : |x.real| = x.sizeIn e * power e := by
  rw [real_eq_inUnits h, abs_mul, abs_of_pos (power_pos e), ← natAbs_inUnits, Nat.cast_natAbs,
    Int.cast_abs]

theorem sizeIn_pos (h : e ≤ x.exponent) (hx : x.real ≠ 0) : 0 < x.sizeIn e := by
  refine Nat.pos_of_ne_zero fun hzero => hx ?_
  rw [← abs_eq_zero, abs_real h, hzero, Nat.cast_zero, zero_mul]

theorem sizeIn_exponent (x : Scaled) : x.sizeIn x.exponent = x.mantissa := by
  unfold sizeIn
  rw [Int.sub_self, Int.toNat_zero, pow_zero, mul_one]

theorem sizeIn_remainder (he : e = min x.exponent y.exponent) :
    (x.remainder y).sizeIn e = x.sizeIn e % y.sizeIn e := by
  subst he
  rw [← natAbs_inUnits x, ← natAbs_inUnits y]
  exact sizeIn_exponent (x.remainder y)

/-- The remainder is less by a whole number of divisors. -/
theorem dvd_sub_remainder (he : e = min x.exponent y.exponent) :
    y.inUnits e ∣ x.inUnits e - (x.remainder y).inUnits e := by
  have hsize := sizeIn_remainder he
  have hnegative : (x.remainder y).negative = x.negative := rfl
  rw [inUnits_eq_apply x, inUnits_eq_apply (x.remainder y), hsize, hnegative, ← Int.natAbs_dvd,
    natAbs_inUnits]
  generalize x.sizeIn e = m
  generalize y.sizeIn e = n
  have hrest : (n : ℤ) ∣ (m : ℤ) - (m % n : ℕ) := by
    rw [Int.natCast_mod]
    exact Int.dvd_self_sub_emod
  cases x.negative with
  | false => exact hrest
  | true =>
    rw [apply_signOf_true, apply_signOf_true, neg_sub_neg]
    exact dvd_sub_comm.1 hrest

/-- The remainder is smaller than the divisor, and a whole number of divisors is between it and the
dividend. -/
theorem real_remainder (x : Scaled) (hy : y.real ≠ 0) :
    |(x.remainder y).real| < |y.real| ∧ ∃ k : ℤ, x.real = k * y.real + (x.remainder y).real := by
  obtain ⟨e, he⟩ : ∃ e, e = min x.exponent y.exponent := ⟨_, rfl⟩
  have hex : e ≤ x.exponent := he.trans_le (min_le_left ..)
  have hey : e ≤ y.exponent := he.trans_le (min_le_right ..)
  have her : e ≤ (x.remainder y).exponent := he.le
  constructor
  · rw [abs_real her, abs_real hey, sizeIn_remainder he]
    exact mul_lt_mul_of_pos_right (Nat.cast_lt.2 (Nat.mod_lt _ (sizeIn_pos hey hy))) (power_pos e)
  · obtain ⟨k, hk⟩ := dvd_sub_remainder he
    refine ⟨k, ?_⟩
    rw [real_eq_inUnits hex, real_eq_inUnits hey, real_eq_inUnits her, sub_eq_iff_eq_add.1 hk]
    push_cast
    ring

theorem ofFloat_bounds {x : Float} (hx : x.isFinite = true) :
    (ofFloat x).sizeIn (ofFloat x).exponent < 2 ^ 53 ∧ (ofFloat x).exponent ≤ 971 := by
  have hcanonical := canonical x
  rw [sizeIn_exponent, ofFloat_eq hx]
  obtain ⟨s, hunpack⟩ | ⟨s, m, e, hm, hunpack⟩ := finite_cases hx
  · rw [hunpack, scaledOf_zero]
    exact ⟨by norm_num, by norm_num⟩
  · rw [hunpack] at hcanonical ⊢
    exact ⟨hcanonical.1.mantissa_lt, hcanonical.2⟩

/-- A word can hold the remainder of what words hold: in the units of the finer one of the two it is
at most the dividend, and less than the divisor. -/
theorem representable_remainder {x y : Float} (hx : x.isFinite = true) (hy : y.isFinite = true)
    (hzero : value y ≠ 0) : Representable ((ofFloat x).remainder (ofFloat y)).real := by
  obtain ⟨e, he⟩ : ∃ e, e = min (ofFloat x).exponent (ofFloat y).exponent := ⟨_, rfl⟩
  obtain ⟨hsizeX, hmostX⟩ := ofFloat_bounds hx
  obtain ⟨hsizeY, hmostY⟩ := ofFloat_bounds hy
  have hleastX := least_exponent x
  have hleastY := least_exponent y
  have hey : e ≤ (ofFloat y).exponent := he.trans_le (min_le_right ..)
  have hpos : 0 < (ofFloat y).sizeIn e := sizeIn_pos hey (by rwa [real_ofFloat hy])
  have hsize : ((ofFloat x).remainder (ofFloat y)).sizeIn e < 2 ^ 53 := by
    rw [sizeIn_remainder he]
    obtain hcase | hcase := le_total (ofFloat x).exponent (ofFloat y).exponent
    · rw [he.trans (min_eq_left hcase)]
      exact (Nat.mod_le _ _).trans_lt hsizeX
    · rw [← he.trans (min_eq_right hcase)] at hsizeY
      exact (Nat.mod_lt _ hpos).trans hsizeY
  have habs : Representable |((ofFloat x).remainder (ofFloat y)).real| := by
    rw [abs_real (e := e) he.le]
    exact representable_natCast_mul _ e hsize (by omega) (by omega)
  obtain h | h := abs_choice ((ofFloat x).remainder (ofFloat y)).real
  · rwa [h] at habs
  · rw [h] at habs
    rw [← neg_neg ((ofFloat x).remainder (ofFloat y)).real]
    exact habs.neg

end Remainder

end Scaled

namespace Binary64

variable {x y z : Float}

/-- A fused multiplication and addition rounds once. -/
theorem rounds_fusedMulAdd (hx : x.isFinite = true) (hy : y.isFinite = true)
    (hz : z.isFinite = true) : Rounds (value x * value y + value z) (fusedMulAdd x y z) := by
  have hround := Scaled.rounds_toFloat (((Scaled.ofFloat x).mul (.ofFloat y)).add (.ofFloat z))
  rw [Scaled.real_add, Scaled.real_mul, Scaled.real_ofFloat hx, Scaled.real_ofFloat hy,
    Scaled.real_ofFloat hz] at hround
  unfold fusedMulAdd
  rwa [hx, hy, hz]

theorem rounds_remainder (hx : x.isFinite = true) :
    Rounds ((Scaled.ofFloat x).remainder (.ofFloat y)).real (remainder x y) := by
  unfold remainder
  rw [hx]
  exact Scaled.rounds_toFloat _

/-- A remainder is exact. -/
theorem value_remainder (hx : x.isFinite = true) (hy : y.isFinite = true) (hzero : value y ≠ 0) :
    (remainder x y).isFinite = true ∧ |value (remainder x y)| < |value y| ∧
      ∃ k : ℤ, value x = k * value y + value (remainder x y) := by
  have hround := rounds_remainder (y := y) hx
  have hrepresentable := Scaled.representable_remainder hx hy hzero
  rw [← Scaled.real_ofFloat hy] at hzero
  have hremainder := Scaled.real_remainder (.ofFloat x) hzero
  rw [← hround.exact hrepresentable, Scaled.real_ofFloat hx, Scaled.real_ofFloat hy] at hremainder
  exact ⟨hround.isFinite_of_representable hrepresentable, hremainder⟩

/-- What whole divisors leave between zero and the divisor. -/
theorem mul_fract_eq {q d r : ℝ} (k : ℤ) (hk : q = k * d + r) (hnonneg : 0 ≤ r) (hlt : r < d) :
    d * Int.fract (q / d) = r := by
  have hpos : 0 < d := hnonneg.trans_lt hlt
  have hshare : Int.fract (q / d) = r / d := by
    refine Int.fract_eq_iff.2 ⟨div_nonneg hnonneg hpos.le, (div_lt_one hpos).2 hlt, k, ?_⟩
    rw [hk, ← sub_div, add_sub_cancel_right, mul_div_cancel_right₀ _ hpos.ne']
  rw [hshare, mul_div_cancel₀ _ hpos.ne']

/-- A remainder that is raised when it is negative rounds the one between zero and the divisor. -/
theorem rounds_remainderAbove (hx : x.isFinite = true) (hy : y.isFinite = true)
    (hpos : 0 < value y) :
    Rounds (value y * Int.fract (value x / value y)) (remainderAbove x y) := by
  obtain ⟨hfinite, hsize, k, hk⟩ := value_remainder hx hy hpos.ne'
  have hnumber := isNaN_of_isFinite hfinite
  have hzero : (0.0 : Float).isNaN = false := by decide +kernel
  rw [abs_of_pos hpos, abs_lt] at hsize
  unfold remainderAbove
  dsimp only
  by_cases hneg : remainder x y < 0.0
  · rw [if_pos hneg]
    rw [lt_iff_value hnumber hzero, value_zero] at hneg
    rw [mul_fract_eq (r := value (remainder x y) + value y) (k - 1) (by push_cast; linarith)
      (by linarith) (by linarith)]
    exact rounds_add hfinite hy
  · rw [if_neg hneg]
    rw [lt_iff_value hnumber hzero, value_zero, not_lt] at hneg
    rw [mul_fract_eq k hk hneg hsize.2]
    exact .refl hnumber

/-- The remainder of what is not finite is not a number. -/
theorem isNaN_remainderAbove (hx : x.isFinite = false) (y : Float) :
    (remainderAbove x y).isNaN = true := by
  have hremainder : remainder x y = 0.0 / 0.0 := by
    unfold remainder
    rw [hx]
    rfl
  have hnot : ¬(0.0 / 0.0 : Float) < 0.0 := by decide +kernel
  unfold remainderAbove
  dsimp only
  rw [hremainder, if_neg hnot]
  decide +kernel

end Binary64

end FlagCombat
