import FlagCombat.Proofs.Binary64.Comparison
import FlagCombat.Proofs.Misfit

/-!
Values at a place between the ends of an interval. No place has a value below the low end, and none
has a larger one than place one, because rounding keeps the order; a length that is not rounded up
leads no further than the high end. So in an interval around zero every place has its value inside:
the length is exact or infinite.
-/

namespace FlagCombat

open Binary64

theorem placeOf_one : placeOf 1.0 = 1023 * 2 ^ 52 := by decide +kernel

theorem amountOf_one : amountOf 1.0 = 2 ^ 1074 := by
  have hone : Scaled.ofFloat 1.0 = ⟨false, 2 ^ 52, -52⟩ := by decide +kernel
  unfold amountOf
  rw [hone, Scaled.inUnits_eq]
  show 1 * ((2 : Int) ^ 52 * 2 ^ 1022) = _
  rw [one_mul, ← pow_add]

/-- A number moved into the unit interval lies in it. -/
theorem clamp_unit {u : Float} (hu : u.isNaN = false) :
    (clamp u 0.0 1.0).isNaN = false ∧ 0 ≤ placeOf (clamp u 0.0 1.0) ∧
      placeOf (clamp u 0.0 1.0) ≤ placeOf 1.0 := by
  have hzero : (0.0 : Float).isNaN = false := by decide +kernel
  have hone : (1.0 : Float).isNaN = false := by decide +kernel
  have hle : placeOf 0.0 ≤ placeOf 1.0 := by
    rw [placeOf_zero, placeOf_one]
    omega
  rw [← placeOf_zero]
  unfold clamp
  dsimp only
  by_cases hlow : u < 0.0
  · rw [if_pos hlow]
    have hhigh : ¬(0.0 : Float) > 1.0 := by
      rw [gt_iff_lt, lt_iff hone hzero]
      omega
    rw [if_neg hhigh]
    exact ⟨hzero, Int.le_refl _, hle⟩
  · rw [if_neg hlow]
    rw [lt_iff hu hzero] at hlow
    by_cases hhigh : u > 1.0
    · rw [if_pos hhigh]
      exact ⟨hone, hle, Int.le_refl _⟩
    · rw [if_neg hhigh]
      rw [gt_iff_lt, lt_iff hone hu] at hhigh
      exact ⟨hu, by omega, by omega⟩

theorem isFinite_clamp {x : Float} (hx : x.isNaN = false) : (clamp x 0.0 1.0).isFinite = true := by
  obtain ⟨hnumber, hleast, hmost⟩ := clamp_unit hx
  rw [placeOf_one] at hmost
  exact isFinite_of_place hnumber (by omega) (by omega)

/-- A place is an amount from zero to that of one. -/
theorem amountOf_clamp {x : Float} (hx : x.isNaN = false) :
    0 ≤ amountOf (clamp x 0.0 1.0) ∧ amountOf (clamp x 0.0 1.0) ≤ amountOf 1.0 := by
  obtain ⟨-, hleast, hmost⟩ := clamp_unit hx
  exact amountOf_le (isFinite_clamp hx) (by decide +kernel) hleast hmost

namespace Interval

section Places

variable {b : Interval} {x : Float}

/-- An interval between two finite ends in their order. -/
structure Proper (b : Interval) : Prop where
  low_finite : b.low.isFinite = true
  high_finite : b.high.isFinite = true
  low_le_high : b.low ≤ b.high

/-- The value at a place of an interval, before it is rounded. -/
def exactValue (b : Interval) (x : Float) : Scaled :=
  ((Scaled.ofFloat x).mul (.ofFloat b.span)).add (.ofFloat b.low)

theorem exponent_exactValue (b : Interval) (x : Float) : -2148 ≤ (b.exactValue x).exponent := by
  have hplace := least_exponent x
  have hspan := least_exponent b.span
  have hlow := least_exponent b.low
  unfold exactValue
  rw [Scaled.exponent_add]
  show -2148 ≤ min ((Scaled.ofFloat x).exponent + (Scaled.ofFloat b.span).exponent) _
  omega

theorem inUnits_exactValue (b : Interval) (x : Float) :
    (b.exactValue x).inUnits (-2148) =
      amountOf x * amountOf b.span + amountOf b.low * 2 ^ 1074 := by
  have hplace := least_exponent x
  have hspan := least_exponent b.span
  have hlow := least_exponent b.low
  unfold exactValue amountOf
  rw [Scaled.inUnits_add _ _ ?_ (by omega), ← Scaled.inUnits_mul _ _ hplace hspan,
    ← Scaled.inUnits_mul_pow (.ofFloat b.low) (show (-2148 : Int) ≤ -1074 by omega) hlow]
  · rfl
  · show -2148 ≤ (Scaled.ofFloat x).exponent + (Scaled.ofFloat b.span).exponent
    omega

/-- Where the length is finite, the value at a place is rounded once. -/
theorem ofUnit_eq (hlow : b.low.isFinite = true)
    (hspan : b.span.isFinite = true) (hx : x.isNaN = false) :
    b.ofUnit x = (b.exactValue (clamp x 0.0 1.0)).toFloat := by
  unfold ofUnit fusedMulAdd
  rw [if_pos hspan, isFinite_clamp hx, hspan, hlow]
  rfl

theorem ofUnit_eq_zero (hspan : b.span.isFinite = false) (x : Float) : b.ofUnit x = 0.0 :=
  if_neg (by rw [hspan]; exact Bool.false_ne_true)

theorem isNaN_ofUnit (hlow : b.low.isFinite = true) (hx : x.isNaN = false) :
    (b.ofUnit x).isNaN = false := by
  cases hspan : b.span.isFinite with
  | true =>
    rw [ofUnit_eq hlow hspan hx]
    exact (Scaled.placeOf_toFloat _).1
  | false =>
    rw [ofUnit_eq_zero hspan]
    decide +kernel

namespace Proper

theorem value_low_le (h : b.Proper) : value b.low ≤ value b.high :=
  value_le_value h.low_finite h.high_finite h.low_le_high

theorem rounds_span (h : b.Proper) : Rounds (value b.high - value b.low) b.span :=
  rounds_sub h.high_finite h.low_finite

theorem amountOf_span_nonneg (h : b.Proper) (hspan : b.span.isFinite = true) :
    0 ≤ amountOf b.span := by
  have hvalue := h.rounds_span.nonneg (sub_nonneg.2 h.value_low_le)
  rw [value_eq_amountOf hspan] at hvalue
  exact_mod_cast nonneg_of_mul_nonneg_left hvalue (power_pos (-1074))

/-- An interval whose length is too large for a number lies around zero. -/
theorem contains_zero_of_infinite (h : b.Proper) (hspan : b.span.isFinite = false) :
    b.low ≤ 0.0 ∧ 0.0 ≤ b.high := by
  have hends := h.value_low_le
  have hzero : (0.0 : Float).isNaN = false := by decide +kernel
  have hinfinite : ¬b.span.isFinite = true := by
    rw [hspan]
    exact Bool.false_ne_true
  rw [le_iff_value (isNaN_of_isFinite h.low_finite) hzero,
    le_iff_value hzero (isNaN_of_isFinite h.high_finite), value_zero]
  constructor
  · by_contra hlow
    rw [not_le] at hlow
    refine hinfinite (h.rounds_span.isFinite (representable_value h.high_finite) ?_)
    rw [abs_of_nonneg (by linarith)]
    linarith
  · by_contra hhigh
    rw [not_le] at hhigh
    refine hinfinite (h.rounds_span.isFinite (representable_value h.low_finite).neg ?_)
    rw [abs_of_nonneg (by linarith)]
    linarith

/-- No place has a value below the low end. -/
theorem low_le_ofUnit (h : b.Proper) (hx : x.isNaN = false) : b.low ≤ b.ofUnit x := by
  cases hspan : b.span.isFinite with
  | false =>
    rw [ofUnit_eq_zero hspan]
    exact (h.contains_zero_of_infinite hspan).1
  | true =>
    rw [le_iff (isNaN_of_isFinite h.low_finite) (isNaN_ofUnit h.low_finite hx),
      ofUnit_eq h.low_finite hspan hx]
    apply Scaled.placeOf_le_toFloat h.low_finite (exponent_exactValue b _) (by omega)
    have hpart := Int.mul_nonneg (amountOf_clamp hx).1 (h.amountOf_span_nonneg hspan)
    rw [inUnits_exactValue, ← Scaled.inUnits_mul_pow (.ofFloat b.low)
      (show (-2148 : Int) ≤ -1074 by omega) (least_exponent b.low)]
    exact Int.le_add_of_nonneg_left hpart

/-- A place further up has no smaller value. -/
theorem ofUnit_le_top (h : b.Proper) (hx : x.isNaN = false) : b.ofUnit x ≤ b.ofUnit 1.0 := by
  have hone : (1.0 : Float).isNaN = false := by decide +kernel
  have hclamp : clamp 1.0 0.0 1.0 = 1.0 := by decide +kernel
  rw [le_iff (isNaN_ofUnit h.low_finite hx) (isNaN_ofUnit h.low_finite hone)]
  cases hspan : b.span.isFinite with
  | false =>
    rw [ofUnit_eq_zero hspan, ofUnit_eq_zero hspan]
  | true =>
    rw [ofUnit_eq h.low_finite hspan hx, ofUnit_eq h.low_finite hspan hone]
    apply Scaled.placeOf_toFloat_mono (exponent_exactValue b _) (exponent_exactValue b _) (by omega)
    have hpart := Int.mul_le_mul_of_nonneg_right (amountOf_clamp hx).2
      (h.amountOf_span_nonneg hspan)
    rw [inUnits_exactValue, inUnits_exactValue, hclamp]
    omega

/-- A length that is not rounded up leads no further than the high end. -/
theorem top_le_high (h : b.Proper)
    (hlength : b.span.isFinite = true → value b.span ≤ value b.high - value b.low) :
    b.ofUnit 1.0 ≤ b.high := by
  have hone : (1.0 : Float).isNaN = false := by decide +kernel
  have hclamp : clamp 1.0 0.0 1.0 = 1.0 := by decide +kernel
  cases hspan : b.span.isFinite with
  | false =>
    rw [ofUnit_eq_zero hspan]
    exact (h.contains_zero_of_infinite hspan).2
  | true =>
    have hamount : amountOf b.span ≤ amountOf b.high - amountOf b.low := by
      have hvalue := hlength hspan
      rw [value_eq_amountOf hspan, value_eq_amountOf h.high_finite, value_eq_amountOf h.low_finite,
        ← sub_mul] at hvalue
      exact_mod_cast le_of_mul_le_mul_right hvalue (power_pos (-1074))
    rw [le_iff (isNaN_ofUnit h.low_finite hone) (isNaN_of_isFinite h.high_finite),
      ofUnit_eq h.low_finite hspan hone, hclamp]
    apply Scaled.placeOf_toFloat_le_of h.high_finite (exponent_exactValue b _) (by omega)
    rw [inUnits_exactValue, amountOf_one, ← Scaled.inUnits_mul_pow (.ofFloat b.high)
      (show (-2148 : Int) ≤ -1074 by omega) (least_exponent b.high)]
    show _ ≤ amountOf b.high * 2 ^ 1074
    omega

end Proper

end Places

section Around

variable {t u : Float}

/-- The numbers no farther from zero than `t`. -/
def around (t : Float) : Interval := ⟨-t, t⟩

theorem contains_around (ht : t.isNaN = false) {x : Float} (hx : x.isNaN = false)
    (hlow : -placeOf t ≤ placeOf x) (hhigh : placeOf x ≤ placeOf t) :
    (around t).contains x = true := by
  rw [contains_iff]
  constructor
  · show -t ≤ x
    rw [le_iff ((isNaN_neg t).trans ht) hx, placeOf_neg]
    exact hlow
  · exact (le_iff hx ht).2 hhigh

theorem isFinite_of_contains (ht : t.isFinite = true) {x : Float}
    (hin : (around t).contains x = true) : x.isFinite = true := by
  obtain ⟨hlow, hhigh⟩ := ((around t).contains_iff x).1 hin
  unfold around at hlow hhigh
  dsimp only at hlow hhigh
  obtain ⟨hx, hnumber⟩ := number_of_le hhigh
  have hplace := natAbs_placeOf_lt ht
  rw [le_iff hx hnumber] at hhigh
  rw [le_iff ((isNaN_neg _).trans hnumber) hx, placeOf_neg] at hlow
  exact isFinite_of_place hx (by omega) (by omega)

theorem placeOf_maxFinite : maxFinite.isFinite = true ∧ placeOf maxFinite = 2047 * 2 ^ 52 - 1 := by
  decide +kernel

/-- The unbounded interval is that of the finite numbers. -/
theorem contains_unbounded {x : Float} : unbounded.contains x = true ↔ x.isFinite = true := by
  obtain ⟨hfinite, hmost⟩ := placeOf_maxFinite
  show (around maxFinite).contains x = true ↔ _
  constructor
  · exact isFinite_of_contains hfinite
  · intro hx
    have hplace := natAbs_placeOf_lt hx
    exact contains_around (isNaN_of_isFinite hfinite) (isNaN_of_isFinite hx) (by omega) (by omega)

theorem contains_zero (ht : t.isFinite = true) (hpos : 0.0 < t) :
    (around t).contains 0.0 = true := by
  have hzero : (0.0 : Float).isNaN = false := by decide +kernel
  have hnumber := isNaN_of_isFinite ht
  rw [lt_iff hzero hnumber, placeOf_zero] at hpos
  apply contains_around hnumber hzero
  · rw [placeOf_zero]
    omega
  · rw [placeOf_zero]
    omega

theorem proper_around (ht : t.isFinite = true) (hpos : 0.0 < t) : (around t).Proper := by
  obtain ⟨hlow, hhigh⟩ := ((around t).contains_iff 0.0).1 (contains_zero ht hpos)
  exact ⟨isFinite_neg ht, ht, le_of_le_of_le hlow hhigh⟩

/-- The length of an interval around zero, unless it is infinite, is not rounded up. -/
theorem value_span_around_le (ht : t.isFinite = true) (hpos : 0.0 < t)
    (hspan : (around t).span.isFinite = true) :
    value (around t).span ≤ value (around t).high - value (around t).low := by
  have hrounds := (proper_around ht hpos).rounds_span
  have hdouble : value (around t).high - value (around t).low = 2 * value t := by
    show value t - value (-t) = _
    rw [value_neg]
    ring
  rw [hdouble] at hrounds ⊢
  obtain hsmall | hlarge := lt_or_ge |2 * value t| (power 1024)
  · exact (hrounds.exact ((representable_value ht).double hsmall)).le
  · have hnonneg : 0 ≤ value t := by
      have hzero : (0.0 : Float).isFinite = true := by decide +kernel
      rw [← value_zero]
      exact value_le_value hzero ht (Binary64.le_of_lt hpos)
    rw [abs_of_nonneg (by linarith)] at hlarge
    exact (abs_lt.1 (representable_value hspan).abs_lt).2.le.trans hlarge

/-- Every place has its value inside. -/
theorem contains_ofUnit (ht : t.isFinite = true) (hpos : 0.0 < t) (hu : u.isNaN = false) :
    (around t).contains ((around t).ofUnit u) = true := by
  have hproper := proper_around ht hpos
  rw [contains_iff]
  exact ⟨hproper.low_le_ofUnit hu, le_of_le_of_le (hproper.ofUnit_le_top hu)
    (hproper.top_le_high (value_span_around_le ht hpos))⟩

end Around

end Interval

end FlagCombat
