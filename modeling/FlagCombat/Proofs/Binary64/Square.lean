import FlagCombat.Proofs.Binary64.Sum

/-!
Where numbers overflow. What is rounded has the exponent to which its mantissa is shifted, or the
next one if the rounding carries, so its highest bit decides whether it is finite; a number has a
finite square just below `2 ^ 512`.
-/

namespace FlagCombat

namespace Binary64

open Float.Model (Format UnpackedFloat totalExponent)
open Float.Model.UnpackedFloat

section Rounding

variable {sign : Sign} {m : Nat} {e : Int}

/-- How many bits of a mantissa are rounded away. -/
def excess (m : Nat) (e : Int) : Nat := (max (m.log2 + e - 52) (-1074) - e).toNat

theorem excess_bounds (m : Nat) (e : Int) :
    -1074 ≤ e + excess m e ∧ m.log2 ≤ 52 + excess m e ∧
      e + excess m e = max e (max (m.log2 + e - 52) (-1074)) := by
  unfold excess
  omega

theorem div_excess_lt (m : Nat) (e : Int) : m / 2 ^ excess m e < 2 ^ 53 := by
  obtain ⟨-, hlog, -⟩ := excess_bounds m e
  rw [Nat.div_lt_iff_lt_mul (Nat.two_pow_pos _), ← pow_add]
  calc m < 2 ^ (m.log2 + 1) := Nat.lt_log2_self
    _ ≤ 2 ^ (53 + excess m e) := Nat.pow_le_pow_right Nat.two_pos (by omega)

theorem div_excess_pos (hm : 52 ≤ m.log2) (he : -1074 ≤ m.log2 + e - 52) :
    0 < m / 2 ^ excess m e := by
  have hpos : m ≠ 0 := by
    rintro rfl
    simp at hm
  apply Nat.div_pos _ (Nat.two_pow_pos _)
  calc 2 ^ excess m e ≤ 2 ^ m.log2 := by
        refine Nat.pow_le_pow_right Nat.two_pos ?_
        unfold excess
        omega
    _ ≤ m := Nat.log2_self_le hpos

/-- A mantissa in the units of its last place, rounded. -/
def roundedUnits (m : Nat) (e : Int) (accuracy : Accuracy) : Nat :=
  (ExtendedMantissa.ofMantissaAndAccuracy m accuracy >>> excess m e).roundedMantissa

theorem mantissa_ofMantissaAndAccuracy (m : Nat) (accuracy : Accuracy) :
    (ExtendedMantissa.ofMantissaAndAccuracy m accuracy).mantissa = m := by
  cases accuracy with
  | exact => rfl
  | inexact o => cases o <;> rfl

/-- What is left of a mantissa is rounded to itself or to the next one. -/
theorem roundedUnits_cases (m : Nat) (e : Int) (accuracy : Accuracy) :
    roundedUnits m e accuracy = m / 2 ^ excess m e ∨
      roundedUnits m e accuracy = m / 2 ^ excess m e + 1 := by
  have hcases := roundedMantissa_cases
    (ExtendedMantissa.ofMantissaAndAccuracy m accuracy >>> excess m e)
  rw [mantissa_shiftRight, mantissa_ofMantissaAndAccuracy] at hcases
  exact hcases

/-- A number is rounded in units of its last place, and a mantissa of 53 ones carries. -/
theorem roundWithAccuracy_eq (sign : Sign) (m : Nat) (e : Int) (accuracy : Accuracy) :
    roundWithAccuracy Format.binary64 sign m e accuracy =
      if h : roundedUnits m e accuracy = 0 then .zero sign
      else if roundedUnits m e accuracy < 2 ^ 53 then
        .finite sign (roundedUnits m e accuracy) (e + excess m e) (Nat.pos_of_ne_zero h)
      else .finite sign (2 ^ 52) (e + excess m e + 1) (by decide) := by
  obtain ⟨hleast, -, -⟩ := excess_bounds m e
  have hlt := div_excess_lt m e
  have hshift : shiftToTargetExponent Format.binary64 m e accuracy =
      (ExtendedMantissa.ofMantissaAndAccuracy m accuracy >>> excess m e, e + excess m e) := by
    unfold shiftToTargetExponent shiftToExponent
    dsimp only
    rw [targetExponent_eq]
    rfl
  have hcases := roundedUnits_cases m e accuracy
  unfold roundWithAccuracy
  rw [hshift]
  unfold roundedUnits at hcases ⊢
  dsimp only at hcases ⊢
  generalize (ExtendedMantissa.roundedMantissa _) = r at hcases ⊢
  by_cases hcarry : r < 2 ^ 53
  · rw [shift_legal hcarry hleast]
    exact dite_congr rfl (fun _ => rfl) fun _ => (if_pos hcarry).symm
  · obtain rfl : r = 2 * 2 ^ 52 := by omega
    rw [shift_double (Nat.le_refl (2 ^ 52)) (by decide) hleast]
    dsimp only
    rw [dif_neg (by decide), dif_neg (by decide), if_neg (by decide)]

/-- A number is finite if its exponent fits the word. -/
theorem isFinite_unpack_pack (sign : Sign) (e : Int) (hm : 0 < m) :
    (UnpackedFloat.unpack Format.binary64
      (UnpackedFloat.pack Format.binary64 (.finite sign m e hm))).isFinite = decide (e ≤ 971) := by
  have hreading {biased fraction : Nat} (h : biased ≠ 2047) :
      (reading sign biased fraction).isFinite = true := by
    obtain ⟨hlarge, -⟩ | ⟨hlarge, -⟩ | ⟨-, -, hread⟩ | ⟨-, hm, hread⟩ | ⟨-, -, hm, hread⟩ :=
      reading_cases sign biased fraction
    · exact absurd hlarge h
    · exact absurd hlarge h
    all_goals
      rw [hread]
      rfl
  rw [pack_finite]
  by_cases hlarge : 971 < e
  · rw [if_pos (by omega), decide_eq_false (by omega)]
    exact congrArg UnpackedFloat.isFinite (unpack_packComponents sign _ _)
  · rw [if_neg (by omega), decide_eq_true (by omega)]
    split
    · rw [unpack_packComponents]
      refine hreading ?_
      rw [BitVec.toNat_ofNat]
      omega
    · rw [unpack_packComponents]
      exact hreading (by decide)

/-- The number that a mantissa and an exponent are rounded to. -/
def rounded (sign : Sign) (m : Nat) (e : Int) : UnpackedFloat :=
  UnpackedFloat.unpack Format.binary64 (UnpackedFloat.pack Format.binary64
    (roundWithAccuracy Format.binary64 sign m e .exact))

theorem isFinite_rounded (h : e + excess m e < 971 ∨
    e + excess m e = 971 ∧ m / 2 ^ excess m e + 1 < 2 ^ 53) :
    (rounded sign m e).isFinite = true := by
  have hr := roundedUnits_cases m e .exact
  unfold rounded
  rw [roundWithAccuracy_eq]
  generalize roundedUnits m e .exact = r at hr ⊢
  by_cases hzero : r = 0
  · rw [dif_pos hzero]
    cases sign <;> rfl
  · rw [dif_neg hzero]
    by_cases hcarry : r < 2 ^ 53
    · rw [if_pos hcarry, isFinite_unpack_pack]
      exact decide_eq_true (by omega)
    · rw [if_neg hcarry, isFinite_unpack_pack]
      exact decide_eq_true (by omega)

theorem not_isFinite_rounded (hm : 0 < m / 2 ^ excess m e) (h : 971 < e + excess m e) :
    (rounded sign m e).isFinite = false := by
  have hr := roundedUnits_cases m e .exact
  unfold rounded
  rw [roundWithAccuracy_eq]
  generalize roundedUnits m e .exact = r at hr ⊢
  rw [dif_neg (by omega)]
  by_cases hcarry : r < 2 ^ 53
  · rw [if_pos hcarry, isFinite_unpack_pack]
    exact decide_eq_false (by omega)
  · rw [if_neg hcarry, isFinite_unpack_pack]
    exact decide_eq_false (by omega)

/-- A mantissa of few bits is rounded to a finite number. -/
theorem isFinite_round (hm : 0 < m) (h : m.log2 + e < 971) :
    (UnpackedFloat.unpack Format.binary64 (UnpackedFloat.pack Format.binary64
      (UnpackedFloat.round Format.binary64 sign m e))).isFinite = true := by
  unfold UnpackedFloat.round decreaseExponent
  dsimp only
  generalize (e - Format.binary64.targetExponent (totalExponent m e)).toNat = k
  have hlog : (m <<< k).log2 ≤ m.log2 + k := by
    rw [Nat.shiftLeft_eq]
    have hlt : m * 2 ^ k < 2 ^ (m.log2 + k + 1) := by
      calc m * 2 ^ k < 2 ^ (m.log2 + 1) * 2 ^ k :=
            Nat.mul_lt_mul_of_pos_right Nat.lt_log2_self (Nat.two_pow_pos k)
        _ = 2 ^ (m.log2 + k + 1) := by rw [← pow_add, Nat.add_right_comm]
    have hpos : 0 < m * 2 ^ k := Nat.mul_pos hm (Nat.two_pow_pos k)
    exact Nat.le_of_lt_succ ((Nat.log2_lt (Nat.ne_of_gt hpos)).2 hlt)
  obtain ⟨-, -, hexponent⟩ := excess_bounds (m <<< k) (e - k)
  exact isFinite_rounded (.inl (by omega))

end Rounding

section Squares

variable {m : Nat} {e : Int} {x : Float}

theorem log2_sq_lt (hm : 0 < m) (h : Legal m e) : (m * m).log2 < 106 := by
  have hlt := h.mantissa_lt
  refine (Nat.log2_lt (Nat.ne_of_gt (Nat.mul_pos hm hm))).2 ?_
  calc m * m < 2 ^ 53 * 2 ^ 53 := Nat.mul_lt_mul'' hlt hlt
    _ = 2 ^ 106 := by decide

theorem le_log2_sq (hfull : 2 ^ 52 ≤ m) : 104 ≤ (m * m).log2 := by
  have hlow : 2 ^ 104 ≤ m * m := by
    calc 2 ^ 104 = 2 ^ 52 * 2 ^ 52 := by decide
      _ ≤ m * m := Nat.mul_le_mul hfull hfull
  exact (Nat.le_log2 (by omega)).2 hlow

/-- A square is finite if the exponent of the number is small enough. -/
theorem isFinite_rounded_sq (sign : Sign) (hm : 0 < m) (h : Legal m e) :
    (rounded sign (m * m) (e + e)).isFinite = true ↔ e ≤ 459 := by
  obtain ⟨-, hlog, hexponent⟩ := excess_bounds (m * m) (e + e)
  have hlt := h.mantissa_lt
  have hleast := h.least
  have hfull := h.full
  have hhigh := log2_sq_lt hm h
  constructor
  · intro hfinite
    by_contra hlarge
    have hsquare := le_log2_sq (show 2 ^ 52 ≤ m by omega)
    rw [not_isFinite_rounded (div_excess_pos (by omega) (by omega)) (by omega)] at hfinite
    cases hfinite
  · intro hsmall
    apply isFinite_rounded
    by_cases hmost : e + e + excess (m * m) (e + e) < 971
    · exact .inl hmost
    -- The square of the largest mantissa leaves a mantissa below 53 ones, so nothing carries.
    · have hexcess : excess (m * m) (e + e) = 53 := by omega
      have hsquare : m * m ≤ (2 ^ 53 - 1) * (2 ^ 53 - 1) := Nat.mul_le_mul (by omega) (by omega)
      refine .inr ⟨by omega, ?_⟩
      rw [hexcess]
      omega

end Squares

/-- The least positive number whose square is infinite, `2 ^ 512`. -/
def squareLimit : Float := 1.3407807929942597e154

theorem placeOf_squareLimit : squareLimit.isNaN = false ∧ placeOf squareLimit = 1535 * 2 ^ 52 := by
  decide +kernel

/-- A number with a finite square. -/
def Moderate (x : Float) : Prop := -squareLimit < x ∧ x < squareLimit

theorem moderate_iff {x : Float} (hx : x.isNaN = false) :
    Moderate x ↔ (placeOf x).natAbs < 1535 * 2 ^ 52 := by
  obtain ⟨hnumber, hplace⟩ := placeOf_squareLimit
  unfold Moderate
  rw [lt_iff hx hnumber, lt_iff ((isNaN_neg _).trans hnumber) hx, placeOf_neg, hplace]
  omega

/-- A square is finite just of the numbers in between. -/
theorem isFinite_mul_self (x : Float) : (x * x).isFinite = true ↔ Moderate x := by
  have hproduct : (x * x).isFinite = (UnpackedFloat.unpack Format.binary64
      (UnpackedFloat.pack Format.binary64
        (UnpackedFloat.mul Format.binary64 x.toModel.unpack x.toModel.unpack))).isFinite := rfl
  have hcanonical := canonical x
  rw [hproduct]
  cases hunpack : x.toModel.unpack with
  | notANumber =>
    have hnan : x.isNaN = true := by rw [isNaN_eq, hunpack]; rfl
    refine ⟨fun h => absurd h (by decide), fun h => ?_⟩
    rw [(number_of_lt h.2).1] at hnan
    cases hnan
  | infinity s =>
    have hnumber : x.isNaN = false := by rw [isNaN_eq, hunpack]; rfl
    have hplace : (placeOf x).natAbs = 2047 * 2 ^ 52 := by
      unfold placeOf
      rw [hunpack]
      cases s <;> rfl
    rw [moderate_iff hnumber, hplace]
    cases s <;> decide
  | zero s =>
    have hnumber : x.isNaN = false := by rw [isNaN_eq, hunpack]; rfl
    have hplace : placeOf x = 0 := by
      unfold placeOf
      rw [hunpack]
      rfl
    rw [moderate_iff hnumber, hplace]
    cases s <;> decide
  | finite s m e hm =>
    have hnumber : x.isNaN = false := by rw [isNaN_eq, hunpack]; rfl
    rw [hunpack] at hcanonical
    obtain ⟨hlegal, hmost⟩ := hcanonical
    have hlt := hlegal.mantissa_lt
    have hleast := hlegal.least
    have hfull := hlegal.full
    rw [moderate_iff hnumber, natAbs_placeOf_finite hunpack]
    refine (isFinite_rounded_sq (s * s) hm hlegal).trans ?_
    omega

end Binary64

end FlagCombat
