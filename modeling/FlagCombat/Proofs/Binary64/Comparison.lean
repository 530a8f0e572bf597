import FlagCombat.Proofs.Binary64.Arithmetic

/-!
The order of numbers is that of the real numbers which they are, infinities included. So a rounded
result is compared with a number by comparing the exact result with it.
-/

namespace FlagCombat

namespace Binary64

open Float.Model.UnpackedFloat (Sign)

variable {x y z : Float}

theorem infinity_of_not_finite (hx : x.isNaN = false) (hinfinite : x.isFinite = false) :
    ∃ s, x.toModel.unpack = .infinity s := by
  rw [isNaN_eq] at hx
  change x.toModel.unpack.isFinite = false at hinfinite
  cases hunpack : x.toModel.unpack with
  | infinity s => exact ⟨s, rfl⟩
  | notANumber =>
    rw [hunpack] at hx
    cases hx
  | zero | finite =>
    rw [hunpack] at hinfinite
    cases hinfinite

/-- A number is finite, or it is one of the infinities. -/
theorem number_cases (hx : x.isNaN = false) :
    x.isFinite = true ∨ (placeOf x = 2047 * 2 ^ 52 ∧ value x = power 1024) ∨
      (placeOf x = -(2047 * 2 ^ 52) ∧ value x = -power 1024) := by
  refine or_iff_not_imp_left.2 fun hinfinite => ?_
  obtain ⟨s, hunpack⟩ := infinity_of_not_finite hx (Bool.eq_false_iff.2 hinfinite)
  unfold placeOf value
  rw [hunpack]
  cases s with
  | positive =>
    refine .inl ⟨rfl, ?_⟩
    show unit .positive * power 1024 = _
    rw [unit_positive, one_mul]
  | negative =>
    refine .inr ⟨rfl, ?_⟩
    show unit .negative * power 1024 = _
    rw [unit_negative, neg_one_mul]

theorem finite_bounds (hx : x.isFinite = true) :
    (-(2047 * 2 ^ 52) < placeOf x ∧ placeOf x < 2047 * 2 ^ 52) ∧
      -power 1024 < value x ∧ value x < power 1024 := by
  have hplace := natAbs_placeOf_lt hx
  exact ⟨⟨by omega, by omega⟩, abs_lt.1 (representable_value hx).abs_lt⟩

theorem placeOf_le_of_amountOf_le (hx : x.isFinite = true) (hy : y.isFinite = true)
    (h : amountOf x ≤ amountOf y) : placeOf x ≤ placeOf y := by
  rw [← Scaled.placeOf_toFloat_ofFloat hx, ← Scaled.placeOf_toFloat_ofFloat hy]
  exact Scaled.placeOf_toFloat_mono (least_exponent x) (least_exponent y) (Int.le_refl _) h

theorem le_of_value_le (hx : x.isFinite = true) (hy : y.isFinite = true)
    (h : value x ≤ value y) : x ≤ y := by
  rw [value_eq_amountOf hx, value_eq_amountOf hy] at h
  rw [le_iff (isNaN_of_isFinite hx) (isNaN_of_isFinite hy)]
  refine placeOf_le_of_amountOf_le hx hy ?_
  exact_mod_cast le_of_mul_le_mul_right h (power_pos (-1074))

/-- Numbers are ordered like the real numbers that they are. -/
theorem le_iff_value (hx : x.isNaN = false) (hy : y.isNaN = false) : x ≤ y ↔ value x ≤ value y := by
  have hpower := power_pos 1024
  rw [le_iff hx hy]
  obtain hfinite | ⟨hplace, hvalue⟩ | ⟨hplace, hvalue⟩ := number_cases hx
  · obtain ⟨⟨hlow, hhigh⟩, hlow', hhigh'⟩ := finite_bounds hfinite
    obtain hfinite' | ⟨hplace', hvalue'⟩ | ⟨hplace', hvalue'⟩ := number_cases hy
    · rw [← le_iff hx hy]
      exact ⟨value_le_value hfinite hfinite', le_of_value_le hfinite hfinite'⟩
    · exact iff_of_true (by omega) (by linarith)
    · exact iff_of_false (by omega) (by linarith)
  · obtain hfinite' | ⟨hplace', hvalue'⟩ | ⟨hplace', hvalue'⟩ := number_cases hy
    · obtain ⟨⟨-, hhigh⟩, -, hhigh'⟩ := finite_bounds hfinite'
      exact iff_of_false (by omega) (by linarith)
    · exact iff_of_true (by omega) (by linarith)
    · exact iff_of_false (by omega) (by linarith)
  · obtain hfinite' | ⟨hplace', hvalue'⟩ | ⟨hplace', hvalue'⟩ := number_cases hy
    · obtain ⟨⟨hlow, -⟩, hlow', -⟩ := finite_bounds hfinite'
      exact iff_of_true (by omega) (by linarith)
    · exact iff_of_true (by omega) (by linarith)
    · exact iff_of_true (by omega) (by linarith)

theorem lt_iff_value (hx : x.isNaN = false) (hy : y.isNaN = false) : x < y ↔ value x < value y := by
  rw [← not_le, ← le_iff_value hy hx, le_iff hy hx, lt_iff hx hy]
  omega

section Equality

theorem number_of_beq (h : (x == y) = true) : x.isNaN = false ∧ y.isNaN = false :=
  number_of_compare (beq_iff_compare.1 h)

/-- Numbers are equal if they are the same real number. -/
theorem beq_iff_value (hx : x.isNaN = false) (hy : y.isNaN = false) :
    (x == y) = true ↔ value x = value y := by
  rw [beq_iff_compare, compare_float hx hy, Option.some.injEq, Int.compare_eq_eq, le_antisymm_iff,
    le_antisymm_iff, ← le_iff hx hy, ← le_iff hy hx, le_iff_value hx hy, le_iff_value hy hx]

theorem beq_self (hx : x.isNaN = false) : (x == x) = true := (beq_iff_value hx hx).2 rfl

theorem beq_symm (h : (x == y) = true) : (y == x) = true := by
  obtain ⟨hx, hy⟩ := number_of_beq h
  rw [beq_iff_value hx hy] at h
  exact (beq_iff_value hy hx).2 h.symm

theorem beq_trans (h : (x == y) = true) (h' : (y == z) = true) : (x == z) = true := by
  obtain ⟨hx, hy⟩ := number_of_beq h
  have hz := (number_of_beq h').2
  rw [beq_iff_value hx hy] at h
  rw [beq_iff_value hy hz] at h'
  exact (beq_iff_value hx hz).2 (h.trans h')

/-- What equals zero is finite. -/
theorem zero_of_beq (h : (x == 0.0) = true) : x.isFinite = true ∧ value x = 0 := by
  obtain ⟨hx, hzero⟩ := number_of_beq h
  rw [beq_iff_value hx hzero, value_zero] at h
  refine ⟨isFinite_of_value hx ?_, h⟩
  rw [h, abs_zero]
  exact power_pos 1024

end Equality

section Infinite

open Float.Model (Format UnpackedFloat)

/-- A finite summand does not change an infinity. -/
theorem infinite_add (hx : x.isNaN = false) (hinfinite : x.isFinite = false)
    (hy : y.isFinite = true) : (x + y).isNaN = false ∧ value (x + y) = value x := by
  have hsum : (x + y).toModel.unpack = x.toModel.unpack := by
    show UnpackedFloat.unpack Format.binary64 (UnpackedFloat.pack Format.binary64
      (UnpackedFloat.add Format.binary64 x.toModel.unpack y.toModel.unpack)) = _
    obtain ⟨s, hunpack⟩ := infinity_of_not_finite hx hinfinite
    rw [hunpack]
    obtain ⟨s', hunpack'⟩ | ⟨s', m, e, hm, hunpack'⟩ := finite_cases hy
    · rw [hunpack']
      exact unpack_pack (f := .infinity s) trivial
    · rw [hunpack']
      exact unpack_pack (f := .infinity s) trivial
  unfold value
  rw [isNaN_eq, hsum]
  exact ⟨hx, rfl⟩

/-- Nor does a positive divisor. -/
theorem infinite_div (hx : x.isNaN = false) (hinfinite : x.isFinite = false) {m : Nat} {e : Int}
    {hm : 0 < m} (hy : y.toModel.unpack = .finite .positive m e hm) :
    (x / y).isNaN = false ∧ value (x / y) = value x := by
  have hquotient : (x / y).toModel.unpack = x.toModel.unpack := by
    show UnpackedFloat.unpack Format.binary64 (UnpackedFloat.pack Format.binary64
      (UnpackedFloat.div Format.binary64 x.toModel.unpack y.toModel.unpack)) = _
    obtain ⟨s, hunpack⟩ := infinity_of_not_finite hx hinfinite
    rw [hunpack, hy]
    cases s <;> exact unpack_pack (f := .infinity _) trivial
  unfold value
  rw [isNaN_eq, hquotient]
  exact ⟨hx, rfl⟩

variable {c f : ℝ}

/-- A sum is computed as at most what it is at most, though a summand be infinite. -/
theorem value_add_le (hx : x.isNaN = false) (hy : y.isFinite = true) (hf : Representable f)
    (hc : c < power 1024) (hxc : value x ≤ c) (h : c + value y ≤ f) : value (x + y) ≤ f := by
  cases hfinite : x.isFinite with
  | true => exact (rounds_add hfinite hy).le_of_le hf (by linarith)
  | false =>
    rw [(infinite_add hx hfinite hy).2]
    obtain hfinite' | ⟨-, hvalue⟩ | ⟨-, hvalue⟩ := number_cases hx
    · rw [hfinite] at hfinite'
      cases hfinite'
    · linarith
    · exact hvalue.trans_le (abs_lt.1 hf.abs_lt).1.le

theorem le_value_add (hx : x.isNaN = false) (hy : y.isFinite = true) (hf : Representable f)
    (hc : -power 1024 < c) (hxc : c ≤ value x) (h : f ≤ c + value y) : f ≤ value (x + y) := by
  cases hfinite : x.isFinite with
  | true => exact (rounds_add hfinite hy).ge_of_ge hf (by linarith)
  | false =>
    rw [(infinite_add hx hfinite hy).2]
    obtain hfinite' | ⟨-, hvalue⟩ | ⟨-, hvalue⟩ := number_cases hx
    · rw [hfinite] at hfinite'
      cases hfinite'
    · exact (abs_lt.1 hf.abs_lt).2.le.trans_eq hvalue.symm
    · linarith

variable {m : ℕ} {e : ℤ} {hm : 0 < m}

theorem le_value_div (hx : x.isNaN = false) (hy : y.toModel.unpack = .finite .positive m e hm)
    (hf : Representable f) (hxf : f * value y ≤ value x) (hpos : 0 ≤ f) : f ≤ value (x / y) := by
  have hdivisor : 0 < value y := by
    rw [value_positive hm hy]
    exact mul_pos (Nat.cast_pos.2 hm) (power_pos e)
  cases hfinite : x.isFinite with
  | true =>
    exact (rounds_div hfinite ⟨_, _, _, _, hy⟩).ge_of_ge hf ((le_div_iff₀ hdivisor).2 hxf)
  | false =>
    rw [(infinite_div hx hfinite hy).2]
    obtain hfinite' | ⟨-, hvalue⟩ | ⟨-, hvalue⟩ := number_cases hx
    · rw [hfinite] at hfinite'
      cases hfinite'
    · exact (abs_lt.1 hf.abs_lt).2.le.trans_eq hvalue.symm
    · have := mul_nonneg hpos hdivisor.le
      have := power_pos 1024
      linarith

theorem value_div_le (hx : x.isNaN = false) (hy : y.toModel.unpack = .finite .positive m e hm)
    (hf : Representable f) (hxf : value x ≤ f * value y) (hneg : f ≤ 0) : value (x / y) ≤ f := by
  have hdivisor : 0 < value y := by
    rw [value_positive hm hy]
    exact mul_pos (Nat.cast_pos.2 hm) (power_pos e)
  cases hfinite : x.isFinite with
  | true =>
    exact (rounds_div hfinite ⟨_, _, _, _, hy⟩).le_of_le hf ((div_le_iff₀ hdivisor).2 hxf)
  | false =>
    rw [(infinite_div hx hfinite hy).2]
    obtain hfinite' | ⟨-, hvalue⟩ | ⟨-, hvalue⟩ := number_cases hx
    · rw [hfinite] at hfinite'
      cases hfinite'
    · have := mul_nonpos_of_nonpos_of_nonneg hneg hdivisor.le
      have := power_pos 1024
      linarith
    · exact hvalue.trans_le (abs_lt.1 hf.abs_lt).1.le

end Infinite

namespace Rounds

variable {q : ℝ}

/-- A result that is exactly at most a finite number is computed as at most it. -/
theorem le_number (h : Rounds q z) (hx : x.isFinite = true) (hq : q ≤ value x) : z ≤ x :=
  (le_iff_value h.number (isNaN_of_isFinite hx)).2 (h.le_of_le (representable_value hx) hq)

/-- A result that is exactly at least a finite number is computed as at least it. -/
theorem number_le (h : Rounds q z) (hx : x.isFinite = true) (hq : value x ≤ q) : x ≤ z :=
  (le_iff_value (isNaN_of_isFinite hx) h.number).2 (h.ge_of_ge (representable_value hx) hq)

end Rounds

end Binary64

end FlagCombat
