import FlagCombat.Proofs.Binary64.Order

/-!
What the operations on binary64 numbers keep. Rounding always gives a number, so products, quotients
and sums of numbers are numbers where one of the two is finite. A mantissa that fits a word is not
shifted, and twice a full one is shifted by one place.
-/

namespace FlagCombat

namespace Binary64

open Float.Model (Format UnpackedFloat totalExponent)
open Float.Model.UnpackedFloat

theorem isNaN_roundWithAccuracy (sign : Sign) (m : Nat) (e : Int) (accuracy : Accuracy) :
    (roundWithAccuracy Format.binary64 sign m e accuracy).isNaN = false := by
  have hrounded (m : Nat) (e : Int) (h : ∀ hm : ¬m = 0, 0 < m) :
      (if hm : m = 0 then UnpackedFloat.zero sign else .finite sign m e (h hm)).isNaN = false := by
    by_cases hm : m = 0
    · rw [dif_pos hm]
      rfl
    · rw [dif_neg hm]
      rfl
  exact hrounded _ _ fun hm => Nat.pos_of_ne_zero hm

theorem isNaN_normalize (m e : Int) (sign : Sign) :
    (UnpackedFloat.normalize Format.binary64 m e sign).isNaN = false := by
  unfold UnpackedFloat.normalize
  split
  · exact isNaN_roundWithAccuracy ..
  · rfl
  · exact isNaN_roundWithAccuracy ..

/-- A finite number other than zero. -/
def IsProper (x : Float) : Prop := ∃ s m e hm, x.toModel.unpack = .finite s m e hm

theorem isProper_of_isFinite {x : Float} (hx : x.isFinite = true) (hzero : (x == 0.0) = false) :
    IsProper x := by
  obtain ⟨s, hunpack⟩ | hproper := finite_cases hx
  · have heq : (x == 0.0) = true := by
      rw [beq_iff_compare, hunpack]
      cases s <;> rfl
    rw [heq] at hzero
    cases hzero
  · exact hproper

section Numbers

variable {x y : Float}

/-- An operation that makes numbers of infinities, zeros and finite numbers makes them of all
numbers. -/
theorem isNaN_of_operation (op : UnpackedFloat → UnpackedFloat) (hx : x.isNaN = false)
    (hinfinity : ∀ s, (op (.infinity s)).isNaN = false) (hzero : ∀ s, (op (.zero s)).isNaN = false)
    (hfinite : ∀ s m e hm, (op (.finite s m e hm)).isNaN = false) :
    (UnpackedFloat.unpack Format.binary64
      (UnpackedFloat.pack Format.binary64 (op x.toModel.unpack))).isNaN = false := by
  rw [isNaN_eq] at hx
  apply isNaN_unpack_pack
  cases h : x.toModel.unpack with
  | notANumber =>
    rw [h] at hx
    cases hx
  | infinity s => exact hinfinity s
  | zero s => exact hzero s
  | finite s m e hm => exact hfinite s m e hm

/-- A number over a proper one is a number. -/
theorem isNaN_div (hx : x.isNaN = false) (hy : IsProper y) : (x / y).isNaN = false := by
  obtain ⟨s, m, e, hm, hunpack⟩ := hy
  apply isNaN_of_operation (UnpackedFloat.div Format.binary64 · y.toModel.unpack) hx
  all_goals rw [hunpack]
  · exact fun _ => rfl
  · exact fun _ => rfl
  · exact fun _ _ _ _ => isNaN_roundWithAccuracy ..

theorem isNaN_mul (hx : x.isNaN = false) (hy : IsProper y) : (x * y).isNaN = false := by
  obtain ⟨s, m, e, hm, hunpack⟩ := hy
  apply isNaN_of_operation (UnpackedFloat.mul Format.binary64 · y.toModel.unpack) hx
  all_goals rw [hunpack]
  · exact fun _ => rfl
  · exact fun _ => rfl
  · exact fun _ _ _ _ => isNaN_roundWithAccuracy ..

/-- A number and a finite one have a sum. -/
theorem isNaN_add (hx : x.isNaN = false) (hy : y.isFinite = true) : (x + y).isNaN = false := by
  obtain ⟨s', hunpack⟩ | ⟨s', m', e', hm', hunpack⟩ := finite_cases hy
  · apply isNaN_of_operation (UnpackedFloat.add Format.binary64 · y.toModel.unpack) hx
    all_goals rw [hunpack]
    · exact fun _ => rfl
    · intro s
      cases s <;> cases s' <;> rfl
    · exact fun _ _ _ _ => rfl
  · apply isNaN_of_operation (UnpackedFloat.add Format.binary64 · y.toModel.unpack) hx
    all_goals rw [hunpack]
    · exact fun _ => rfl
    · exact fun _ => rfl
    · exact fun _ _ _ _ => isNaN_normalize ..

theorem isNaN_toFloat (n : UInt64) : n.toFloat.isNaN = false := by
  show (UnpackedFloat.unpack Format.binary64 (UnpackedFloat.pack Format.binary64
    (UnpackedFloat.normalize Format.binary64 n.toNat 0 .positive))).isNaN = false
  apply isNaN_unpack_pack
  exact isNaN_normalize ..

end Numbers

section Doubling

variable {m : Nat} {e : Int}

theorem log2_lt (hm : m < 2 ^ 53) : m.log2 < 53 := by
  by_cases hzero : m = 0
  · rw [hzero, Nat.log2_zero]
    omega
  · exact (Nat.log2_lt hzero).2 hm

theorem targetExponent_eq (m : Nat) (e : Int) :
    Format.binary64.targetExponent (totalExponent m e) = max (m.log2 + e - 52) (-1074) := by
  have hbits : (Format.binary64.mantissaBits : Int) = 53 := rfl
  have hleast : Format.binary64.minExponent = -1074 := by decide
  unfold Format.targetExponent totalExponent
  rw [hbits, hleast]
  omega

/-- A pair that a word can hold is not shifted. -/
theorem shift_legal (hm : m < 2 ^ 53) (he : -1074 ≤ e) :
    shiftToTargetExponent Format.binary64 m e .exact = (⟨m, false, false⟩, e) := by
  have hlog := log2_lt hm
  unfold shiftToTargetExponent shiftToExponent
  dsimp only
  rw [targetExponent_eq, show (max (m.log2 + e - 52) (-1074) - e).toNat = 0 by omega]
  exact congrArg (Prod.mk _) (Int.add_zero e)

/-- Twice a full mantissa is shifted by one place, in which it has no bit. -/
theorem shift_double (hlow : 2 ^ 52 ≤ m) (hm : m < 2 ^ 53) (he : -1074 ≤ e) :
    shiftToTargetExponent Format.binary64 (2 * m) e .exact = (⟨m, false, false⟩, e + 1) := by
  have hlog : (2 * m).log2 = 53 := (Nat.log2_eq_iff (by omega)).2 ⟨by omega, by omega⟩
  have hhalf : (ExtendedMantissa.mk (2 * m) false false).shiftRightOne = ⟨m, false, false⟩ := by
    unfold ExtendedMantissa.shiftRightOne
    simp
  unfold shiftToTargetExponent shiftToExponent
  dsimp only
  rw [targetExponent_eq, hlog, show (max ((53 : Nat) + e - 52) (-1074) - e).toNat = 1 by omega]
  exact congrArg (Prod.mk · _) hhalf

theorem roundWithAccuracy_of_shift {sign : Sign} {m' : Nat} {e' : Int} (hm : 0 < m)
    (hlt : m < 2 ^ 53) (he : -1074 ≤ e)
    (h : shiftToTargetExponent Format.binary64 m' e' .exact = (⟨m, false, false⟩, e)) :
    roundWithAccuracy Format.binary64 sign m' e' .exact = .finite sign m e hm := by
  have hrounded : (ExtendedMantissa.mk m false false).roundedMantissa = m := rfl
  unfold roundWithAccuracy
  rw [h]
  dsimp only
  rw [hrounded, shift_legal hlt he]
  exact dif_neg (Nat.ne_of_gt hm)

end Doubling

end Binary64

end FlagCombat
