import FlagCombat.Proofs.Binary64.Order
import FlagCombat.Binary64.Scaled
import Mathlib.Tactic.Ring

/-!
Sums and products of scaled integers are exact, and rounding keeps the order: of two scaled integers
the larger one is rounded to a number that has no smaller place. The place is a magnitude with a
sign, and the magnitude counts units of the last place, which are a rounded quotient by a power of
two.
-/

namespace FlagCombat

namespace Binary64

open Float.Model (Format UnpackedFloat)
open Float.Model.UnpackedFloat (Sign unpackMantissa unpackExponent unpackSign)

theorem unpack_ofBits (w : UInt64) :
    (Float.ofBits w).toModel.unpack = UnpackedFloat.unpack Format.binary64 w.toBitVec :=
  unpack_pack (canonical_unpack _)

def signOf (negative : Bool) : Sign := if negative then .negative else .positive

/-- A word below those of the infinities is a number, and its magnitude is its place. -/
theorem placeOf_ofBits (negative : Bool) {magnitude : Nat} (h : magnitude < 2047 * 2 ^ 52) :
    let x := Float.ofBits ((if negative then 0x8000000000000000 else 0) ||| magnitude.toUInt64)
    x.isNaN = false ∧ placeOf x = (signOf negative).apply magnitude := by
  intro x
  let word : UInt64 := (if negative then 0x8000000000000000 else 0) ||| magnitude.toUInt64
  have hword : word.toBitVec.toNat = (if negative then 2 ^ 63 else 0) + magnitude := by
    have hmagnitude : magnitude.toUInt64.toNat = magnitude := 
      UInt64.toNat_ofNat_of_lt' (show magnitude < 2 ^ 64 by omega)
    show ((if negative then (0x8000000000000000 : UInt64) else 0) ||| magnitude.toUInt64).toNat = _
    rw [UInt64.toNat_or, hmagnitude]
    cases negative with
    | false => simp
    | true => exact (Nat.shiftLeft_add_eq_or_of_lt (show magnitude < 2 ^ 63 by omega) 1).symm
  have hsign : Sign.ofBitVec (@unpackSign Format.binary64 word.toBitVec) = signOf negative := by
    have hbit : @unpackSign Format.binary64 word.toBitVec = (signOf negative).toBitVec := by
      apply BitVec.eq_of_toNat_eq
      rw [toNat_unpackSign, hword]
      cases negative with
      | false =>
        show (0 + magnitude) / 2 ^ 63 % 2 = 0
        omega
      | true =>
        show (2 ^ 63 + magnitude) / 2 ^ 63 % 2 = 1
        omega
    rw [hbit, ofBitVec_toBitVec]
  have hbiased : (@unpackExponent Format.binary64 word.toBitVec).toNat = magnitude / 2 ^ 52 := by
    rw [toNat_unpackExponent, hword]
    split <;> omega
  have hfraction : (@unpackMantissa Format.binary64 word.toBitVec).toNat = magnitude % 2 ^ 52 := by
    rw [toNat_unpackMantissa, hword]
    split <;> omega
  have hread : x.toModel.unpack =
      reading (signOf negative) (magnitude / 2 ^ 52) (magnitude % 2 ^ 52) := by
    rw [unpack_ofBits, unpack_eq, hsign, hbiased, hfraction]
  have hnumber : (reading (signOf negative) (magnitude / 2 ^ 52) (magnitude % 2 ^ 52)).isNaN =
      false := by
    rw [Bool.eq_false_iff, ne_eq, isNaN_reading]
    omega
  refine ⟨by rw [isNaN_eq, hread, hnumber], ?_⟩
  unfold placeOf
  rw [hread, place_reading hnumber]
  apply congrArg
  omega

end Binary64

namespace Scaled

open Binary64

def sign (x : Scaled) : Int := if x.negative then -1 else 1

theorem inUnits_eq (x : Scaled) (e : Int) :
    x.inUnits e = x.sign * (x.mantissa * 2 ^ (x.exponent - e).toNat) := by
  unfold inUnits sign
  rw [Nat.shiftLeft_eq]
  split <;> push_cast <;> ring

/-- Smaller units count the same amount. -/
theorem inUnits_mul_pow (x : Scaled) {e e' : Int} (he : e ≤ e') (hx : e' ≤ x.exponent) :
    x.inUnits e' * 2 ^ (e' - e).toNat = x.inUnits e := by
  have hsplit : (x.exponent - e).toNat = (x.exponent - e').toNat + (e' - e).toNat := by omega
  rw [inUnits_eq, inUnits_eq, hsplit, pow_add]
  ring

theorem inUnits_mul (x y : Scaled) {e e' : Int} (hx : e ≤ x.exponent) (hy : e' ≤ y.exponent) :
    (x.mul y).inUnits (e + e') = x.inUnits e * y.inUnits e' := by
  have hsign : (x.mul y).sign = x.sign * y.sign := by
    unfold sign mul
    cases x.negative <;> cases y.negative <;> rfl
  have hsplit : (x.exponent + y.exponent - (e + e')).toNat =
      (x.exponent - e).toNat + (y.exponent - e').toNat := by omega
  rw [inUnits_eq, inUnits_eq, inUnits_eq, hsign]
  show _ * (((x.mantissa * y.mantissa : Nat) : Int) *
    2 ^ (x.exponent + y.exponent - (e + e')).toNat) = _
  rw [hsplit, pow_add]
  push_cast
  ring

theorem exponent_add (x y : Scaled) : (x.add y).exponent = min x.exponent y.exponent := by
  unfold add
  dsimp only
  split <;> rfl

theorem inUnits_add (x y : Scaled) {e : Int} (hx : e ≤ x.exponent) (hy : e ≤ y.exponent) :
    (x.add y).inUnits e = x.inUnits e + y.inUnits e := by
  have hleast : e ≤ min x.exponent y.exponent := by omega
  rw [← inUnits_mul_pow (x.add y) hleast (by rw [exponent_add]),
    ← inUnits_mul_pow x hleast (by omega), ← inUnits_mul_pow y hleast (by omega), ← Int.add_mul]
  congr 1
  rw [inUnits_eq, exponent_add, Int.sub_self, Int.toNat_zero, pow_zero, mul_one]
  unfold add sign
  dsimp only
  split
  · rename_i hzero
    simp [hzero]
  · dsimp only
    split <;> rename_i hsign <;> simp only [decide_eq_true_eq] at hsign <;> omega

section Quotients

variable {m m' s : Nat}

/-- How a rounded quotient lies to the quotient and the rest. -/
theorem shiftRightNearest_cases (m s : Nat) :
    (shiftRightNearest m s = m / 2 ^ s ∧ 2 * (m % 2 ^ s) < 2 ^ s) ∨
    (shiftRightNearest m s = m / 2 ^ s + m / 2 ^ s % 2 ∧ 2 * (m % 2 ^ s) = 2 ^ s) ∨
    (shiftRightNearest m s = m / 2 ^ s + 1 ∧ 2 ^ s < 2 * (m % 2 ^ s)) := by
  have hrest : m - m / 2 ^ s * 2 ^ s = m % 2 ^ s := by
    have := Nat.div_add_mod' m (2 ^ s)
    omega
  have hone : 1 <<< s = 2 ^ s := Nat.one_shiftLeft s
  unfold shiftRightNearest
  simp only [Nat.shiftRight_eq_div_pow, Nat.shiftLeft_eq (m / 2 ^ s), hrest, hone]
  split
  · rename_i h
    exact .inl ⟨rfl, Nat.compare_eq_lt.1 h⟩
  · rename_i h
    exact .inr (.inl ⟨rfl, Nat.compare_eq_eq.1 h⟩)
  · rename_i h
    exact .inr (.inr ⟨rfl, Nat.compare_eq_gt.1 h⟩)

theorem shiftRightNearest_mono (h : m ≤ m') : shiftRightNearest m s ≤ shiftRightNearest m' s := by
  have hquotient : m / 2 ^ s ≤ m' / 2 ^ s := Nat.div_le_div_right h
  have hsplit := Nat.div_add_mod' m (2 ^ s)
  have hsplit' := Nat.div_add_mod' m' (2 ^ s)
  have hcases := shiftRightNearest_cases m s
  have hcases' := shiftRightNearest_cases m' s
  obtain hless | heq := Nat.lt_or_eq_of_le hquotient
  · omega
  -- of equal quotients, the one with the smaller rest is not rounded up alone
  · rw [heq] at hcases hsplit
    have hrest : m % 2 ^ s ≤ m' % 2 ^ s := by omega
    omega

/-- Zeros at the end are shifted out. -/
theorem shiftRightNearest_mul_pow (m s k : Nat) :
    shiftRightNearest (m * 2 ^ k) (s + k) = shiftRightNearest m s := by
  have hpos := Nat.two_pow_pos k
  have hquotient : m * 2 ^ k / 2 ^ (s + k) = m / 2 ^ s := by
    rw [pow_add, Nat.mul_div_mul_right _ _ hpos]
  have hrest : m * 2 ^ k % 2 ^ (s + k) = m % 2 ^ s * 2 ^ k := by
    rw [pow_add, Nat.mul_mod_mul_right]
  have hcases := shiftRightNearest_cases (m * 2 ^ k) (s + k)
  rw [hquotient, hrest, pow_add, ← Nat.mul_assoc] at hcases
  obtain ⟨hround, hhalf⟩ | ⟨hround, hhalf⟩ | ⟨hround, hhalf⟩ := shiftRightNearest_cases m s
  · have := Nat.mul_lt_mul_of_pos_right hhalf hpos
    omega
  · rw [hhalf] at hcases
    omega
  · have := Nat.mul_lt_mul_of_pos_right hhalf hpos
    omega

theorem shiftRightNearest_zero (m : Nat) : shiftRightNearest m 0 = m := by
  have hcases := shiftRightNearest_cases m 0
  rw [pow_zero, Nat.div_one, Nat.mod_one] at hcases
  omega

/-- Rounding to a whole number does not pass a whole number. -/
theorem shiftRightNearest_le {limit : Nat} (h : m ≤ limit * 2 ^ s) :
    shiftRightNearest m s ≤ limit := by
  have hlimit := shiftRightNearest_mul_pow limit 0 s
  rw [Nat.zero_add, shiftRightNearest_zero] at hlimit
  exact (shiftRightNearest_mono h).trans_eq hlimit

end Quotients

section Magnitudes

variable {x y : Scaled} {e : Int}

theorem apply_signOf_false (n : Int) : (signOf false).apply n = n := rfl

theorem apply_signOf_true (n : Int) : (signOf true).apply n = -n := rfl

/-- The size of a scaled integer in units `2 ^ e`. -/
def sizeIn (x : Scaled) (e : Int) : Nat := x.mantissa * 2 ^ (x.exponent - e).toNat

/-- The units of the last place are a rounded quotient, in whatever units the size is taken. -/
theorem units_eq (he : e ≤ x.exponent) (he' : e ≤ x.unitExponent) :
    x.units = shiftRightNearest (x.sizeIn e) (x.unitExponent - e).toNat := by
  unfold units sizeIn
  dsimp only
  split
  · rename_i hle
    have hsplit : (x.exponent - e).toNat =
        (x.exponent - x.unitExponent).toNat + (x.unitExponent - e).toNat := by omega
    have hshift := shiftRightNearest_mul_pow
      (x.mantissa * 2 ^ (x.exponent - x.unitExponent).toNat) 0 (x.unitExponent - e).toNat
    rw [Nat.zero_add, shiftRightNearest_zero] at hshift
    rw [Nat.shiftLeft_eq, hsplit, pow_add, ← Nat.mul_assoc, hshift]
  · rename_i hlt
    have hsplit : (x.unitExponent - e).toNat =
        (x.unitExponent - x.exponent).toNat + (x.exponent - e).toNat := by omega
    rw [hsplit, shiftRightNearest_mul_pow]

theorem inUnits_eq_apply (x : Scaled) (e : Int) :
    x.inUnits e = (signOf x.negative).apply (x.sizeIn e) := by
  unfold inUnits sizeIn
  rw [Nat.shiftLeft_eq]
  cases x.negative <;> rfl

theorem le_sizeIn (hx : x.mantissa ≠ 0) :
    2 ^ (x.mantissa.log2 + (x.exponent - e).toNat) ≤ x.sizeIn e := by
  rw [pow_add]
  exact Nat.mul_le_mul_right _ (Nat.log2_self_le hx)

theorem sizeIn_lt : x.sizeIn e < 2 ^ (x.mantissa.log2 + 1 + (x.exponent - e).toNat) := by
  rw [pow_add]
  exact Nat.mul_lt_mul_of_pos_right Nat.lt_log2_self (Nat.two_pow_pos _)

theorem units_le_two_pow (x : Scaled) : x.units ≤ 2 ^ 53 := by
  have hlog : (x.mantissa.log2 : Int) + x.exponent - 52 ≤ x.unitExponent := by
    unfold unitExponent
    omega
  rw [units_eq (min_le_left x.exponent x.unitExponent) (min_le_right x.exponent x.unitExponent)]
  refine shiftRightNearest_le (sizeIn_lt.le.trans ?_)
  rw [← pow_add]
  exact Nat.pow_le_pow_right Nat.two_pos (by omega)

/-- A larger size has no smaller units. -/
theorem unitExponent_mono (hx : x.mantissa ≠ 0) (hex : e ≤ x.exponent) (hey : e ≤ y.exponent)
    (h : x.sizeIn e ≤ y.sizeIn e) : x.unitExponent ≤ y.unitExponent := by
  have hlog := (Nat.pow_lt_pow_iff_right Nat.one_lt_two).1
    ((le_sizeIn hx).trans_lt (h.trans_lt sizeIn_lt))
  unfold unitExponent
  omega

/-- Above the least exponent the units fill a mantissa. -/
theorem le_units (hx : x.mantissa ≠ 0) (he : e ≤ x.exponent) (he' : e ≤ -1074)
    (hunit : -1074 < x.unitExponent) : 2 ^ 52 ≤ x.units := by
  have hexponent : x.unitExponent = x.mantissa.log2 + x.exponent - 52 := by
    unfold unitExponent at hunit ⊢
    omega
  have hquotient : 2 ^ 52 ≤ x.sizeIn e / 2 ^ (x.unitExponent - e).toNat := by
    rw [Nat.le_div_iff_mul_le (Nat.two_pow_pos _), ← pow_add]
    refine (Nat.pow_le_pow_right Nat.two_pos ?_).trans (le_sizeIn hx)
    omega
  have hcases := shiftRightNearest_cases (x.sizeIn e) (x.unitExponent - e).toNat
  rw [units_eq he (by omega)]
  omega

/-- The magnitude of the word of a rounded number; the first one that is too large is that of the
infinities. -/
def magnitude (x : Scaled) : Nat :=
  if x.mantissa = 0 then 0
  else min ((x.unitExponent + 1074).toNat * 2 ^ 52 + x.units) (2047 * 2 ^ 52)

theorem magnitude_mono (hex : e ≤ x.exponent) (hey : e ≤ y.exponent) (he : e ≤ -1074)
    (h : x.sizeIn e ≤ y.sizeIn e) : x.magnitude ≤ y.magnitude := by
  unfold magnitude
  by_cases hx : x.mantissa = 0
  · rw [if_pos hx]
    exact Nat.zero_le _
  have hy : y.mantissa ≠ 0 := by
    intro hy
    have hpos := (Nat.two_pow_pos _).trans_le (le_sizeIn (e := e) hx)
    unfold sizeIn at h hpos
    rw [hy, Nat.zero_mul] at h
    omega
  have hleast : -1074 ≤ x.unitExponent := by
    unfold unitExponent
    omega
  have hfew := x.units_le_two_pow
  rw [if_neg hx, if_neg hy]
  refine min_le_min_right _ ?_
  obtain hless | heq := Int.lt_or_eq_of_le (unitExponent_mono hx hex hey h)
  · have hfull := le_units hy hey he (by omega)
    omega
  · have hunits : x.units ≤ y.units := by
      rw [units_eq hex (by omega), units_eq hey (by omega), heq]
      exact shiftRightNearest_mono h
    rw [heq]
    exact Nat.add_le_add_left hunits _

theorem magnitude_eq_zero (h : x.sizeIn e = 0) : x.magnitude = 0 := by
  obtain hx | hpow := Nat.mul_eq_zero.1 h
  · exact if_pos hx
  · exact absurd hpow (Nat.two_pow_pos _).ne'

end Magnitudes

section Rounding

variable {x y : Scaled} {e : Int}

theorem placeOf_toFloat (x : Scaled) :
    x.toFloat.isNaN = false ∧ placeOf x.toFloat = (signOf x.negative).apply x.magnitude := by
  unfold toFloat magnitude
  dsimp only
  by_cases hx : x.mantissa = 0
  · rw [if_pos hx, if_pos hx]
    cases x.negative <;> exact ⟨rfl, rfl⟩
  · rw [if_neg hx, if_neg hx, Nat.shiftLeft_eq]
    by_cases hlarge : (x.unitExponent + 1074).toNat * 2 ^ 52 + x.units < 2047 * 2 ^ 52
    · rw [if_pos (show _ < 0x7ff0000000000000 from hlarge), Nat.min_eq_left hlarge.le]
      exact placeOf_ofBits x.negative hlarge
    · rw [if_neg (show ¬_ < 0x7ff0000000000000 from hlarge),
        Nat.min_eq_right (Nat.le_of_not_lt hlarge)]
      cases x.negative <;> decide +kernel

/-- Rounding keeps the order. -/
theorem placeOf_toFloat_mono (hex : e ≤ x.exponent) (hey : e ≤ y.exponent) (he : e ≤ -1074)
    (h : x.inUnits e ≤ y.inUnits e) : placeOf x.toFloat ≤ placeOf y.toFloat := by
  have hup : x.sizeIn e ≤ y.sizeIn e → x.magnitude ≤ y.magnitude := magnitude_mono hex hey he
  have hdown : y.sizeIn e ≤ x.sizeIn e → y.magnitude ≤ x.magnitude := magnitude_mono hey hex he
  rw [inUnits_eq_apply, inUnits_eq_apply] at h
  rw [(placeOf_toFloat x).2, (placeOf_toFloat y).2]
  cases hx : x.negative with
  | false =>
    rw [hx, apply_signOf_false] at h
    rw [apply_signOf_false]
    cases hy : y.negative with
    | false =>
      rw [hy, apply_signOf_false] at h
      rw [apply_signOf_false]
      exact Int.ofNat_le.2 (hup (Int.ofNat_le.1 h))
    | true =>
      rw [hy, apply_signOf_true] at h
      rw [apply_signOf_true, magnitude_eq_zero (show x.sizeIn e = 0 by omega),
        magnitude_eq_zero (show y.sizeIn e = 0 by omega)]
      exact Int.le_refl _
  | true =>
    rw [hx, apply_signOf_true] at h
    rw [apply_signOf_true]
    cases hy : y.negative with
    | false =>
      rw [apply_signOf_false]
      exact Int.le_trans (Int.neg_nonpos_of_nonneg (Int.natCast_nonneg _)) (Int.natCast_nonneg _)
    | true =>
      rw [hy, apply_signOf_true] at h
      rw [apply_signOf_true]
      exact Int.neg_le_neg (Int.ofNat_le.2 (hdown (by omega)))

end Rounding

end Scaled

end FlagCombat
