import FlagCombat.Proofs.Binary64.Operation
import FlagCombat.Proofs.Binary64.Rounding

/-!
Amounts of finite numbers, in units of the least number above zero. A finite number is read as the
scaled integer of its mantissa and exponent, and that is rounded to it again; amounts are ordered
like places.
-/

namespace FlagCombat

namespace Binary64

open Float.Model (Format UnpackedFloat)
open Float.Model.UnpackedFloat (Sign unpackMantissa unpackExponent unpackSign)

/-- The fields of a word, read as a scaled integer and as a number. -/
theorem exists_fields (x : Float) : ∃ negative biased fraction,
    x.toModel.unpack = reading (signOf negative) biased fraction ∧
      Scaled.ofFloat x = if biased = 0 then ⟨negative, fraction, -1074⟩
        else ⟨negative, fraction + 2 ^ 52, biased - 1075⟩ := by
  let word := x.toBits
  have hbiased : (@unpackExponent Format.binary64 word.toBitVec).toNat =
      ((word >>> 52) &&& 0x7ff).toNat := by
    rw [toNat_unpackExponent, UInt64.toNat_and, UInt64.toNat_shiftRight, Nat.shiftRight_eq_div_pow]
    exact (Nat.and_two_pow_sub_one_eq_mod _ 11).symm
  have hfraction : (@unpackMantissa Format.binary64 word.toBitVec).toNat =
      (word &&& 0xfffffffffffff).toNat := by
    rw [toNat_unpackMantissa, UInt64.toNat_and]
    exact (Nat.and_two_pow_sub_one_eq_mod _ 52).symm
  have hsign : Sign.ofBitVec (@unpackSign Format.binary64 word.toBitVec) =
      signOf (word >>> 63 != 0) := by
    have hshift : (word >>> 63).toNat = (@unpackSign Format.binary64 word.toBitVec).toNat := by
      have hlt : word.toBitVec.toNat < 2 ^ 64 := word.toBitVec.isLt
      rw [toNat_unpackSign, UInt64.toNat_shiftRight, Nat.shiftRight_eq_div_pow]
      show word.toBitVec.toNat / 2 ^ 63 = _
      omega
    by_cases hzero : word >>> 63 = 0
    · have hbit : @unpackSign Format.binary64 word.toBitVec = 0#1 := by
        apply BitVec.eq_of_toNat_eq
        rw [← hshift, hzero]
        rfl
      rw [hbit, hzero]
      rfl
    · have hbit : @unpackSign Format.binary64 word.toBitVec ≠ 0#1 := by
        intro hbit
        rw [hbit] at hshift
        exact hzero (UInt64.toNat_inj.1 hshift)
      rw [bne_iff_ne.2 hzero]
      exact if_neg hbit
  refine ⟨word >>> 63 != 0, ((word >>> 52) &&& 0x7ff).toNat, (word &&& 0xfffffffffffff).toNat, ?_,
    rfl⟩
  rw [← hbiased, ← hfraction, ← hsign]
  exact unpack_eq word.toBitVec

def isNegative : Sign → Bool
  | .negative => true
  | .positive => false

/-- The scaled integer of a finite number. -/
def scaledOf : UnpackedFloat → Scaled
  | .finite s m e _ => ⟨isNegative s, m, e⟩
  | .zero s => ⟨isNegative s, 0, -1074⟩
  | .infinity _ | .notANumber => ⟨false, 0, 0⟩

theorem scaledOf_finite (s : Sign) {m : Nat} (e : Int) (hm : 0 < m) :
    scaledOf (.finite s m e hm) = ⟨isNegative s, m, e⟩ := rfl

theorem scaledOf_zero (s : Sign) : scaledOf (.zero s) = ⟨isNegative s, 0, -1074⟩ := rfl

theorem ofFloat_eq {x : Float} (hx : x.isFinite = true) :
    Scaled.ofFloat x = scaledOf x.toModel.unpack := by
  obtain ⟨negative, biased, fraction, hread, hscaled⟩ := exists_fields x
  change x.toModel.unpack.isFinite = true at hx
  have hsign : isNegative (signOf negative) = negative := by cases negative <;> rfl
  rw [hread] at hx ⊢
  rw [hscaled]
  obtain ⟨-, -, h⟩ | ⟨-, -, h⟩ | ⟨hzero, hf, h⟩ | ⟨hzero, hm, h⟩ | ⟨hzero, hlarge, hm, h⟩ :=
    reading_cases (signOf negative) biased fraction
  · rw [h] at hx
    cases hx
  · rw [h] at hx
    cases hx
  · rw [h, if_pos hzero, hf, scaledOf_zero, hsign]
  · rw [h, if_pos hzero, scaledOf_finite, hsign]
  · rw [h, if_neg hzero, scaledOf_finite, hsign, Nat.add_comm]

/-- A finite number, in units of the least number above zero. -/
def amountOf (x : Float) : Int := (Scaled.ofFloat x).inUnits (-1074)

theorem least_exponent (x : Float) : -1074 ≤ (Scaled.ofFloat x).exponent := by
  obtain ⟨negative, biased, fraction, -, hscaled⟩ := exists_fields x
  rw [hscaled]
  split
  · exact Int.le_refl _
  · show (-1074 : Int) ≤ biased - 1075
    omega

theorem inUnits_finite (s : Sign) (m : Nat) (e : Int) :
    (⟨isNegative s, m, e⟩ : Scaled).inUnits (-1074) = s.apply (m * 2 ^ (e + 1074).toNat) := by
  rw [Scaled.inUnits_eq]
  cases s with
  | positive => exact one_mul _
  | negative => exact neg_one_mul _

theorem amountOf_finite {x : Float} {s : Sign} {m : Nat} {e : Int} {hm : 0 < m}
    (h : x.toModel.unpack = .finite s m e hm) :
    amountOf x = s.apply (m * 2 ^ (e + 1074).toNat) := by
  have hx : x.isFinite = true := by
    show x.toModel.unpack.isFinite = true
    rw [h]
    rfl
  unfold amountOf
  rw [ofFloat_eq hx, h]
  exact inUnits_finite s m e

theorem amountOf_zero {x : Float} {s : Sign} (h : x.toModel.unpack = .zero s) : amountOf x = 0 := by
  have hx : x.isFinite = true := by
    show x.toModel.unpack.isFinite = true
    rw [h]
    rfl
  unfold amountOf
  rw [ofFloat_eq hx, h]
  cases s <;> rfl

theorem amountOf_neg {x : Float} (hx : x.isFinite = true) : amountOf (-x) = -amountOf x := by
  have hneg := unpack_neg x
  obtain ⟨s, hunpack⟩ | ⟨s, m, e, hm, hunpack⟩ := finite_cases hx
  · rw [hunpack] at hneg
    rw [amountOf_zero hunpack, amountOf_zero hneg, neg_zero]
  · rw [hunpack] at hneg
    rw [amountOf_finite hunpack, amountOf_finite hneg]
    cases s with
    | positive => rfl
    | negative => exact (neg_neg _).symm

theorem Legal.amount_le {m m' : Nat} {e e' : Int} (h : Legal m e) (h' : Legal m' e')
    (hle : (e + 1074) * 2 ^ 52 + (m : Int) ≤ (e' + 1074) * 2 ^ 52 + m') :
    m * 2 ^ (e + 1074).toNat ≤ m' * 2 ^ (e' + 1074).toNat := by
  obtain ⟨hlt, hleast, hfull⟩ := h
  obtain ⟨hlt', hleast', hfull'⟩ := h'
  obtain he | rfl | he := Int.lt_trichotomy e e'
  -- A larger exponent leaves no room for a smaller amount.
  · have hpow : (2 : Nat) ^ (e' + 1074).toNat =
        2 ^ ((e' + 1074).toNat - (e + 1074).toNat - 1) * (2 * 2 ^ (e + 1074).toNat) := by
      rw [← pow_succ', ← pow_add]
      congr 1
      omega
    have hpos := Nat.two_pow_pos ((e' + 1074).toNat - (e + 1074).toNat - 1)
    calc m * 2 ^ (e + 1074).toNat
        ≤ 2 ^ 52 * (2 * 2 ^ (e + 1074).toNat) := by
          rw [← mul_assoc]
          exact Nat.mul_le_mul_right _ (by omega)
      _ ≤ m' * (2 * 2 ^ (e + 1074).toNat) := Nat.mul_le_mul_right _ (by omega)
      _ ≤ m' * 2 ^ (e' + 1074).toNat := by
          rw [hpow]
          exact Nat.mul_le_mul_left _ (Nat.le_mul_of_pos_left _ hpos)
  · exact Nat.mul_le_mul_right _ (by omega)
  · omega

/-- The place and the amount of a finite number that is not negative. -/
theorem exists_legal {x : Float} (hx : x.isFinite = true) (hzero : 0 ≤ placeOf x) :
    ∃ (m : Nat) (e : Int), Legal m e ∧ e ≤ 971 ∧ placeOf x = (e + 1074) * 2 ^ 52 + m ∧
      amountOf x = (m * 2 ^ (e + 1074).toNat : Nat) := by
  obtain hpos | hzero := Int.lt_or_eq_of_le hzero
  · obtain ⟨m, e, hm, hunpack⟩ := exists_positive hx hpos
    have hcanonical := canonical x
    rw [hunpack] at hcanonical
    refine ⟨m, e, hcanonical.1, hcanonical.2, ?_, ?_⟩
    · unfold placeOf
      rw [hunpack]
      rfl
    · rw [amountOf_finite hunpack, Int.natCast_mul, Int.natCast_pow]
      rfl
  · obtain ⟨s, hunpack⟩ := exists_zero hx hzero.symm
    refine ⟨0, -1074, ⟨by omega, by omega, .inr rfl⟩, by omega, hzero.symm, ?_⟩
    rw [amountOf_zero hunpack, Nat.zero_mul]
    rfl

/-- Of two finite numbers that are not negative, the larger one has the larger amount. -/
theorem amountOf_le {x y : Float} (hx : x.isFinite = true) (hy : y.isFinite = true)
    (hzero : 0 ≤ placeOf x) (hle : placeOf x ≤ placeOf y) :
    0 ≤ amountOf x ∧ amountOf x ≤ amountOf y := by
  obtain ⟨m, e, h, -, hplace, hamount⟩ := exists_legal hx hzero
  obtain ⟨m', e', h', -, hplace', hamount'⟩ := exists_legal hy (hzero.trans hle)
  rw [hplace, hplace'] at hle
  rw [hamount, hamount']
  exact ⟨Int.natCast_nonneg _, Int.ofNat_le.2 (h.amount_le h' hle)⟩

end Binary64

namespace Scaled

open Binary64
open Float.Model.UnpackedFloat (Sign)

theorem unitExponent_legal {negative : Bool} {m : Nat} {e : Int} (h : Legal m e) :
    (⟨negative, m, e⟩ : Scaled).unitExponent = e := by
  have hlog := log2_lt h.mantissa_lt
  have hleast := h.least
  show max ((m.log2 : Int) + e - 52) (-1074) = e
  obtain hfull | rfl := h.full
  · have := (Nat.le_log2 (by omega)).2 hfull
    omega
  · omega

theorem magnitude_legal {negative : Bool} {m : Nat} {e : Int} (hm : 0 < m) (h : Legal m e)
    (hmost : e ≤ 971) :
    ((⟨negative, m, e⟩ : Scaled).magnitude : Int) = (e + 1074) * 2 ^ 52 + m := by
  have hunit : (⟨negative, m, e⟩ : Scaled).unitExponent = e := unitExponent_legal h
  have hunits : (⟨negative, m, e⟩ : Scaled).units = m := by
    unfold units
    dsimp only
    rw [hunit, if_pos (Int.le_refl _), Int.sub_self]
    exact Nat.shiftLeft_zero
  have hleast := h.least
  have hbounds := place_bounds hm ⟨h, hmost⟩
  unfold magnitude
  rw [if_neg (Nat.ne_of_gt hm), hunit, hunits, Nat.min_eq_left (by omega)]
  omega

/-- A finite number is rounded to itself. -/
theorem placeOf_toFloat_ofFloat {z : Float} (hz : z.isFinite = true) :
    placeOf (ofFloat z).toFloat = placeOf z := by
  have hsign (s : Sign) : signOf (isNegative s) = s := by cases s <;> rfl
  have hcanonical := canonical z
  rw [(placeOf_toFloat _).2, ofFloat_eq hz]
  unfold placeOf
  obtain ⟨s, hunpack⟩ | ⟨s, m, e, hm, hunpack⟩ := finite_cases hz
  · rw [hunpack, scaledOf_zero]
    cases s <;> rfl
  · rw [hunpack] at hcanonical ⊢
    rw [scaledOf_finite, hsign, magnitude_legal hm hcanonical.1 hcanonical.2]
    rfl

section Bounds

variable {x : Scaled} {e : Int} {z : Float}

/-- What is at least a finite number stays so. -/
theorem placeOf_le_toFloat (hz : z.isFinite = true) (hex : e ≤ x.exponent) (he : e ≤ -1074)
    (h : (ofFloat z).inUnits e ≤ x.inUnits e) : placeOf z ≤ placeOf x.toFloat := by
  rw [← placeOf_toFloat_ofFloat hz]
  exact placeOf_toFloat_mono (he.trans (least_exponent z)) hex he h

/-- What is at most a finite number stays so. -/
theorem placeOf_toFloat_le_of (hz : z.isFinite = true) (hex : e ≤ x.exponent) (he : e ≤ -1074)
    (h : x.inUnits e ≤ (ofFloat z).inUnits e) : placeOf x.toFloat ≤ placeOf z := by
  rw [← placeOf_toFloat_ofFloat hz]
  exact placeOf_toFloat_mono hex (he.trans (least_exponent z)) he h

end Bounds

end Scaled

end FlagCombat
