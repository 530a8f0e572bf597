import FlagCombat.Binary64.Arithmetic
import Mathlib.Algebra.GroupWithZero.Nat
import Mathlib.Algebra.Ring.Int.Defs

/-!
Binary64 numbers read from their words and written back. A finite number has one legal pair of
mantissa and exponent, and the numbers of one sign are ordered like their words; so a comparison of
two numbers is a comparison of their places.
-/

namespace FlagCombat

namespace Binary64

open Float.Model (Format UnpackedFloat)
open Float.Model.UnpackedFloat (Sign packComponents unpackMantissa unpackExponent unpackSign)

/-- The number of a sign, a field of eleven bits and a field of 52 bits. -/
def reading (sign : Sign) (biased fraction : Nat) : UnpackedFloat :=
  if biased = 2047 then if fraction = 0 then .infinity sign else .notANumber
  else if biased = 0 then
    if h : fraction = 0 then .zero sign
    else .finite sign fraction (-1074) (Nat.pos_of_ne_zero h)
  else .finite sign (2 ^ 52 + fraction) (biased - 1075) (by omega)

/-- What the fields of a word stand for. -/
theorem reading_cases (sign : Sign) (biased fraction : Nat) :
    (biased = 2047 ∧ fraction = 0 ∧ reading sign biased fraction = .infinity sign) ∨
    (biased = 2047 ∧ fraction ≠ 0 ∧ reading sign biased fraction = .notANumber) ∨
    (biased = 0 ∧ fraction = 0 ∧ reading sign biased fraction = .zero sign) ∨
    (biased = 0 ∧ ∃ hf : 0 < fraction,
      reading sign biased fraction = .finite sign fraction (-1074) hf) ∨
    (biased ≠ 0 ∧ biased ≠ 2047 ∧ ∃ hm : 0 < 2 ^ 52 + fraction,
      reading sign biased fraction = .finite sign (2 ^ 52 + fraction) (biased - 1075) hm) := by
  unfold reading
  by_cases hlarge : biased = 2047
  · rw [if_pos hlarge]
    by_cases hf : fraction = 0
    · exact .inl ⟨hlarge, hf, if_pos hf⟩
    · exact .inr (.inl ⟨hlarge, hf, if_neg hf⟩)
  · rw [if_neg hlarge]
    by_cases hbiased : biased = 0
    · rw [if_pos hbiased]
      by_cases hf : fraction = 0
      · exact .inr (.inr (.inl ⟨hbiased, hf, dif_pos hf⟩))
      · exact .inr (.inr (.inr (.inl ⟨hbiased, Nat.pos_of_ne_zero hf, dif_neg hf⟩)))
    · exact .inr (.inr (.inr (.inr ⟨hbiased, hlarge, by omega, if_neg hbiased⟩)))

theorem finite_congr {sign : Sign} {m m' : Nat} {e e' : Int} {hm : 0 < m} {hm' : 0 < m'}
    (h : m = m') (he : e = e') : UnpackedFloat.finite sign m e hm = .finite sign m' e' hm' := by
  subst h he
  rfl

section Words

variable (w : BitVec 64)

theorem toNat_unpackMantissa :
    (@unpackMantissa Format.binary64 w).toNat = w.toNat % 2 ^ 52 := by
  simp [unpackMantissa]

theorem toNat_unpackExponent :
    (@unpackExponent Format.binary64 w).toNat = w.toNat / 2 ^ 52 % 2 ^ 11 := by
  simp [unpackExponent, Nat.shiftRight_eq_div_pow]

theorem toNat_unpackSign :
    (@unpackSign Format.binary64 w).toNat = w.toNat / 2 ^ 63 % 2 := by
  show (BitVec.extractLsb' 63 1 w).toNat = _
  rw [BitVec.extractLsb'_toNat, Nat.shiftRight_eq_div_pow, Nat.pow_one]

theorem unpack_eq :
    UnpackedFloat.unpack Format.binary64 w =
      reading (Sign.ofBitVec (@unpackSign Format.binary64 w))
        (@unpackExponent Format.binary64 w).toNat
        (@unpackMantissa Format.binary64 w).toNat := by
  have hm : @unpackMantissa Format.binary64 w = 0#52 ↔
      (@unpackMantissa Format.binary64 w).toNat = 0 := by
    rw [← BitVec.toNat_inj]
    rfl
  have he : @unpackExponent Format.binary64 w = 0#11 ↔
      (@unpackExponent Format.binary64 w).toNat = 0 := by
    rw [← BitVec.toNat_inj]
    rfl
  have he' : @unpackExponent Format.binary64 w = -1#11 ↔
      (@unpackExponent Format.binary64 w).toNat = 2047 := by
    rw [← BitVec.toNat_inj]
    rfl
  have hbound : (@unpackMantissa Format.binary64 w).toNat < 2 ^ 52 := BitVec.isLt _
  have hbias : (Format.binary64.exponentBias : Int) + Format.binary64.mantissaBitsWithoutImplicit =
    1075 := rfl
  unfold UnpackedFloat.unpack reading
  dsimp only
  rw [hbias]
  by_cases hlarge : (@unpackExponent Format.binary64 w).toNat = 2047
  · rw [if_pos (he'.2 hlarge), if_pos hlarge]
    by_cases hfraction : (@unpackMantissa Format.binary64 w).toNat = 0
    · rw [if_pos (hm.2 hfraction), if_pos hfraction]
    · rw [if_neg (mt hm.1 hfraction), if_neg hfraction]
  · rw [if_neg (mt he'.1 hlarge), if_neg hlarge]
    by_cases hbiased : (@unpackExponent Format.binary64 w).toNat = 0
    · rw [if_pos (he.2 hbiased), if_pos hbiased]
      by_cases hfraction : (@unpackMantissa Format.binary64 w).toNat = 0
      · rw [dif_pos (hm.2 hfraction), dif_pos hfraction]
      · rw [dif_neg (mt hm.1 hfraction), dif_neg hfraction]
        exact finite_congr rfl (by omega)
    · rw [if_neg (mt he.1 hbiased), if_neg hbiased]
      apply finite_congr
      · rw [BitVec.toNat_append, ← Nat.shiftLeft_add_eq_or_of_lt hbound]
        rfl
      · rfl

end Words

theorem ofBitVec_toBitVec (sign : Sign) : Sign.ofBitVec sign.toBitVec = sign := by
  cases sign <;> rfl

theorem toNat_packComponents (sign : Sign) (biased : BitVec 11) (fraction : BitVec 52) :
    (packComponents Format.binary64 sign biased fraction).toNat =
      (sign.toBitVec.toNat * 2 ^ 11 + biased.toNat) * 2 ^ 52 + fraction.toNat := by
  change (sign.toBitVec ++ biased ++ fraction).toNat = _
  rw [BitVec.toNat_append, BitVec.toNat_append, ← Nat.shiftLeft_add_eq_or_of_lt biased.isLt,
    ← Nat.shiftLeft_add_eq_or_of_lt fraction.isLt, Nat.shiftLeft_eq, Nat.shiftLeft_eq]

theorem unpackSign_packComponents (sign : Sign) (biased : BitVec 11) (fraction : BitVec 52) :
    unpackSign (packComponents Format.binary64 sign biased fraction) = sign.toBitVec := by
  have hsign := sign.toBitVec.isLt
  have hbiased := biased.isLt
  have hfraction := fraction.isLt
  apply BitVec.eq_of_toNat_eq
  rw [toNat_unpackSign, toNat_packComponents]
  omega

theorem unpack_packComponents (sign : Sign) (biased : BitVec 11) (fraction : BitVec 52) :
    UnpackedFloat.unpack Format.binary64 (packComponents Format.binary64 sign biased fraction) =
      reading sign biased.toNat fraction.toNat := by
  rw [unpack_eq, unpackSign_packComponents, ofBitVec_toBitVec,
    Float.Model.UnpackedFloat.unpackExponent_packComponents,
    Float.Model.UnpackedFloat.unpackMantissa_packComponents]

/-- The pairs of mantissa and exponent that a word can hold, but for exponents that are too
large. -/
structure Legal (mantissa : Nat) (exponent : Int) : Prop where
  mantissa_lt : mantissa < 2 ^ 53
  least : -1074 ≤ exponent
  full : 2 ^ 52 ≤ mantissa ∨ exponent = -1074

/-- A number in the form in which words hold it. -/
def Canonical : UnpackedFloat → Prop
  | .finite _ m e _ => Legal m e ∧ e ≤ 971
  | .infinity _ | .notANumber | .zero _ => True

theorem canonical_reading (sign : Sign) {biased fraction : Nat} (hb : biased < 2 ^ 11)
    (hf : fraction < 2 ^ 52) : Canonical (reading sign biased fraction) := by
  obtain ⟨-, -, h⟩ | ⟨-, -, h⟩ | ⟨-, -, h⟩ | ⟨-, hm, h⟩ | ⟨hzero, hlarge, hm, h⟩ :=
    reading_cases sign biased fraction
  · rw [h]
    trivial
  · rw [h]
    trivial
  · rw [h]
    trivial
  · rw [h]
    exact ⟨⟨by omega, by omega, .inr rfl⟩, by omega⟩
  · rw [h]
    exact ⟨⟨by omega, by omega, .inl (by omega)⟩, by omega⟩

theorem canonical_unpack (w : BitVec 64) : Canonical (UnpackedFloat.unpack Format.binary64 w) := by
  rw [unpack_eq]
  exact canonical_reading _ (BitVec.isLt _) (BitVec.isLt _)

theorem Legal.log2 {m : Nat} {e : Int} (h : Legal m e) (hm : 0 < m) :
    m.log2 + 1 = 53 ↔ 2 ^ 52 ≤ m := by
  have hlt : m.log2 < 53 := (Nat.log2_lt (by omega)).2 h.mantissa_lt
  have hle : 52 ≤ m.log2 ↔ 2 ^ 52 ≤ m := Nat.le_log2 (by omega)
  omega

theorem pack_finite (sign : Sign) {m : Nat} (e : Int) (hm : 0 < m) :
    UnpackedFloat.pack Format.binary64 (.finite sign m e hm) =
      if 2 ^ 11 ≤ (e + 1023 + 52).toNat + 1 then UnpackedFloat.packedInfinity Format.binary64 sign
      else if m.log2 + 1 = 53 then
        packComponents Format.binary64 sign (.ofNat 11 (e + 1023 + 52).toNat) (.ofNat 52 m)
      else packComponents Format.binary64 sign 0#11 (.ofNat 52 m) := rfl

/-- The word of a finite number stands for the number, or for an infinity if the exponent is too
large. -/
theorem unpack_pack_finite (sign : Sign) {m : Nat} {e : Int} (hm : 0 < m) (h : Legal m e) :
    UnpackedFloat.unpack Format.binary64
        (UnpackedFloat.pack Format.binary64 (.finite sign m e hm)) =
      if 971 < e then .infinity sign else .finite sign m e hm := by
  have hlog := h.log2 hm
  obtain ⟨hlt, hleast, hfull⟩ := h
  rw [pack_finite]
  by_cases hlarge : 971 < e
  · rw [if_pos (by omega), if_pos hlarge]
    exact unpack_packComponents sign _ _
  · rw [if_neg (by omega), if_neg hlarge]
    by_cases hnormal : 2 ^ 52 ≤ m
    · rw [if_pos (hlog.2 hnormal),
        unpack_packComponents, BitVec.toNat_ofNat, BitVec.toNat_ofNat]
      unfold reading
      rw [if_neg (by omega), if_neg (by omega)]
      exact finite_congr (by omega) (by omega)
    · rw [if_neg (mt hlog.1 hnormal),
        unpack_packComponents, BitVec.toNat_ofNat, BitVec.toNat_ofNat]
      unfold reading
      rw [if_neg (by omega), if_pos (by omega), dif_neg (by omega)]
      exact finite_congr (by omega) (by omega)

theorem unpack_pack {f : UnpackedFloat} (h : Canonical f) :
    UnpackedFloat.unpack Format.binary64 (UnpackedFloat.pack Format.binary64 f) = f := by
  cases f with
  | infinity sign => exact unpack_packComponents sign _ _
  | notANumber => exact unpack_packComponents .positive _ _
  | zero sign => exact unpack_packComponents sign _ _
  | finite sign m e hm =>
    rw [unpack_pack_finite sign hm h.1, if_neg (by have := h.2; omega)]

theorem isNaN_reading (sign : Sign) (biased fraction : Nat) :
    (reading sign biased fraction).isNaN = true ↔ biased = 2047 ∧ fraction ≠ 0 := by
  obtain ⟨hlarge, hf, h⟩ | ⟨hlarge, hf, h⟩ | ⟨hzero, hf, h⟩ | ⟨hzero, hm, h⟩ |
      ⟨hzero, hlarge, hm, h⟩ := reading_cases sign biased fraction
  · rw [h]
    exact ⟨fun hnan => Bool.noConfusion hnan, fun hboth => absurd hf hboth.2⟩
  · rw [h]
    exact ⟨fun _ => ⟨hlarge, hf⟩, fun _ => rfl⟩
  · rw [h]
    exact ⟨fun hnan => Bool.noConfusion hnan, fun hboth => absurd hf hboth.2⟩
  · rw [h]
    exact ⟨fun hnan => Bool.noConfusion hnan, fun hboth => by omega⟩
  · rw [h]
    exact ⟨fun hnan => Bool.noConfusion hnan, fun hboth => absurd hboth.1 hlarge⟩

/-- Writing a number down does not unmake it a number. -/
theorem isNaN_unpack_pack {f : UnpackedFloat} (h : f.isNaN = false) :
    (UnpackedFloat.unpack Format.binary64
      (UnpackedFloat.pack Format.binary64 f)).isNaN = false := by
  have hinfinity (sign : Sign) : (UnpackedFloat.unpack Format.binary64
      (UnpackedFloat.packedInfinity Format.binary64 sign)).isNaN = false := by
    rw [show UnpackedFloat.unpack Format.binary64
      (UnpackedFloat.packedInfinity Format.binary64 sign) = .infinity sign from
        unpack_packComponents sign _ _]
    rfl
  cases f with
  | notANumber => cases h
  | infinity sign => exact hinfinity sign
  | zero sign =>
    rw [unpack_pack (f := .zero sign) trivial]
    rfl
  | finite sign m e hm =>
    rw [pack_finite]
    split
    · exact hinfinity sign
    · split
      · rw [unpack_packComponents, Bool.eq_false_iff, ne_eq, isNaN_reading, BitVec.toNat_ofNat]
        omega
      · rw [unpack_packComponents, Bool.eq_false_iff, ne_eq, isNaN_reading, BitVec.toNat_ofNat]
        omega

/-- The place of a number among all numbers, counted from zero, where either sign has `2 ^ 52`
numbers to an exponent. -/
def place : UnpackedFloat → Int
  | .infinity sign => sign.apply (2047 * 2 ^ 52)
  | .notANumber | .zero _ => 0
  | .finite sign m e _ => sign.apply ((e + 1074) * 2 ^ 52 + m)

theorem place_reading {sign : Sign} {biased fraction : Nat}
    (h : (reading sign biased fraction).isNaN = false) :
    place (reading sign biased fraction) = sign.apply (biased * 2 ^ 52 + fraction) := by
  obtain ⟨hlarge, hf, hread⟩ | ⟨hlarge, hf, hread⟩ | ⟨hzero, hf, hread⟩ | ⟨hzero, hm, hread⟩ |
      ⟨hzero, hlarge, hm, hread⟩ := reading_cases sign biased fraction
  · rw [hread, hlarge, hf]
    rfl
  · rw [hread] at h
    cases h
  · rw [hread, hzero, hf]
    cases sign <;> rfl
  · rw [hread, hzero]
    apply congrArg sign.apply
    omega
  · rw [hread]
    apply congrArg sign.apply
    omega

theorem compare_of_legal {m m' : Nat} {e e' : Int} (h : Legal m e) (h' : Legal m' e') :
    (compare e e').then (compare m m') =
      compare ((e + 1074) * 2 ^ 52 + (m : Int)) ((e' + 1074) * 2 ^ 52 + m') := by
  obtain ⟨hlt, hleast, hfull⟩ := h
  obtain ⟨hlt', hleast', hfull'⟩ := h'
  obtain he | he | he := Int.lt_trichotomy e e'
  · rw [Int.compare_eq_lt.2 he, Int.compare_eq_lt.2 (by omega)]
    rfl
  · obtain hm | hm | hm := Nat.lt_trichotomy m m'
    · rw [Int.compare_eq_eq.2 he, Nat.compare_eq_lt.2 hm, Int.compare_eq_lt.2 (by omega)]
      rfl
    · rw [Int.compare_eq_eq.2 he, Nat.compare_eq_eq.2 hm, Int.compare_eq_eq.2 (by omega)]
      rfl
    · rw [Int.compare_eq_eq.2 he, Nat.compare_eq_gt.2 hm, Int.compare_eq_gt.2 (by omega)]
      rfl
  · rw [Int.compare_eq_gt.2 he, Int.compare_eq_gt.2 (by omega)]
    rfl

theorem compare_neg (a b : Int) : compare (-a) (-b) = (compare a b).swap := by
  obtain h | h | h := Int.lt_trichotomy a b
  · rw [Int.compare_eq_lt.2 h, Int.compare_eq_gt.2 (by omega)]
    rfl
  · rw [Int.compare_eq_eq.2 h, Int.compare_eq_eq.2 (by omega)]
    rfl
  · rw [Int.compare_eq_gt.2 h, Int.compare_eq_lt.2 (by omega)]
    rfl

/-- Where a finite number other than zero lies among those of its sign. -/
theorem place_bounds {m : Nat} {e : Int} (hm : 0 < m) (h : Legal m e ∧ e ≤ 971) :
    0 < (e + 1074) * 2 ^ 52 + (m : Int) ∧ (e + 1074) * 2 ^ 52 + (m : Int) < 2047 * 2 ^ 52 := by
  obtain ⟨⟨hlt, hleast, hfull⟩, hmost⟩ := h
  omega

section Finite

variable {m : Nat} {e : Int} (hm : 0 < m) (h : Legal m e ∧ e ≤ 971)

include h

theorem place_positive : 0 < place (.finite .positive m e hm) := (place_bounds hm h).1

theorem place_negative : place (.finite .negative m e hm) < 0 :=
  Int.neg_neg_of_pos (place_bounds hm h).1

theorem place_infinity_lt (s : Sign) : place (.infinity .negative) < place (.finite s m e hm) := by
  cases s with
  | negative => exact Int.neg_lt_neg (place_bounds hm h).2
  | positive => exact Int.lt_trans (by decide) (place_positive hm h)

theorem place_lt_infinity (s : Sign) : place (.finite s m e hm) < place (.infinity .positive) := by
  cases s with
  | negative => exact Int.lt_trans (place_negative hm h) (by decide)
  | positive => exact (place_bounds hm h).2

end Finite

/-- Numbers compare as their places do. -/
theorem compare_eq {x y : UnpackedFloat} (hx : Canonical x) (hy : Canonical y)
    (nx : x.isNaN = false) (ny : y.isNaN = false) :
    x.compare y = some (compare (place x) (place y)) := by
  have less {a b : Int} (h : a < b) : some Ordering.lt = some (compare a b) :=
    congrArg some (Int.compare_eq_lt.2 h).symm
  have more {a b : Int} (h : b < a) : some Ordering.gt = some (compare a b) :=
    congrArg some (Int.compare_eq_gt.2 h).symm
  cases x with
  | notANumber => cases nx
  | infinity s =>
    cases y with
    | notANumber => cases ny
    | infinity s' | zero s' => cases s <;> cases s' <;> rfl
    | finite s' m' e' hm' =>
      cases s with
      | negative => exact less (place_infinity_lt hm' hy s')
      | positive => exact more (place_lt_infinity hm' hy s')
  | zero s =>
    cases y with
    | notANumber => cases ny
    | infinity s' | zero s' => cases s <;> cases s' <;> rfl
    | finite s' m' e' hm' =>
      cases s' with
      | negative => exact more (place_negative hm' hy)
      | positive => exact less (place_positive hm' hy)
  | finite s m e hm =>
    cases y with
    | notANumber => cases ny
    | infinity s' =>
      cases s' with
      | negative => cases s <;> exact more (place_infinity_lt hm hx _)
      | positive => cases s <;> exact less (place_lt_infinity hm hx _)
    | zero s' =>
      cases s with
      | negative => exact less (place_negative hm hx)
      | positive => exact more (place_positive hm hx)
    | finite s' m' e' hm' =>
      have hlegal := compare_of_legal hx.1 hy.1
      cases s with
      | negative =>
        cases s' with
        | negative =>
          exact congrArg some ((congrArg Ordering.swap hlegal).trans (compare_neg _ _).symm)
        | positive => exact less (Int.lt_trans (place_negative hm hx) (place_positive hm' hy))
      | positive =>
        cases s' with
        | negative => exact more (Int.lt_trans (place_negative hm' hy) (place_positive hm hx))
        | positive => exact congrArg some hlegal

end Binary64

end FlagCombat
