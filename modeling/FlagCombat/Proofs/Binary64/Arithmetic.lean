import FlagCombat.Proofs.Binary64.Faithful
import Mathlib.Analysis.Real.Sqrt

/-!
The five basic operations on finite numbers: each gives a number next to the exact result, or the
exact result itself where a word can hold it.
-/

namespace FlagCombat

namespace Binary64

open Float.Model (Format UnpackedFloat totalExponent)
open Float.Model.UnpackedFloat

/-- A computed number next to the exact result `q`. -/
structure Rounds (q : ℝ) (z : Float) : Prop extends Neighbours q (value z) where
  number : z.isNaN = false

namespace Rounds

variable {q f : ℝ} {z : Float}

theorem refl (hz : z.isNaN = false) : Rounds (value z) z := ⟨.refl _, hz⟩

/-- An exact result that a word can hold is computed. -/
theorem exact (h : Rounds q z) (hq : Representable q) : value z = q :=
  le_antisymm (h.le_of_le hq le_rfl) (h.ge_of_ge hq le_rfl)

theorem nonneg (h : Rounds q z) (hq : 0 ≤ q) : 0 ≤ value z := h.ge_of_ge representable_zero hq

theorem abs_value_le (h : Rounds q z) (hf : Representable f) (hq : |q| ≤ f) : |value z| ≤ f :=
  abs_le.2 ⟨h.ge_of_ge hf.neg (abs_le.1 hq).1, h.le_of_le hf (abs_le.1 hq).2⟩

theorem isFinite (h : Rounds q z) (hf : Representable f) (hq : |q| ≤ f) : z.isFinite = true :=
  isFinite_of_value h.number ((h.abs_value_le hf hq).trans_lt ((le_abs_self f).trans_lt hf.abs_lt))

theorem isFinite_of_representable (h : Rounds q z) (hq : Representable q) : z.isFinite = true :=
  isFinite_of_value h.number (by rw [h.exact hq]; exact hq.abs_lt)

end Rounds

section Exact

variable {m : ℕ} {e : ℤ}

theorem approximates_exact (m : ℕ) : Approximates (.ofMantissaAndAccuracy m .exact) m where
  low := le_rfl
  high := lt_add_one _
  whole _ := ⟨rfl, rfl⟩

theorem neighbours_canonical {f : UnpackedFloat} (h : Canonical f) :
    Neighbours (meaning f)
      (meaning (UnpackedFloat.unpack Format.binary64 (UnpackedFloat.pack Format.binary64 f))) := by
  rw [unpack_pack h]
  exact .refl _

/-- A mantissa above zero is moved up until its bits fill the word or the exponent is least, and
then rounded. -/
theorem neighbours_round (sign : Sign) (e : ℤ) (hm : 0 < m) :
    Neighbours (unit sign * (m * 2 ^ e)) (meaning (UnpackedFloat.unpack Format.binary64
      (UnpackedFloat.pack Format.binary64 (UnpackedFloat.round Format.binary64 sign m e)))) := by
  unfold UnpackedFloat.round decreaseExponent
  rw [targetExponent_eq]
  dsimp only
  obtain ⟨k, hk⟩ : ∃ k, k = (e - max (m.log2 + e - 52) (-1074)).toNat := ⟨_, rfl⟩
  rw [← hk, Nat.shiftLeft_eq]
  have hsize : e - k ≤ -1074 ∨ 2 ^ 52 ≤ m * 2 ^ k := by
    refine or_iff_not_imp_left.2 fun hlarge => ?_
    calc 2 ^ 52 ≤ 2 ^ (m.log2 + k) := Nat.pow_le_pow_right two_pos (by omega)
      _ = 2 ^ m.log2 * 2 ^ k := pow_add ..
      _ ≤ m * 2 ^ k := Nat.mul_le_mul_right _ (Nat.log2_self_le hm.ne')
  have hscale : ((m * 2 ^ k : ℕ) : ℝ) * 2 ^ (e - k) = m * 2 ^ e := by
    rw [zpow_sub₀ two_ne_zero, zpow_natCast]
    push_cast
    rw [mul_assoc, mul_div_cancel₀ _ (by positivity)]
  have hneighbours := neighbours_roundWithAccuracy sign hsize (approximates_exact (m * 2 ^ k))
  rwa [hscale] at hneighbours

theorem neighbours_normalize (n e : ℤ) (sign : Sign) :
    Neighbours (n * 2 ^ e) (meaning (UnpackedFloat.unpack Format.binary64
      (UnpackedFloat.pack Format.binary64
        (UnpackedFloat.normalize Format.binary64 n e sign)))) := by
  unfold UnpackedFloat.normalize
  obtain hneg | rfl | hpos := lt_trichotomy n 0
  · have hcast : ((-n).toNat : ℝ) = -n := by
      exact_mod_cast congrArg (Int.cast (R := ℝ)) (Int.toNat_of_nonneg (show 0 ≤ -n by omega))
    have hround := neighbours_round .negative e (show 0 < (-n).toNat by omega)
    rw [unit_negative, neg_one_mul, hcast, neg_mul, neg_neg] at hround
    rw [Int.compare_eq_lt.2 hneg]
    exact hround
  · rw [Int.cast_zero, zero_mul]
    exact neighbours_canonical (f := .zero sign) trivial
  · have hcast : (n.toNat : ℝ) = n := by
      exact_mod_cast congrArg (Int.cast (R := ℝ)) (Int.toNat_of_nonneg hpos.le)
    have hround := neighbours_round .positive e (show 0 < n.toNat by omega)
    rw [unit_positive, one_mul, hcast] at hround
    rw [Int.compare_eq_gt.2 hpos]
    exact hround

end Exact

section Sums

variable {x y : Float}

/-- A mantissa moved down to a smaller exponent. -/
theorem apply_shiftLeft (s : Sign) (m : ℕ) {e e' : ℤ} (h : e' ≤ e) :
    ((s.apply (m <<< (e - e').toNat : ℕ) : ℤ) : ℝ) * 2 ^ e' = unit s * (m * 2 ^ e) := by
  have hsplit : (2 : ℝ) ^ e = 2 ^ (e - e').toNat * 2 ^ e' := by
    rw [← zpow_natCast, ← zpow_add₀ two_ne_zero, Int.toNat_of_nonneg (by omega), sub_add_cancel]
  rw [apply_eq_unit_mul, Nat.shiftLeft_eq, hsplit]
  push_cast
  ring

theorem rounds_add (hx : x.isFinite = true) (hy : y.isFinite = true) :
    Rounds (value x + value y) (x + y) := by
  refine ⟨?_, isNaN_add (isNaN_of_isFinite hx) hy⟩
  show Neighbours (meaning x.toModel.unpack + meaning y.toModel.unpack)
    (meaning (UnpackedFloat.unpack Format.binary64 (UnpackedFloat.pack Format.binary64
      (UnpackedFloat.add Format.binary64 x.toModel.unpack y.toModel.unpack))))
  have hcanonicalX := canonical x
  have hcanonicalY := canonical y
  obtain ⟨s, hunpack⟩ | ⟨s, m, e, hm, hunpack⟩ := finite_cases hx
  · rw [hunpack]
    obtain ⟨s', hunpack'⟩ | ⟨s', m', e', hm', hunpack'⟩ := finite_cases hy
    · have hzero : Neighbours (meaning (.zero s) + meaning (.zero s')) 0 := by
        show Neighbours (0 + 0) 0
        rw [zero_add]
        exact .refl 0
      rw [hunpack']
      cases s <;> cases s' <;> exact hzero
    · rw [hunpack'] at hcanonicalY ⊢
      show Neighbours (0 + _) _
      rw [zero_add]
      exact neighbours_canonical hcanonicalY
  · obtain ⟨s', hunpack'⟩ | ⟨s', m', e', hm', hunpack'⟩ := finite_cases hy
    · rw [hunpack] at hcanonicalX
      rw [hunpack, hunpack']
      show Neighbours (_ + 0) _
      rw [add_zero]
      exact neighbours_canonical hcanonicalX
    · rw [hunpack, hunpack']
      have hsum := neighbours_normalize (s.apply (m <<< (e - min e e').toNat : ℕ) +
        s'.apply (m' <<< (e' - min e e').toNat : ℕ)) (min e e') .positive
      rw [Int.cast_add, add_mul, apply_shiftLeft s m (min_le_left e e'),
        apply_shiftLeft s' m' (min_le_right e e')] at hsum
      exact hsum

theorem sub_unpacked_eq (f g : UnpackedFloat) :
    UnpackedFloat.sub Format.binary64 f g = UnpackedFloat.add Format.binary64 f g.neg := by
  cases f with
  | notANumber => rfl
  | infinity s | zero s => cases g <;> rfl
  | finite s m e hm =>
    cases g with
    | notANumber | infinity | zero => rfl
    | finite s' m' e' hm' =>
      cases s' with
      | positive => rfl
      | negative =>
        show UnpackedFloat.normalize _ (s.apply _ - -_) _ _ = _
        rw [sub_neg_eq_add]
        rfl

theorem sub_eq (x y : Float) : x - y = x + -y := by
  show Float.ofModel (Float.Model.pack
    (UnpackedFloat.sub Format.binary64 x.toModel.unpack y.toModel.unpack)) =
      Float.ofModel (Float.Model.pack
        (UnpackedFloat.add Format.binary64 x.toModel.unpack (-y).toModel.unpack))
  rw [sub_unpacked_eq, unpack_neg]

theorem rounds_sub (hx : x.isFinite = true) (hy : y.isFinite = true) :
    Rounds (value x - value y) (x - y) := by
  have hsum := rounds_add hx (isFinite_neg hy)
  rwa [value_neg, ← sub_eq_add_neg, ← sub_eq] at hsum

end Sums

section Products

variable {x y : Float}

/-- Of two legal mantissas other than zero, the product fills a mantissa or has a small
exponent. -/
theorem product_size {m m' : ℕ} {e e' : ℤ} (hm : 0 < m) (hm' : 0 < m') (h : Legal m e)
    (h' : Legal m' e') : e + e' ≤ -1074 ∨ 2 ^ 52 ≤ m * m' := by
  obtain hfull | hleast := h.full
  · exact .inr (hfull.trans (Nat.le_mul_of_pos_right m hm'))
  · obtain hfull' | hleast' := h'.full
    · exact .inr (hfull'.trans (Nat.le_mul_of_pos_left m' hm))
    · exact .inl (by omega)

theorem rounds_mul (hx : x.isFinite = true) (hy : y.isFinite = true) :
    Rounds (value x * value y) (x * y) := by
  have hcanonicalX := canonical x
  have hcanonicalY := canonical y
  have hzero (s : Sign) : Rounds 0 (Float.ofModel (Float.Model.pack (.zero s))) :=
    ⟨neighbours_canonical (f := .zero s) trivial, isNaN_unpack_pack (f := .zero s) rfl⟩
  show Rounds (meaning x.toModel.unpack * meaning y.toModel.unpack)
    (Float.ofModel (Float.Model.pack
      (UnpackedFloat.mul Format.binary64 x.toModel.unpack y.toModel.unpack)))
  obtain ⟨s, hunpack⟩ | ⟨s, m, e, hm, hunpack⟩ := finite_cases hx
  · rw [hunpack]
    show Rounds (0 * _) _
    rw [zero_mul]
    obtain ⟨s', hunpack'⟩ | ⟨s', m', e', hm', hunpack'⟩ := finite_cases hy
    · rw [hunpack']
      exact hzero _
    · rw [hunpack']
      exact hzero _
  · obtain ⟨s', hunpack'⟩ | ⟨s', m', e', hm', hunpack'⟩ := finite_cases hy
    · rw [hunpack, hunpack']
      show Rounds (_ * 0) _
      rw [mul_zero]
      exact hzero _
    · rw [hunpack] at hcanonicalX
      rw [hunpack'] at hcanonicalY
      rw [hunpack, hunpack']
      have hproduct := neighbours_roundWithAccuracy (s * s')
        (product_size hm hm' hcanonicalX.1 hcanonicalY.1) (approximates_exact (m * m'))
      have hscale : unit (s * s') * (((m * m' : ℕ) : ℝ) * 2 ^ (e + e')) =
          unit s * (m * 2 ^ e) * (unit s' * (m' * 2 ^ e')) := by
        rw [unit_mul, zpow_add₀ two_ne_zero]
        push_cast
        ring
      rw [hscale] at hproduct
      exact ⟨hproduct, isNaN_unpack_pack (isNaN_roundWithAccuracy ..)⟩

end Products

theorem targetExponent_of (t : Int) : Format.binary64.targetExponent t = max (t - 53) (-1074) := by
  have hbits : (Format.binary64.mantissaBits : Int) = 53 := rfl
  have hleast : Format.binary64.minExponent = -1074 := by decide
  unfold Format.targetExponent
  rw [hbits, hleast]

section Quotients

variable {x y : Float}

theorem isProper_of_value {x : Float} (hx : x.isFinite = true) (h : value x ≠ 0) : IsProper x := by
  obtain ⟨s, hunpack⟩ | hproper := finite_cases hx
  · refine absurd ?_ h
    unfold value
    rw [hunpack]
    rfl
  · exact hproper

/-- A quotient of whole numbers with its remainder stands for the exact quotient. -/
theorem approximates_quotient (n : ℕ) {d : ℕ} (hd : 0 < d) :
    Approximates (.ofMantissaAndAccuracy (n / d) (accuracyOfFraction (n % d) d)) (n / d) := by
  have hd' : (0 : ℝ) < d := Nat.cast_pos.2 hd
  have hsplit : (n : ℝ) = d * (n / d : ℕ) + (n % d : ℕ) := by
    exact_mod_cast (Nat.div_add_mod n d).symm
  have hrest : ((n % d : ℕ) : ℝ) < d := by exact_mod_cast Nat.mod_lt n hd
  have hrest0 : (0 : ℝ) ≤ (n % d : ℕ) := Nat.cast_nonneg _
  constructor
  · rw [mantissa_ofMantissaAndAccuracy, le_div_iff₀ hd']
    linarith
  · rw [mantissa_ofMantissaAndAccuracy, div_lt_iff₀ hd']
    linarith
  · rw [mantissa_ofMantissaAndAccuracy, div_eq_iff hd'.ne']
    intro heq
    have hexact : n % d = 0 := by
      have : ((n % d : ℕ) : ℝ) = 0 := by linarith
      exact_mod_cast this
    rw [hexact]
    exact ⟨rfl, rfl⟩

/-- The dividend is moved up so far that the quotient fills a mantissa or has the least
exponent. -/
theorem quotient_size {m m' : ℕ} {d t : ℤ} (hm : 0 < m) (hm' : 0 < m')
    (ht : t = min d (max (m.log2 - m'.log2 + d - 53) (-1074))) :
    t ≤ -1074 ∨ 2 ^ 52 ≤ m <<< (d - t).toNat / m' := by
  refine or_iff_not_imp_left.2 fun hlarge => ?_
  rw [Nat.le_div_iff_mul_le hm', Nat.shiftLeft_eq]
  calc 2 ^ 52 * m' ≤ 2 ^ 52 * 2 ^ (m'.log2 + 1) :=
        Nat.mul_le_mul_left _ Nat.lt_log2_self.le
    _ = 2 ^ (52 + (m'.log2 + 1)) := (pow_add ..).symm
    _ ≤ 2 ^ (m.log2 + (d - t).toNat) := Nat.pow_le_pow_right two_pos (by omega)
    _ = 2 ^ m.log2 * 2 ^ (d - t).toNat := pow_add ..
    _ ≤ m * 2 ^ (d - t).toNat := Nat.mul_le_mul_right _ (Nat.log2_self_le hm.ne')

theorem rounds_div (hx : x.isFinite = true) (hy : IsProper y) :
    Rounds (value x / value y) (x / y) := by
  refine ⟨?_, isNaN_div (isNaN_of_isFinite hx) hy⟩
  obtain ⟨s', m', e', hm', hunpack'⟩ := hy
  show Neighbours (meaning x.toModel.unpack / meaning y.toModel.unpack)
    (meaning (UnpackedFloat.unpack Format.binary64 (UnpackedFloat.pack Format.binary64
      (UnpackedFloat.div Format.binary64 x.toModel.unpack y.toModel.unpack))))
  obtain ⟨s, hunpack⟩ | ⟨s, m, e, hm, hunpack⟩ := finite_cases hx
  · rw [hunpack, hunpack']
    show Neighbours (0 / _) _
    rw [zero_div]
    exact neighbours_canonical (f := .zero (s / s')) trivial
  · rw [hunpack, hunpack']
    obtain ⟨t, ht⟩ : ∃ t, t = min (e - e')
      (max (m.log2 - m'.log2 + (e - e') - 53) (-1074)) := ⟨_, rfl⟩
    have hcore : UnpackedFloat.div Format.binary64 (.finite s m e hm) (.finite s' m' e' hm') =
        roundWithAccuracy Format.binary64 (s / s') (m <<< (e - e' - t).toNat / m') t
          (accuracyOfFraction (m <<< (e - e' - t).toNat % m') m') := by
      have htarget : min (e - e') (Format.binary64.targetExponent
          (totalExponent m e - totalExponent m' e')) = t := by
        rw [ht, targetExponent_of]
        unfold totalExponent
        congr 2
        ring
      unfold UnpackedFloat.div divCore
      dsimp only
      rw [htarget]
    have hquotient := neighbours_roundWithAccuracy (s / s') (quotient_size hm hm' ht)
      (approximates_quotient (m <<< (e - e' - t).toNat) hm')
    have hunit : unit (s / s') = unit s * unit s' := by
      rw [← unit_mul]
      cases s <;> cases s' <;> rfl
    have hinverse : unit s' * unit s' = 1 := by
      cases s' with
      | positive => rw [unit_positive, one_mul]
      | negative => rw [unit_negative]; norm_num
    have hscale : unit (s / s') * (((m <<< (e - e' - t).toNat : ℕ) : ℝ) / m' * 2 ^ t) =
        unit s * (m * 2 ^ e) / (unit s' * (m' * 2 ^ e')) := by
      have hm0 : (m' : ℝ) ≠ 0 := Nat.cast_ne_zero.2 hm'.ne'
      have hunit0 : unit s' ≠ 0 := left_ne_zero_of_mul (hinverse.trans_ne one_ne_zero)
      have hsplit : (2 : ℝ) ^ e = 2 ^ (e - e' - t).toNat * 2 ^ t * 2 ^ e' := by
        rw [← zpow_natCast, ← zpow_add₀ two_ne_zero, ← zpow_add₀ two_ne_zero]
        congr 1
        omega
      rw [hunit, hsplit, Nat.shiftLeft_eq, eq_div_iff (by positivity)]
      push_cast
      calc unit s * unit s' * (m * 2 ^ (e - e' - t).toNat / m' * 2 ^ t) * (unit s' * (m' * 2 ^ e'))
          = unit s * (unit s' * unit s') * (m * 2 ^ (e - e' - t).toNat / m' * m') *
              (2 ^ t * 2 ^ e') := by ring
        _ = unit s * (m * (2 ^ (e - e' - t).toNat * 2 ^ t * 2 ^ e')) := by
            rw [hinverse, div_mul_cancel₀ _ hm0]
            ring
    rw [hcore]
    rw [hscale] at hquotient
    exact hquotient

end Quotients

section Roots

variable {x : Float}

/-- How the root of a whole number lies to the whole root below it. -/
def rootAccuracy (n : ℕ) : Accuracy :=
  if n - n.sqrt * n.sqrt = 0 then .exact
  else .inexact (if n - n.sqrt * n.sqrt ≤ n.sqrt then .lt else .gt)

theorem approximates_root (n : ℕ) :
    Approximates (.ofMantissaAndAccuracy n.sqrt (rootAccuracy n)) √n := by
  have hlow : n.sqrt * n.sqrt ≤ n := Nat.sqrt_le n
  constructor
  · rw [mantissa_ofMantissaAndAccuracy]
    exact Real.nat_sqrt_le_real_sqrt
  · rw [mantissa_ofMantissaAndAccuracy]
    exact Real.real_sqrt_lt_nat_sqrt_succ
  · intro heq
    rw [mantissa_ofMantissaAndAccuracy,
      Real.sqrt_eq_iff_mul_self_eq n.cast_nonneg n.sqrt.cast_nonneg] at heq
    have hexact : n.sqrt * n.sqrt = n := by exact_mod_cast heq.symm
    unfold rootAccuracy
    rw [if_pos (by omega)]
    exact ⟨rfl, rfl⟩

/-- The radicand is moved up so far that the root fills a mantissa or has the least exponent. -/
theorem root_size {m : ℕ} {e t : ℤ} (hm : 0 < m)
    (ht : t = min (e / 2) (max ((m.log2 + e + 2) / 2 - 53) (-1074))) :
    t ≤ -1074 ∨ 2 ^ 52 ≤ (m <<< (e - 2 * t).toNat).sqrt := by
  refine or_iff_not_imp_left.2 fun hlarge => ?_
  rw [Nat.le_sqrt, Nat.shiftLeft_eq]
  calc 2 ^ 52 * 2 ^ 52 = 2 ^ 104 := by norm_num
    _ ≤ 2 ^ (m.log2 + (e - 2 * t).toNat) := Nat.pow_le_pow_right two_pos (by omega)
    _ = 2 ^ m.log2 * 2 ^ (e - 2 * t).toNat := pow_add ..
    _ ≤ m * 2 ^ (e - 2 * t).toNat := Nat.mul_le_mul_right _ (Nat.log2_self_le hm.ne')

/-- The root of a finite number that is not negative. -/
theorem rounds_sqrt (hx : x.isFinite = true) (hzero : 0 ≤ value x) :
    Rounds √(value x) x.sqrt := by
  show Rounds √(meaning x.toModel.unpack) (Float.ofModel (Float.Model.pack
    (UnpackedFloat.sqrt Format.binary64 x.toModel.unpack)))
  unfold value at hzero
  obtain ⟨s, hunpack⟩ | ⟨s, m, e, hm, hunpack⟩ := finite_cases hx
  · rw [hunpack]
    show Rounds √0 _
    rw [Real.sqrt_zero]
    exact ⟨neighbours_canonical (f := .zero s) trivial, isNaN_unpack_pack (f := .zero s) rfl⟩
  · have hpos : (0 : ℝ) < m * 2 ^ e := mul_pos (Nat.cast_pos.2 hm) (by positivity)
    rw [hunpack] at hzero ⊢
    cases s with
    | negative =>
      change 0 ≤ unit .negative * _ at hzero
      rw [unit_negative] at hzero
      linarith
    | positive =>
      obtain ⟨t, ht⟩ : ∃ t, t = min (e / 2) (max ((m.log2 + e + 2) / 2 - 53) (-1074)) := ⟨_, rfl⟩
      have hcore : sqrtCore Format.binary64 m e =
          ((m <<< (e - 2 * t).toNat).sqrt, t, rootAccuracy (m <<< (e - 2 * t).toNat)) := by
        have htarget : min (e.ediv 2) (Format.binary64.targetExponent
            ((totalExponent m e + 1).ediv 2)) = t := by
          rw [ht, targetExponent_of,
            show totalExponent m e + 1 = m.log2 + e + 2 by unfold totalExponent; ring]
          rfl
        unfold sqrtCore
        dsimp only
        rw [htarget]
        rfl
      have hroot := neighbours_roundWithAccuracy .positive (root_size hm ht)
        (approximates_root (m <<< (e - 2 * t).toNat))
      have hscale : unit .positive * (√((m <<< (e - 2 * t).toNat : ℕ) : ℝ) * 2 ^ t) =
          √(unit .positive * (m * 2 ^ e)) := by
        have hsquare : (2 : ℝ) ^ e = 2 ^ (e - 2 * t).toNat * (2 ^ t) ^ 2 := by
          rw [← zpow_natCast, ← zpow_natCast, ← zpow_mul, ← zpow_add₀ two_ne_zero]
          congr 1
          push_cast
          omega
        rw [unit_positive, one_mul, one_mul, hsquare, ← mul_assoc, Real.sqrt_mul (by positivity),
          Real.sqrt_sq (by positivity), Nat.shiftLeft_eq]
        push_cast
        rfl
      rw [hscale] at hroot
      unfold UnpackedFloat.sqrt
      dsimp only
      rw [hcore]
      exact ⟨hroot, isNaN_unpack_pack (isNaN_roundWithAccuracy ..)⟩

end Roots

end Binary64

end FlagCombat
