import FlagCombat.Proofs.Binary64.Operation

/-!
The sum of two positive numbers is positive. It is a mantissa above zero, and rounding that to the
nearest number never takes its highest bit away.
-/

namespace FlagCombat

namespace Binary64

open Float.Model (Format UnpackedFloat)
open Float.Model.UnpackedFloat

theorem mantissa_shiftRight (x : ExtendedMantissa) (n : Nat) :
    (x >>> n).mantissa = x.mantissa / 2 ^ n := by
  induction n with
  | zero => exact (Nat.div_one _).symm
  | succ n ih =>
    show (x >>> n).mantissa / 2 = _
    rw [ih, Nat.div_div_eq_div_mul, pow_succ]

/-- A mantissa is rounded to itself or to the next one. -/
theorem roundedMantissa_cases (x : ExtendedMantissa) :
    x.roundedMantissa = x.mantissa ∨ x.roundedMantissa = x.mantissa + 1 := by
  obtain ⟨m, roundBit, stickyBit⟩ := x
  cases roundBit <;> cases stickyBit
  · exact .inl rfl
  · exact .inl rfl
  · show m + m % 2 = m ∨ m + m % 2 = m + 1
    omega
  · exact .inr rfl

/-- What rounding makes of a mantissa other than zero: a full one, or one of the least exponent. -/
def Rounded (sign : Sign) (x : UnpackedFloat) : Prop :=
  ∃ m e hm, Legal m e ∧ x = .finite sign m e hm

section Rounding

variable {sign : Sign} {m m' : Nat} {e e' : Int}

theorem roundWithAccuracy_of_shift_mantissa {x : ExtendedMantissa}
    (hshift : shiftToTargetExponent Format.binary64 m' e' .exact = (x, e))
    (hlow : 2 ^ 52 ≤ x.mantissa) (hhigh : x.mantissa < 2 ^ 53) (he : -1074 ≤ e) :
    Rounded sign (roundWithAccuracy Format.binary64 sign m' e' .exact) := by
  have hfinal {m : Nat} {e₁ : Int} (hfull : 2 ^ 52 ≤ m) (hm : m < 2 ^ 53) (he₁ : -1074 ≤ e₁)
      (h : shiftToTargetExponent Format.binary64 x.roundedMantissa e .exact =
        (⟨m, false, false⟩, e₁)) :
      Rounded sign (roundWithAccuracy Format.binary64 sign m' e' .exact) := by
    have hpos : 0 < m := by omega
    refine ⟨m, e₁, hpos, ⟨hm, he₁, .inl hfull⟩, ?_⟩
    unfold roundWithAccuracy
    rw [hshift]
    dsimp only
    rw [h]
    exact dif_neg (Nat.ne_of_gt hpos)
  have hcases := roundedMantissa_cases x
  by_cases hcarry : x.roundedMantissa = 2 * 2 ^ 52
  -- The carry out of a mantissa of ones is shifted back.
  · refine hfinal (Nat.le_refl _) (by decide) (show -1074 ≤ e + 1 by omega) ?_
    rw [hcarry]
    exact shift_double (Nat.le_refl _) (by decide) he
  · have hfits : x.roundedMantissa < 2 ^ 53 := by omega
    exact hfinal (by omega) hfits he (shift_legal hfits he)

/-- A mantissa above zero is rounded to one above zero. -/
theorem rounded_round (hm : 0 < m) (he : -1074 ≤ e) :
    Rounded sign (UnpackedFloat.round Format.binary64 sign m e) := by
  have hlow := Nat.log2_self_le (Nat.ne_of_gt hm)
  have hhigh : m < 2 ^ (m.log2 + 1) := Nat.lt_log2_self
  have hround : UnpackedFloat.round Format.binary64 sign m e =
      roundWithAccuracy Format.binary64 sign
        (m <<< (e - max (m.log2 + e - 52) (-1074)).toNat)
        (e - ((e - max (m.log2 + e - 52) (-1074)).toNat : Nat)) .exact := by
    unfold UnpackedFloat.round decreaseExponent
    rw [targetExponent_eq]
  rw [hround]
  by_cases hfew : max (m.log2 + e - 52) (-1074) ≤ e
  -- The bits fit: they are moved up to the exponent they are to have.
  · obtain ⟨s, hs⟩ : ∃ s : Nat, e - max (m.log2 + e - 52) (-1074) = s :=
      ⟨_, (Int.toNat_of_nonneg (by omega)).symm⟩
    rw [hs, Int.toNat_natCast, Nat.shiftLeft_eq]
    have hpos : 0 < m * 2 ^ s := Nat.mul_pos hm (Nat.two_pow_pos s)
    have hlt : m * 2 ^ s < 2 ^ 53 :=
      calc m * 2 ^ s
          < 2 ^ (m.log2 + 1) * 2 ^ s := Nat.mul_lt_mul_of_pos_right hhigh (Nat.two_pow_pos s)
        _ = 2 ^ (m.log2 + 1 + s) := (pow_add ..).symm
        _ ≤ 2 ^ 53 := Nat.pow_le_pow_right Nat.two_pos (by omega)
    have hfull : 2 ^ 52 ≤ m * 2 ^ s ∨ e - (s : Int) = -1074 := by
      by_cases hleast : e - (s : Int) = -1074
      · exact .inr hleast
      · refine .inl ?_
        calc 2 ^ 52
            = 2 ^ (m.log2 + s) := by congr 1; omega
          _ = 2 ^ m.log2 * 2 ^ s := pow_add ..
          _ ≤ m * 2 ^ s := Nat.mul_le_mul_right _ hlow
    exact ⟨m * 2 ^ s, e - s, hpos, ⟨hlt, by omega, hfull⟩,
      roundWithAccuracy_of_shift hpos hlt (by omega) (shift_legal hlt (by omega))⟩
  -- There are more bits than fit: those at the end are rounded away.
  · have htarget : max (m.log2 + e - 52) (-1074) = m.log2 + e - 52 := by omega
    obtain ⟨s, hs⟩ : ∃ s, m.log2 = 52 + s := ⟨m.log2 - 52, by omega⟩
    rw [show (e - max (m.log2 + e - 52) (-1074)).toNat = 0 by omega, Nat.shiftLeft_zero,
      show e - ((0 : Nat) : Int) = e by omega]
    have hshift : shiftToTargetExponent Format.binary64 m e .exact =
        ((⟨m, false, false⟩ : ExtendedMantissa) >>> s, e + s) := by
      unfold shiftToTargetExponent shiftToExponent
      dsimp only
      rw [targetExponent_eq, show (max (m.log2 + e - 52) (-1074) - e).toNat = s by omega]
      rfl
    refine roundWithAccuracy_of_shift_mantissa hshift ?_ ?_ (by omega)
    · rw [mantissa_shiftRight, Nat.le_div_iff_mul_le (Nat.two_pow_pos s), ← pow_add, ← hs]
      exact hlow
    · rw [mantissa_shiftRight, Nat.div_lt_iff_lt_mul (Nat.two_pow_pos s), ← pow_add,
        show 53 + s = m.log2 + 1 by omega]
      exact hhigh

end Rounding

/-- What a positive number is read as. -/
inductive IsPositive : UnpackedFloat → Prop
  | infinity : IsPositive (.infinity .positive)
  | finite {m : Nat} {e : Int} (hm : 0 < m) : IsPositive (.finite .positive m e hm)

theorem pos_iff_isPositive {x : Float} : 0.0 < x ↔ IsPositive x.toModel.unpack := by
  have hzero : (0.0 : Float).toModel.unpack = .zero .positive := rfl
  rw [lt_iff_compare, hzero]
  constructor
  · intro h
    cases hx : x.toModel.unpack with
    | notANumber | zero =>
      rw [hx] at h
      cases h
    | infinity s =>
      cases s with
      | positive => exact .infinity
      | negative =>
        rw [hx] at h
        cases h
    | finite s m e hm =>
      cases s with
      | positive => exact .finite hm
      | negative =>
        rw [hx] at h
        cases h
  · generalize x.toModel.unpack = f
    rintro (_ | _) <;> rfl

/-- The sum of two positive finite numbers is rounded from a mantissa above zero. -/
theorem rounded_add {m m' : Nat} {e e' : Int} (hm : 0 < m) (hm' : 0 < m') (he : -1074 ≤ e)
    (he' : -1074 ≤ e') : Rounded .positive (UnpackedFloat.add Format.binary64
      (.finite .positive m e hm) (.finite .positive m' e' hm')) := by
  show Rounded .positive (UnpackedFloat.normalize Format.binary64
    (((m <<< (e - min e e').toNat : Nat) : Int) + ((m' <<< (e' - min e e').toNat : Nat) : Int))
    (min e e') .positive)
  have hpos : 0 < m <<< (e - min e e').toNat := by
    rw [Nat.shiftLeft_eq]
    exact Nat.mul_pos hm (Nat.two_pow_pos _)
  have hsum : 0 < m <<< (e - min e e').toNat + m' <<< (e' - min e e').toNat :=
    Nat.add_pos_left hpos _
  rw [← Int.natCast_add]
  unfold UnpackedFloat.normalize
  rw [Int.compare_eq_gt.2 (Int.natCast_pos.2 hsum)]
  exact rounded_round hsum (by omega)

theorem isPositive_add {f g : UnpackedFloat} (hf : IsPositive f) (hg : IsPositive g)
    (hcanonicalF : Canonical f) (hcanonicalG : Canonical g) :
    IsPositive (UnpackedFloat.unpack Format.binary64
      (UnpackedFloat.pack Format.binary64 (UnpackedFloat.add Format.binary64 f g))) := by
  have hinfinity : IsPositive (UnpackedFloat.unpack Format.binary64
      (UnpackedFloat.pack Format.binary64 (.infinity .positive))) := by
    rw [unpack_pack (show Canonical (.infinity .positive) from trivial)]
    exact .infinity
  cases hf with
  | infinity => cases hg <;> exact hinfinity
  | finite hm =>
    cases hg with
    | infinity => exact hinfinity
    | finite hm' =>
      obtain ⟨m, e, hm, hlegal, heq⟩ :=
        rounded_add hm hm' hcanonicalF.1.least hcanonicalG.1.least
      rw [heq, unpack_pack_finite .positive hm hlegal]
      by_cases hlarge : 971 < e
      · rw [if_pos hlarge]
        exact .infinity
      · rw [if_neg hlarge]
        exact .finite hm

/-- The sum of two positive numbers is positive. -/
theorem add_pos {x y : Float} (hx : 0.0 < x) (hy : 0.0 < y) : 0.0 < x + y :=
  pos_iff_isPositive.2 (isPositive_add (pos_iff_isPositive.1 hx) (pos_iff_isPositive.1 hy)
    (canonical x) (canonical y))

end Binary64

end FlagCombat
