import FlagCombat.Proofs.Binary64.Square

/-!
Whole numbers as binary64 numbers: those of up to 64 bits are finite, also where they are read from
decimal digits, which takes the product with one.
-/

namespace FlagCombat

namespace Binary64

open Float.Model (Format UnpackedFloat totalExponent)
open Float.Model.UnpackedFloat

/-- Zeros at the end of a mantissa are shifted out. -/
theorem shiftRight_mul_pow (m k : Nat) :
    (⟨m * 2 ^ k, false, false⟩ : ExtendedMantissa) >>> k = ⟨m, false, false⟩ := by
  induction k generalizing m with
  | zero => exact congrArg (ExtendedMantissa.mk · false false) (Nat.mul_one m)
  | succ k ih =>
    show ((⟨m * 2 ^ (k + 1), false, false⟩ : ExtendedMantissa) >>> k).shiftRightOne = _
    rw [pow_succ', ← mul_assoc, ih]
    unfold ExtendedMantissa.shiftRightOne
    simp

/-- The number one, by its word. -/
def one : Float := Float.ofBits 0x3ff0000000000000

/-- A finite number stays so when it is multiplied by one. -/
theorem isFinite_mul_one {x : Float} (hx : x.isFinite = true) : (x * one).isFinite = true := by
  have hone : one.toModel.unpack = .finite .positive (2 ^ 52) (-52) (by decide) := rfl
  have hproduct : (x * one).isFinite = (UnpackedFloat.unpack Format.binary64
      (UnpackedFloat.pack Format.binary64
        (UnpackedFloat.mul Format.binary64 x.toModel.unpack one.toModel.unpack))).isFinite := rfl
  have hcanonical := canonical x
  rw [hproduct, hone]
  obtain ⟨s, hunpack⟩ | ⟨s, m, e, hm, hunpack⟩ := finite_cases hx
  · rw [hunpack]
    cases s <;> rfl
  · rw [hunpack] at hcanonical ⊢
    obtain ⟨hlegal, hmost⟩ := hcanonical
    have hlt := hlegal.mantissa_lt
    have hleast := hlegal.least
    have hfull := hlegal.full
    have hlow := hlegal.log2 hm
    have hhigh := log2_lt hlt
    have hlog : (m * 2 ^ 52).log2 = m.log2 + 52 := by
      have hself := Nat.log2_self_le (Nat.ne_of_gt hm)
      have hnext := Nat.lt_log2_self (n := m)
      rw [Nat.log2_eq_iff (by omega), Nat.add_right_comm, pow_add, pow_add]
      omega
    have hshift : shiftToTargetExponent Format.binary64 (m * 2 ^ 52) (e + -52) .exact =
        (⟨m, false, false⟩, e) := by
      unfold shiftToTargetExponent shiftToExponent
      dsimp only
      have hbits : (max (((m.log2 + 52 : Nat) : Int) + (e + -52) - 52) (-1074) -
          (e + -52)).toNat = 52 := by omega
      rw [targetExponent_eq, hlog, hbits]
      exact Prod.ext (shiftRight_mul_pow m 52) (show e + -52 + 52 = e by omega)
    have hround : UnpackedFloat.mul Format.binary64 (.finite s m e hm)
        (.finite .positive (2 ^ 52) (-52) (by decide)) = .finite (s * .positive) m e hm :=
      roundWithAccuracy_of_shift hm hlt hleast hshift
    rw [hround, isFinite_unpack_pack]
    exact decide_eq_true hmost

/-- A whole number of at most 64 bits is finite. -/
theorem isFinite_normalize {n : Nat} (hn : n < 2 ^ 64) :
    (UnpackedFloat.unpack Format.binary64 (UnpackedFloat.pack Format.binary64
      (UnpackedFloat.normalize Format.binary64 n 0 .positive))).isFinite = true := by
  unfold UnpackedFloat.normalize
  obtain rfl | hpos := Nat.eq_zero_or_pos n
  · rfl
  · have hlog : n.log2 < 64 := (Nat.log2_lt (by omega)).2 hn
    rw [Int.compare_eq_gt.2 (Int.natCast_pos.2 hpos)]
    exact isFinite_round (m := n) hpos (by omega)

theorem isFinite_toFloat (n : UInt32) : n.toFloat.isFinite = true :=
  isFinite_normalize (n := n.toNat) (Nat.lt_trans n.toNat_lt (by decide))

theorem isFinite_ofNat {n : Nat} (hn : n < 2 ^ 64) : (Float.ofNat n).isFinite = true := by
  show (Float.ofScientific n false 0).isFinite = true
  unfold Float.ofScientific
  by_cases hsmall : n < 2 ^ 53
  · have hword : n.toUInt64.toFloat.isFinite = true :=
      isFinite_normalize (n := n.toUInt64.toNat) n.toUInt64.toNat_lt
    rw [dif_pos (by omega)]
    exact isFinite_mul_one hword
  -- A longer number is multiplied by ten to the power of zero and rounded once.
  · rw [dif_neg (by omega)]
    show (UnpackedFloat.unpack Format.binary64 (UnpackedFloat.pack Format.binary64
      (UnpackedFloat.ofScientific Format.binary64 n 0))).isFinite = true
    have hround : UnpackedFloat.ofScientific Format.binary64 n 0 =
        roundWithAccuracy Format.binary64 .positive (n <<< 53 * 10 ^ 0) (-53 + 0) .exact := by
      have hbits : (2 : Int) ^ Format.binary64.exponentBits = 2048 := by decide
      unfold UnpackedFloat.ofScientific
      rw [dif_neg (by omega), if_neg (by decide), if_neg (by omega), if_pos (by decide)]
      rfl
    have hlog : (n <<< 53 * 10 ^ 0).log2 < 117 := by
      refine (Nat.log2_lt ?_).2 ?_ <;> rw [Nat.shiftLeft_eq] <;> omega
    obtain ⟨-, -, hexponent⟩ := excess_bounds (n <<< 53 * 10 ^ 0) (-53 + 0)
    rw [hround]
    exact isFinite_rounded (.inl (by omega))

/-- A whole number between those of a word with and without sign is finite. -/
theorem isFinite_ofInt {n : Int} (hlow : -2 ^ 63 ≤ n) (hhigh : n < 2 ^ 64) :
    (Float.ofInt n).isFinite = true := by
  cases n with
  | ofNat n =>
    have hword : (n : Int) < 2 ^ 64 := hhigh
    exact isFinite_ofNat (by omega)
  | negSucc n => exact isFinite_neg (isFinite_ofNat (by omega))

end Binary64

end FlagCombat
