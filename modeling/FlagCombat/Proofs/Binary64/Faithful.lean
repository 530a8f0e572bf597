import FlagCombat.Proofs.Binary64.Square
import FlagCombat.Proofs.Binary64.Value

/-!
Rounding to a neighbour. A mantissa with two residual bits stands for a real number that is less
than one unit above it, and what it is rounded to is one of the two ends of that unit; so no number
that a word can hold lies strictly between a real number and what it is rounded to. This holds of
the five basic operations, and is all that is used of them: which of the two neighbours is the
nearer one does not matter here.
-/

namespace FlagCombat

namespace Binary64

open Float.Model (Format UnpackedFloat totalExponent)
open Float.Model.UnpackedFloat

/-- No number that a word can hold lies strictly between `q` and `r`, and `r` is not beyond one that
is `q`. -/
structure Neighbours (q r : ℝ) : Prop where
  le_of_le : ∀ {f}, Representable f → q ≤ f → r ≤ f
  ge_of_ge : ∀ {f}, Representable f → f ≤ q → f ≤ r

theorem Neighbours.refl (q : ℝ) : Neighbours q q := ⟨fun _ hle => hle, fun _ hge => hge⟩

theorem Neighbours.neg {q r : ℝ} (h : Neighbours q r) : Neighbours (-q) (-r) where
  le_of_le hf hle := neg_le.1 (h.ge_of_ge hf.neg (neg_le.1 hle))
  ge_of_ge hf hge := le_neg.1 (h.le_of_le hf.neg (le_neg.1 hge))

theorem Neighbours.unit_mul {q r : ℝ} (h : Neighbours q r) (s : Sign) :
    Neighbours (unit s * q) (unit s * r) := by
  cases s with
  | positive => rwa [unit_positive, one_mul, one_mul]
  | negative =>
    rw [unit_negative, neg_one_mul, neg_one_mul]
    exact h.neg

/-- What is rounded to `2 ^ 1024` or more is as good as infinite. -/
theorem Neighbours.infinite {q r : ℝ} (h : Neighbours q r) (hr : 2 ^ (1024 : ℤ) ≤ r) :
    Neighbours q (2 ^ (1024 : ℤ)) where
  le_of_le hf hle := hr.trans (h.le_of_le hf hle)
  ge_of_ge hf _ := ((le_abs_self _).trans_lt hf.abs_lt).le

section Units

variable {q : ℝ} {n r : ℕ} {u : ℤ}

/-- What a word can hold is a whole number of units, or smaller than all full mantissas. -/
theorem Representable.units {f : ℝ} (h : Representable f) (hnonneg : 0 ≤ f) (hlow : -1074 ≤ u) :
    (∃ k : ℕ, f = k * 2 ^ u) ∨ (-1074 < u ∧ f < 2 ^ 52 * 2 ^ u) := by
  obtain ⟨m, e, hm, hleast, -, rfl⟩ := h
  have hm0 : 0 ≤ m := by
    have := nonneg_of_mul_nonneg_left hnonneg (show (0 : ℝ) < 2 ^ e by positivity)
    exact_mod_cast this
  obtain ⟨k, rfl⟩ := Int.eq_ofNat_of_zero_le hm0
  obtain hunit | hunit := lt_or_ge e u
  · right
    have hk : (k : ℝ) < 2 ^ 53 := by
      rw [Nat.abs_cast] at hm
      exact_mod_cast hm
    refine ⟨by omega, ?_⟩
    calc ((k : ℤ) : ℝ) * 2 ^ e < 2 ^ 53 * 2 ^ e := by
          rw [Int.cast_natCast]
          exact mul_lt_mul_of_pos_right hk (by positivity)
      _ = 2 ^ 52 * 2 ^ (e + 1) := by
          rw [zpow_add_one₀ two_ne_zero]
          ring
      _ ≤ 2 ^ 52 * 2 ^ u :=
          mul_le_mul_of_nonneg_left (zpow_le_zpow_right₀ one_le_two hunit) (by positivity)
  · left
    refine ⟨k * 2 ^ (e - u).toNat, ?_⟩
    have hsplit : (2 : ℝ) ^ e = 2 ^ (e - u).toNat * 2 ^ u := by
      rw [← zpow_natCast, ← zpow_add₀ two_ne_zero, Int.toNat_of_nonneg (by omega),
        sub_add_cancel]
    rw [hsplit]
    push_cast
    ring

/-- A number of units is rounded down to a whole one, or up if it is not whole. -/
theorem neighbours_units (hlow : -1074 ≤ u) (hfull : u = -1074 ∨ 2 ^ 52 ≤ n) (hq : n ≤ q)
    (hq' : q < n + 1) (hr : r = n ∨ r = n + 1 ∧ n < q) : Neighbours (q * 2 ^ u) (r * 2 ^ u) := by
  have hunit : (0 : ℝ) < 2 ^ u := by positivity
  have hn : (n : ℝ) ≤ r := by
    obtain rfl | ⟨rfl, -⟩ := hr
    · exact le_rfl
    · push_cast
      linarith
  have hbelow {f : ℝ} (hu : -1074 < u) (hf : f < 2 ^ 52 * 2 ^ u) : f < n * 2 ^ u := by
    have hn' : (2 : ℝ) ^ 52 ≤ n := by exact_mod_cast hfull.resolve_left (by omega)
    exact hf.trans_le (mul_le_mul_of_nonneg_right hn' hunit.le)
  have hq0 : 0 ≤ q * 2 ^ u := mul_nonneg (n.cast_nonneg.trans hq) hunit.le
  constructor
  · intro f hf hle
    obtain ⟨k, rfl⟩ | ⟨hu, hsmall⟩ := hf.units (hq0.trans hle) hlow
    · have hk : q ≤ k := le_of_mul_le_mul_right hle hunit
      have hrk : r ≤ k := by
        obtain rfl | ⟨rfl, hlt⟩ := hr
        · exact_mod_cast hq.trans hk
        · exact_mod_cast hlt.trans_le hk
      exact mul_le_mul_of_nonneg_right (Nat.cast_le.2 hrk) hunit.le
    · have := mul_le_mul_of_nonneg_right hq hunit.le
      have := hbelow hu hsmall
      linarith
  · intro f hf hge
    obtain hneg | hnonneg := lt_or_ge f 0
    · exact hneg.le.trans (mul_nonneg r.cast_nonneg hunit.le)
    · obtain ⟨k, rfl⟩ | ⟨hu, hsmall⟩ := hf.units hnonneg hlow
      · have hk : (k : ℝ) < n + 1 := (le_of_mul_le_mul_right hge hunit).trans_lt hq'
        have hkn : k ≤ n := Nat.le_of_lt_succ (by exact_mod_cast hk)
        exact mul_le_mul_of_nonneg_right ((Nat.cast_le.2 hkn).trans hn) hunit.le
      · exact (hbelow hu hsmall).le.trans (mul_le_mul_of_nonneg_right hn hunit.le)

end Units

/-- A mantissa with residual bits stands for `q`: it is less than a unit below, and no bit is left
of a whole number. -/
structure Approximates (x : ExtendedMantissa) (q : ℝ) : Prop where
  low : x.mantissa ≤ q
  high : q < x.mantissa + 1
  whole : q = x.mantissa → x.roundBit = false ∧ x.stickyBit = false

namespace Approximates

variable {x : ExtendedMantissa} {q : ℝ}

theorem shiftRightOne (h : Approximates x q) : Approximates x.shiftRightOne (q / 2) := by
  obtain ⟨m, roundBit, stickyBit⟩ := x
  obtain ⟨hlow, hhigh, hwhole⟩ := h
  dsimp only at hlow hhigh hwhole
  have hsplit : (m : ℝ) = 2 * (m / 2 : ℕ) + (m % 2 : ℕ) := by
    exact_mod_cast (Nat.div_add_mod m 2).symm
  have hbit : ((m % 2 : ℕ) : ℝ) ≤ 1 := by
    exact_mod_cast Nat.le_of_lt_succ (Nat.mod_lt m two_pos)
  have hbit0 : (0 : ℝ) ≤ (m % 2 : ℕ) := Nat.cast_nonneg _
  refine ⟨?_, ?_, fun heq => ?_⟩
  · show ((m / 2 : ℕ) : ℝ) ≤ q / 2
    linarith
  · show q / 2 < ((m / 2 : ℕ) : ℝ) + 1
    linarith
  · change q / 2 = ((m / 2 : ℕ) : ℝ) at heq
    obtain ⟨rfl, rfl⟩ := hwhole (by linarith)
    have heven : m % 2 = 0 := by
      have : ((m % 2 : ℕ) : ℝ) = 0 := by linarith
      exact_mod_cast this
    exact ⟨by simp [ExtendedMantissa.shiftRightOne, heven], rfl⟩

theorem shiftRight (h : Approximates x q) (k : ℕ) : Approximates (x >>> k) (q / 2 ^ k) := by
  induction k with
  | zero =>
    rw [pow_zero, div_one]
    exact h
  | succ k ih =>
    rw [pow_succ, ← div_div]
    exact ih.shiftRightOne

/-- Only a number that is not whole is rounded up. -/
theorem roundedMantissa (h : Approximates x q) : x.roundedMantissa = x.mantissa ∨
    x.roundedMantissa = x.mantissa + 1 ∧ x.mantissa < q := by
  obtain heq | hne := eq_or_ne q x.mantissa
  · obtain ⟨m, roundBit, stickyBit⟩ := x
    obtain ⟨rfl, rfl⟩ := h.whole heq
    exact .inl rfl
  · exact (roundedMantissa_cases x).imp_right fun hup => ⟨hup, lt_of_le_of_ne h.low hne.symm⟩

end Approximates

section Rounding

variable {m : ℕ} {e : ℤ} {q : ℝ}

/-- Writing a rounded number down keeps it, or makes it infinite. -/
theorem Neighbours.pack {hm : 0 < m} (hlegal : Legal m e) (h : Neighbours q (m * 2 ^ e))
    (sign : Sign) : Neighbours (unit sign * q) (meaning (UnpackedFloat.unpack Format.binary64
      (UnpackedFloat.pack Format.binary64 (.finite sign m e hm)))) := by
  rw [unpack_pack_finite sign hm hlegal]
  by_cases hlarge : 971 < e
  · rw [if_pos hlarge]
    refine (h.infinite ?_).unit_mul sign
    have hfull : (2 : ℝ) ^ (52 : ℤ) ≤ m := by
      exact_mod_cast hlegal.full.resolve_right (by omega)
    calc (2 : ℝ) ^ (1024 : ℤ) = 2 ^ (52 : ℤ) * 2 ^ (972 : ℤ) :=
          zpow_add₀ two_ne_zero 52 972
      _ ≤ m * 2 ^ e := mul_le_mul hfull (zpow_le_zpow_right₀ one_le_two hlarge) (by positivity)
          m.cast_nonneg
  · rw [if_neg hlarge]
    exact h.unit_mul sign

/-- What is rounded is rounded to a neighbour, provided that its bits fill a mantissa. -/
theorem neighbours_roundWithAccuracy (sign : Sign) {accuracy : Accuracy}
    (hsize : e ≤ -1074 ∨ 2 ^ 52 ≤ m)
    (h : Approximates (.ofMantissaAndAccuracy m accuracy) q) :
    Neighbours (unit sign * (q * 2 ^ e)) (meaning (UnpackedFloat.unpack Format.binary64
      (UnpackedFloat.pack Format.binary64
        (roundWithAccuracy Format.binary64 sign m e accuracy)))) := by
  obtain ⟨hleast, -, hexponent⟩ := excess_bounds m e
  have hshifted := h.shiftRight (excess m e)
  have hunits := hshifted.roundedMantissa
  have hlow := hshifted.low
  have hhigh := hshifted.high
  rw [mantissa_shiftRight, mantissa_ofMantissaAndAccuracy] at hunits hlow hhigh
  have hfull : e + excess m e = -1074 ∨ 2 ^ 52 ≤ m / 2 ^ excess m e := by
    refine (eq_or_ne _ _).imp_right fun hne => ?_
    have hm : 52 ≤ m.log2 := by
      by_cases hshift : excess m e = 0
      · exact (Nat.le_log2 (by omega)).2 (by omega)
      · omega
    rw [Nat.le_div_iff_mul_le (Nat.two_pow_pos _), ← pow_add]
    refine (Nat.pow_le_pow_right two_pos ?_).trans (Nat.log2_self_le (by rintro rfl; simp at hm))
    omega
  have hscale : q / 2 ^ excess m e * 2 ^ (e + excess m e) = q * 2 ^ e := by
    rw [add_comm, zpow_add₀ two_ne_zero, zpow_natCast, ← mul_assoc,
      div_mul_cancel₀ _ (by positivity)]
  have hneighbours := neighbours_units hleast hfull hlow hhigh hunits
  rw [hscale] at hneighbours
  have hlt := div_excess_lt m e
  have hcases := roundedUnits_cases m e accuracy
  rw [roundWithAccuracy_eq]
  change Neighbours _ ((roundedUnits m e accuracy : ℕ) * 2 ^ (e + excess m e)) at hneighbours
  generalize roundedUnits m e accuracy = r at hneighbours hcases ⊢
  by_cases hzero : r = 0
  · rw [dif_pos hzero, unpack_pack (f := .zero sign) trivial]
    rw [hzero, Nat.cast_zero, zero_mul] at hneighbours
    have := hneighbours.unit_mul sign
    rwa [mul_zero] at this
  · rw [dif_neg hzero]
    by_cases hcarry : r < 2 ^ 53
    · rw [if_pos hcarry]
      exact hneighbours.pack ⟨hcarry, hleast, by omega⟩ sign
    · rw [if_neg hcarry]
      obtain rfl : r = 2 * 2 ^ 52 := by omega
      refine Neighbours.pack ⟨by norm_num, by omega, .inl le_rfl⟩ ?_ sign
      convert hneighbours using 1
      rw [zpow_add_one₀ two_ne_zero]
      push_cast
      ring

end Rounding

end Binary64

end FlagCombat
