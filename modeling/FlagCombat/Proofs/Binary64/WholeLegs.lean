import FlagCombat.Proofs.Binary64.Hypotenuse
import FlagCombat.Proofs.Binary64.Integer
import Mathlib.Tactic.LinearCombination

/-!
The hypotenuse of whole legs. The correction of the root is taken from whole numbers and from the
root itself, so it is zero if the root is whole, and else so small that the hypotenuse lies on the
same side of every whole number as the exact one does.
-/

namespace FlagCombat

namespace Binary64

variable {a b h : Float} {m n k : ℤ}

/-- A word for the root of a whole number: near to it, and the root itself where that is whole. -/
structure IsRootOf (z : Float) (s : ℤ) : Prop where
  finite : z.isFinite = true
  near : |value z - √s| ≤ 1 / 2 ^ 19
  exact : ∀ k : ℤ, 0 ≤ k → k * k = s → value z = k

/-- Beside a whole number of at most 4096 a root is on the side that the squares tell. -/
theorem IsRootOf.le_iff {z : Float} {s : ℤ} (hz : IsRootOf z s) (hs : 0 ≤ s) (hk : 0 ≤ k)
    (hmost : k ≤ 4096) : value z ≤ k ↔ s ≤ k * k := by
  obtain ⟨-, hnear, hexact⟩ := hz
  obtain ⟨hlow, hhigh⟩ := abs_le.1 hnear
  have hk0 : (0 : ℝ) ≤ k := Int.cast_nonneg hk
  have hk1 : (k : ℝ) ≤ 4096 := by exact_mod_cast hmost
  have hs0 : (0 : ℝ) ≤ s := Int.cast_nonneg hs
  obtain hless | heq | hmore := lt_trichotomy s (k * k)
  · refine iff_of_true ?_ hless.le
    have hsquare : (s : ℝ) ≤ k * k - 1 := by exact_mod_cast Int.le_sub_one_of_lt hless
    have hk2 : (1 : ℝ) ≤ k := by
      have : 0 < k := by
        by_contra hzero
        obtain rfl : k = 0 := by omega
        omega
      exact_mod_cast this
    have hroot : √s ≤ k - 1 / 2 ^ 14 :=
      Real.sqrt_le_iff.2 ⟨by linarith, by nlinarith⟩
    linarith
  · refine iff_of_true ?_ heq.le
    rw [hexact k hk heq.symm]
  · refine iff_of_false ?_ hmore.not_ge
    have hsquare : (k : ℝ) * k + 1 ≤ s := by exact_mod_cast hmore
    have hroot : k + 1 / 2 ^ 14 ≤ √s := Real.le_sqrt_of_sq_le (by nlinarith)
    rw [not_le]
    linarith

section Excess

variable {H : ℝ}

/-- The excess beside the short leg nearly vanishes. -/
theorem tracks_excess_near (ha : IsWhole 2048 a m) (hb : IsWhole 2048 b n)
    (hh : Tracks 4096 (1 / 2 ^ 39) h H) (hH : H * H = m * m + n * n) :
    ∃ size, Tracks size (1 / 2 ^ 19)
      (a * (2.0 * (h - b) - a) + ((h - b) - 2.0 * (a - b)) * (h - b)) 0 := by
  have hd := hh.sub hb.tracks (g := 1 / 2 ^ 37) (by constructor <;> norm_num)
  have htwice := isWhole_two.tracks.mul hd (g := 1 / 2 ^ 35) (by constructor <;> norm_num)
  have hrest := htwice.sub ha.tracks (g := 1 / 2 ^ 34) (by constructor <;> norm_num)
  have hfirst := ha.tracks.mul hrest (g := 1 / 2 ^ 22) (by constructor <;> norm_num)
  have hgap := ha.tracks.sub hb.tracks (g := 1 / 2 ^ 38) (by constructor <;> norm_num)
  have htwice' := isWhole_two.tracks.mul hgap (g := 1 / 2 ^ 36) (by constructor <;> norm_num)
  have hrest' := hd.sub htwice' (g := 1 / 2 ^ 35) (by constructor <;> norm_num)
  have hsecond := hrest'.mul hd (g := 1 / 2 ^ 21) (by constructor <;> norm_num)
  have hsum := hfirst.add hsecond (g := 1 / 2 ^ 19) (by constructor <;> norm_num)
  have hzero : m * (((2 : ℤ) : ℝ) * (H - n) - m) +
      (H - n - ((2 : ℤ) : ℝ) * (m - n)) * (H - n) = 0 := by
    push_cast
    linear_combination hH
  exact ⟨_, hzero ▸ hsum⟩

/-- The excess beside the long leg nearly vanishes. -/
theorem tracks_excess_far (ha : IsWhole 2048 a m) (hb : IsWhole 2048 b n)
    (hh : Tracks 4096 (1 / 2 ^ 39) h H) (hH : H * H = m * m + n * n) :
    ∃ size, Tracks size (1 / 2 ^ 19)
      (2.0 * (h - a) * (a - 2.0 * b) + ((4.0 * (h - a) - b) * b + (h - a) * (h - a))) 0 := by
  have hd := hh.sub ha.tracks (g := 1 / 2 ^ 37) (by constructor <;> norm_num)
  have htwice := isWhole_two.tracks.mul hd (g := 1 / 2 ^ 35) (by constructor <;> norm_num)
  have htwice' := isWhole_two.tracks.mul hb.tracks (g := 1 / 2 ^ 38) (by constructor <;> norm_num)
  have hrest := ha.tracks.sub htwice' (g := 1 / 2 ^ 37) (by constructor <;> norm_num)
  have hfirst := htwice.mul hrest (g := 1 / 2 ^ 21) (by constructor <;> norm_num)
  have hfour := isWhole_four.tracks.mul hd (g := 1 / 2 ^ 34) (by constructor <;> norm_num)
  have hrest' := hfour.sub hb.tracks (g := 1 / 2 ^ 33) (by constructor <;> norm_num)
  have hsecond := hrest'.mul hb.tracks (g := 1 / 2 ^ 21) (by constructor <;> norm_num)
  have hthird := hd.mul hd (g := 1 / 2 ^ 22) (by constructor <;> norm_num)
  have hsum := hsecond.add hthird (g := 1 / 2 ^ 20) (by constructor <;> norm_num)
  have htotal := hfirst.add hsum (g := 1 / 2 ^ 19) (by constructor <;> norm_num)
  have hzero : ((2 : ℤ) : ℝ) * (H - m) * (m - ((2 : ℤ) : ℝ) * n) +
      ((((4 : ℤ) : ℝ) * (H - m) - n) * n + (H - m) * (H - m)) = 0 := by
    push_cast
    linear_combination hH
  exact ⟨_, hzero ▸ htotal⟩

/-- The excess beside the short leg vanishes if the root is whole. -/
theorem isWhole_excess_near (ha : IsWhole 2048 a m) (hb : IsWhole 2048 b n)
    (hh : IsWhole 4096 h k) (hk : k * k = m * m + n * n) :
    ∃ size, IsWhole size
      (a * (2.0 * (h - b) - a) + ((h - b) - 2.0 * (a - b)) * (h - b)) 0 := by
  have hd := hh.sub hb (by norm_num)
  have hfirst := ha.mul ((isWhole_two.mul hd (by norm_num)).sub ha (by norm_num)) (by norm_num)
  have hgap := isWhole_two.mul (ha.sub hb (by norm_num)) (by norm_num)
  have hsum := hfirst.add ((hd.sub hgap (by norm_num)).mul hd (by norm_num)) (by norm_num)
  have hzero : m * (2 * (k - n) - m) + (k - n - 2 * (m - n)) * (k - n) = 0 := by
    linear_combination hk
  exact ⟨_, hzero ▸ hsum⟩

/-- The excess beside the long leg vanishes if the root is whole. -/
theorem isWhole_excess_far (ha : IsWhole 2048 a m) (hb : IsWhole 2048 b n)
    (hh : IsWhole 4096 h k) (hk : k * k = m * m + n * n) :
    ∃ size, IsWhole size
      (2.0 * (h - a) * (a - 2.0 * b) + ((4.0 * (h - a) - b) * b + (h - a) * (h - a))) 0 := by
  have hd := hh.sub ha (by norm_num)
  have hrest := ha.sub (isWhole_two.mul hb (by norm_num)) (by norm_num)
  have hfirst := (isWhole_two.mul hd (by norm_num)).mul hrest (by norm_num)
  have hrest' := (isWhole_four.mul hd (by norm_num)).sub hb (by norm_num)
  have hsum := (hrest'.mul hb (by norm_num)).add (hd.mul hd (by norm_num)) (by norm_num)
  have htotal := hfirst.add hsum (by norm_num)
  have hzero : 2 * (k - m) * (m - 2 * n) + ((4 * (k - m) - n) * n + (k - m) * (k - m)) = 0 := by
    linear_combination hk
  exact ⟨_, hzero ▸ htotal⟩

end Excess

section Hypotenuse

theorem representable_unit : Representable (1 / 2 ^ 20) := by
  have h := representable_power (k := -20) (by norm_num) (by norm_num)
  unfold power at h
  norm_num at h ⊢
  exact h

/-- A root that is corrected by a vanishing excess. -/
theorem isRootOf_corrected {s : ℤ} {excess : Float} (hh : Tracks 4096 (1 / 2 ^ 39) h √s)
    (hpos : 1 ≤ value h) (hnear : ∃ size, Tracks size (1 / 2 ^ 19) excess 0)
    (hexact : ∀ k : ℤ, 0 ≤ k → k * k = s → IsWhole 4096 h k ∧ ∃ size, IsWhole size excess 0) :
    IsRootOf (h - excess / (2.0 * h)) s := by
  obtain ⟨_, hexcess⟩ := hnear
  have hdouble := rounds_mul isWhole_two.finite hh.finite
  rw [isWhole_two.value_eq] at hdouble
  have htwo : 2 ≤ value (2.0 * h) := by
    refine hdouble.ge_of_ge ?_ ?_
    · exact_mod_cast representable_intCast (n := 2) (by norm_num)
    · push_cast
      linarith
  have hfinite : (2.0 * h).isFinite = true := by
    have hsize : |((2 : ℤ) : ℝ) * value h| ≤ 2 ^ 14 := by
      have hroot := hh.abs_le
      have hclose := hh.near
      rw [abs_le] at hroot hclose ⊢
      push_cast
      constructor
      · linarith
      · linarith
    exact (hdouble.error hsize (by norm_num) (by norm_num)).1
  have hquotient := rounds_div hexcess.finite
    (isProper_of_value hfinite (by linarith : value (2.0 * h) ≠ 0))
  have hsmall : |value excess / value (2.0 * h)| ≤ 1 / 2 ^ 20 := by
    have hclose := hexcess.near
    rw [sub_zero] at hclose
    rw [abs_div, abs_of_pos (by linarith : 0 < value (2.0 * h)),
      div_le_iff₀ (by linarith : 0 < value (2.0 * h))]
    linarith
  have hcorrection : Tracks 1 (1 / 2 ^ 20) (excess / (2.0 * h)) 0 := by
    refine ⟨hquotient.isFinite representable_unit hsmall, by norm_num, ?_⟩
    rw [sub_zero]
    exact hquotient.abs_value_le representable_unit hsmall
  have hresult := hh.sub hcorrection (g := 1 / 2 ^ 19) (by constructor <;> norm_num)
  refine ⟨hresult.finite, by simpa using hresult.near, fun k hk hsquare => ?_⟩
  obtain ⟨hwhole, size, hzero⟩ := hexact k hk hsquare
  rw [hzero.value_eq, Int.cast_zero, zero_div] at hquotient
  have hnone : IsWhole 0 (excess / (2.0 * h)) 0 :=
    .of_rounds hquotient Int.cast_zero.symm (by norm_num) (by norm_num)
  have hkept := hwhole.sub hnone (by norm_num)
  rw [hkept.value_eq, sub_zero]

theorem isRootOf_correctedHypotenuse (ha : IsWhole 2048 a m) (hb : IsWhole 2048 b n)
    (hn : 1 ≤ n) : IsRootOf (correctedHypotenuse a b) (m * m + n * n) := by
  have hsum := (ha.mul ha (by norm_num)).add (hb.mul hb (by norm_num)) (by norm_num)
  have hpos : 0 < m * m + n * n := by nlinarith [mul_self_nonneg m]
  have hone : (1 : ℝ) ≤ (m * m + n * n : ℤ) := by exact_mod_cast hpos
  have hroot := rounds_sqrt hsum.finite (by rw [hsum.value_eq]; linarith)
  rw [hsum.value_eq] at hroot
  have hmost : (m * m + n * n : ℤ) ≤ 4096 * 4096 := by
    have hm := abs_le.1 ha.abs_le
    have hn := abs_le.1 hb.abs_le
    push_cast at hm hn
    nlinarith
  have hsize : √((m * m + n * n : ℤ) : ℝ) ≤ 4096 := by
    refine Real.sqrt_le_iff.2 ⟨by norm_num, ?_⟩
    exact_mod_cast hmost.trans (by norm_num)
  have hlow : 1 ≤ √((m * m + n * n : ℤ) : ℝ) := Real.le_sqrt_of_sq_le (by linarith)
  obtain ⟨hfinite, herror⟩ := hroot.error (c := 4096)
    (by rwa [abs_of_nonneg (Real.sqrt_nonneg _)]) (by norm_num) (by norm_num)
  have hh : Tracks 4096 (1 / 2 ^ 39) (a * a + b * b).sqrt √((m * m + n * n : ℤ) : ℝ) :=
    ⟨hfinite, by rwa [abs_of_nonneg (Real.sqrt_nonneg _)], herror.trans (by norm_num)⟩
  have hh0 : 1 ≤ value (a * a + b * b).sqrt :=
    hroot.ge_of_ge (by exact_mod_cast representable_intCast (n := 1) (by norm_num)) hlow
  have hsquare : √((m * m + n * n : ℤ) : ℝ) * √((m * m + n * n : ℤ) : ℝ) = m * m + n * n := by
    rw [Real.mul_self_sqrt (by linarith)]
    push_cast
    rfl
  have hwhole (k : ℤ) (hk : 0 ≤ k) (hkk : k * k = m * m + n * n) :
      IsWhole 4096 (a * a + b * b).sqrt k := by
    have hk' : k ≤ 4096 := by nlinarith
    rw [← hkk] at hsum
    exact hsum.sqrt hk (by exact_mod_cast hk') (by norm_num)
  unfold correctedHypotenuse
  dsimp only
  split
  · exact isRootOf_corrected hh hh0 (tracks_excess_near ha hb hh hsquare)
      fun k hk hkk => ⟨hwhole k hk hkk, isWhole_excess_near ha hb (hwhole k hk hkk) hkk⟩
  · exact isRootOf_corrected hh hh0 (tracks_excess_far ha hb hh hsquare)
      fun k hk hkk => ⟨hwhole k hk hkk, isWhole_excess_far ha hb (hwhole k hk hkk) hkk⟩

/-- A whole number that is not negative is the root of its square. -/
theorem IsWhole.isRootOf {c : ℕ} {z : Float} (hz : IsWhole c z m) (hm : 0 ≤ m) :
    IsRootOf z (m * m) := by
  have hm' : (0 : ℝ) ≤ m := Int.cast_nonneg hm
  refine ⟨hz.finite, ?_, fun k hk hsquare => ?_⟩
  · rw [hz.value_eq, Int.cast_mul, Real.sqrt_mul_self hm']
    norm_num
  · rw [hz.value_eq, (mul_self_inj hk hm).1 hsquare]

theorem isRootOf_scaledHypotenuse (ha : IsWhole 2048 a m) (hb : IsWhole 2048 b n) (hn : 0 ≤ n)
    (hnm : n ≤ m) : IsRootOf (scaledHypotenuse a b) (m * m + n * n) := by
  have hnumber := isNaN_of_isFinite hb.finite
  have hm : (m : ℝ) ≤ 2048 := by exact_mod_cast (abs_le.1 ha.abs_le).2
  have hm0 : (0 : ℝ) ≤ m := Int.cast_nonneg (hn.trans hnm)
  have hlarge : ¬largeLeg < a := by
    have htop : (2048 : ℝ) ≤ power 511 := by
      rw [show (2048 : ℝ) = 2 ^ 11 by norm_num, ← power_natCast 11]
      exact power_le_power (by norm_num)
    rw [lt_iff_value (by decide +kernel) (isNaN_of_isFinite ha.finite), value_largeLeg,
      ha.value_eq, not_lt]
    exact hm.trans htop
  rw [scaledHypotenuse_eq, if_neg hlarge]
  obtain rfl | hpos := eq_or_lt_of_le hn
  · have htiny : b < tinyLeg := by
      rw [lt_iff_value hnumber (by decide +kernel), value_tinyLeg, hb.value_eq, Int.cast_zero]
      exact power_pos _
    have hnone : b / negligiblePart ≤ a := by
      have hquotient := rounds_div hb.finite isProper_negligiblePart
      rw [hb.value_eq, Int.cast_zero, zero_div] at hquotient
      rw [le_iff_value hquotient.number (isNaN_of_isFinite ha.finite),
        hquotient.exact representable_zero, ha.value_eq]
      exact hm0
    have hsum := (ha.add hb (by norm_num)).isRootOf (by simpa using hnm)
    rw [if_pos htiny, if_pos hnone]
    simpa using hsum
  · have hone : (1 : ℝ) ≤ n := by exact_mod_cast hpos
    have htiny : ¬b < tinyLeg := by
      have hleast : power (-459) ≤ 1 := zpow_le_one_of_nonpos₀ one_le_two (by norm_num)
      rw [lt_iff_value hnumber (by decide +kernel), value_tinyLeg, hb.value_eq, not_lt]
      linarith
    have hmore : ¬b ≤ a * negligiblePart := by
      have hproduct := rounds_mul ha.finite finite_negligiblePart
      rw [ha.value_eq, value_negligiblePart] at hproduct
      have hpart : m * power (-54) ≤ 1 / 2 ^ 20 := by
        have hpower : power (-54) = 1 / 2 ^ 54 := by
          unfold power
          norm_num
        rw [hpower]
        linarith
      have hsmall := hproduct.le_of_le representable_unit hpart
      rw [le_iff_value hnumber hproduct.number, hb.value_eq, not_le]
      linarith
    rw [if_neg htiny, if_neg hmore]
    exact isRootOf_correctedHypotenuse ha hb hpos

theorem isRootOf_hypotenuse (ha : IsWhole 2048 a m) (hb : IsWhole 2048 b n) :
    IsRootOf (hypotenuse a b) (m * m + n * n) := by
  have hfinite : (a.isFinite && b.isFinite) = true := by rw [ha.finite, hb.finite]; rfl
  rw [← abs_mul_abs_self m, ← abs_mul_abs_self n]
  unfold hypotenuse
  dsimp only
  rw [if_pos hfinite]
  by_cases hlt : a.abs < b.abs
  · rw [if_pos hlt, add_comm]
    exact isRootOf_scaledHypotenuse hb.abs ha.abs (abs_nonneg m)
      ((ha.abs.lt_iff hb.abs).1 hlt).le
  · rw [if_neg hlt]
    exact isRootOf_scaledHypotenuse ha.abs hb.abs (abs_nonneg n)
      (not_lt.1 (mt (ha.abs.lt_iff hb.abs).2 hlt))

end Hypotenuse

end Binary64

end FlagCombat
