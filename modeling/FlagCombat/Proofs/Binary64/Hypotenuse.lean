import FlagCombat.Proofs.Binary64.Relative
import FlagCombat.Proofs.Binary64.Undefined

/-!
A computed hypotenuse is never negative. The root of the rounded sum of squares is close to the
exact one, so the correction that is taken from it is smaller than the root; legs that are scaled
first stay as they are but for their exponents.
-/

namespace FlagCombat

namespace Binary64

theorem value_two : value 2.0 = 2 := (value_eq_power (e := -51) rfl).trans (zpow_one 2)

theorem value_four : value 4.0 = 4 := by
  rw [show value 4.0 = power (2 : ℕ) from value_eq_power (e := -50) rfl, power_natCast]
  norm_num

theorem finite_two : (2.0 : Float).isFinite = true := by decide +kernel

theorem finite_four : (4.0 : Float).isFinite = true := by decide +kernel

theorem inRange_of_le {u : ℝ} (hlow : power (-1022) ≤ u) (hhigh : u ≤ power 1023) :
    InRange u := by
  refine ⟨hlow, hhigh.trans ?_⟩
  rw [show (1023 : ℤ) = (9 : ℕ) + 1014 by norm_num, power_add, power_natCast]
  exact mul_le_mul_of_nonneg_right (by norm_num) (power_pos _).le

section Double

variable {x : Float}

theorem double_nonneg (hx : x.isFinite = true) (h : 0 ≤ value x) : 0 ≤ value (2.0 * x) :=
  (rounds_mul finite_two hx).nonneg (mul_nonneg (by rw [value_two]; exact zero_le_two) h)

/-- Twice a number, within one part in 1024. -/
theorem value_double (hx : x.isFinite = true) (hlow : power (-480) ≤ value x)
    (hhigh : value x ≤ power 512) : (2.0 * x).isFinite = true ∧
      1023 / 512 * value x ≤ value (2.0 * x) ∧ value (2.0 * x) ≤ 1025 / 512 * value x := by
  have hpos : 0 < value x := (power_pos _).trans_le hlow
  have hmost : 2 * value x ≤ power 513 := by
    calc 2 * value x ≤ 2 * power 512 := by linarith
      _ = power 513 := two_mul_power 512
  have hrange : InRange (2 * value x) :=
    inRange_of_le ((power_le_power (by norm_num)).trans (hlow.trans (by linarith)))
      (hmost.trans (power_le_power (by norm_num)))
  have hdouble := rounds_mul finite_two hx
  rw [value_two] at hdouble
  have hnear := hdouble.ge_of_inRange hrange le_rfl
  have hnear' := hdouble.le_of_inRange hrange le_rfl
  refine ⟨hdouble.isFinite (representable_power (k := 513) (by norm_num) (by norm_num)) ?_,
    by linarith, by linarith⟩
  rwa [abs_of_nonneg (by linarith)]

end Double

section Corrected

variable {a b : Float}

/-- Legs whose squares neither overflow nor underflow, the longer one first. -/
structure Legs (a b : Float) : Prop where
  finite_long : a.isFinite = true
  finite_short : b.isFinite = true
  low : power (-480) ≤ value b
  le : value b ≤ value a
  high : value a ≤ power 511

/-- How close a sum is to the sum of the squares of two legs. -/
structure IsSquareSum (a b x : Float) : Prop where
  finite : x.isFinite = true
  low : (1023 / 1024) ^ 2 * (value a ^ 2 + value b ^ 2) ≤ value x
  le : value x ≤ (1025 / 1024) ^ 2 * (value a ^ 2 + value b ^ 2)
  high : value x ≤ power 1023

/-- How close a root is to the hypotenuse of two legs. -/
structure IsRoot (a b r : Float) : Prop where
  finite : r.isFinite = true
  short_le : value b ≤ value r
  long_le : value a ≤ 51 / 50 * value r
  le : value r ≤ 101 / 100 * (value a + 3 / 7 * value b)
  high : value r ≤ 3 * power 510

namespace Legs

theorem short_pos (h : Legs a b) : 0 < value b := (power_pos _).trans_le h.low

theorem long_pos (h : Legs a b) : 0 < value a := h.short_pos.trans_le h.le

theorem sq_le_sq (h : Legs a b) : value b ^ 2 ≤ value a ^ 2 :=
  pow_le_pow_left₀ h.short_pos.le h.le 2

theorem sq_bounds (h : Legs a b) : power (-960) ≤ value b ^ 2 ∧ value a ^ 2 ≤ power 1022 := by
  have hlow : power (-960) = power (-480) ^ 2 := by
    rw [sq, ← power_add]
    norm_num
  have hhigh : power 1022 = power 511 ^ 2 := by
    rw [sq, ← power_add]
    norm_num
  exact ⟨hlow.trans_le (pow_le_pow_left₀ (power_pos _).le h.low 2),
    (pow_le_pow_left₀ h.long_pos.le h.high 2).trans hhigh.ge⟩

/-- The square of a number between those of the legs is off by at most one part in 1024. -/
theorem square {x : Float} (h : Legs a b) (hx : x.isFinite = true)
    (hlow : value b ^ 2 ≤ value x ^ 2) (hhigh : value x ^ 2 ≤ value a ^ 2) :
    (x * x).isFinite = true ∧ 1023 / 1024 * value x ^ 2 ≤ value (x * x) ∧
      value (x * x) ≤ 1025 / 1024 * value x ^ 2 ∧ value (x * x) ≤ power 1022 := by
  obtain ⟨hleast, hmost⟩ := h.sq_bounds
  have hsquare := rounds_mul hx hx
  rw [← sq] at hsquare
  have hrange : InRange (value x ^ 2) :=
    inRange_of_le ((power_le_power (by norm_num)).trans (hleast.trans hlow))
      ((hhigh.trans hmost).trans (power_le_power (by norm_num)))
  have hrepresentable : Representable (power 1022) :=
    representable_power (by norm_num) (by norm_num)
  exact ⟨hsquare.isFinite hrepresentable (by rw [abs_of_nonneg (sq_nonneg _)]; linarith),
    hsquare.ge_of_inRange hrange le_rfl, hsquare.le_of_inRange hrange le_rfl,
    hsquare.le_of_le hrepresentable (by linarith)⟩

theorem isSquareSum (h : Legs a b) : IsSquareSum a b (a * a + b * b) := by
  obtain ⟨hleast, -⟩ := h.sq_bounds
  obtain ⟨hfiniteA, hlowA, hleA, hmostA⟩ := h.square h.finite_long h.sq_le_sq le_rfl
  obtain ⟨hfiniteB, hlowB, hleB, hmostB⟩ := h.square h.finite_short le_rfl h.sq_le_sq
  have hsum := rounds_add hfiniteA hfiniteB
  have hmost : value (a * a) + value (b * b) ≤ power 1023 := by
    have : 2 * power 1022 = power 1023 := two_mul_power 1022
    linarith
  have hnonneg := sq_nonneg (value b)
  have hsquares := h.sq_le_sq
  have hrange : InRange (value (a * a) + value (b * b)) := by
    have : 2 * power (-1022) ≤ power (-960) :=
      (two_mul_power _).trans_le (power_le_power (by norm_num))
    have := power_pos (-1022)
    exact inRange_of_le (by linarith) hmost
  have hrepresentable : Representable (power 1023) :=
    representable_power (by norm_num) (by norm_num)
  have hlow := hsum.ge_of_inRange hrange le_rfl
  have hhigh := hsum.le_of_inRange hrange le_rfl
  refine ⟨hsum.isFinite hrepresentable ?_, by linarith, by linarith,
    hsum.le_of_le hrepresentable hmost⟩
  rwa [abs_of_nonneg (by linarith)]

theorem isRoot (h : Legs a b) : IsRoot a b (a * a + b * b).sqrt := by
  obtain ⟨hfinite, hlow, hle, hmost⟩ := h.isSquareSum
  have hsquares := h.sq_le_sq
  have hnonneg := sq_nonneg (value b)
  have hshort := h.short_pos
  have hlong := h.long_pos
  have hroot := rounds_sqrt hfinite (by linarith)
  have hrange {u : ℝ} (hlow : value b ≤ 2 * u) (hhigh : u ≤ 2 * value a) : InRange u := by
    have hleast : 2 * power (-1022) ≤ power (-480) :=
      (two_mul_power _).trans_le (power_le_power (by norm_num))
    have htop : 2 * power 511 ≤ power 1023 :=
      (two_mul_power _).trans_le (power_le_power (by norm_num))
    have := h.low
    have := h.high
    exact inRange_of_le (by linarith) (by linarith)
  have hrepresentable : Representable (3 * power 510) :=
    representable_natCast_mul 3 510 (by norm_num) (by norm_num) (by norm_num)
  have hhigh : √(value (a * a + b * b)) ≤ 3 * power 510 := by
    have hsquare : (3 * power 510) ^ 2 = 9 * power 1020 := by
      rw [show (1020 : ℤ) = 510 + 510 by norm_num, power_add]
      ring
    have htop : power 1023 = 8 * power 1020 := by
      rw [show (1023 : ℤ) = (3 : ℕ) + 1020 by norm_num, power_add, power_natCast]
      norm_num
    have := power_pos 1020
    exact Real.sqrt_le_iff.2 ⟨by linarith [power_pos 510], by rw [hsquare]; linarith⟩
  refine ⟨hroot.isFinite hrepresentable (by rwa [abs_of_nonneg (Real.sqrt_nonneg _)]), ?_, ?_, ?_,
    hroot.le_of_le hrepresentable hhigh⟩
  · exact hroot.ge_of_ge (representable_value h.finite_short)
      (Real.le_sqrt_of_sq_le (by linarith))
  · have hnear := hroot.ge_of_inRange (u := 1023 / 1024 * value a)
      (hrange (by linarith [h.le]) (by linarith))
      (Real.le_sqrt_of_sq_le (by rw [mul_pow]; linarith))
    linarith
  · have hsum : value a ^ 2 + value b ^ 2 ≤ (value a + 3 / 7 * value b) ^ 2 := by
      have hproduct := mul_le_mul_of_nonneg_right h.le hshort.le
      have hexpand : (value a + 3 / 7 * value b) ^ 2 =
          value a ^ 2 + 6 / 7 * (value a * value b) + 9 / 49 * (value b * value b) := by ring
      rw [hexpand, sq (value b)]
      linarith [mul_pos hshort hshort]
    have hnear := hroot.le_of_inRange (u := 1025 / 1024 * (value a + 3 / 7 * value b))
      (hrange (by linarith [h.le]) (by linarith [h.le]))
      (Real.sqrt_le_iff.2 ⟨by linarith, by rw [mul_pow]; linarith⟩)
    linarith

end Legs

section Correction

variable {r : Float}

theorem IsRoot.isScale (hlegs : Legs a b) (h : IsRoot a b r) :
    IsScale (value r) ∧ IsScale (value r * value r) := by
  have hlow := hlegs.low.trans h.short_le
  have hpos : 0 < value r := (power_pos _).trans_le hlow
  have htop : power 1020 = power 510 * power 510 := power_add 510 510
  have hpow := power_pos 510
  have hpow' : power 510 ≤ power 1020 := power_le_power (by norm_num)
  have hhigh := h.high
  refine ⟨⟨(power_le_power (by norm_num)).trans hlow, by linarith⟩, ?_, ?_⟩
  · calc power (-1000) ≤ power (-480 + -480) := power_le_power (by norm_num)
      _ = power (-480) * power (-480) := power_add _ _
      _ ≤ value r * value r := mul_le_mul hlow hlow (power_pos _).le hpos.le
  · calc value r * value r ≤ 3 * power 510 * (3 * power 510) :=
          mul_le_mul hhigh hhigh hpos.le (by linarith)
      _ = 9 * power 1020 := by
          rw [htop]
          ring

/-- The correction of a root that is at most twice the short leg. -/
theorem within_excess_near (hlegs : Legs a b) (h : IsRoot a b r)
    (hnear : value r ≤ 1025 / 512 * value b) :
    Within (value r * value r) (17 / 10)
      (a * (2.0 * (r - b) - a) + ((r - b) - 2.0 * (a - b)) * (r - b)) := by
  obtain ⟨hs, hss⟩ := h.isScale hlegs
  have hpos := hs.pos
  have hb0 := hlegs.short_pos
  have ha0 := hlegs.long_pos
  obtain ⟨ha, hb, hlow, hle, -⟩ := hlegs
  obtain ⟨hr, hshort, hlong, -, -⟩ := h
  have hlong' : Within (value r) (51 / 50) a := ⟨ha, by rwa [abs_of_pos ha0]⟩
  have hrest := rounds_sub hr hb
  have hrest0 := hrest.nonneg (by linarith)
  have hrest' : Within (value r) (101 / 200) (r - b) := hrest.within hs (c := 503 / 1000)
    (by constructor <;> norm_num) (abs_le.2 ⟨by linarith, by linarith⟩)
  have hgap := rounds_sub ha hb
  have hgap0 := hgap.nonneg (by linarith)
  have hgap' : Within (value r) (27 / 50) (a - b) := hgap.within hs (c := 53 / 100)
    (by constructor <;> norm_num) (abs_le.2 ⟨by linarith, by linarith⟩)
  have htwice : Within (value r) (51 / 50) (2.0 * (r - b)) :=
    hrest'.const_mul finite_two value_two zero_le_two hs (by constructor <;> norm_num)
  have htwice0 := double_nonneg hrest'.finite hrest0
  have htwice' : Within (value r) (109 / 100) (2.0 * (a - b)) :=
    hgap'.const_mul finite_two value_two zero_le_two hs (by constructor <;> norm_num)
  have htwice0' := double_nonneg hgap'.finite hgap0
  have hfirst : Within (value r * value r) (53 / 50) (a * (2.0 * (r - b) - a)) :=
    hlong'.mul (htwice.sub_of_nonneg hlong' htwice0 ha0.le hs (d := 103 / 100)
      (by constructor <;> norm_num)) hss (by constructor <;> norm_num)
  have hsecond : Within (value r * value r) (14 / 25) (((r - b) - 2.0 * (a - b)) * (r - b)) :=
    (hrest'.sub_of_nonneg htwice' hrest0 htwice0' hs (d := 11 / 10)
      (by constructor <;> norm_num)).mul hrest' hss (by constructor <;> norm_num)
  exact hfirst.add hsecond hss (by constructor <;> norm_num)

/-- The correction of a root that is at least twice the short leg. -/
theorem within_excess_far (hlegs : Legs a b) (h : IsRoot a b r)
    (hfar : value (2.0 * b) ≤ value r) :
    Within (value r * value r) (17 / 10)
      (2.0 * (r - a) * (a - 2.0 * b) + ((4.0 * (r - a) - b) * b + (r - a) * (r - a))) := by
  obtain ⟨hs, hss⟩ := h.isScale hlegs
  have hpos := hs.pos
  have hb0 := hlegs.short_pos
  have ha0 := hlegs.long_pos
  obtain ⟨ha, hb, hlow, hle, hhigh⟩ := hlegs
  obtain ⟨hr, hshort, hlong, hnear, -⟩ := h
  obtain ⟨hfinite, hdouble, -⟩ := value_double hb hlow
    (hle.trans (hhigh.trans (power_le_power (by norm_num))))
  have hhalf : value b ≤ 501 / 1000 * value r := by linarith
  have hlong' : Within (value r) (51 / 50) a := ⟨ha, by rwa [abs_of_pos ha0]⟩
  have hshort' : Within (value r) (501 / 1000) b := ⟨hb, by rwa [abs_of_pos hb0]⟩
  have htwice0 := double_nonneg hb hb0.le
  have htwice : Within (value r) 1 (2.0 * b) :=
    ⟨hfinite, by rwa [abs_of_nonneg htwice0, one_mul]⟩
  have hrest : Within (value r) (6 / 25) (r - a) := (rounds_sub hr ha).within hs (c := 23 / 100)
    (by constructor <;> norm_num) (abs_le.2 ⟨by linarith, by linarith⟩)
  have hfirst : Within (value r * value r) (51 / 100) (2.0 * (r - a) * (a - 2.0 * b)) :=
    (hrest.const_mul finite_two value_two zero_le_two hs (d := 49 / 100)
      (by constructor <;> norm_num)).mul
      (hlong'.sub_of_nonneg htwice ha0.le htwice0 hs (d := 103 / 100)
        (by constructor <;> norm_num)) hss (by constructor <;> norm_num)
  have hsecond : Within (value r * value r) (3 / 4) ((4.0 * (r - a) - b) * b) :=
    ((hrest.const_mul finite_four value_four zero_le_four hs (d := 97 / 100)
      (by constructor <;> norm_num)).sub hshort' hs (d := 37 / 25)
      (by constructor <;> norm_num)).mul hshort' hss (by constructor <;> norm_num)
  have hthird : Within (value r * value r) (3 / 50) ((r - a) * (r - a)) :=
    hrest.mul hrest hss (by constructor <;> norm_num)
  exact hfirst.add (hsecond.add hthird hss (d := 41 / 50) (by constructor <;> norm_num)) hss
    (by constructor <;> norm_num)

/-- A root less a small correction is finite and not negative. -/
theorem sub_correction_nonneg {x : Float} (hlegs : Legs a b) (h : IsRoot a b r)
    (hx : Within (value r * value r) (17 / 10) x) :
    (r - x / (2.0 * r)).isFinite = true ∧ 0 ≤ value (r - x / (2.0 * r)) := by
  have hpos := (h.isScale hlegs).1.pos
  have hhigh : value r ≤ power 512 := by
    have hsplit : power 512 = 4 * power 510 := by
      rw [show (512 : ℤ) = (2 : ℕ) + 510 by norm_num, power_add, power_natCast]
      norm_num
    have := h.high
    have := power_pos 510
    linarith
  obtain ⟨hfinite, hdouble, -⟩ := value_double h.finite (hlegs.low.trans h.short_le) hhigh
  have hdouble0 : 0 < value (2.0 * r) := lt_of_lt_of_le (by linarith) hdouble
  -- The correction is at most the root, which a word holds.
  have hquotient := rounds_div hx.finite (isProper_of_value hfinite hdouble0.ne')
  have hsmall : |value x / value (2.0 * r)| ≤ value r := by
    rw [abs_div, abs_of_pos hdouble0, div_le_iff₀ hdouble0]
    have := mul_le_mul_of_nonneg_left hdouble hpos.le
    have := mul_pos hpos hpos
    have := hx.abs_le
    linarith
  have hroot := representable_value h.finite
  have hcorrection := abs_le.1 (hquotient.abs_value_le hroot hsmall)
  have hdiff := rounds_sub h.finite (hquotient.isFinite hroot hsmall)
  refine ⟨hdiff.isFinite (representable_power (k := 513) (by norm_num) (by norm_num)) ?_,
    hdiff.nonneg (by linarith)⟩
  have htop : 2 * power 512 = power 513 := two_mul_power 512
  rw [abs_of_nonneg (by linarith)]
  linarith

end Correction

/-- The corrected hypotenuse is finite and not negative. -/
theorem correctedHypotenuse_nonneg (hlegs : Legs a b) :
    (correctedHypotenuse a b).isFinite = true ∧ 0 ≤ value (correctedHypotenuse a b) := by
  have hroot := hlegs.isRoot
  obtain ⟨hfinite, -, hdouble⟩ := value_double hlegs.finite_short hlegs.low
    (hlegs.le.trans (hlegs.high.trans (power_le_power (by norm_num))))
  unfold correctedHypotenuse
  dsimp only
  by_cases hle : (a * a + b * b).sqrt ≤ 2.0 * b
  · rw [if_pos hle]
    exact sub_correction_nonneg hlegs hroot (within_excess_near hlegs hroot
      ((value_le_value hroot.finite hfinite hle).trans hdouble))
  · rw [if_neg hle]
    exact sub_correction_nonneg hlegs hroot (within_excess_far hlegs hroot
      (value_le_of_not_lt hroot.finite hfinite (mt le_of_lt hle)))

end Corrected

/-- A number that is not negative. -/
structure IsNonneg (x : Float) : Prop where
  number : x.isNaN = false
  nonneg : 0 ≤ value x

theorem Rounds.isNonneg {q : ℝ} {z : Float} (h : Rounds q z) (hq : 0 ≤ q) : IsNonneg z :=
  ⟨h.number, h.nonneg hq⟩

section Scaled

variable {a b x : Float}

/-- The leg from which on legs are scaled down. -/
def largeLeg : Float := Float.ofBits 0x5fe0000000000000

/-- The leg below which legs are scaled up. -/
def tinyLeg : Float := Float.ofBits 0x2340000000000000

/-- The factor by which legs are scaled down. -/
def legScale : Float := Float.ofBits 0x1a70000000000000

/-- The part of the long leg up to which the short one is only added. -/
def negligiblePart : Float := Float.ofBits 0x3c90000000000000

theorem scaledHypotenuse_eq (a b : Float) : scaledHypotenuse a b =
    if largeLeg < a then
      if b ≤ a * negligiblePart then a + b
      else correctedHypotenuse (a * legScale) (b * legScale) / legScale
    else if b < tinyLeg then
      if b / negligiblePart ≤ a then a + b
      else correctedHypotenuse (a / legScale) (b / legScale) * legScale
    else if b ≤ a * negligiblePart then a + b
    else correctedHypotenuse a b := rfl

theorem value_largeLeg : value largeLeg = power 511 := value_eq_power (e := 459) rfl

theorem value_tinyLeg : value tinyLeg = power (-459) := value_eq_power (e := -511) rfl

theorem value_legScale : value legScale = power (-600) := value_eq_power (e := -652) rfl

theorem value_negligiblePart : value negligiblePart = power (-54) :=
  value_eq_power (e := -106) rfl

theorem finite_largeLeg : largeLeg.isFinite = true := by decide +kernel

theorem finite_tinyLeg : tinyLeg.isFinite = true := by decide +kernel

theorem finite_legScale : legScale.isFinite = true := by decide +kernel

theorem finite_negligiblePart : negligiblePart.isFinite = true := by decide +kernel

theorem isProper_legScale : IsProper legScale :=
  isProper_of_value finite_legScale (by rw [value_legScale]; exact (power_pos _).ne')

theorem isProper_negligiblePart : IsProper negligiblePart :=
  isProper_of_value finite_negligiblePart (by rw [value_negligiblePart]; exact (power_pos _).ne')

/-- A large leg is scaled down exactly. -/
theorem value_scaleDown (hx : x.isFinite = true) (hlow : power 457 ≤ value x) :
    (x * legScale).isFinite = true ∧ value (x * legScale) = value x * power (-600) := by
  have hpos : 0 < value x := (power_pos _).trans_le hlow
  have hproduct := rounds_mul hx finite_legScale
  have hmost := (representable_value hx).abs_lt
  rw [value_legScale] at hproduct
  have hexact : Representable (value x * power (-600)) := by
    refine (representable_value hx).mul_power ?_ ?_
    · rw [abs_of_pos hpos]
      exact (power_le_power (by norm_num)).trans hlow
    · exact hmost.le.trans (power_le_power (e := 1024) (by norm_num))
  exact ⟨hproduct.isFinite_of_representable hexact, hproduct.exact hexact⟩

/-- A small leg other than zero is scaled up exactly. -/
theorem value_scaleUp (hx : x.isFinite = true) (hpos : 0 < value x)
    (hhigh : value x ≤ power (-405)) :
    (x / legScale).isFinite = true ∧ value (x / legScale) = value x * power 600 := by
  have hquotient := rounds_div hx isProper_legScale
  have hscale : value x / power (-600) = value x * power 600 := by
    rw [div_eq_iff (power_pos _).ne', mul_assoc, ← power_add]
    exact (mul_one _).symm
  rw [value_legScale, hscale] at hquotient
  have hexact : Representable (value x * power 600) := by
    refine (representable_value hx).mul_power ?_ ?_
    · exact (power_le_power (by norm_num)).trans
        ((representable_value hx).least_le_abs hpos.ne')
    · rw [abs_of_pos hpos]
      exact hhigh.trans (power_le_power (by norm_num))
  exact ⟨hquotient.isFinite_of_representable hexact, hquotient.exact hexact⟩

/-- Legs that are both scaled by a power of two, into the range of squares that neither overflow nor
underflow. -/
theorem Legs.of_scaled {a' b' : Float} {k low high : ℤ} (ha : a'.isFinite = true)
    (hb : b'.isFinite = true) (hvalueA : value a' = value a * power k)
    (hvalueB : value b' = value b * power k) (hlow : power low ≤ value b)
    (hle : value b ≤ value a) (hhigh : value a ≤ power high) (hleast : -480 ≤ low + k)
    (hmost : high + k ≤ 511) : Legs a' b' := by
  have hpos := (power_pos k).le
  refine ⟨ha, hb, ?_, ?_, ?_⟩
  · rw [hvalueB]
    calc power (-480) ≤ power (low + k) := power_le_power hleast
      _ = power low * power k := power_add low k
      _ ≤ value b * power k := mul_le_mul_of_nonneg_right hlow hpos
  · rw [hvalueA, hvalueB]
    exact mul_le_mul_of_nonneg_right hle hpos
  · rw [hvalueA]
    calc value a * power k ≤ power high * power k := mul_le_mul_of_nonneg_right hhigh hpos
      _ = power (high + k) := (power_add high k).symm
      _ ≤ power 511 := power_le_power hmost

/-- The hypotenuse of legs that are scaled down. -/
theorem isNonneg_scaleDown (ha : a.isFinite = true) (hb : b.isFinite = true)
    (hlow : power 457 ≤ value b) (hle : value b ≤ value a) :
    IsNonneg (correctedHypotenuse (a * legScale) (b * legScale) / legScale) := by
  obtain ⟨hfiniteA, hvalueA⟩ := value_scaleDown ha (hlow.trans hle)
  obtain ⟨hfiniteB, hvalueB⟩ := value_scaleDown hb hlow
  have hhigh : value a ≤ power 1024 := (le_abs_self _).trans (representable_value ha).abs_lt.le
  have hlegs : Legs (a * legScale) (b * legScale) :=
    .of_scaled hfiniteA hfiniteB hvalueA hvalueB hlow hle hhigh (by norm_num) (by norm_num)
  obtain ⟨hresult, hnonneg⟩ := correctedHypotenuse_nonneg hlegs
  refine (rounds_div hresult isProper_legScale).isNonneg (div_nonneg hnonneg ?_)
  rw [value_legScale]
  exact (power_pos _).le

/-- The hypotenuse of legs that are scaled up. -/
theorem isNonneg_scaleUp (ha : a.isFinite = true) (hb : b.isFinite = true) (hb0 : 0 < value b)
    (hle : value b ≤ value a) (hhigh : value a ≤ power (-405)) :
    IsNonneg (correctedHypotenuse (a / legScale) (b / legScale) * legScale) := by
  obtain ⟨hfiniteA, hvalueA⟩ := value_scaleUp ha (hb0.trans_le hle) hhigh
  obtain ⟨hfiniteB, hvalueB⟩ := value_scaleUp hb hb0 (hle.trans hhigh)
  have hlow := (representable_value hb).least_le_abs hb0.ne'
  rw [abs_of_pos hb0] at hlow
  have hlegs : Legs (a / legScale) (b / legScale) :=
    .of_scaled hfiniteA hfiniteB hvalueA hvalueB hlow hle hhigh (by norm_num) (by norm_num)
  obtain ⟨hresult, hnonneg⟩ := correctedHypotenuse_nonneg hlegs
  refine (rounds_mul hresult finite_legScale).isNonneg (mul_nonneg hnonneg ?_)
  rw [value_legScale]
  exact (power_pos _).le

/-- A short leg that is not negligible beside a large one is large. -/
theorem large_of_not_negligible (ha : a.isFinite = true) (hb : b.isFinite = true)
    (hlow : power 511 ≤ value a) (h : ¬b ≤ a * negligiblePart) :
    power 457 ≤ value b := by
  have ha0 : 0 ≤ value a := (power_pos _).le.trans hlow
  have hproduct := rounds_mul ha finite_negligiblePart
  rw [value_negligiblePart] at hproduct
  have hone : power 0 = 1 := zpow_zero 2
  have hbound : value a * power (-54) ≤ value a :=
    mul_le_of_le_one_right ha0 ((power_le_power (by norm_num)).trans_eq hone)
  have hfinite := hproduct.isFinite (representable_value ha)
    (by rwa [abs_of_nonneg (mul_nonneg ha0 (power_pos _).le)])
  refine (hproduct.ge_of_ge (representable_power (by norm_num) (by norm_num)) ?_).trans
    (value_le_of_not_lt hb hfinite (mt le_of_lt h))
  calc power 457 = power 511 * power (-54) := by
        rw [← power_add]
        norm_num
    _ ≤ value a * power (-54) := mul_le_mul_of_nonneg_right hlow (power_pos _).le

/-- A short leg that is small and not negligible is not zero, and the long one is small. -/
theorem small_of_not_negligible (ha : a.isFinite = true) (hb : b.isFinite = true)
    (hb0 : 0 ≤ value b) (hle : value b ≤ value a) (hhigh : value b ≤ power (-459))
    (h : ¬b / negligiblePart ≤ a) :
    0 < value b ∧ value a ≤ power (-405) := by
  have hquotient := rounds_div hb isProper_negligiblePart
  have hscale : value b / power (-54) = value b * power 54 := by
    rw [div_eq_iff (power_pos _).ne', mul_assoc, ← power_add]
    exact (mul_one _).symm
  rw [value_negligiblePart, hscale] at hquotient
  have hmost : value b * power 54 ≤ power (-405) := by
    calc value b * power 54 ≤ power (-459) * power 54 :=
          mul_le_mul_of_nonneg_right hhigh (power_pos _).le
      _ = power (-405) := by
          rw [← power_add]
          norm_num
  have hrepresentable : Representable (power (-405)) :=
    representable_power (by norm_num) (by norm_num)
  have hfinite := hquotient.isFinite hrepresentable
    (by rwa [abs_of_nonneg (mul_nonneg hb0 (power_pos _).le)])
  have hsmall := value_le_of_not_lt hfinite ha (mt le_of_lt h)
  refine ⟨lt_of_le_of_ne hb0 fun hzero => h ?_,
    hsmall.trans (hquotient.le_of_le hrepresentable hmost)⟩
  -- Of two zeros, the quotient would not exceed the long leg.
  rw [← hzero, zero_mul] at hquotient
  have hvalue := hquotient.exact representable_zero
  rw [le_iff hquotient.number (isNaN_of_isFinite ha), placeOf_eq_zero hfinite hvalue,
    placeOf_eq_zero ha (by linarith)]

/-- Of legs in order, the hypotenuse is a number and not negative. -/
theorem isNonneg_scaledHypotenuse (ha : a.isFinite = true) (hb : b.isFinite = true)
    (hb0 : 0 ≤ value b) (hle : value b ≤ value a) : IsNonneg (scaledHypotenuse a b) := by
  have hsum : IsNonneg (a + b) := (rounds_add ha hb).isNonneg (by linarith)
  rw [scaledHypotenuse_eq]
  by_cases hhigh : largeLeg < a
  · have hlow := value_le_value finite_largeLeg ha (le_of_lt hhigh)
    rw [value_largeLeg] at hlow
    rw [if_pos hhigh]
    by_cases hsmall : b ≤ a * negligiblePart
    · rw [if_pos hsmall]
      exact hsum
    · rw [if_neg hsmall]
      exact isNonneg_scaleDown ha hb (large_of_not_negligible ha hb hlow hsmall) hle
  · have hmost := value_le_of_not_lt finite_largeLeg ha hhigh
    rw [value_largeLeg] at hmost
    rw [if_neg hhigh]
    by_cases hlow : b < tinyLeg
    · have hhigh' := value_le_value hb finite_tinyLeg (le_of_lt hlow)
      rw [value_tinyLeg] at hhigh'
      rw [if_pos hlow]
      by_cases hsmall : b / negligiblePart ≤ a
      · rw [if_pos hsmall]
        exact hsum
      · rw [if_neg hsmall]
        obtain ⟨hpos, hhigh''⟩ := small_of_not_negligible ha hb hb0 hle hhigh' hsmall
        exact isNonneg_scaleUp ha hb hpos hle hhigh''
    · have hlow' := value_le_of_not_lt hb finite_tinyLeg hlow
      rw [value_tinyLeg] at hlow'
      rw [if_neg hlow]
      by_cases hsmall : b ≤ a * negligiblePart
      · rw [if_pos hsmall]
        exact hsum
      · rw [if_neg hsmall]
        obtain ⟨hresult, hnonneg⟩ := correctedHypotenuse_nonneg
          ⟨ha, hb, (power_le_power (by norm_num)).trans hlow', hle, hmost⟩
        exact ⟨isNaN_of_isFinite hresult, hnonneg⟩

theorem abs_finite (hx : x.isFinite = true) : x.abs.isFinite = true ∧ 0 ≤ value x.abs := by
  rw [isFinite_abs, value_abs]
  exact ⟨hx, abs_nonneg _⟩

/-- What is neither finite nor infinite is not a number. -/
theorem isNaN_of_not_finite (hx : x.isFinite = false) (hinfinite : x.isInf = false) :
    x.isNaN = true := by
  change x.toModel.unpack.isFinite = false at hx
  change x.toModel.unpack.isInf = false at hinfinite
  rw [isNaN_eq]
  cases hunpack : x.toModel.unpack with
  | notANumber => rfl
  | infinity =>
    rw [hunpack] at hinfinite
    cases hinfinite
  | zero | finite =>
    rw [hunpack] at hx
    cases hx

theorem isNonneg_of_infinity (h : x.toModel.unpack = .infinity .positive) : IsNonneg x := by
  refine ⟨by rw [isNaN_eq, h]; rfl, ?_⟩
  unfold value
  rw [h]
  show 0 ≤ unit .positive * power 1024
  rw [unit_positive, one_mul]
  exact (power_pos _).le

end Scaled

/-- Not a number, or not negative. -/
def NeverNegative (x : Float) : Prop := x.isNaN = true ∨ IsNonneg x

/-- A hypotenuse is never negative. -/
theorem neverNegative_hypotenuse (x y : Float) : NeverNegative (hypotenuse x y) := by
  unfold hypotenuse
  dsimp only
  by_cases hfinite : (x.isFinite && y.isFinite) = true
  · rw [if_pos hfinite]
    obtain ⟨hx, hy⟩ := Bool.and_eq_true_iff.1 hfinite
    obtain ⟨hx', hx0⟩ := abs_finite hx
    obtain ⟨hy', hy0⟩ := abs_finite hy
    right
    by_cases hlt : x.abs < y.abs
    · rw [if_pos hlt]
      exact isNonneg_scaledHypotenuse hy' hx' hx0 (value_le_value hx' hy' (le_of_lt hlt))
    · rw [if_neg hlt]
      exact isNonneg_scaledHypotenuse hx' hy' hy0 (value_le_of_not_lt hx' hy' hlt)
  · rw [if_neg hfinite]
    by_cases hinfinite : (x.isInf || y.isInf) = true
    · rw [if_pos hinfinite]
      exact .inr (isNonneg_of_infinity rfl)
    · rw [if_neg hinfinite]
      obtain ⟨hinfinite', hinfinite''⟩ := Bool.or_eq_false_iff.1 (Bool.eq_false_iff.2 hinfinite)
      left
      obtain hx | hy := Bool.and_eq_false_iff.1 (Bool.eq_false_iff.2 hfinite)
      · exact nan_add (isNaN_of_not_finite hx hinfinite') y
      · exact add_nan x (isNaN_of_not_finite hy hinfinite'')

end Binary64

end FlagCombat
