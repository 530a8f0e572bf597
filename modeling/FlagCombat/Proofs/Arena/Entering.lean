import FlagCombat.Proofs.Arena.Casting
import FlagCombat.Proofs.Binary64.WholeLegs

/-!
Where a segment enters a disc. The fraction is the smaller root of a quadratic equation, and is
taken from coefficients that are rounded. Where coordinates are whole and not too large the
coefficients are exact, and with them the choice: a segment enters a disc if and only if it starts
outside of it and meets it, and the fraction is that of the first point of the segment in the disc,
but for the rounding.
-/

namespace FlagCombat

open Binary64

section Parabola

variable {a b c s : ℝ}

/-- Where a parabola that opens upward is not above zero: between its roots. -/
theorem parabola_nonpos_iff (ha : 0 < a) : a * s ^ 2 + b * s + c ≤ 0 ↔
    0 ≤ b ^ 2 - 4 * a * c ∧ -b - √(b ^ 2 - 4 * a * c) ≤ 2 * a * s ∧
      2 * a * s ≤ -b + √(b ^ 2 - 4 * a * c) := by
  have hsquare : 4 * a * (a * s ^ 2 + b * s + c) =
      (2 * a * s + b) ^ 2 - (b ^ 2 - 4 * a * c) := by ring
  have hsign : a * s ^ 2 + b * s + c ≤ 0 ↔ (2 * a * s + b) ^ 2 ≤ b ^ 2 - 4 * a * c := by
    constructor
    · intro h
      have := mul_nonpos_of_nonneg_of_nonpos (by positivity : 0 ≤ 4 * a) h
      linarith
    · intro h
      exact nonpos_of_mul_nonpos_right (by linarith : 4 * a * (a * s ^ 2 + b * s + c) ≤ 0)
        (by positivity)
  rw [hsign]
  constructor
  · intro h
    obtain ⟨hlow, hhigh⟩ := abs_le.1 (Real.abs_le_sqrt h)
    exact ⟨(sq_nonneg _).trans h, by linarith, by linarith⟩
  · rintro ⟨hreal, hlow, hhigh⟩
    exact (Real.sq_le hreal).2 ⟨by linarith, by linarith⟩

/-- The fractions from 0 to 1 at which a parabola is not above zero. -/
def parabolaFractions (a b c : ℝ) : Set ℝ := {s | 0 ≤ s ∧ s ≤ 1 ∧ a * s ^ 2 + b * s + c ≤ 0}

/-- A parabola that starts above zero reaches it if its smaller root is real, ahead, and at most 1,
and then it reaches it there first. -/
theorem isLeast_parabolaFractions (ha : 0 < a) (hc : 0 < c) :
    ((parabolaFractions a b c).Nonempty ↔
      0 ≤ b ^ 2 - 4 * a * c ∧ b < 0 ∧ -b - √(b ^ 2 - 4 * a * c) ≤ 2 * a) ∧
    ((parabolaFractions a b c).Nonempty →
      IsLeast (parabolaFractions a b c) ((-b - √(b ^ 2 - 4 * a * c)) / (2 * a))) := by
  have hproduct : 0 < 4 * a * c := by positivity
  have hroot := Real.sqrt_nonneg (b ^ 2 - 4 * a * c)
  have hleast : ∀ s ∈ parabolaFractions a b c, 0 ≤ b ^ 2 - 4 * a * c ∧ b < 0 ∧
      -b - √(b ^ 2 - 4 * a * c) ≤ 2 * a * s ∧ 2 * a * s ≤ 2 * a := by
    rintro s ⟨hs0, hs1, hs⟩
    obtain ⟨hreal, hlow, hhigh⟩ := (parabola_nonpos_iff ha).1 hs
    refine ⟨hreal, ?_, hlow, by nlinarith⟩
    -- ahead of a start above zero both roots are on the same side
    by_contra hb
    have hless : √(b ^ 2 - 4 * a * c) ^ 2 < b ^ 2 := by
      rw [Real.sq_sqrt hreal]
      linarith
    have := (sq_lt_sq₀ hroot (not_lt.1 hb)).1 hless
    have := mul_nonneg (mul_pos two_pos ha).le hs0
    linarith
  have hfirst (hreal : 0 ≤ b ^ 2 - 4 * a * c) (hb : b < 0)
      (hmost : -b - √(b ^ 2 - 4 * a * c) ≤ 2 * a) :
      (-b - √(b ^ 2 - 4 * a * c)) / (2 * a) ∈ parabolaFractions a b c := by
    have hless : √(b ^ 2 - 4 * a * c) ≤ -b := Real.sqrt_le_iff.2 ⟨by linarith, by nlinarith⟩
    refine ⟨div_nonneg (by linarith) (by positivity), (div_le_one (by positivity)).2 hmost, ?_⟩
    rw [parabola_nonpos_iff ha, mul_div_cancel₀ _ (by positivity)]
    exact ⟨hreal, le_rfl, by linarith⟩
  constructor
  · constructor
    · rintro ⟨s, hs⟩
      obtain ⟨hreal, hb, hlow, hhigh⟩ := hleast s hs
      exact ⟨hreal, hb, hlow.trans hhigh⟩
    · rintro ⟨hreal, hb, hmost⟩
      exact ⟨_, hfirst hreal hb hmost⟩
  · rintro ⟨s, hs⟩
    obtain ⟨hreal, hb, hlow, hhigh⟩ := hleast s hs
    refine ⟨hfirst hreal hb (hlow.trans hhigh), fun s' hs' => ?_⟩
    rw [div_le_iff₀' (by positivity)]
    exact (hleast s' hs').2.2.1

end Parabola

/-- The coefficients of the equation for the fractions of a segment on the edge of a disc, as they
are computed. -/
structure Quadratic where
  a : Float
  b : Float
  c : Float

namespace Quadratic

def discriminant (q : Quadratic) : Float := fusedMulAdd q.b q.b (-4.0 * q.a * q.c)

/-- The smaller root. -/
def root (q : Quadratic) : Float := (-q.b - q.discriminant.sqrt) / (2.0 * q.a)

theorem representable_dyadic {m : ℤ} (hm : |m| < 2 ^ 53) {k : ℕ} (hk : k ≤ 1074) :
    Representable (m / 2 ^ k) :=
  ⟨m, -k, hm, by omega, by omega, by rw [zpow_neg, zpow_natCast, div_eq_mul_inv]⟩

/-- Whole coefficients that start above zero and run along the segment. -/
structure IsExact (q : Quadratic) (a b c : ℤ) : Prop where
  a_whole : IsWhole (2 ^ 23) q.a a
  b_whole : IsWhole (2 ^ 24) q.b b
  discriminant_whole : IsWhole (2 ^ 50) q.discriminant (b * b - 4 * a * c)
  a_pos : 0 < a
  c_pos : 0 < c
  real : 0 ≤ b * b - 4 * a * c

section Root

variable {q : Quadratic} {a b c : ℤ}

theorem IsExact.bounds (h : q.IsExact a b c) : (1 : ℝ) ≤ a ∧ (a : ℝ) ≤ 2 ^ 23 ∧ |(b : ℝ)| ≤ 2 ^ 24 ∧
    (1 : ℝ) ≤ c := by
  have ha := (abs_le.1 h.a_whole.abs_le).2
  have hb := h.b_whole.abs_le
  have ha0 := h.a_pos
  have hc0 := h.c_pos
  refine ⟨?_, ?_, ?_, ?_⟩
  · exact_mod_cast ha0
  · exact_mod_cast ha
  · exact_mod_cast hb
  · exact_mod_cast hc0

/-- The three steps from the coefficients to the root, each of which rounds once. -/
structure Steps (q : Quadratic) (a b D : ℝ) : Prop where
  sqrt : Rounds √D q.discriminant.sqrt
  sqrt_near : |value q.discriminant.sqrt - √D| ≤ 1 / 2 ^ 26
  difference : Rounds (-b - value q.discriminant.sqrt) (-q.b - q.discriminant.sqrt)
  quotient : Rounds (value (-q.b - q.discriminant.sqrt) / (2 * a)) q.root

theorem IsExact.steps (h : q.IsExact a b c) : q.Steps a b (b * b - 4 * a * c) := by
  obtain ⟨ha1, -, hb, -⟩ := h.bounds
  have hvalue : value q.discriminant = (b : ℝ) * b - 4 * a * c := by
    rw [h.discriminant_whole.value_eq]
    push_cast
    rfl
  have hreal : (0 : ℝ) ≤ b * b - 4 * a * c := by exact_mod_cast h.real
  have hsize : √((b : ℝ) * b - 4 * a * c) ≤ 2 ^ 25 := by
    have hD := (abs_le.1 h.discriminant_whole.abs_le).2
    refine Real.sqrt_le_iff.2 ⟨by norm_num, ?_⟩
    rw [← pow_mul]
    exact_mod_cast hD
  have hsqrt := rounds_sqrt h.discriminant_whole.finite (by rwa [hvalue])
  rw [hvalue] at hsqrt
  obtain ⟨hfinite, hnear⟩ := hsqrt.error (c := 2 ^ 25)
    (by rwa [abs_of_nonneg (Real.sqrt_nonneg _)]) (by norm_num) (by norm_num)
  have hdifference := rounds_sub h.b_whole.neg.finite hfinite
  rw [h.b_whole.neg.value_eq, Int.cast_neg] at hdifference
  have hsize' : |-(b : ℝ) - value q.discriminant.sqrt| ≤ 2 ^ 27 := by
    obtain ⟨hlow, hhigh⟩ := abs_le.1 hnear
    obtain ⟨hlow', hhigh'⟩ := abs_le.1 hb
    have := Real.sqrt_nonneg ((b : ℝ) * b - 4 * a * c)
    exact abs_le.2 ⟨by linarith, by linarith⟩
  have htwice := isWhole_two.mul h.a_whole (by norm_num)
  have hvalue' : value (2.0 * q.a) = 2 * a := by
    rw [htwice.value_eq]
    push_cast
    rfl
  have hquotient := rounds_div (hdifference.error hsize' (by norm_num) (by norm_num)).1
    (isProper_of_value htwice.finite (by rw [hvalue']; linarith))
  rw [hvalue'] at hquotient
  exact ⟨hsqrt, hnear.trans (by norm_num), hdifference, hquotient⟩

/-- A root that is ahead is computed as one that is not behind. -/
theorem IsExact.root_nonneg (h : q.IsExact a b c) (hb : b < 0) : 0 ≤ value q.root := by
  obtain ⟨ha1, -, -, hc1⟩ := h.bounds
  have hsteps := h.steps
  have hb' : (b : ℝ) < 0 := by exact_mod_cast hb
  have hroot : √((b : ℝ) * b - 4 * a * c) ≤ (-b : ℤ) := by
    push_cast
    exact Real.sqrt_le_iff.2 ⟨by linarith, by nlinarith⟩
  have hsqrt := hsteps.sqrt.le_of_le (representable_intCast
    ((abs_neg b).trans_le h.b_whole.abs_le |>.trans_lt (by norm_num))) hroot
  push_cast at hsqrt
  exact hsteps.quotient.nonneg (div_nonneg (hsteps.difference.nonneg (by linarith)) (by linarith))

/-- A root that is behind is computed as one that is behind. -/
theorem IsExact.root_neg (h : q.IsExact a b c) (hb : 0 ≤ b) : value q.root < 0 := by
  obtain ⟨ha1, ha, -, hc1⟩ := h.bounds
  have hsteps := h.steps
  have hb0 : (1 : ℝ) ≤ b := by
    have hreal := h.real
    have : b ≠ 0 := by
      rintro rfl
      nlinarith [h.a_pos, h.c_pos]
    exact_mod_cast lt_of_le_of_ne hb this.symm
  have hsqrt := hsteps.sqrt.nonneg (Real.sqrt_nonneg _)
  have hdifference := hsteps.difference.le_of_le (f := ((-1 : ℤ) : ℝ))
    (representable_intCast (by norm_num)) (by push_cast; linarith)
  have hbehind : value (-q.b - q.discriminant.sqrt) / (2 * a) ≤ ((-1 : ℤ) : ℝ) / 2 ^ 24 := by
    rw [div_le_div_iff₀ (by linarith) (by norm_num)]
    push_cast at hdifference ⊢
    linarith
  refine (hsteps.quotient.le_of_le (representable_dyadic (by norm_num) (by norm_num))
    hbehind).trans_lt ?_
  norm_num

/-- A root within the segment is computed as one that is. -/
theorem IsExact.root_le (h : q.IsExact a b c)
    (hmost : -b - √((b : ℝ) * b - 4 * a * c) ≤ 2 * a) : value q.root ≤ 1 := by
  obtain ⟨ha1, ha, hb, -⟩ := h.bounds
  have hsteps := h.steps
  obtain ⟨hlow, hhigh⟩ := abs_le.1 hb
  have hwhole {n : ℤ} (hn : |(n : ℝ)| ≤ 2 ^ 26) : Representable n :=
    representable_intCast (by exact_mod_cast hn.trans_lt (by norm_num : (2 : ℝ) ^ 26 < 2 ^ 53))
  have hsqrt := hsteps.sqrt.ge_of_ge (f := ((-b - 2 * a : ℤ) : ℝ)) (hwhole (by
    push_cast
    exact abs_le.2 ⟨by linarith, by linarith⟩)) (by push_cast; linarith)
  push_cast at hsqrt
  have hdifference := hsteps.difference.le_of_le (f := ((2 * a : ℤ) : ℝ)) (hwhole (by
    push_cast
    exact abs_le.2 ⟨by linarith, by linarith⟩)) (by push_cast; linarith)
  push_cast at hdifference
  refine hsteps.quotient.le_of_le (by simpa using representable_intCast (n := 1) (by norm_num)) ?_
  rwa [div_le_one (by linarith)]

/-- A root beyond the segment is computed as one that is: beside a whole number of at most `2 ^ 24`
a root of a whole number keeps a distance. -/
theorem IsExact.lt_root (h : q.IsExact a b c)
    (hbeyond : 2 * a < -b - √((b : ℝ) * b - 4 * a * c)) : 1 < value q.root := by
  obtain ⟨ha1, ha, hb, -⟩ := h.bounds
  have hsteps := h.steps
  obtain ⟨hlow, hhigh⟩ := abs_le.1 hb
  have hroot := Real.sqrt_nonneg ((b : ℝ) * b - 4 * a * c)
  have hreal : (0 : ℝ) ≤ b * b - 4 * a * c := by exact_mod_cast h.real
  have hless : b * b - 4 * a * c < (-b - 2 * a) * (-b - 2 * a) := by
    have hsquare := mul_self_lt_mul_self hroot (by linarith :
      √((b : ℝ) * b - 4 * a * c) < -b - 2 * a)
    rw [Real.mul_self_sqrt hreal] at hsquare
    exact_mod_cast hsquare
  have hless' : (b : ℝ) * b - 4 * a * c ≤ (-b - 2 * a) * (-b - 2 * a) - 1 := by
    exact_mod_cast Int.le_sub_one_of_lt hless
  have hnear : √((b : ℝ) * b - 4 * a * c) ≤ -b - 2 * a - 1 / 2 ^ 25 := by
    refine Real.sqrt_le_iff.2 ⟨?_, by nlinarith⟩
    have hone : (1 : ℝ) ≤ -b - 2 * a := by
      have hpos : (0 : ℝ) < -b - 2 * a := by linarith
      exact_mod_cast hpos
    linarith
  have hdyadic {n : ℤ} (hn : |(n : ℝ)| ≤ 2 ^ 52) : Representable (n / 2 ^ 25) :=
    representable_dyadic (by exact_mod_cast hn.trans_lt (by norm_num : (2 : ℝ) ^ 52 < 2 ^ 53))
      (by norm_num)
  have hsqrt := hsteps.sqrt.le_of_le (f := ((-b - 2 * a) * 2 ^ 25 - 1 : ℤ) / 2 ^ 25) (hdyadic (by
    push_cast
    exact abs_le.2 ⟨by linarith, by linarith⟩)) (by push_cast; linarith)
  push_cast at hsqrt
  have hdifference := hsteps.difference.ge_of_ge (f := (2 * a * 2 ^ 25 + 1 : ℤ) / 2 ^ 25) (hdyadic (by
    push_cast
    exact abs_le.2 ⟨by linarith, by linarith⟩)) (by push_cast; linarith)
  push_cast at hdifference
  have hquotient := hsteps.quotient.ge_of_ge (f := (2 ^ 49 + 1 : ℤ) / 2 ^ 49)
    (representable_dyadic (by norm_num) (by norm_num))
    (by rw [div_le_div_iff₀ (by norm_num) (by linarith)]; push_cast; linarith)
  refine lt_of_lt_of_le ?_ hquotient
  norm_num

/-- How near the computed root is to the exact one. -/
theorem IsExact.root_near (h : q.IsExact a b c) (hb : b < 0)
    (hmost : -b - √((b : ℝ) * b - 4 * a * c) ≤ 2 * a) :
    |value q.root - (-b - √((b : ℝ) * b - 4 * a * c)) / (2 * a)| ≤ 1 / 2 ^ 25 := by
  obtain ⟨ha1, ha, hb', hc1⟩ := h.bounds
  have hsteps := h.steps
  obtain ⟨hlow, hhigh⟩ := abs_le.1 hb'
  obtain ⟨hbelow, habove⟩ := abs_le.1 hsteps.sqrt_near
  have hroot := Real.sqrt_nonneg ((b : ℝ) * b - 4 * a * c)
  have hb0 : (b : ℝ) < 0 := by exact_mod_cast hb
  have hless : √((b : ℝ) * b - 4 * a * c) ≤ -b := Real.sqrt_le_iff.2 ⟨by linarith, by nlinarith⟩
  obtain ⟨-, hdifference⟩ := hsteps.difference.error (c := 2 ^ 25)
    (abs_le.2 ⟨by linarith, by linarith⟩) (by norm_num) (by norm_num)
  obtain ⟨hbelow', habove'⟩ := abs_le.1 hdifference
  have hpos : (0 : ℝ) < 2 * a := by linarith
  have hshare : |value (-q.b - q.discriminant.sqrt) / (2 * a) -
      (-b - √((b : ℝ) * b - 4 * a * c)) / (2 * a)| ≤ 1 / 2 ^ 26 := by
    rw [← sub_div, abs_div, abs_of_pos hpos, div_le_iff₀ hpos]
    exact abs_le.2 ⟨by linarith, by linarith⟩
  have hexact : 0 ≤ (-b - √((b : ℝ) * b - 4 * a * c)) / (2 * a) ∧
      (-b - √((b : ℝ) * b - 4 * a * c)) / (2 * a) ≤ 1 :=
    ⟨div_nonneg (by linarith) hpos.le, (div_le_one hpos).2 hmost⟩
  obtain ⟨hbelow'', habove''⟩ := abs_le.1 hshare
  obtain ⟨-, hquotient⟩ := hsteps.quotient.error (c := 2)
    (abs_le.2 ⟨by linarith, by linarith⟩) (by norm_num) (by norm_num)
  obtain ⟨hlast, hlast'⟩ := abs_le.1 hquotient
  exact abs_le.2 ⟨by linarith, by linarith⟩

end Root

end Quadratic

/-- A point with whole coordinates of at most 1024 to either side. -/
structure Point.OnGrid (p : Point) : Prop where
  x : ∃ n, IsWhole 1024 p.x n
  y : ∃ n, IsWhole 1024 p.y n

namespace Disc

variable {d : Disc} {start finish : Point}

/-- A disc on the grid, with a whole radius. -/
structure OnGrid (d : Disc) : Prop where
  center : d.center.OnGrid
  radius : ∃ n, 0 ≤ n ∧ IsWhole 1024 d.radius n

def quadratic (d : Disc) (start finish : Point) : Quadratic :=
  let dx := finish.x - start.x
  let dy := finish.y - start.y
  let fx := start.x - d.center.x
  let fy := start.y - d.center.y
  { a := fusedMulAdd dx dx (dy * dy)
    b := 2.0 * fusedMulAdd fx dx (fy * dy)
    c := fusedMulAdd d.radius (-d.radius) (fusedMulAdd fx fx (fy * fy)) }

theorem entry?_eq (d : Disc) (start finish : Point) : d.entry? start finish =
    if (d.quadratic start finish).a ≤ 0.0 || (d.quadratic start finish).discriminant < 0.0 ||
      d.contains start then none
    else if 0.0 ≤ (d.quadratic start finish).root && (d.quadratic start finish).root ≤ 1.0 then
      some (d.quadratic start finish).root
    else none := rfl

/-- A fraction is the smaller root of the equation, between 0 and 1, for a segment that has a length
and does not start in the disc. -/
theorem entry?_eq_some_iff {t : Float} : d.entry? start finish = some t ↔
    d.contains start = false ∧ 0.0 < (d.quadratic start finish).a ∧
      0.0 ≤ (d.quadratic start finish).discriminant ∧ 0.0 ≤ t ∧ t ≤ 1.0 ∧
        t = (d.quadratic start finish).root := by
  set q := d.quadratic start finish with hq
  rw [entry?_eq, ← hq]
  constructor
  · intro h
    split at h
    · cases h
    · rename_i hkept
      rw [Bool.or_eq_true, Bool.or_eq_true, not_or, not_or, decide_eq_true_eq, decide_eq_true_eq,
        Bool.not_eq_true] at hkept
      obtain ⟨⟨hlength, hreal⟩, hout⟩ := hkept
      split at h
      · rename_i hrange
        rw [Bool.and_eq_true, decide_eq_true_eq, decide_eq_true_eq] at hrange
        cases h
        have hnumber := (number_of_le hrange.1).2
        have ha : q.a.isNaN = false := Bool.eq_false_iff.2 fun hnan => by
          rw [Quadratic.root, div_nan _ (mul_nan _ hnan)] at hnumber
          cases hnumber
        have hD : q.discriminant.isNaN = false := Bool.eq_false_iff.2 fun hnan => by
          rw [Quadratic.root, nan_div (sub_nan _ (nan_sqrt hnan))] at hnumber
          cases hnumber
        have hzero : (0.0 : Float).isNaN = false := by decide +kernel
        refine ⟨hout, ?_, (le_iff_not_lt hzero hD).2 hreal, hrange.1, hrange.2, rfl⟩
        by_contra hpos
        exact hlength ((le_iff_not_lt ha hzero).2 hpos)
      · cases h
  · rintro ⟨hout, hlength, hreal, hlow, hhigh, rfl⟩
    have hlength' : ¬q.a ≤ 0.0 := fun hle =>
      (le_iff_not_lt (number_of_le hle).1 (number_of_le hle).2).1 hle hlength
    have hreal' : ¬q.discriminant < 0.0 :=
      (le_iff_not_lt (number_of_le hreal).1 (number_of_le hreal).2).1 hreal
    rw [if_neg, if_pos]
    · rw [Bool.and_eq_true, decide_eq_true_eq, decide_eq_true_eq]
      exact ⟨hlow, hhigh⟩
    · simp [hout, hlength', hreal']

/-- The real points of a disc. -/
def Covers (d : Disc) (x y : ℝ) : Prop :=
  (x - value d.center.x) ^ 2 + (y - value d.center.y) ^ 2 ≤ value d.radius ^ 2

/-- The real fractions at which a segment is in a disc. -/
def fractions (d : Disc) (start finish : Point) : Set ℝ := {s | 0 ≤ s ∧ s ≤ 1 ∧
  d.Covers (value start.x + s * (value finish.x - value start.x))
    (value start.y + s * (value finish.y - value start.y))}

/-- The entry of a segment into a disc, as its real points have it: there is one if the segment
starts outside and meets the disc, and it is where the segment does so first. -/
structure IsEntry (d : Disc) (start finish : Point) (entry : Option Float) : Prop where
  isSome_iff : entry.isSome = true ↔
    ¬d.Covers (value start.x) (value start.y) ∧ (d.fractions start finish).Nonempty
  first : ∀ t, entry = some t →
    ∃ s, IsLeast (d.fractions start finish) s ∧ |value t - s| ≤ 1 / 2 ^ 25

/-- On the grid a disc has in it what it covers. -/
theorem OnGrid.contains_iff (hd : d.OnGrid) (hstart : start.OnGrid) :
    d.contains start = true ↔ d.Covers (value start.x) (value start.y) := by
  obtain ⟨⟨⟨cx, hcx⟩, ⟨cy, hcy⟩⟩, r, hr0, hr⟩ := hd
  obtain ⟨⟨px, hpx⟩, ⟨py, hpy⟩⟩ := hstart
  have hdistance := isRootOf_hypotenuse (hcx.sub hpx (by norm_num)) (hcy.sub hpy (by norm_num))
  have hmost : r ≤ 4096 := by
    have := (abs_le.1 hr.abs_le).2
    omega
  unfold contains Point.distance Covers
  rw [decide_eq_true_eq, le_iff_value (isNaN_of_isFinite hdistance.finite)
    (isNaN_of_isFinite hr.finite), hr.value_eq, hcx.value_eq, hcy.value_eq, hpx.value_eq,
    hpy.value_eq,
    hdistance.le_iff (add_nonneg (mul_self_nonneg _) (mul_self_nonneg _)) hr0 hmost]
  constructor
  · intro h
    have hreal : ((cx - px) * (cx - px) + (cy - py) * (cy - py) : ℝ) ≤ r * r := by exact_mod_cast h
    linarith
  · intro h
    have hreal : ((cx - px) * (cx - px) + (cy - py) * (cy - py) : ℝ) ≤ r * r := by linarith
    exact_mod_cast hreal

/-- What the equation of a segment and a disc on the grid is, in real numbers. -/
structure HasEquation (d : Disc) (start finish : Point) (a b c : ℤ) : Prop where
  a_whole : IsWhole (2 ^ 23) (d.quadratic start finish).a a
  b_whole : IsWhole (2 ^ 24) (d.quadratic start finish).b b
  discriminant_whole : IsWhole (2 ^ 50) (d.quadratic start finish).discriminant (b * b - 4 * a * c)
  a_nonneg : 0 ≤ a
  /-- A segment of no length does not run. -/
  still : a = 0 → b = 0
  covers_iff : ∀ s : ℝ, d.Covers (value start.x + s * (value finish.x - value start.x))
    (value start.y + s * (value finish.y - value start.y)) ↔ a * s ^ 2 + b * s + c ≤ 0

theorem OnGrid.exists_equation (hd : d.OnGrid) (hstart : start.OnGrid) (hfinish : finish.OnGrid) :
    ∃ a b c, d.HasEquation start finish a b c := by
  obtain ⟨⟨⟨cx, hcx⟩, ⟨cy, hcy⟩⟩, r, hr0, hr⟩ := hd
  obtain ⟨⟨px, hpx⟩, ⟨py, hpy⟩⟩ := hstart
  obtain ⟨⟨qx, hqx⟩, ⟨qy, hqy⟩⟩ := hfinish
  have hdx := hqx.sub hpx (by norm_num)
  have hdy := hqy.sub hpy (by norm_num)
  have hfx := hpx.sub hcx (by norm_num)
  have hfy := hpy.sub hcy (by norm_num)
  have ha := hdx.fusedMulAdd hdx (hdy.mul hdy (by norm_num)) (by norm_num)
  have hb := isWhole_two.mul
    (hfx.fusedMulAdd hdx (hfy.mul hdy (by norm_num)) (by norm_num)) (by norm_num)
  have hc := hr.fusedMulAdd hr.neg
    (hfx.fusedMulAdd hfx (hfy.mul hfy (by norm_num)) (by norm_num)) (by norm_num)
  have hD := hb.fusedMulAdd hb
    ((isWhole_four.neg.mul ha (by norm_num)).mul hc (by norm_num)) (by norm_num)
  refine ⟨_, _, r * -r + ((px - cx) * (px - cx) + (py - cy) * (py - cy)),
    ⟨ha.mono (by norm_num), hb.mono (by norm_num), ?_, ?_, ?_, fun s => ?_⟩⟩
  · have hmono := hD.mono (d := 2 ^ 50) (by norm_num)
    rwa [sub_eq_add_neg, ← neg_mul, ← neg_mul]
  · exact add_nonneg (mul_self_nonneg _) (mul_self_nonneg _)
  · intro hzero
    obtain ⟨hx, hy⟩ := (add_eq_zero_iff_of_nonneg (mul_self_nonneg _) (mul_self_nonneg _)).1 hzero
    rw [mul_self_eq_zero.1 hx, mul_self_eq_zero.1 hy]
    ring
  · unfold Covers
    rw [hr.value_eq, hcx.value_eq, hcy.value_eq, hpx.value_eq, hpy.value_eq, hqx.value_eq,
      hqy.value_eq, ← sub_nonpos]
    push_cast
    ring_nf

/-- There is no entry for a segment that starts in the disc or misses it. -/
theorem isEntry_of_none (hnone : ∀ t, d.entry? start finish ≠ some t)
    (h : d.Covers (value start.x) (value start.y) ∨ d.fractions start finish = ∅) :
    d.IsEntry start finish (d.entry? start finish) := by
  rw [Option.eq_none_iff_forall_ne_some.2 hnone]
  refine ⟨iff_of_false (by simp) ?_, fun t ht => by cases ht⟩
  rintro ⟨hout, hmet⟩
  obtain hin | hempty := h
  · exact hout hin
  · exact hmet.ne_empty hempty

/-- From outside of the disc a segment that has a length enters it where the root says. -/
theorem HasEquation.entry?_eq_some_iff {a b c : ℤ} (h : d.HasEquation start finish a b c)
    (ha : 0 < a) (hreal : 0 ≤ b * b - 4 * a * c) (hout : d.contains start = false)
    (hnumber : (d.quadratic start finish).root.isNaN = false) {t : Float} :
    d.entry? start finish = some t ↔ 0 ≤ value (d.quadratic start finish).root ∧
      value (d.quadratic start finish).root ≤ 1 ∧ t = (d.quadratic start finish).root := by
  have hzero : (0.0 : Float).isNaN = false := by decide +kernel
  have hone : (1.0 : Float).isNaN = false := by decide +kernel
  rw [Disc.entry?_eq_some_iff, hout, isWhole_zero.lt_iff h.a_whole,
    isWhole_zero.le_iff h.discriminant_whole]
  constructor
  · rintro ⟨-, -, -, hlow, hhigh, rfl⟩
    rw [le_iff_value hzero hnumber, value_zero] at hlow
    rw [le_iff_value hnumber hone, value_one] at hhigh
    exact ⟨hlow, hhigh, rfl⟩
  · rintro ⟨hlow, hhigh, rfl⟩
    rw [le_iff_value hzero hnumber, le_iff_value hnumber hone, value_zero, value_one]
    exact ⟨rfl, ha, hreal, hlow, hhigh, rfl⟩

/-- The computed root decides as the exact one does. -/
theorem HasEquation.isEntry {a b c : ℤ} (h : d.HasEquation start finish a b c) (ha : 0 < a)
    (hc : 0 < c) (hreal : 0 ≤ b * b - 4 * a * c) (hout : d.contains start = false)
    (hstart : ¬d.Covers (value start.x) (value start.y))
    (hfractions : d.fractions start finish = parabolaFractions a b c) :
    d.IsEntry start finish (d.entry? start finish) := by
  have hexact : (d.quadratic start finish).IsExact a b c :=
    ⟨h.a_whole, h.b_whole, h.discriminant_whole, ha, hc, hreal⟩
  have hnumber := hexact.steps.quotient.number
  obtain ⟨hmet, hleast⟩ := isLeast_parabolaFractions (a := a) (b := b) (c := c)
    (by exact_mod_cast ha) (by exact_mod_cast hc)
  rw [sq (b : ℝ), ← hfractions] at hmet hleast
  have hreal' : (0 : ℝ) ≤ b * b - 4 * a * c := by exact_mod_cast hreal
  have hentry (t : Float) : d.entry? start finish = some t ↔
      0 ≤ value (d.quadratic start finish).root ∧ value (d.quadratic start finish).root ≤ 1 ∧
        t = (d.quadratic start finish).root := h.entry?_eq_some_iff ha hreal hout hnumber
  by_cases hahead : b < 0 ∧ -b - √((b : ℝ) * b - 4 * a * c) ≤ 2 * a
  · obtain ⟨hb, hmost⟩ := hahead
    have hin := (hentry _).2 ⟨hexact.root_nonneg hb, hexact.root_le hmost, rfl⟩
    have hsome := hmet.2 ⟨hreal', by exact_mod_cast hb, hmost⟩
    rw [hin]
    refine ⟨iff_of_true rfl ⟨hstart, hsome⟩, fun t ht => ⟨_, hleast hsome, ?_⟩⟩
    cases ht
    exact hexact.root_near hb hmost
  · have hempty : d.fractions start finish = ∅ :=
      Set.not_nonempty_iff_eq_empty.1 fun hsome =>
        hahead ⟨by exact_mod_cast (hmet.1 hsome).2.1, (hmet.1 hsome).2.2⟩
    refine isEntry_of_none (fun t ht => ?_) (.inr hempty)
    obtain ⟨hlow, hhigh, -⟩ := (hentry t).1 ht
    obtain hb | hb := lt_or_ge b 0
    · have hbeyond := hexact.lt_root (not_le.1 fun hmost => hahead ⟨hb, hmost⟩)
      linarith
    · have hbehind := hexact.root_neg hb
      linarith

/-- On the grid the entry is that of the real points. -/
theorem OnGrid.isEntry (hd : d.OnGrid) (hstart : start.OnGrid) (hfinish : finish.OnGrid) :
    d.IsEntry start finish (d.entry? start finish) := by
  obtain ⟨a, b, c, h⟩ := hd.exists_equation hstart hfinish
  have hcovered : d.Covers (value start.x) (value start.y) ↔ c ≤ 0 := by
    have hzero := h.covers_iff 0
    simpa using hzero
  have hcontains := hd.contains_iff hstart
  have hfractions : d.fractions start finish = parabolaFractions a b c :=
    Set.ext fun s => and_congr_right fun _ => and_congr_right fun _ => h.covers_iff s
  obtain hc | hc := le_or_gt c 0
  · refine isEntry_of_none (fun t ht => ?_) (.inl (hcovered.2 hc))
    rw [entry?_of_contains (hcontains.2 (hcovered.2 hc))] at ht
    cases ht
  have hc0 : (0 : ℝ) < c := by exact_mod_cast hc
  have hstart' := mt hcovered.1 hc.not_ge
  have hout := Bool.eq_false_iff.2 (mt hcontains.1 hstart')
  obtain hzero | hpos := h.a_nonneg.eq_or_lt
  · have hempty : d.fractions start finish = ∅ := by
      rw [hfractions, ← hzero, h.still hzero.symm]
      refine Set.eq_empty_of_forall_notMem fun s hs => ?_
      have := hs.2.2
      push_cast at this
      linarith
    refine isEntry_of_none (fun t ht => ?_) (.inr hempty)
    have ha := (entry?_eq_some_iff.1 ht).2.1
    rw [isWhole_zero.lt_iff h.a_whole, ← hzero] at ha
    exact lt_irrefl _ ha
  obtain hreal | hreal := le_or_gt 0 (b * b - 4 * a * c)
  · exact h.isEntry hpos hc hreal hout hstart' hfractions
  · have hempty : d.fractions start finish = ∅ := by
      rw [hfractions]
      refine Set.not_nonempty_iff_eq_empty.1 fun hsome => hreal.not_ge ?_
      have hroot := ((isLeast_parabolaFractions (by exact_mod_cast hpos) hc0).1.1 hsome).1
      rw [sq] at hroot
      exact_mod_cast hroot
    refine isEntry_of_none (fun t ht => ?_) (.inr hempty)
    have hroot := (entry?_eq_some_iff.1 ht).2.2.1
    rw [isWhole_zero.le_iff h.discriminant_whole] at hroot
    exact hreal.not_ge hroot

/-- What the entries of segments into a disc are: the roots of an equation that is rounded, and on
the grid the entries of the real points, where to be in the disc is to be covered by it. -/
structure EntryLaw (d : Disc) (start finish : Point) : Prop where
  root_iff : ∀ t, d.entry? start finish = some t ↔
    d.contains start = false ∧ 0.0 < (d.quadratic start finish).a ∧
      0.0 ≤ (d.quadratic start finish).discriminant ∧ 0.0 ≤ t ∧ t ≤ 1.0 ∧
        t = (d.quadratic start finish).root
  contains_iff : d.OnGrid → start.OnGrid →
    (d.contains start = true ↔ d.Covers (value start.x) (value start.y))
  isEntry : d.OnGrid → start.OnGrid → finish.OnGrid →
    d.IsEntry start finish (d.entry? start finish)

theorem entryLaw (d : Disc) (start finish : Point) : d.EntryLaw start finish :=
  ⟨fun _ => entry?_eq_some_iff, OnGrid.contains_iff, OnGrid.isEntry⟩

/-- Off the grid a segment may start within a disc and enter it all the same: so near the edge the
rounded distance is greater than the radius. -/
theorem entry?_from_edge :
    let d : Disc := ⟨⟨2.031082579756007, 0.6055599024485112⟩, Body.radius⟩
    d.Covers (value (-0.2)) (value (-1.4)) ∧
      (d.entry? ⟨-0.2, -1.4⟩ ⟨2.0, 0.5⟩).isSome = true := by
  refine ⟨?_, by decide +kernel⟩
  unfold Covers
  rw [value_neg, value_neg,
    value_positive (x := 0.2) (m := 7205759403792794) (e := -55) (by decide) rfl,
    value_positive (x := 1.4) (m := 6305039478318694) (e := -52) (by decide) rfl,
    value_positive (x := 2.031082579756007) (m := 4573591374673929) (e := -51) (by decide) rfl,
    value_positive (x := 0.6055599024485112) (m := 5454398702035258) (e := -53) (by decide) rfl,
    value_positive (x := Body.radius) (m := 3 * 2 ^ 51) (e := -51) (by decide) rfl]
  unfold power
  norm_num

end Disc

end FlagCombat
