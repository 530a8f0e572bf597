import FlagCombat.Proofs.Arena.Casting
import FlagCombat.Proofs.Binary64.Comparison
import FlagCombat.Proofs.Binary64.Error

/-!
The walls of an arena as lines. A crossing with a wall is computed from the one coordinate that runs
across it, and the other coordinate is not looked at: the walls have no corners. The nearest
crossing is on the rectangle if both ends of the segment are between the walls, and within the
rounding of it if the segment starts inside. The exact point at a fraction is told in real numbers.
-/

namespace FlagCombat

open Binary64
open Float.Model.UnpackedFloat (Sign)

/-- Finite coordinates. -/
structure Point.Finite (p : Point) : Prop where
  x : p.x.isFinite = true
  y : p.y.isFinite = true

namespace Arena

section Fractions

variable {gone run a b t : ℝ}

/-- A fraction of a run is computed from the rounded way to a line and the rounded run. It is above
zero, and at this fraction of the run the line is passed by no more than the rounding. -/
theorem fraction_bounds (hgone : power (-50) ≤ gone) (hle : gone ≤ run) (hrun : run ≤ power 1023)
    (ha : Neighbours gone a) (hb : Neighbours run b) (ht : Neighbours (a / b) t) :
    0 < t ∧ t * run ≤ (1 + power (-49)) * gone + power (-51) := by
  have hu : power (-52) = 1 / 2 ^ 52 := by
    unfold power
    norm_num
  have hu' : power (-49) = 1 / 2 ^ 49 := by
    unfold power
    norm_num
  have hleast : power (-1074) ≤ power (-52) * gone := by
    calc power (-1074) ≤ power (-52 + -50) := power_le_power (by norm_num)
      _ = power (-52) * power (-50) := power_add _ _
      _ ≤ power (-52) * gone := mul_le_mul_of_nonneg_left hgone (power_pos _).le
  have hpos : 0 < gone := (power_pos _).trans_le hgone
  have hstep : Representable (power (-50)) := representable_power (by norm_num) (by norm_num)
  have hmost : Representable (power 1023) := representable_power (by norm_num) le_rfl
  have hlow : power (-50) ≤ b := hb.ge_of_ge hstep (hgone.trans hle)
  have hpos' : 0 < b := (power_pos _).trans_le hlow
  obtain ⟨-, habove⟩ := ha.near hpos.le (hle.trans hrun)
  obtain ⟨hbelow, -⟩ := hb.near (hpos.le.trans hle) hrun
  rw [hu] at habove hbelow hleast
  have hratio : run ≤ (1 + 3 / 2 ^ 52) * b := by linarith
  have hway : power (-50) ≤ a := ha.ge_of_ge hstep hgone
  have hquotient : power (-1073) ≤ a / b := by
    rw [le_div_iff₀ hpos']
    calc power (-1073) * b ≤ power (-1073) * power 1023 :=
          mul_le_mul_of_nonneg_left (hb.le_of_le hmost hrun) (power_pos _).le
      _ = power (-50) := (power_add (-1073) 1023).symm
      _ ≤ a := hway
  have hquotient' : a / b ≤ power 1023 := by
    have htwo : power 1 ≤ power 1023 := power_le_power (by norm_num)
    rw [show power 1 = 2 from zpow_one 2] at htwo
    rw [div_le_iff₀ hpos']
    have := mul_le_mul_of_nonneg_right htwo hpos'.le
    linarith
  obtain ⟨-, hfraction⟩ := ht.near ((power_pos _).le.trans hquotient) hquotient'
  refine ⟨(power_pos (-1073)).trans_le
    (ht.ge_of_ge (representable_power (by norm_num) (by norm_num)) hquotient), ?_⟩
  have hpart : a / b * run ≤ a * (1 + 3 / 2 ^ 52) := by
    rw [div_mul_eq_mul_div, div_le_iff₀ hpos', mul_assoc]
    exact mul_le_mul_of_nonneg_left hratio ((power_pos _).le.trans hway)
  have hrest : power (-1074) * run ≤ power (-51) := by
    rw [show (-51 : ℤ) = -1074 + 1023 by norm_num, power_add]
    exact mul_le_mul_of_nonneg_left hrun (power_pos _).le
  calc t * run ≤ ((1 + power (-52)) * (a / b) + power (-1074)) * run :=
        mul_le_mul_of_nonneg_right hfraction (hpos.le.trans hle)
    _ = (1 + power (-52)) * (a / b * run) + power (-1074) * run := by ring
    _ ≤ (1 + power (-49)) * gone + power (-51) := by
        rw [hu, hu']
        linarith

end Fractions

section Runs

variable {start finish line side t : Float} {gone run a b : ℝ}

theorem lineCrossing?_eq_some (hspan : ¬(finish - start).abs < epsilon)
    (hpos : 0.0 < (line - start) / (finish - start))
    (hle : (line - start) / (finish - start) ≤ 1.0) :
    lineCrossing? start finish line = some ((line - start) / (finish - start)) := by
  unfold lineCrossing?
  dsimp only
  rw [if_neg hspan, if_pos]
  rw [Bool.and_eq_true, decide_eq_true_eq, decide_eq_true_eq]
  exact ⟨hpos, hle⟩

theorem value_epsilon : value epsilon = power (-52) := value_eq_power (e := -104) rfl

/-- What is stopped no later than at a line passes it by no more than the rounding. -/
theorem run_le (s : Sign) (hstart : start.isFinite = true) (hfinish : finish.isFinite = true)
    (hline : line.isFinite = true) (hgone : power (-50) ≤ unit s * (value line - value start))
    (hle : unit s * (value line - value start) ≤ unit s * (value finish - value start))
    (hrun : unit s * (value finish - value start) ≤ power 1023) (ht : t ≤ 1.0)
    (hfirst : ∀ t', lineCrossing? start finish line = some t' → t ≤ t') :
    value t * (unit s * (value finish - value start)) ≤
      (1 + power (-49)) * (unit s * (value line - value start)) + power (-51) := by
  have hnumber := (number_of_le ht).1
  have hmost : Representable (power 1023) := representable_power (by norm_num) le_rfl
  have hunit : unit s = 1 ∨ unit s = -1 := by
    cases s with
    | positive => exact .inl unit_positive
    | negative => exact .inr unit_negative
  have hunit0 : unit s ≠ 0 := by
    obtain h | h := hunit <;> rw [h] <;> norm_num
  have habs (q : ℝ) : |unit s * q| = |q| := by
    obtain h | h := hunit <;> rw [h, abs_mul] <;> norm_num
  have hpos : 0 < unit s * (value line - value start) := (power_pos _).trans_le hgone
  have hway := rounds_sub hline hstart
  have hspan := rounds_sub hfinish hstart
  have hwayfinite : (line - start).isFinite = true := by
    refine hway.isFinite hmost ?_
    rw [← habs, abs_of_pos hpos]
    exact hle.trans hrun
  have hspanfinite : (finish - start).isFinite = true := by
    refine hspan.isFinite hmost ?_
    rw [← habs, abs_of_pos (hpos.trans_le hle)]
    exact hrun
  have hlong : power (-50) ≤ unit s * value (finish - start) :=
    (hspan.toNeighbours.unit_mul s).ge_of_ge (representable_power (by norm_num) (by norm_num))
      (hgone.trans hle)
  have hdivisor : value (finish - start) ≠ 0 := by
    intro hzero
    rw [hzero, mul_zero] at hlong
    exact absurd hlong (power_pos _).not_ge
  have hfraction := rounds_div hwayfinite (isProper_of_value hspanfinite hdivisor)
  have hquotient := hfraction.toNeighbours
  rw [← mul_div_mul_left _ _ hunit0] at hquotient
  obtain ⟨hpositive, hbound⟩ := fraction_bounds hgone hle hrun (hway.toNeighbours.unit_mul s)
    (hspan.toNeighbours.unit_mul s) hquotient
  refine le_trans (mul_le_mul_of_nonneg_right ?_ (hpos.trans_le hle).le) hbound
  rw [← le_iff_value hnumber hfraction.number]
  -- a computed fraction beyond one is no crossing, but then `t` is no larger either
  by_cases hwithin : (line - start) / (finish - start) ≤ 1.0
  · refine hfirst _ (lineCrossing?_eq_some ?_ ?_ hwithin)
    · rw [lt_iff_value ((isNaN_abs _).trans hspan.number) (by decide +kernel), value_abs,
        value_epsilon, ← habs, abs_of_pos ((power_pos _).trans_le hlong)]
      exact not_lt.2 ((power_le_power (by norm_num)).trans hlong)
    · rw [lt_iff_value (by decide +kernel) hfraction.number, value_zero]
      exact hpositive
  · rw [le_iff_value hfraction.number (by decide +kernel), value_one, not_le] at hwithin
    rw [le_iff_value hnumber (by decide +kernel), value_one] at ht
    exact (le_iff_value hnumber hfraction.number).2 (ht.trans hwithin.le)

/-- The exact coordinate at a fraction of a run. -/
noncomputable def along (t start finish : Float) : ℝ :=
  value start + value t * (value finish - value start)

theorem along_self (t x : Float) : along t x x = value x := by
  unfold along
  ring

/-- Between two opposite walls, or no more than a margin beyond them. -/
structure InStrip (side : Float) (margin q : ℝ) : Prop where
  low : -margin ≤ q
  high : q ≤ value side + margin

/-- How far rounding can lead beyond a side. -/
noncomputable def slack (side : Float) : ℝ := power (-49) * value side + power (-51)

/-- A run that starts between two walls and is stopped no later than at their lines ends between
them, but for the rounding. -/
theorem along_bounds (hstart : start.isFinite = true) (hfinish : finish.isFinite = true)
    (hside : side.isFinite = true) (hin : InStrip side (-power (-50)) (value start))
    (hrun : |value finish - value start| ≤ power 1023) (hpos : 0.0 ≤ t) (hle : t ≤ 1.0)
    (hlow : ∀ t', lineCrossing? start finish 0.0 = some t' → t ≤ t')
    (hhigh : ∀ t', lineCrossing? start finish side = some t' → t ≤ t') :
    InStrip side (slack side) (along t start finish) := by
  have hnumber := (number_of_le hle).1
  obtain ⟨hnear, hfar⟩ := hin
  rw [neg_neg] at hnear
  have hmargin := power_pos (-50)
  have hrest := power_pos (-51)
  have hshare := power_pos (-49)
  have ht0 : 0 ≤ value t := by
    rwa [le_iff_value (by decide +kernel) hnumber, value_zero] at hpos
  have ht1 : value t ≤ 1 := by
    rwa [le_iff_value hnumber (by decide +kernel), value_one] at hle
  have hslack : 0 ≤ slack side := by
    unfold slack
    have := mul_nonneg hshare.le (show 0 ≤ value side by linarith)
    linarith
  obtain ⟨hrun', hrun''⟩ := abs_le.1 hrun
  have hscale : power (-49) * value start ≤ power (-49) * value side :=
    mul_le_mul_of_nonneg_left (by linarith) hshare.le
  unfold along
  obtain hdown | hup := le_or_gt (value finish) (value start)
  · have hback : value t * (value finish - value start) ≤ 0 :=
      mul_nonpos_of_nonneg_of_nonpos ht0 (by linarith)
    refine ⟨?_, by linarith⟩
    obtain hkept | hpassed := le_or_gt 0 (value finish)
    · have := mul_le_mul_of_nonpos_right ht1 (show value finish - value start ≤ 0 by linarith)
      linarith
    · have hzero : (0.0 : Float).isFinite = true := by decide +kernel
      have hbound := run_le .negative hstart hfinish hzero
        (by rw [unit_negative, value_zero]; linarith) (by rw [unit_negative, value_zero]; linarith)
        (by rw [unit_negative]; linarith) hle hlow
      rw [unit_negative, value_zero] at hbound
      unfold slack
      linarith
  · have hforth : 0 ≤ value t * (value finish - value start) :=
      mul_nonneg ht0 (by linarith)
    refine ⟨by linarith, ?_⟩
    obtain hkept | hpassed := le_or_gt (value finish) (value side)
    · have := mul_le_mul_of_nonneg_right ht1 (show 0 ≤ value finish - value start by linarith)
      linarith
    · have hbound := run_le .positive hstart hfinish hside
        (by rw [unit_positive]; linarith) (by rw [unit_positive]; linarith)
        (by rw [unit_positive]; linarith) hle hhigh
      rw [unit_positive] at hbound
      have := mul_nonneg hshare.le (show 0 ≤ value start by linarith)
      unfold slack
      linarith

/-- Between two ends that are between two walls the run stays between them. -/
theorem along_between (hpos : 0.0 ≤ t) (hle : t ≤ 1.0)
    (hstart : InStrip side 0 (value start)) (hfinish : InStrip side 0 (value finish)) :
    InStrip side 0 (along t start finish) := by
  have hnumber := (number_of_le hle).1
  rw [le_iff_value (by decide +kernel) hnumber, value_zero] at hpos
  rw [le_iff_value hnumber (by decide +kernel), value_one] at hle
  have hmean : along t start finish = (1 - value t) * value start + value t * value finish := by
    unfold along
    ring
  obtain ⟨hlow, hhigh⟩ := hstart
  obtain ⟨hlow', hhigh'⟩ := hfinish
  rw [neg_zero] at hlow hlow'
  rw [add_zero] at hhigh hhigh'
  rw [hmean]
  constructor
  · rw [neg_zero]
    exact add_nonneg (mul_nonneg (by linarith) hlow) (mul_nonneg hpos hlow')
  · have := mul_le_mul_of_nonneg_left hhigh (sub_nonneg.2 hle)
    have := mul_le_mul_of_nonneg_left hhigh' hpos
    linarith

/-- What does not run crosses no line. -/
theorem lineCrossing?_self (h : start.isFinite = true) (line : Float) :
    lineCrossing? start start line = none := by
  have hstill : (0.0 : Float).abs < epsilon := by decide +kernel
  unfold lineCrossing?
  dsimp only
  rw [sub_self h, if_pos hstill]

end Runs

section Entries

variable {a : Arena} {start finish : Point} {c : Crossing}

/-- Finite sides above zero. -/
structure Walled (a : Arena) : Prop where
  width_finite : a.width.isFinite = true
  height_finite : a.height.isFinite = true
  width_pos : 0.0 < a.width
  height_pos : 0.0 < a.height

theorem wallEntry?_eq_none_iff : a.wallEntry? start finish = none ↔
    lineCrossing? start.x finish.x 0.0 = none ∧ lineCrossing? start.x finish.x a.width = none ∧
      lineCrossing? start.y finish.y 0.0 = none ∧
        lineCrossing? start.y finish.y a.height = none := by
  rw [wallEntry?_eq, firstLeastBy_eq_none_iff]
  unfold wallCrossings
  simp [List.filterMap_eq_nil_iff]

/-- The answered crossing is the first one. -/
theorem fraction_le_of_wallEntry? (h : a.wallEntry? start finish = some c) {c' : Crossing}
    (hc' : c' ∈ a.wallCrossings start finish) : c.fraction ≤ c'.fraction := by
  obtain ⟨before, after, hsplit, hbefore, hafter⟩ := wallEntry?_eq_some_iff.1 h
  have hnumber {e : Crossing} (he : e ∈ a.wallCrossings start finish) : e.fraction.isNaN = false :=
    (number_of_le (wallCrossings_range he).2).1
  have hc : c ∈ a.wallCrossings start finish := by
    rw [hsplit]
    exact List.mem_append_right _ List.mem_cons_self
  have hmem := hc'
  rw [hsplit, List.mem_append, List.mem_cons] at hmem
  obtain hmem | rfl | hmem := hmem
  · exact Binary64.le_of_lt (hbefore c' hmem)
  · exact (le_iff_not_lt (hnumber hc) (hnumber hc)).2 (Binary64.lt_irrefl _)
  · exact (le_iff_not_lt (hnumber hc) (hnumber hc')).2 (hafter c' hmem)

/-- What the first crossing comes before. -/
theorem fraction_le_of_lineCrossing? (h : a.wallEntry? start finish = some c) {t : Float}
    (ht : lineCrossing? start.x finish.x 0.0 = some t ∨
      lineCrossing? start.x finish.x a.width = some t ∨
      lineCrossing? start.y finish.y 0.0 = some t ∨
      lineCrossing? start.y finish.y a.height = some t) : c.fraction ≤ t := by
  have hmem (wall : UInt32) (hwall : (wall, some t) ∈ [
      ((0 : UInt32), lineCrossing? start.x finish.x 0.0),
      (1, lineCrossing? start.x finish.x a.width),
      (2, lineCrossing? start.y finish.y 0.0),
      (3, lineCrossing? start.y finish.y a.height)]) : c.fraction ≤ t := by
    have hcrossing : Crossing.mk t (.object ⟨wall⟩) ∈ a.wallCrossings start finish :=
      List.mem_filterMap.2 ⟨_, hwall, rfl⟩
    have hle := fraction_le_of_wallEntry? h hcrossing
    exact hle
  obtain ht | ht | ht | ht := ht
  · exact hmem 0 (by simp [ht])
  · exact hmem 1 (by simp [ht])
  · exact hmem 2 (by simp [ht])
  · exact hmem 3 (by simp [ht])

theorem fraction_range (h : a.wallEntry? start finish = some c) :
    0.0 ≤ c.fraction ∧ c.fraction ≤ 1.0 := by
  rw [wallEntry?_eq] at h
  obtain ⟨hpos, hle⟩ := wallCrossings_range (firstLeastBy_mem h)
  exact ⟨Binary64.le_of_lt hpos, hle⟩

/-- Inside the walls, at a margin to each. -/
structure Inside (a : Arena) (p : Point) : Prop where
  x : InStrip a.width (-power (-50)) (value p.x)
  y : InStrip a.height (-power (-50)) (value p.y)

/-- The walls are lines that do not end. A segment is stopped if and only if a coordinate reaches
one of the four lines, and one that runs level is stopped alike wherever the other coordinate is. A
segment with two ends between two opposite walls is stopped between them, and one that starts inside
is stopped at the walls themselves, but for the rounding. -/
theorem walls_are_lines (ha : a.Walled) :
    (∀ start finish, a.wallEntry? start finish = none ↔
      lineCrossing? start.x finish.x 0.0 = none ∧ lineCrossing? start.x finish.x a.width = none ∧
        lineCrossing? start.y finish.y 0.0 = none ∧
          lineCrossing? start.y finish.y a.height = none) ∧
    (∀ x x' y y', y.isFinite = true → y'.isFinite = true →
      a.wallEntry? ⟨x, y⟩ ⟨x', y⟩ = a.wallEntry? ⟨x, y'⟩ ⟨x', y'⟩) ∧
    (∀ x x' y y', x.isFinite = true → x'.isFinite = true →
      a.wallEntry? ⟨x, y⟩ ⟨x, y'⟩ = a.wallEntry? ⟨x', y⟩ ⟨x', y'⟩) ∧
    ∀ start finish c, start.Finite → finish.Finite → a.wallEntry? start finish = some c →
      (InStrip a.width 0 (value start.x) → InStrip a.width 0 (value finish.x) →
        InStrip a.width 0 (along c.fraction start.x finish.x)) ∧
      (InStrip a.height 0 (value start.y) → InStrip a.height 0 (value finish.y) →
        InStrip a.height 0 (along c.fraction start.y finish.y)) ∧
      (a.Inside start → |value finish.x - value start.x| ≤ power 1023 →
        |value finish.y - value start.y| ≤ power 1023 →
        InStrip a.width (slack a.width) (along c.fraction start.x finish.x) ∧
          InStrip a.height (slack a.height) (along c.fraction start.y finish.y)) := by
  refine ⟨fun start finish => wallEntry?_eq_none_iff, fun x x' y y' hy hy' => ?_,
    fun x x' y y' hx hx' => ?_, fun start finish c hstart hfinish hentry => ?_⟩
  · rw [wallEntry?_eq, wallEntry?_eq]
    unfold wallCrossings
    dsimp only
    simp only [lineCrossing?_self hy, lineCrossing?_self hy']
  · rw [wallEntry?_eq, wallEntry?_eq]
    unfold wallCrossings
    dsimp only
    simp only [lineCrossing?_self hx, lineCrossing?_self hx']
  · obtain ⟨hpos, hle⟩ := fraction_range hentry
    have hfirst {t : Float} := fraction_le_of_lineCrossing? (t := t) hentry
    refine ⟨along_between hpos hle, along_between hpos hle, fun hin hshort hshort' => ⟨?_, ?_⟩⟩
    · exact along_bounds hstart.x hfinish.x ha.width_finite hin.x hshort hpos hle
        (fun t ht => hfirst (.inl ht)) fun t ht => hfirst (.inr (.inl ht))
    · exact along_bounds hstart.y hfinish.y ha.height_finite hin.y hshort' hpos hle
        (fun t ht => hfirst (.inr (.inr (.inl ht)))) fun t ht => hfirst (.inr (.inr (.inr ht)))

/-- In an arena of 800 to 800, a segment that runs level beyond a corner is stopped as if it ran
through the middle of the wall; one that starts in the middle is stopped at the wall. -/
theorem walls_are_lines_corner :
    (ofWorld {} ⟨400.0, 600.0⟩).Walled ∧
      wallEntry? (ofWorld {} ⟨400.0, 600.0⟩) ⟨-10.0, 900.0⟩ ⟨10.0, 900.0⟩ =
        some ⟨0.5, .object ⟨0⟩⟩ ∧
      value (ofWorld {} ⟨400.0, 600.0⟩).height < along 0.5 900.0 900.0 ∧
      wallEntry? (ofWorld {} ⟨400.0, 600.0⟩) ⟨400.0, 400.0⟩ ⟨400.0, 1200.0⟩ =
        some ⟨0.5, .object ⟨3⟩⟩ ∧
      InStrip 800.0 (slack 800.0) (along 0.5 400.0 1200.0) := by
  have hwalled : (ofWorld {} ⟨400.0, 600.0⟩).Walled :=
    ⟨by decide +kernel, by decide +kernel, by decide +kernel, by decide +kernel⟩
  have hentry : wallEntry? (ofWorld {} ⟨400.0, 600.0⟩) ⟨400.0, 400.0⟩ ⟨400.0, 1200.0⟩ =
      some ⟨0.5, .object ⟨3⟩⟩ := by decide +kernel
  have hmiddle : value 400.0 = 400 := by
    rw [value_positive (m := 25 * 2 ^ 48) (e := -44) (by decide) rfl]
    unfold power
    norm_num
  have hwall : value 800.0 = 800 := by
    rw [value_positive (m := 25 * 2 ^ 48) (e := -43) (by decide) rfl]
    unfold power
    norm_num
  have hbeyond : value 1200.0 = 1200 := by
    rw [value_positive (m := 75 * 2 ^ 46) (e := -42) (by decide) rfl]
    unfold power
    norm_num
  have hmargin : power (-50) ≤ 1 := zpow_le_one_of_nonpos₀ one_le_two (by norm_num)
  have hmost : 2 ^ 10 ≤ power 1023 := by
    rw [← power_natCast 10]
    exact power_le_power (by norm_num)
  have hin : InStrip 800.0 (-power (-50)) (value 400.0) := by
    constructor
    · rw [hmiddle]
      linarith
    · rw [hmiddle, hwall]
      linarith
  obtain ⟨-, hlevel, -, hstops⟩ := walls_are_lines hwalled
  refine ⟨hwalled, ?_, ?_, hentry, ?_⟩
  · rw [hlevel (-10.0) 10.0 900.0 400.0 (by decide +kernel) (by decide +kernel)]
    decide +kernel
  · rw [along_self, ← lt_iff_value (by decide +kernel) (by decide +kernel)]
    decide +kernel
  · refine ((hstops _ _ _ ⟨by decide +kernel, by decide +kernel⟩
      ⟨by decide +kernel, by decide +kernel⟩ hentry).2.2 ⟨hin, hin⟩ ?_ ?_).2
    · show |value 400.0 - value 400.0| ≤ _
      rw [hmiddle, abs_of_nonneg (by norm_num)]
      linarith
    · show |value 1200.0 - value 400.0| ≤ _
      rw [hbeyond, hmiddle, abs_of_nonneg (by norm_num)]
      linarith

end Entries

end Arena

end FlagCombat
