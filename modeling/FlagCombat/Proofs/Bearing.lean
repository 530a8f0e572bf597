import FlagCombat.Plane
import FlagCombat.Proofs.Binary64.Comparison
import FlagCombat.Proofs.Binary64.Undefined
import FlagCombat.Proofs.Misfit

/-!
Bearings and the half turns to either side. A bearing is the direction of a point less the heading,
folded once. One fold brings back what is at most one and a half turns to either side, and nothing
else: it is enough for headings of up to one turn, and not for headings of more than two. The
direction of a point is a parameter here; all that is used of it is that its degrees are in the half
turns.
-/

namespace FlagCombat

open Binary64

/-- In the half turns to either side. -/
def Folded (angle : Float) : Prop := -180.0 ≤ angle ∧ angle ≤ 180.0

/-- One turn added below the half turns, one turn taken off above them. -/
def foldOnce (angle : Float) : Float :=
  let angle := if angle < -180.0 then angle + 360.0 else angle
  if angle > 180.0 then angle - 360.0 else angle

/-- The distance between the numbers from 512 to 1024. -/
noncomputable def gap : ℝ := power (-43)

section Gaps

variable {q : ℝ} {n : ℕ}

theorem gap_pos : 0 < gap := power_pos _

theorem one_eq_gap : (1 : ℝ) = 2 ^ 43 * gap := by
  unfold gap power
  norm_num

theorem representable_gap (hn : n < 2 ^ 53) : Representable (n * gap) :=
  representable_natCast_mul n (-43) hn (by norm_num) (by norm_num)

theorem natCast_eq_gaps (n : ℕ) : (n : ℝ) = (n * 2 ^ 43 : ℕ) * gap := by
  rw [Nat.cast_mul, Nat.cast_pow, Nat.cast_two, mul_assoc, ← one_eq_gap, mul_one]

theorem representable_degrees (hn : n ≤ 1023) : Representable n := by
  rw [natCast_eq_gaps]
  exact representable_gap (by omega)

theorem representable_add_gap (hn : n ≤ 1023) : Representable (n + gap) := by
  rw [natCast_eq_gaps, ← add_one_mul]
  exact_mod_cast representable_gap (n := n * 2 ^ 43 + 1) (by omega)

/-- Above 512 a larger number is larger by a gap. -/
theorem next_le_of_representable (h : Representable q) (hn : 2 ^ 52 ≤ n) (hlt : n * gap < q) :
    (n + 1) * gap ≤ q := by
  have hnonneg : 0 ≤ n * gap := mul_nonneg n.cast_nonneg gap_pos.le
  obtain ⟨k, rfl⟩ | ⟨-, hsmall⟩ := h.units (u := -43) (hnonneg.trans hlt.le) (by norm_num)
  · have hk : n < k := by exact_mod_cast lt_of_mul_lt_mul_right hlt gap_pos.le
    exact mul_le_mul_of_nonneg_right (by exact_mod_cast hk) gap_pos.le
  · have hn' : (2 : ℝ) ^ 52 ≤ n := by exact_mod_cast hn
    have hle := mul_le_mul_of_nonneg_right hn' gap_pos.le
    exact absurd (hle.trans_lt hlt) hsmall.le.not_gt

end Gaps

section Degrees

theorem value_halfTurn : value 180.0 = 180 := by
  rw [value_positive (m := 45 * 2 ^ 47) (e := -45) (by decide) rfl]
  unfold power
  norm_num

theorem value_turn : value 360.0 = 360 := by
  rw [value_positive (m := 45 * 2 ^ 47) (e := -44) (by decide) rfl]
  unfold power
  norm_num

theorem value_oneAndHalfTurns : value 540.0 = 540 := by
  rw [value_positive (m := 135 * 2 ^ 45) (e := -43) (by decide) rfl]
  unfold power
  norm_num

theorem value_twoTurns : value 720.0 = 720 := by
  rw [value_positive (m := 45 * 2 ^ 47) (e := -43) (by decide) rfl]
  unfold power
  norm_num

variable {angle : Float}

theorem folded_iff_value (h : angle.isNaN = false) :
    Folded angle ↔ -180 ≤ value angle ∧ value angle ≤ 180 := by
  unfold Folded
  rw [le_iff_value (by decide +kernel) h, le_iff_value h (by decide +kernel), value_neg,
    value_halfTurn]

theorem Folded.number (h : Folded angle) : angle.isNaN = false := (number_of_le h.1).2

theorem Folded.abs_value_le (h : Folded angle) : |value angle| ≤ 180 :=
  abs_le.2 ((folded_iff_value h.number).1 h)

/-- A number of degrees is smaller than an infinity. -/
theorem lt_power {c : ℝ} (hc : c ≤ 1024) : c < power 1024 := by
  have hsmall : power (10 : ℕ) < power 1024 := zpow_lt_zpow_right₀ one_lt_two (by norm_num)
  rw [power_natCast] at hsmall
  linarith

theorem Folded.finite (h : Folded angle) : angle.isFinite = true :=
  isFinite_of_value h.number (h.abs_value_le.trans_lt (lt_power (by norm_num)))

/-- Above a whole number from 512 on, a number is larger by a gap. -/
theorem add_gap_le {n : ℕ} (hlow : 512 ≤ n) (hhigh : n ≤ 1023) (hangle : angle.isNaN = false)
    (h : n < value angle) : n + gap ≤ value angle := by
  cases hfinite : angle.isFinite with
  | true =>
    have hnext := next_le_of_representable (n := n * 2 ^ 43) (representable_value hfinite)
      (by omega) (by rwa [← natCast_eq_gaps])
    rwa [add_mul, ← natCast_eq_gaps, one_mul] at hnext
  | false =>
    have hgap : gap ≤ 1 := by
      rw [one_eq_gap]
      linarith [gap_pos]
    have hmost : (n : ℝ) ≤ 1023 := by exact_mod_cast hhigh
    obtain hfinite' | ⟨-, hvalue⟩ | ⟨-, hvalue⟩ := number_cases hangle
    · rw [hfinite] at hfinite'
      cases hfinite'
    · rw [hvalue]
      exact (lt_power (by linarith)).le
    · have := power_pos 1024
      have := n.cast_nonneg (α := ℝ)
      linarith

end Degrees

section Fold

variable {angle : Float}

theorem number_halfTurn : (180.0 : Float).isNaN = false := by decide +kernel

theorem number_neg_halfTurn : (-180.0 : Float).isNaN = false := by decide +kernel

theorem finite_turn : (360.0 : Float).isFinite = true := by decide +kernel

theorem representable_halfTurn : Representable 180 := by
  exact_mod_cast representable_degrees (n := 180) (by norm_num)

/-- The result of a fold in the half turns. -/
theorem foldOnce_of_mid (hangle : angle.isNaN = false) (hlow : -180 ≤ value angle)
    (hhigh : value angle ≤ 180) : foldOnce angle = angle := by
  have hnot : ¬angle < -180.0 := by
    rw [lt_iff_value hangle number_neg_halfTurn, value_neg, value_halfTurn]
    exact not_lt.2 hlow
  have hnot' : ¬angle > 180.0 := by
    rw [gt_iff_lt, lt_iff_value number_halfTurn hangle, value_halfTurn]
    exact not_lt.2 hhigh
  unfold foldOnce
  dsimp only
  rw [if_neg hnot, if_neg hnot']

theorem foldOnce_of_high (hangle : angle.isNaN = false) (hhigh : 180 < value angle) :
    foldOnce angle = angle - 360.0 := by
  have hnot : ¬angle < -180.0 := by
    rw [lt_iff_value hangle number_neg_halfTurn, value_neg, value_halfTurn]
    linarith
  have hout : angle > 180.0 := by
    rw [gt_iff_lt, lt_iff_value number_halfTurn hangle, value_halfTurn]
    exact hhigh
  unfold foldOnce
  dsimp only
  rw [if_neg hnot, if_pos hout]

/-- A turn added below the half turns does not lead above them. -/
theorem foldOnce_of_low (hangle : angle.isNaN = false) (hlow : value angle < -180) :
    foldOnce angle = angle + 360.0 := by
  have hout : angle < -180.0 := by
    rw [lt_iff_value hangle number_neg_halfTurn, value_neg, value_halfTurn]
    exact hlow
  have hnot : ¬angle + 360.0 > 180.0 := by
    rw [gt_iff_lt, lt_iff_value number_halfTurn (isNaN_add hangle finite_turn), value_halfTurn]
    refine not_lt.2 (value_add_le hangle finite_turn representable_halfTurn
      (lt_power (c := -180) (by norm_num)) hlow.le ?_)
    rw [value_turn]
    norm_num
  unfold foldOnce
  dsimp only
  rw [if_pos hout, if_neg hnot]

/-- What is not a number is not folded. -/
theorem foldOnce_of_nan (hangle : angle.isNaN = true) : foldOnce angle = angle := by
  have hbelow : ¬angle < -180.0 := fun h => by
    rw [(number_of_lt h).1] at hangle
    cases hangle
  have habove : ¬180.0 < angle := fun h => by
    rw [(number_of_lt h).2] at hangle
    cases hangle
  unfold foldOnce
  dsimp only
  rw [if_neg hbelow, if_neg habove]

theorem isNaN_foldOnce (hangle : angle.isNaN = false) : (foldOnce angle).isNaN = false := by
  obtain hlow | hlow := lt_or_ge (value angle) (-180)
  · rw [foldOnce_of_low hangle hlow]
    exact isNaN_add hangle finite_turn
  · obtain hhigh | hhigh := lt_or_ge 180 (value angle)
    · rw [foldOnce_of_high hangle hhigh, sub_eq]
      exact isNaN_add hangle (isFinite_neg finite_turn)
    · rw [foldOnce_of_mid hangle hlow hhigh]
      exact hangle

/-- Outside the half turns by a gap at least. -/
def Outside (angle : Float) : Prop := value angle ≤ -(180 + gap) ∨ 180 + gap ≤ value angle

/-- One fold is enough for at most one and a half turns. -/
theorem folded_foldOnce (hangle : angle.isNaN = false) (hlow : -540 ≤ value angle)
    (hhigh : value angle ≤ 540) : Folded (foldOnce angle) := by
  have hfinite : angle.isFinite = true := isFinite_of_value hangle
    ((abs_le.2 ⟨hlow, hhigh⟩).trans_lt (lt_power (by norm_num)))
  rw [folded_iff_value (isNaN_foldOnce hangle)]
  obtain hbelow | hbelow := lt_or_ge (value angle) (-180)
  · have hsum := rounds_add hfinite finite_turn
    rw [value_turn] at hsum
    rw [foldOnce_of_low hangle hbelow]
    exact ⟨hsum.ge_of_ge representable_halfTurn.neg (by linarith),
      hsum.le_of_le representable_halfTurn (by linarith)⟩
  · obtain habove | habove := lt_or_ge 180 (value angle)
    · have hdifference := rounds_sub hfinite finite_turn
      rw [value_turn] at hdifference
      rw [foldOnce_of_high hangle habove]
      exact ⟨hdifference.ge_of_ge representable_halfTurn.neg (by linarith),
        hdifference.le_of_le representable_halfTurn (by linarith)⟩
    · rw [foldOnce_of_mid hangle hbelow habove]
      exact ⟨hbelow, habove⟩

/-- One fold is not enough for more. -/
theorem outside_foldOnce (hangle : angle.isNaN = false)
    (h : value angle < -540 ∨ 540 < value angle) : Outside (foldOnce angle) := by
  have hrepresentable : Representable (180 + gap) := by
    exact_mod_cast representable_add_gap (n := 180) (by norm_num)
  obtain hlow | hhigh := h
  · have hbelow : 540 + gap ≤ -value angle := by
      rw [← value_neg]
      refine add_gap_le (n := 540) (by norm_num) (by norm_num) ((isNaN_neg _).trans hangle) ?_
      rw [value_neg]
      push_cast
      linarith
    left
    rw [foldOnce_of_low hangle (by linarith)]
    refine value_add_le hangle finite_turn hrepresentable.neg
      (lt_power (c := -(540 + gap)) (by linarith [gap_pos])) (by linarith) ?_
    rw [value_turn]
    linarith
  · have habove : 540 + gap ≤ value angle :=
      add_gap_le (n := 540) (by norm_num) (by norm_num) hangle (by exact_mod_cast hhigh)
    right
    rw [foldOnce_of_high hangle (by linarith), sub_eq]
    refine le_value_add hangle (isFinite_neg finite_turn) hrepresentable (c := 540 + gap)
      (by linarith [gap_pos, power_pos 1024]) habove ?_
    rw [value_neg, value_turn]
    linarith

theorem not_folded_of_outside (hangle : angle.isNaN = false) (h : Outside angle) :
    ¬Folded angle := by
  have := gap_pos
  rw [folded_iff_value hangle]
  rintro ⟨hlow, hhigh⟩
  obtain h | h := h
  · linarith
  · linarith

/-- The numbers that one fold brings to the half turns. -/
theorem folded_foldOnce_iff (hangle : angle.isNaN = false) :
    Folded (foldOnce angle) ↔ -540.0 ≤ angle ∧ angle ≤ 540.0 := by
  rw [le_iff_value (by decide +kernel) hangle, le_iff_value hangle (by decide +kernel), value_neg,
    value_oneAndHalfTurns]
  refine ⟨fun hfolded => ?_, fun h => folded_foldOnce hangle h.1 h.2⟩
  by_contra hfar
  rw [not_and_or, not_le, not_le] at hfar
  exact not_folded_of_outside (isNaN_foldOnce hangle) (outside_foldOnce hangle hfar) hfolded

/-- A fold is in the half turns, or outside them by a gap. -/
theorem folded_or_outside (hangle : angle.isNaN = false) :
    Folded (foldOnce angle) ∨ Outside (foldOnce angle) := by
  rw [or_iff_not_imp_left, folded_foldOnce_iff hangle, le_iff_value (by decide +kernel) hangle,
    le_iff_value hangle (by decide +kernel), value_neg, value_oneAndHalfTurns, not_and_or, not_le,
    not_le]
  exact outside_foldOnce hangle

end Fold

section Uses

variable {angle : Float}

theorem unpack_turn : (360.0 : Float).toModel.unpack =
    .finite .positive (45 * 2 ^ 47) (-44) (by decide) := rfl

/-- The share of a turn that a folded angle is from the lower end lies in the unit interval. -/
theorem contains_share (h : Folded angle) :
    (Interval.mk 0.0 1.0).contains ((angle + 180.0) / 360.0) = true := by
  obtain ⟨hlow, hhigh⟩ := (folded_iff_value h.number).1 h
  have hhalf : (180.0 : Float).isFinite = true := by decide +kernel
  have hsum := rounds_add h.finite hhalf
  rw [value_halfTurn] at hsum
  have hturn : Representable (360 : ℝ) := by
    exact_mod_cast representable_degrees (n := 360) (by norm_num)
  have hnonneg := hsum.nonneg (by linarith)
  have hmost := hsum.le_of_le hturn (by linarith)
  have hfinite : (angle + 180.0).isFinite = true :=
    hsum.isFinite hturn (abs_le.2 ⟨by linarith, by linarith⟩)
  have hshare := rounds_div hfinite ⟨_, _, _, _, unpack_turn⟩
  rw [value_turn] at hshare
  rw [Interval.contains_iff]
  constructor
  · refine hshare.number_le (by decide +kernel) ?_
    rw [value_zero]
    exact div_nonneg hnonneg (by norm_num)
  · refine hshare.le_number finite_one ?_
    rw [value_one]
    exact (div_le_one (by norm_num)).2 hmost

/-- The share of an angle outside the half turns lies outside the unit interval. -/
theorem not_contains_share (hangle : angle.isNaN = false) (h : Outside angle) :
    (Interval.mk 0.0 1.0).contains ((angle + 180.0) / 360.0) = false := by
  -- a smaller step than a gap would not do: the share of the number after 180 is rounded to one
  have hhalf : (180.0 : Float).isFinite = true := by decide +kernel
  have hsum := isNaN_add hangle hhalf
  have hshare := isNaN_div hsum ⟨_, _, _, _, unpack_turn⟩
  have hgap : gap = 2 ^ 9 * power (-52) := by
    unfold gap power
    norm_num
  have hpos := power_pos (-52)
  rw [Bool.eq_false_iff]
  intro hin
  rw [Interval.contains_iff, le_iff_value (by decide +kernel) hshare,
    le_iff_value hshare (by decide +kernel), value_zero, value_one] at hin
  obtain hbelow | habove := h
  · have hleast : Representable (-power (-52)) :=
      (representable_power (by norm_num) (by norm_num)).neg
    have hlow : value (angle + 180.0) ≤ -gap := by
      refine value_add_le hangle hhalf ?_ (lt_power (c := -(180 + gap)) (by linarith)) hbelow ?_
      · exact (representable_power (k := -43) (by norm_num) (by norm_num)).neg
      · rw [value_halfTurn]
        linarith
    have hout := value_div_le hsum unpack_turn hleast (by rw [value_turn]; linarith) (by linarith)
    linarith
  · have hnext : Representable (1 + power (-52)) := by
      have hone : (1 : ℝ) = (2 ^ 52 : ℕ) * power (-52) := by
        unfold power
        norm_num
      rw [hone, ← add_one_mul]
      exact_mod_cast representable_natCast_mul (2 ^ 52 + 1) (-52) (by norm_num) (by norm_num)
        (by norm_num)
    have hhigh : 360 + gap ≤ value (angle + 180.0) := by
      refine le_value_add hangle hhalf ?_ (c := 180 + gap) (by linarith [power_pos 1024]) habove ?_
      · exact_mod_cast representable_add_gap (n := 360) (by norm_num)
      · rw [value_halfTurn]
        linarith
    have hout := le_value_div hsum unpack_turn hnext (by rw [value_turn]; linarith) (by linarith)
    linarith

/-- An angle outside the half turns is in no cone. -/
theorem abs_gt_of_outside (hangle : angle.isNaN = false) (h : Outside angle) {cone : Float}
    (hcone : cone ≤ 180.0) : angle.abs > cone := by
  have hgap := gap_pos
  have hnumber := (number_of_le hcone).1
  rw [le_iff_value hnumber number_halfTurn, value_halfTurn] at hcone
  rw [gt_iff_lt, lt_iff_value hnumber ((isNaN_abs _).trans hangle), value_abs, lt_abs]
  obtain h | h := h
  · exact .inr (by linarith)
  · exact .inl (by linarith)

end Uses

/-- A function that tells the direction of a difference of points, in degrees within the half
turns. -/
def IsDirection (direction : Float → Float → Float) : Prop :=
  ∀ y x, y.isNaN = false → x.isNaN = false → Folded (degrees (direction y x))

namespace Pose

/-- Finite coordinates and a finite heading. -/
structure Finite (pose : Pose) : Prop where
  x : pose.x.isFinite = true
  y : pose.y.isFinite = true
  heading : pose.heading.isFinite = true

/-- Whether a point is where a pose is, to the computed differences. -/
def isAt (pose : Pose) (point : Point) : Bool :=
  point.x - pose.x == 0.0 && point.y - pose.y == 0.0

variable (direction : Float → Float → Float)

/-- The angle from the heading to a point, before it is folded. -/
def turnTo (pose : Pose) (point : Point) : Float :=
  degrees (direction (point.y - pose.y) (point.x - pose.x)) - pose.heading

/-- The bearing of a point, with a function for the direction of a difference. -/
def bearingBy (pose : Pose) (point : Point) : Float :=
  if pose.isAt point then 0.0 else foldOnce (pose.turnTo direction point)

theorem bearing_eq (pose : Pose) (point : Point) :
    pose.bearing point = pose.bearingBy Float.atan2 point := rfl

section Bearing

variable {direction} {pose : Pose} {point : Point}

theorem bearingBy_of_isAt (h : pose.isAt point = true) : pose.bearingBy direction point = 0.0 :=
  if_pos h

theorem bearingBy_of_not_isAt (h : ¬pose.isAt point = true) :
    pose.bearingBy direction point = foldOnce (pose.turnTo direction point) :=
  if_neg h

theorem folded_zero : Folded 0.0 := ⟨by decide +kernel, by decide +kernel⟩

/-- A bearing is in the half turns, or outside them by a gap. -/
theorem folded_or_outside_bearingBy (hturn : (pose.turnTo direction point).isNaN = false) :
    Folded (pose.bearingBy direction point) ∨ Outside (pose.bearingBy direction point) := by
  by_cases hat : pose.isAt point = true
  · rw [bearingBy_of_isAt hat]
    exact .inl folded_zero
  · rw [bearingBy_of_not_isAt hat]
    exact folded_or_outside hturn

theorem folded_bearingBy_iff (hturn : (pose.turnTo direction point).isNaN = false) :
    Folded (pose.bearingBy direction point) ↔ pose.isAt point = true ∨
      -540.0 ≤ pose.turnTo direction point ∧ pose.turnTo direction point ≤ 540.0 := by
  by_cases hat : pose.isAt point = true
  · rw [bearingBy_of_isAt hat]
    exact iff_of_true folded_zero (.inl hat)
  · rw [bearingBy_of_not_isAt hat, folded_foldOnce_iff hturn]
    exact (or_iff_right hat).symm

theorem isNaN_bearingBy (hturn : (pose.turnTo direction point).isNaN = false) :
    (pose.bearingBy direction point).isNaN = false := by
  by_cases hat : pose.isAt point = true
  · rw [bearingBy_of_isAt hat]
    exact folded_zero.number
  · rw [bearingBy_of_not_isAt hat]
    exact isNaN_foldOnce hturn

/-- From a heading that is not a number, no point is at too wide an angle. -/
theorem not_abs_bearing_gt (h : pose.heading.isNaN = true) (point : Point) {limit : Float}
    (hlimit : 0.0 ≤ limit) : ¬(pose.bearing point).abs > limit := by
  rw [bearing_eq]
  by_cases hat : pose.isAt point = true
  · have habs : (0.0 : Float).abs = 0.0 := by decide +kernel
    rw [bearingBy_of_isAt hat, habs]
    exact (le_iff_not_lt (number_of_le hlimit).1 (number_of_le hlimit).2).1 hlimit
  · have hturn : (pose.turnTo Float.atan2 point).isNaN = true := sub_nan _ h
    rw [bearingBy_of_not_isAt hat, foldOnce_of_nan hturn]
    intro hbeyond
    rw [← isNaN_abs, (number_of_lt hbeyond).2] at hturn
    cases hturn

section Turn

variable {d h : Float}

/-- A heading of at most one turn is one fold from any direction. -/
theorem turn_within (hd : Folded d) (hh : h.isFinite = true) (hlow : -360.0 ≤ h)
    (hhigh : h ≤ 360.0) : -540.0 ≤ d - h ∧ d - h ≤ 540.0 := by
  have hnumber := isNaN_of_isFinite hh
  have hturn := rounds_sub hd.finite hh
  obtain ⟨hd', hd''⟩ := (folded_iff_value hd.number).1 hd
  rw [le_iff_value (by decide +kernel) hnumber, value_neg, value_turn] at hlow
  rw [le_iff_value hnumber (by decide +kernel), value_turn] at hhigh
  constructor
  · refine hturn.number_le (by decide +kernel) ?_
    rw [value_neg, value_oneAndHalfTurns]
    linarith
  · refine hturn.le_number (by decide +kernel) ?_
    rw [value_oneAndHalfTurns]
    linarith

/-- A heading of more than two turns is not one fold from any direction. -/
theorem turn_beyond (hd : Folded d) (hh : h.isFinite = true) (hfar : h < -720.0 ∨ 720.0 < h) :
    ¬(-540.0 ≤ d - h ∧ d - h ≤ 540.0) := by
  have hnumber := isNaN_of_isFinite hh
  have hturn := rounds_sub hd.finite hh
  have hgap := gap_pos
  have hnext : Representable (540 + gap) := by
    exact_mod_cast representable_add_gap (n := 540) (by norm_num)
  obtain ⟨hd', hd''⟩ := (folded_iff_value hd.number).1 hd
  rw [le_iff_value (by decide +kernel) hturn.number, le_iff_value hturn.number (by decide +kernel),
    value_neg, value_oneAndHalfTurns]
  rintro ⟨hlow, hhigh⟩
  obtain hbelow | habove := hfar
  · rw [lt_iff_value hnumber (by decide +kernel), value_neg, value_twoTurns] at hbelow
    have hheading : 720 + gap ≤ -value h := by
      rw [← value_neg]
      refine add_gap_le (n := 720) (by norm_num) (by norm_num) ((isNaN_neg _).trans hnumber) ?_
      rw [value_neg]
      push_cast
      linarith
    have hout := hturn.ge_of_ge hnext (by linarith)
    linarith
  · rw [lt_iff_value (by decide +kernel) hnumber, value_twoTurns] at habove
    have hheading : 720 + gap ≤ value h :=
      add_gap_le (n := 720) (by norm_num) (by norm_num) hnumber (by exact_mod_cast habove)
    have hout := hturn.le_of_le hnext.neg (by linarith)
    linarith

end Turn

/-- A bearing, which takes the arc tangent for the direction, is in the half turns if and only if
the point is where the pose is, or the angle before the fold is at most one and a half turns to
either side. That is so for all headings of at most one turn, and for none of more than two. A
bearing that is not in the half turns has its share of a turn outside the unit interval, and is in
no cone. -/
theorem bearing_folded_iff (hdirection : IsDirection direction) (hpose : pose.Finite)
    (hx : point.x.isFinite = true) (hy : point.y.isFinite = true) :
    pose.bearing point = pose.bearingBy Float.atan2 point ∧
    (Folded (pose.bearingBy direction point) ↔ pose.isAt point = true ∨
      -540.0 ≤ pose.turnTo direction point ∧ pose.turnTo direction point ≤ 540.0) ∧
    (-360.0 ≤ pose.heading → pose.heading ≤ 360.0 → Folded (pose.bearingBy direction point)) ∧
    (pose.heading < -720.0 ∨ 720.0 < pose.heading →
      (Folded (pose.bearingBy direction point) ↔ pose.isAt point = true)) ∧
    ((Interval.mk 0.0 1.0).contains ((pose.bearingBy direction point + 180.0) / 360.0) = true ↔
      Folded (pose.bearingBy direction point)) ∧
    ∀ cone ≤ 180.0, ¬Folded (pose.bearingBy direction point) →
      (pose.bearingBy direction point).abs > cone := by
  have hd : Folded (degrees (direction (point.y - pose.y) (point.x - pose.x))) :=
    hdirection _ _ (rounds_sub hy hpose.y).number (rounds_sub hx hpose.x).number
  have hturn : (pose.turnTo direction point).isNaN = false :=
    (rounds_sub hd.finite hpose.heading).number
  have hnumber := isNaN_bearingBy hturn
  have hfold := folded_bearingBy_iff hturn
  have hcases := folded_or_outside_bearingBy hturn
  refine ⟨bearing_eq pose point, hfold, fun hlow hhigh => ?_, fun hfar => ?_, ?_,
    fun cone hcone hout => ?_⟩
  · exact hfold.2 (.inr (turn_within hd hpose.heading hlow hhigh))
  · rw [hfold]
    exact or_iff_left (turn_beyond hd hpose.heading hfar)
  · refine ⟨fun hin => hcases.resolve_right fun hout => ?_, contains_share⟩
    rw [not_contains_share hnumber hout] at hin
    cases hin
  · exact abs_gt_of_outside hnumber (hcases.resolve_left hout) hcone

/-- With a heading of 1000, a point straight along the first axis is seen at `-640`. -/
theorem bearing_folded_iff_unwrapped :
    IsDirection (fun _ _ => 0.0) ∧ (Pose.mk 0.0 0.0 1000.0).Finite ∧
      (Pose.mk 0.0 0.0 1000.0).bearingBy (fun _ _ => 0.0) ⟨10.0, 0.0⟩ = -640.0 ∧
      ¬Folded ((Pose.mk 0.0 0.0 1000.0).bearingBy (fun _ _ => 0.0) ⟨10.0, 0.0⟩) ∧
      (Interval.mk 0.0 1.0).contains
        (((Pose.mk 0.0 0.0 1000.0).bearingBy (fun _ _ => 0.0) ⟨10.0, 0.0⟩ + 180.0) / 360.0) =
          false := by
  have hahead : Folded (degrees 0.0) := ⟨by decide +kernel, by decide +kernel⟩
  have hdirection : IsDirection fun _ _ => 0.0 := fun _ _ _ _ => hahead
  have hpose : (Pose.mk 0.0 0.0 1000.0).Finite :=
    ⟨by decide +kernel, by decide +kernel, by decide +kernel⟩
  have hx : (Point.mk 10.0 0.0).x.isFinite = true := by decide +kernel
  have hy : (Point.mk 10.0 0.0).y.isFinite = true := by decide +kernel
  obtain ⟨-, -, -, hfar, hshare, -⟩ := bearing_folded_iff hdirection hpose hx hy
  have hout : ¬Folded ((Pose.mk 0.0 0.0 1000.0).bearingBy (fun _ _ => 0.0) ⟨10.0, 0.0⟩) := by
    rw [hfar (.inr (by decide +kernel))]
    decide +kernel
  refine ⟨hdirection, hpose, by decide +kernel, hout, ?_⟩
  rw [Bool.eq_false_iff]
  exact fun hin => hout (hshare.1 hin)

end Bearing

end Pose

end FlagCombat
