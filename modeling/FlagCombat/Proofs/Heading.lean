import FlagCombat.Agent.Combatant
import FlagCombat.Proofs.Bearing
import FlagCombat.Proofs.Binary64.Scaled
import FlagCombat.Proofs.Binary64.Undefined

/-!
Headings within one turn. A heading is wrapped to what whole turns leave of its sum with the turn,
rounded once, and to zero where that is rounded to the whole turn; a sum that is not finite gives no
number. So a walk ends with a heading in `[0, 360)` if and only if all its sums are finite. Such a
heading is wrapped to itself, so an agent without a motion stays where it is for any number of
steps: zeros may change their signs, and no coordinate changes otherwise. The cosine and the sine
are parameters there; all that is used of them is that they keep finite numbers finite.
-/

namespace FlagCombat

open Binary64

/-- At least zero and less than a whole turn. -/
def InTurn (heading : Float) : Prop := 0.0 ≤ heading ∧ heading < 360.0

section Wrap

variable {heading delta : Float}

theorem inTurn_iff_value (h : heading.isNaN = false) :
    InTurn heading ↔ 0 ≤ value heading ∧ value heading < 360 := by
  unfold InTurn
  rw [le_iff_value (by decide +kernel) h, lt_iff_value h (by decide +kernel), value_zero,
    value_turn]

theorem InTurn.number (h : InTurn heading) : heading.isNaN = false := (number_of_le h.1).2

theorem InTurn.bounds (h : InTurn heading) : 0 ≤ value heading ∧ value heading < 360 :=
  (inTurn_iff_value h.number).1 h

theorem InTurn.finite (h : InTurn heading) : heading.isFinite = true := by
  obtain ⟨hlow, hhigh⟩ := h.bounds
  refine isFinite_of_value h.number ?_
  rw [abs_of_nonneg hlow]
  exact lt_power (by linarith)

theorem inTurn_of_beq {heading' : Float} (h : InTurn heading)
    (heq : (heading' == heading) = true) : InTurn heading' := by
  obtain ⟨hnumber, -⟩ := number_of_beq heq
  rw [beq_iff_value hnumber h.number] at heq
  rw [inTurn_iff_value hnumber, heq]
  exact h.bounds

/-- What whole turns leave of an angle. -/
noncomputable def leftover (angle : Float) : ℝ := 360 * Int.fract (value angle / 360)

theorem leftover_nonneg (angle : Float) : 0 ≤ leftover angle :=
  mul_nonneg (by norm_num) (Int.fract_nonneg _)

theorem leftover_le (angle : Float) : leftover angle ≤ 360 :=
  mul_le_of_le_one_right (by norm_num) (Int.fract_lt_one _).le

theorem leftover_of_mem {angle : Float} (hlow : 0 ≤ value angle) (hhigh : value angle < 360) :
    leftover angle = value angle :=
  mul_fract_eq 0 (by rw [Int.cast_zero, zero_mul, zero_add]) hlow hhigh

/-- A finite sum is wrapped to what whole turns leave of it, rounded once, unless that is rounded to
the whole turn. -/
theorem wrapDegrees_cases (h : (heading + delta).isFinite = true) :
    (wrapDegrees heading delta = 0.0 ∧ Neighbours (leftover (heading + delta)) 360) ∨
    (value (wrapDegrees heading delta) < 360 ∧
      Rounds (leftover (heading + delta)) (wrapDegrees heading delta)) := by
  have hround := rounds_remainderAbove h finite_turn (by rw [value_turn]; norm_num)
  have hmost := hround.le_of_le (representable_value finite_turn)
    (value_turn ▸ leftover_le (heading + delta))
  rw [value_turn] at hround hmost
  unfold wrapDegrees
  dsimp only
  by_cases hwhole : remainderAbove (heading + delta) 360.0 ≥ 360.0
  · rw [if_pos hwhole]
    rw [ge_iff_le, le_iff_value (by decide +kernel) hround.number, value_turn] at hwhole
    exact .inl ⟨rfl, le_antisymm hmost hwhole ▸ hround.toNeighbours⟩
  · rw [if_neg hwhole]
    rw [ge_iff_le, le_iff_value (by decide +kernel) hround.number, value_turn, not_le] at hwhole
    exact .inr ⟨hwhole, hround⟩

theorem inTurn_wrapDegrees (h : (heading + delta).isFinite = true) :
    InTurn (wrapDegrees heading delta) := by
  obtain ⟨hwrap, -⟩ | ⟨hless, hround⟩ := wrapDegrees_cases h
  · rw [hwrap]
    exact ⟨by decide +kernel, by decide +kernel⟩
  · rw [inTurn_iff_value hround.number]
    exact ⟨hround.nonneg (leftover_nonneg _), hless⟩

theorem isNaN_wrapDegrees (h : (heading + delta).isFinite = false) :
    (wrapDegrees heading delta).isNaN = true := by
  have hnan := isNaN_remainderAbove h 360.0
  unfold wrapDegrees
  dsimp only
  rw [if_neg (not_le_nan hnan)]
  exact hnan

theorem inTurn_wrapDegrees_iff :
    InTurn (wrapDegrees heading delta) ↔ (heading + delta).isFinite = true := by
  refine ⟨fun hturn => ?_, inTurn_wrapDegrees⟩
  by_contra hsum
  have hnan := isNaN_wrapDegrees (Bool.eq_false_iff.2 hsum)
  rw [hturn.number] at hnan
  cases hnan

/-- A heading within one turn is wrapped to the same number. -/
theorem wrapDegrees_zero (h : InTurn heading) (hdelta : (delta == 0.0) = true) :
    (wrapDegrees heading delta == heading) = true := by
  obtain ⟨hzero, hvalue⟩ := zero_of_beq hdelta
  obtain ⟨hlow, hhigh⟩ := h.bounds
  have hrepresentable := representable_value h.finite
  have hsum := rounds_add h.finite hzero
  rw [hvalue, add_zero] at hsum
  have hexact := hsum.exact hrepresentable
  have hleft : leftover (heading + delta) = value heading := by
    rw [leftover_of_mem (hexact ▸ hlow) (hexact ▸ hhigh), hexact]
  have hcases := wrapDegrees_cases (hsum.isFinite_of_representable hrepresentable)
  rw [hleft] at hcases
  obtain ⟨-, hwhole⟩ | ⟨-, hround⟩ := hcases
  -- the heading is a number of its own, so it is not rounded up to the whole turn
  · exact absurd (hwhole.le_of_le hrepresentable le_rfl) hhigh.not_ge
  · exact (beq_iff_value hround.number h.number).2 (hround.exact hrepresentable)

/-- What is left of a sum just below zero is rounded to the whole turn. -/
example : remainderAbove (0.0 + -1e-20) 360.0 = 360.0 ∧ wrapDegrees 0.0 (-1e-20) = 0.0 := by
  decide +kernel

end Wrap

namespace Pose

/-- Numerically the same: zeros may differ in their signs. -/
structure Same (p q : Pose) : Prop where
  x : (p.x == q.x) = true
  y : (p.y == q.y) = true
  heading : (p.heading == q.heading) = true

/-- A finite position, and a heading within one turn. -/
structure Wrapped (p : Pose) : Prop where
  x : p.x.isFinite = true
  y : p.y.isFinite = true
  heading : InTurn p.heading

section Same

variable {p q r : Pose}

theorem Wrapped.same_refl (h : p.Wrapped) : p.Same p where
  x := beq_self (isNaN_of_isFinite h.x)
  y := beq_self (isNaN_of_isFinite h.y)
  heading := beq_self h.heading.number

theorem Same.symm (h : p.Same q) : q.Same p where
  x := beq_symm h.x
  y := beq_symm h.y
  heading := beq_symm h.heading

theorem Same.trans (h : p.Same q) (h' : q.Same r) : p.Same r where
  x := beq_trans h.x h'.x
  y := beq_trans h.y h'.y
  heading := beq_trans h.heading h'.heading

end Same

/-- The pose after a turn and a walk, with functions for the cosine and the sine. -/
def advanceBy (cos sin : Float → Float) (p : Pose) (step turn : Float) : Pose :=
  let heading := wrapDegrees p.heading turn
  let angle := radians heading
  ⟨fusedMulAdd step (cos angle) p.x, fusedMulAdd step (sin angle) p.y, heading⟩

end Pose

/-- A function that gives finite numbers for finite numbers. -/
def KeepsFinite (f : Float → Float) : Prop := ∀ x, x.isFinite = true → (f x).isFinite = true

theorem keepsFinite_radians : KeepsFinite radians := by
  intro x hx
  have hfactor : (pi / 180.0).isFinite = true ∧ 0.0 ≤ pi / 180.0 ∧ pi / 180.0 ≤ 1.0 := by
    decide +kernel
  obtain ⟨hfinite, hlow, hhigh⟩ := hfactor
  have hlow' := value_le_value (by decide +kernel) hfinite hlow
  have hhigh' := value_le_value hfinite finite_one hhigh
  rw [value_zero] at hlow'
  rw [value_one] at hhigh'
  have hmost := representable_value ((isFinite_abs x).trans hx)
  rw [value_abs] at hmost
  refine (rounds_mul hx hfinite).isFinite hmost ?_
  rw [abs_mul, abs_of_nonneg hlow']
  exact mul_le_of_le_one_right (abs_nonneg _) hhigh'

section NoMotion

variable {x y z : Float}

theorem mul_beq_zero (hx : x.isFinite = true) (hy : (y == 0.0) = true) :
    (x * y == 0.0) = true := by
  obtain ⟨hfinite, hzero⟩ := zero_of_beq hy
  have hround := rounds_mul hx hfinite
  rw [hzero, mul_zero] at hround
  rw [beq_iff_value hround.number (by decide +kernel), value_zero]
  exact hround.exact representable_zero

/-- Adding no share of a finite number keeps a number. -/
theorem fusedMulAdd_zero (hx : (x == 0.0) = true) (hy : y.isFinite = true)
    (hz : z.isFinite = true) :
    (fusedMulAdd x y z).isFinite = true ∧ (fusedMulAdd x y z == z) = true := by
  obtain ⟨hfinite, hzero⟩ := zero_of_beq hx
  have hround := rounds_fusedMulAdd hfinite hy hz
  rw [hzero, zero_mul, zero_add] at hround
  have hrepresentable := representable_value hz
  exact ⟨hround.isFinite_of_representable hrepresentable,
    (beq_iff_value hround.number (isNaN_of_isFinite hz)).2 (hround.exact hrepresentable)⟩

variable {cos sin : Float → Float}

theorem Pose.advanceBy_zero (hcos : KeepsFinite cos) (hsin : KeepsFinite sin) {p : Pose}
    (hp : p.Wrapped) {step turn : Float} (hstep : (step == 0.0) = true)
    (hturn : (turn == 0.0) = true) :
    (p.advanceBy cos sin step turn).Wrapped ∧ (p.advanceBy cos sin step turn).Same p := by
  have hheading := wrapDegrees_zero hp.heading hturn
  have hwrapped := inTurn_of_beq hp.heading hheading
  have hangle := keepsFinite_radians _ hwrapped.finite
  obtain ⟨hx, hx'⟩ := fusedMulAdd_zero hstep (hcos _ hangle) hp.x
  obtain ⟨hy, hy'⟩ := fusedMulAdd_zero hstep (hsin _ hangle) hp.y
  exact ⟨⟨hx, hy, hwrapped⟩, ⟨hx', hy', hheading⟩⟩

end NoMotion

/-- A motion, and the largest speed that its walk is a share of. -/
structure Stride where
  motion : Motion
  maxSpeed : Float

/-- Neither a walk nor a turn, at a finite speed. -/
structure Stride.IsRest (s : Stride) : Prop where
  moveBy : (s.motion.moveBy == 0.0) = true
  turnBy : (s.motion.turnBy == 0.0) = true
  maxSpeed : s.maxSpeed.isFinite = true

/-- All sums are finite as a heading is turned by one angle after the other. -/
def SumsFinite : Float → List Float → Prop
  | _, [] => True
  | heading, turn :: turns =>
    (heading + turn).isFinite = true ∧ SumsFinite (wrapDegrees heading turn) turns

/-- A sum is finite only if the one before it was. -/
theorem sumsFinite_cons_cons {heading turn turn' : Float} {turns : List Float} :
    SumsFinite heading (turn :: turn' :: turns) ↔
      SumsFinite (wrapDegrees heading turn) (turn' :: turns) := by
  refine and_iff_right_of_imp fun hlater => ?_
  by_contra hsum
  have hnan := nan_add (isNaN_wrapDegrees (Bool.eq_false_iff.2 hsum)) turn'
  rw [isNaN_of_isFinite hlater.1] at hnan
  cases hnan

namespace Combatant

/-- One stride after the other. -/
def walk (c : Combatant) (strides : List Stride) : Combatant :=
  strides.foldl (fun c stride => c.move stride.motion stride.maxSpeed) c

theorem inTurn_walk_cons (c : Combatant) (stride : Stride) (strides : List Stride) :
    InTurn (c.walk (stride :: strides)).pose.heading ↔
      SumsFinite c.pose.heading ((stride :: strides).map (·.motion.turnBy)) := by
  induction strides generalizing c stride with
  | nil => exact inTurn_wrapDegrees_iff.trans (and_iff_left trivial).symm
  | cons stride' strides ih =>
    exact (ih (c.move stride.motion stride.maxSpeed) stride').trans sumsFinite_cons_cons.symm

/-- One stride, with functions for the cosine and the sine. -/
def strideBy (cos sin : Float → Float) (c : Combatant) (stride : Stride) : Combatant :=
  { c with
    previousPose := c.pose
    pose := c.pose.advanceBy cos sin (stride.maxSpeed * stride.motion.moveBy) stride.motion.turnBy }

def walkBy (cos sin : Float → Float) (c : Combatant) (strides : List Stride) : Combatant :=
  strides.foldl (strideBy cos sin) c

theorem walk_eq (c : Combatant) (strides : List Stride) :
    c.walk strides = c.walkBy Float.cos Float.sin strides := rfl

/-- At a pose now, and before the last step. -/
structure RestsAt (c : Combatant) (p : Pose) : Prop where
  wrapped : c.pose.Wrapped
  pose : c.pose.Same p
  previous : c.previousPose.Same c.pose

section Rest

variable {cos sin : Float → Float} {c : Combatant} {p : Pose}

theorem restsAt_strideBy (hcos : KeepsFinite cos) (hsin : KeepsFinite sin) {stride : Stride}
    (hwrapped : c.pose.Wrapped) (hpose : c.pose.Same p) (hrest : stride.IsRest) :
    (c.strideBy cos sin stride).RestsAt p := by
  obtain ⟨hwrapped', hsame⟩ := Pose.advanceBy_zero hcos hsin hwrapped
    (mul_beq_zero hrest.maxSpeed hrest.moveBy) hrest.turnBy
  exact ⟨hwrapped', hsame.trans hpose, hsame.symm⟩

theorem restsAt_walkBy (hcos : KeepsFinite cos) (hsin : KeepsFinite sin) {strides : List Stride}
    (hwrapped : c.pose.Wrapped) (hpose : c.pose.Same p) (hne : strides ≠ [])
    (hrest : ∀ stride ∈ strides, stride.IsRest) : (c.walkBy cos sin strides).RestsAt p := by
  induction strides generalizing c with
  | nil => exact absurd rfl hne
  | cons stride strides ih =>
    rw [List.forall_mem_cons] at hrest
    have hfirst := restsAt_strideBy hcos hsin hwrapped hpose hrest.1
    cases strides with
    | nil => exact hfirst
    | cons => exact ih hfirst.wrapped hfirst.pose (List.cons_ne_nil _ _) hrest.2

/-- A heading is wrapped into one turn if and only if its sum with the turn is finite. It is then
what whole turns leave of the sum, rounded once, or zero where that is rounded to the whole turn,
and wrapping it again gives the same number. So after one stride or more the heading is within one
turn if and only if all sums on the way are finite. An agent at a finite position, with a heading
within one turn, is at the same pose after any number of strides without a motion, and was there
before the last one, as the cosine and the sine keep finite numbers finite. -/
theorem headings_canonical (hcos : KeepsFinite cos) (hsin : KeepsFinite sin) :
    (∀ heading delta, InTurn (wrapDegrees heading delta) ↔ (heading + delta).isFinite = true) ∧
    (∀ heading delta, (heading + delta).isFinite = true →
      (wrapDegrees (wrapDegrees heading delta) 0.0 == wrapDegrees heading delta) = true ∧
      (Rounds (leftover (heading + delta)) (wrapDegrees heading delta) ∨
        wrapDegrees heading delta = 0.0 ∧ Neighbours (leftover (heading + delta)) 360)) ∧
    (∀ (c : Combatant) strides, strides ≠ [] → (InTurn (c.walk strides).pose.heading ↔
      SumsFinite c.pose.heading (strides.map (·.motion.turnBy)))) ∧
    (∀ (c : Combatant) strides, c.walk strides = c.walkBy Float.cos Float.sin strides) ∧
    ∀ (c : Combatant) strides, c.pose.Wrapped → strides ≠ [] →
      (∀ stride ∈ strides, stride.IsRest) →
      (c.walkBy cos sin strides).pose.Same c.pose ∧
        (c.walkBy cos sin strides).previousPose.Same (c.walkBy cos sin strides).pose := by
  refine ⟨fun _ _ => inTurn_wrapDegrees_iff, fun heading delta hsum => ⟨?_, ?_⟩,
    fun c strides hne => ?_, walk_eq, fun c strides hwrapped hne hrest => ?_⟩
  · exact wrapDegrees_zero (inTurn_wrapDegrees hsum) (by decide +kernel)
  · exact (wrapDegrees_cases hsum).symm.imp_left And.right
  · obtain ⟨stride, strides, rfl⟩ := List.exists_cons_of_ne_nil hne
    exact inTurn_walk_cons c stride strides
  · have hrests := restsAt_walkBy hcos hsin hwrapped hwrapped.same_refl hne hrest
    exact ⟨hrests.pose, hrests.previous⟩

def sentry : Combatant :=
  { id := ⟨1⟩, team := .one, group := .turret, pose := ⟨3.0, 4.0, -0.0⟩ }

/-- A sentry with a negative zero for its heading rests, and then turns to just below zero. -/
theorem headings_canonical_sentry :
    KeepsFinite (fun _ => 1.0) ∧ KeepsFinite (fun _ => 0.0) ∧ sentry.pose.Wrapped ∧
    (sentry.walkBy (fun _ => 1.0) (fun _ => 0.0) [⟨⟨0.0, 0.0⟩, 1.0⟩, ⟨⟨-0.0, -0.0⟩, 2.5⟩]).pose.Same
      sentry.pose ∧
    SumsFinite (-0.0) [-1e-20, 370.0] ∧
    InTurn (sentry.walk [⟨⟨1.0, -1e-20⟩, 1.0⟩, ⟨⟨0.5, 370.0⟩, 1.0⟩]).pose.heading := by
  have hzero : (0.0 : Float).isFinite = true := by decide +kernel
  have hcos : KeepsFinite fun _ => 1.0 := fun _ _ => finite_one
  have hsin : KeepsFinite fun _ => 0.0 := fun _ _ => hzero
  have hwrapped : sentry.pose.Wrapped :=
    ⟨by decide +kernel, by decide +kernel, by decide +kernel, by decide +kernel⟩
  have hsums : SumsFinite (-0.0) [-1e-20, 370.0] :=
    ⟨by decide +kernel, by decide +kernel, trivial⟩
  obtain ⟨-, -, hrange, -, hrest⟩ := headings_canonical hcos hsin
  refine ⟨hcos, hsin, hwrapped, ?_, hsums, (hrange _ _ (by simp)).2 hsums⟩
  refine (hrest sentry _ hwrapped (by simp) ?_).1
  rw [List.forall_mem_cons, List.forall_mem_singleton]
  exact ⟨⟨by decide +kernel, by decide +kernel, by decide +kernel⟩,
    ⟨by decide +kernel, by decide +kernel, by decide +kernel⟩⟩

end Rest

end Combatant

end FlagCombat
