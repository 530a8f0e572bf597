import FlagCombat.Proofs.Binary64.Reading

/-!
The order of binary64 numbers, through their places.
-/

namespace FlagCombat

namespace Binary64

open Float.Model (Format UnpackedFloat)
open Float.Model.UnpackedFloat (Sign)

/-- The place of a number among all numbers. -/
def placeOf (x : Float) : Int := place x.toModel.unpack

theorem canonical (x : Float) : Canonical x.toModel.unpack := canonical_unpack _

variable {x y z : Float}

theorem le_iff_compare :
    x ≤ y ↔ (x.toModel.unpack.compare y.toModel.unpack).any (·.isLE) = true := by
  change Float.le x y = true ↔ _
  unfold Float.le
  rw [decide_eq_true_iff]
  rfl

theorem lt_iff_compare : x < y ↔ x.toModel.unpack.compare y.toModel.unpack = some .lt := by
  change Float.lt x y = true ↔ _
  unfold Float.lt
  rw [decide_eq_true_iff]
  exact beq_iff_eq

theorem beq_iff_compare :
    (x == y) = true ↔ x.toModel.unpack.compare y.toModel.unpack = some .eq := by
  change (x.toModel.unpack.compare y.toModel.unpack == some .eq) = true ↔ _
  exact beq_iff_eq

theorem isNaN_eq (x : Float) : x.isNaN = x.toModel.unpack.isNaN := rfl

theorem compare_notANumber (f : UnpackedFloat) : f.compare .notANumber = none := by
  cases f with
  | infinity s => cases s <;> rfl
  | finite s => cases s <;> rfl
  | notANumber | zero => rfl

/-- What compares with something is a number. -/
theorem number_of_compare {o : Ordering} (h : x.toModel.unpack.compare y.toModel.unpack = some o) :
    x.isNaN = false ∧ y.isNaN = false := by
  rw [isNaN_eq, isNaN_eq]
  generalize x.toModel.unpack = f at h
  generalize y.toModel.unpack = g at h
  constructor
  · cases f with
    | notANumber => cases h
    | infinity | zero | finite => rfl
  · cases g with
    | notANumber =>
      rw [compare_notANumber] at h
      cases h
    | infinity | zero | finite => rfl

theorem number_of_le (h : x ≤ y) : x.isNaN = false ∧ y.isNaN = false := by
  rw [le_iff_compare, Option.any_eq_true] at h
  obtain ⟨o, ho, -⟩ := h
  exact number_of_compare ho

theorem compare_float (hx : x.isNaN = false) (hy : y.isNaN = false) :
    x.toModel.unpack.compare y.toModel.unpack = some (compare (placeOf x) (placeOf y)) :=
  compare_eq (canonical x) (canonical y) hx hy

theorem le_iff (hx : x.isNaN = false) (hy : y.isNaN = false) : x ≤ y ↔ placeOf x ≤ placeOf y := by
  rw [le_iff_compare, compare_float hx hy, Option.any_some, Int.isLE_compare]

theorem lt_iff (hx : x.isNaN = false) (hy : y.isNaN = false) : x < y ↔ placeOf x < placeOf y := by
  rw [lt_iff_compare, compare_float hx hy, Option.some.injEq, Int.compare_eq_lt]

theorem placeOf_zero : placeOf 0.0 = 0 := by decide +kernel

theorem zero_le_iff (hx : x.isNaN = false) : 0.0 ≤ x ↔ 0 ≤ placeOf x := by
  rw [le_iff (by decide +kernel) hx, placeOf_zero]

theorem number_of_lt (h : x < y) : x.isNaN = false ∧ y.isNaN = false :=
  number_of_compare (lt_iff_compare.1 h)

theorem le_of_lt (h : x < y) : x ≤ y := by
  obtain ⟨hx, hy⟩ := number_of_lt h
  rw [lt_iff hx hy] at h
  rw [le_iff hx hy]
  exact Int.le_of_lt h

theorem lt_irrefl (x : Float) : ¬x < x := by
  intro h
  have hx := (number_of_lt h).1
  exact Int.lt_irrefl _ ((lt_iff hx hx).1 h)

theorem lt_trans (h : x < y) (h' : y < z) : x < z := by
  obtain ⟨hx, hy⟩ := number_of_lt h
  have hz := (number_of_lt h').2
  rw [lt_iff hx hy] at h
  rw [lt_iff hy hz] at h'
  exact (lt_iff hx hz).2 (Int.lt_trans h h')

/-- Of two numbers, one is at most the other unless the other is less. -/
theorem le_iff_not_lt (hx : x.isNaN = false) (hy : y.isNaN = false) : x ≤ y ↔ ¬y < x := by
  rw [le_iff hx hy, lt_iff hy hx, Int.not_lt]

theorem le_of_le_of_le (h : x ≤ y) (h' : y ≤ z) : x ≤ z := by
  obtain ⟨hx, hy⟩ := number_of_le h
  have hz := (number_of_le h').2
  rw [le_iff hx hy] at h
  rw [le_iff hy hz] at h'
  exact (le_iff hx hz).2 (Int.le_trans h h')

theorem not_lt_of_le_of_le (h : x ≤ y) (h' : y ≤ z) : ¬z < x :=
  (le_iff_not_lt (number_of_le h).1 (number_of_le h').2).1 (le_of_le_of_le h h')

theorem beq_or_lt_of_le (h : x ≤ y) : (x == y) = true ∨ x < y := by
  obtain ⟨hx, hy⟩ := number_of_le h
  rw [le_iff hx hy] at h
  rw [beq_iff_compare, lt_iff_compare, compare_float hx hy]
  obtain hlt | heq := Int.lt_or_eq_of_le h
  · exact .inr (by rw [Int.compare_eq_lt.2 hlt])
  · exact .inl (by rw [Int.compare_eq_eq.2 heq])

theorem canonical_neg {f : UnpackedFloat} (h : Canonical f) : Canonical f.neg := by
  cases f <;> exact h

theorem unpack_neg (x : Float) : (-x).toModel.unpack = x.toModel.unpack.neg :=
  unpack_pack (canonical_neg (canonical x))

theorem isNaN_neg (x : Float) : (-x).isNaN = x.isNaN := by
  rw [isNaN_eq, unpack_neg, isNaN_eq]
  cases x.toModel.unpack <;> rfl

theorem placeOf_neg (x : Float) : placeOf (-x) = -placeOf x := by
  unfold placeOf
  rw [unpack_neg]
  cases x.toModel.unpack with
  | notANumber | zero => rfl
  | infinity s => cases s <;> rfl
  | finite s m e hm =>
    cases s with
    | negative => exact (Int.neg_neg _).symm
    | positive => rfl

/-- A finite number is a zero or has a mantissa. -/
theorem finite_cases (hx : x.isFinite = true) :
    (∃ s, x.toModel.unpack = .zero s) ∨ ∃ s m e hm, x.toModel.unpack = .finite s m e hm := by
  change x.toModel.unpack.isFinite = true at hx
  cases hunpack : x.toModel.unpack with
  | zero s => exact .inl ⟨s, rfl⟩
  | finite s m e hm => exact .inr ⟨s, m, e, hm, rfl⟩
  | notANumber | infinity =>
    rw [hunpack] at hx
    cases hx

theorem isNaN_of_isFinite (hx : x.isFinite = true) : x.isNaN = false := by
  rw [isNaN_eq]
  obtain ⟨s, hunpack⟩ | ⟨s, m, e, hm, hunpack⟩ := finite_cases hx
  · rw [hunpack]
    rfl
  · rw [hunpack]
    rfl

theorem isFinite_neg_eq (x : Float) : (-x).isFinite = x.isFinite := by
  show (-x).toModel.unpack.isFinite = x.toModel.unpack.isFinite
  rw [unpack_neg]
  cases x.toModel.unpack <;> rfl

theorem isFinite_neg (hx : x.isFinite = true) : (-x).isFinite = true := (isFinite_neg_eq x).trans hx

theorem isFinite_of_place (hx : x.isNaN = false) (hlow : -(2047 * 2 ^ 52) < placeOf x)
    (hhigh : placeOf x < 2047 * 2 ^ 52) : x.isFinite = true := by
  rw [isNaN_eq] at hx
  unfold placeOf at hlow hhigh
  show x.toModel.unpack.isFinite = true
  cases hunpack : x.toModel.unpack with
  | zero | finite => rfl
  | notANumber =>
    rw [hunpack] at hx
    cases hx
  | infinity s =>
    rw [hunpack] at hlow hhigh
    cases s with
    | negative => exact absurd hlow (Int.lt_irrefl _)
    | positive => exact absurd hhigh (Int.lt_irrefl _)

/-- The sign of a number does not change how far it is from zero. -/
theorem natAbs_placeOf_finite {s : Sign} {m : Nat} {e : Int} {hm : 0 < m}
    (hunpack : x.toModel.unpack = .finite s m e hm) :
    (placeOf x).natAbs = ((e + 1074) * 2 ^ 52 + (m : Int)).natAbs := by
  unfold placeOf
  rw [hunpack]
  cases s with
  | positive => rfl
  | negative => exact Int.natAbs_neg _

theorem natAbs_placeOf_lt (hx : x.isFinite = true) : (placeOf x).natAbs < 2047 * 2 ^ 52 := by
  obtain ⟨s, hunpack⟩ | ⟨s, m, e, hm, hunpack⟩ := finite_cases hx
  · unfold placeOf
    rw [hunpack]
    exact Nat.mul_pos (by decide) (Nat.two_pow_pos _)
  · have hcanonical := canonical x
    rw [hunpack] at hcanonical
    have hbounds := place_bounds hm hcanonical
    rw [natAbs_placeOf_finite hunpack]
    omega

theorem exists_zero (hx : x.isFinite = true) (hzero : placeOf x = 0) :
    ∃ s, x.toModel.unpack = .zero s := by
  have hcanonical := canonical x
  unfold placeOf at hzero
  obtain hunpack | ⟨s, m, e, hm, hunpack⟩ := finite_cases hx
  · exact hunpack
  · rw [hunpack] at hzero hcanonical
    cases s with
    | negative => exact absurd hzero (Int.ne_of_lt (place_negative hm hcanonical))
    | positive => exact absurd hzero.symm (Int.ne_of_lt (place_positive hm hcanonical))

theorem exists_positive (hx : x.isFinite = true) (hpos : 0 < placeOf x) :
    ∃ m e hm, x.toModel.unpack = .finite .positive m e hm := by
  have hcanonical := canonical x
  unfold placeOf at hpos
  obtain ⟨s, hunpack⟩ | ⟨s, m, e, hm, hunpack⟩ := finite_cases hx
  · rw [hunpack] at hpos
    cases hpos
  · rw [hunpack] at hpos hcanonical
    cases s with
    | positive => exact ⟨m, e, hm, hunpack⟩
    | negative => exact absurd hpos (Int.lt_asymm (place_negative hm hcanonical))

end Binary64

end FlagCombat
