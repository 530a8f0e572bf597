import FlagCombat.Binary64.Arithmetic
import FlagCombat.Proofs.Binary64.Order

/-!
What is not a number stays that through every operation, and compares with nothing. A finite number
less itself is zero; an infinite one less itself is not a number.
-/

namespace FlagCombat

namespace Binary64

open Float.Model (Format UnpackedFloat)
open Float.Model.UnpackedFloat

variable {x y z : Float}

theorem isNaN_iff : x.isNaN = true ↔ x.toModel.unpack = .notANumber := by
  rw [isNaN_eq]
  cases x.toModel.unpack with
  | notANumber => exact ⟨fun _ => rfl, fun _ => rfl⟩
  | infinity | zero | finite =>
    constructor
    · intro h
      cases h
    · intro h
      cases h

theorem isNaN_of_unpacked {f : UnpackedFloat} (h : f = .notANumber) :
    (UnpackedFloat.unpack Format.binary64 (UnpackedFloat.pack Format.binary64 f)).isNaN = true := by
  have hcanonical : Canonical .notANumber := trivial
  rw [h, unpack_pack hcanonical]
  rfl

theorem nan_mul (h : x.isNaN = true) (y : Float) : (x * y).isNaN = true := by
  apply isNaN_of_unpacked
  show UnpackedFloat.mul _ x.toModel.unpack y.toModel.unpack = _
  rw [isNaN_iff.1 h]
  rfl

theorem mul_nan (x : Float) (h : y.isNaN = true) : (x * y).isNaN = true := by
  apply isNaN_of_unpacked
  show UnpackedFloat.mul _ x.toModel.unpack y.toModel.unpack = _
  rw [isNaN_iff.1 h]
  cases x.toModel.unpack <;> rfl

theorem nan_add (h : x.isNaN = true) (y : Float) : (x + y).isNaN = true := by
  apply isNaN_of_unpacked
  show UnpackedFloat.add _ x.toModel.unpack y.toModel.unpack = _
  rw [isNaN_iff.1 h]
  rfl

theorem add_nan (x : Float) (h : y.isNaN = true) : (x + y).isNaN = true := by
  apply isNaN_of_unpacked
  show UnpackedFloat.add _ x.toModel.unpack y.toModel.unpack = _
  rw [isNaN_iff.1 h]
  cases x.toModel.unpack with
  | infinity s => cases s <;> rfl
  | notANumber | zero | finite => rfl

theorem nan_sub (h : x.isNaN = true) (y : Float) : (x - y).isNaN = true := by
  apply isNaN_of_unpacked
  show UnpackedFloat.sub _ x.toModel.unpack y.toModel.unpack = _
  rw [isNaN_iff.1 h]
  rfl

theorem sub_nan (x : Float) (h : y.isNaN = true) : (x - y).isNaN = true := by
  apply isNaN_of_unpacked
  show UnpackedFloat.sub _ x.toModel.unpack y.toModel.unpack = _
  rw [isNaN_iff.1 h]
  cases x.toModel.unpack with
  | infinity s => cases s <;> rfl
  | notANumber | zero | finite => rfl

theorem nan_div (h : x.isNaN = true) (y : Float) : (x / y).isNaN = true := by
  apply isNaN_of_unpacked
  show UnpackedFloat.div _ x.toModel.unpack y.toModel.unpack = _
  rw [isNaN_iff.1 h]
  rfl

theorem div_nan (x : Float) (h : y.isNaN = true) : (x / y).isNaN = true := by
  apply isNaN_of_unpacked
  show UnpackedFloat.div _ x.toModel.unpack y.toModel.unpack = _
  rw [isNaN_iff.1 h]
  cases x.toModel.unpack <;> rfl

theorem nan_sqrt (h : x.isNaN = true) : x.sqrt.isNaN = true := by
  apply isNaN_of_unpacked
  show UnpackedFloat.sqrt _ x.toModel.unpack = _
  rw [isNaN_iff.1 h]
  rfl

theorem not_isFinite_of_isNaN (h : x.isNaN = true) : x.isFinite = false := by
  rw [Bool.eq_false_iff]
  intro hfinite
  rw [isNaN_of_isFinite hfinite] at h
  cases h

theorem nan_fusedMulAdd (h : x.isNaN = true) (y z : Float) : (fusedMulAdd x y z).isNaN = true := by
  unfold fusedMulAdd
  rw [not_isFinite_of_isNaN h]
  exact nan_add (nan_mul h y) z

theorem fusedMulAdd_nan (x y : Float) (h : z.isNaN = true) : (fusedMulAdd x y z).isNaN = true := by
  unfold fusedMulAdd
  rw [not_isFinite_of_isNaN h]
  split
  · exact h
  · exact add_nan _ h

/-- What is not a number is not at least anything. -/
theorem not_le_nan (h : y.isNaN = true) : ¬x ≤ y := fun hle => by
  rw [(number_of_le hle).2] at h
  cases h

theorem sub_self (hx : x.isFinite = true) : x - x = 0.0 := by
  have hzero : UnpackedFloat.sub Format.binary64 x.toModel.unpack x.toModel.unpack =
      .zero .positive := by
    obtain ⟨s, hunpack⟩ | ⟨s, m, e, hm, hunpack⟩ := finite_cases hx
    · rw [hunpack]
      cases s <;> rfl
    · rw [hunpack]
      have hcancel (n : Int) (k : Int) :
          UnpackedFloat.normalize Format.binary64 (n - n) k .positive = .zero .positive := by
        rw [Int.sub_self]
        rfl
      exact hcancel _ _
  show Float.ofModel (Float.Model.pack
    (UnpackedFloat.sub Format.binary64 x.toModel.unpack x.toModel.unpack)) = _
  rw [hzero]
  decide +kernel

theorem infinite_sub_self (hnumber : x.isNaN = false) (hx : x.isFinite = false) :
    (x - x).isNaN = true := by
  apply isNaN_of_unpacked
  show UnpackedFloat.sub _ x.toModel.unpack x.toModel.unpack = _
  rw [isNaN_eq] at hnumber
  change x.toModel.unpack.isFinite = false at hx
  cases hunpack : x.toModel.unpack with
  | infinity s => cases s <;> rfl
  | notANumber =>
    rw [hunpack] at hnumber
    cases hnumber
  | zero | finite =>
    rw [hunpack] at hx
    cases hx

/-- A difference with itself is zero or not a number. -/
theorem sub_self_cases (x : Float) : x - x = 0.0 ∨ (x - x).isNaN = true := by
  cases hfinite : x.isFinite with
  | true => exact .inl (sub_self hfinite)
  | false =>
    cases hnan : x.isNaN with
    | true => exact .inr (nan_sub hnan x)
    | false => exact .inr (infinite_sub_self hnan hfinite)

end Binary64

end FlagCombat
