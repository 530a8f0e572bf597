import FlagCombat.Proofs.Binary64.Comparison
import FlagCombat.Proofs.Binary64.Error
import FlagCombat.Proofs.Binary64.Scaled

/-!
Words that hold whole numbers, and words that come near to real numbers. An operation on whole
numbers is exact as long as its result has at most 53 bits; an operation on words that are near to
real numbers is near to what it would be for those, by errors that add up. Both are told by a bound
of the size, which is taken along from operation to operation.
-/

namespace FlagCombat

namespace Binary64

variable {x y z : Float}

theorem representable_intCast {n : ℤ} (hn : |n| < 2 ^ 53) : Representable n :=
  ⟨n, 0, hn, by norm_num, by norm_num, by rw [zpow_zero, mul_one]⟩

/-- A word that holds a whole number of at most `size` to either side. -/
structure IsWhole (size : ℕ) (x : Float) (n : ℤ) : Prop where
  finite : x.isFinite = true
  value_eq : value x = n
  abs_le : |n| ≤ size

namespace IsWhole

variable {c d : ℕ} {m n k : ℤ}

theorem of_rounds {q : ℝ} (h : Rounds q z) (hq : q = n) (hn : |n| ≤ c) (hc : c < 2 ^ 53) :
    IsWhole c z n := by
  have hrepresentable : Representable q :=
    hq ▸ representable_intCast (hn.trans_lt (by exact_mod_cast hc))
  exact ⟨h.isFinite_of_representable hrepresentable, (h.exact hrepresentable).trans hq, hn⟩

theorem mono (h : IsWhole c x n) (hcd : c ≤ d) : IsWhole d x n :=
  ⟨h.finite, h.value_eq, h.abs_le.trans (Nat.cast_le.2 hcd)⟩

theorem neg (h : IsWhole c x n) : IsWhole c (-x) (-n) :=
  ⟨isFinite_neg h.finite, by rw [value_neg, h.value_eq, Int.cast_neg],
    (abs_neg n).trans_le h.abs_le⟩

theorem abs (h : IsWhole c x n) : IsWhole c x.abs |n| :=
  ⟨(isFinite_abs x).trans h.finite, by rw [value_abs, h.value_eq, Int.cast_abs],
    by rw [abs_abs]; exact h.abs_le⟩

theorem add (hx : IsWhole c x m) (hy : IsWhole d y n) (hcd : c + d < 2 ^ 53) :
    IsWhole (c + d) (x + y) (m + n) := by
  refine of_rounds (rounds_add hx.finite hy.finite) ?_ ?_ hcd
  · rw [hx.value_eq, hy.value_eq, Int.cast_add]
  · exact (abs_add_le m n).trans (by exact_mod_cast add_le_add hx.abs_le hy.abs_le)

theorem sub (hx : IsWhole c x m) (hy : IsWhole d y n) (hcd : c + d < 2 ^ 53) :
    IsWhole (c + d) (x - y) (m - n) := by
  rw [sub_eq, sub_eq_add_neg]
  exact hx.add hy.neg hcd

theorem mul (hx : IsWhole c x m) (hy : IsWhole d y n) (hcd : c * d < 2 ^ 53) :
    IsWhole (c * d) (x * y) (m * n) := by
  refine of_rounds (rounds_mul hx.finite hy.finite) ?_ ?_ hcd
  · rw [hx.value_eq, hy.value_eq, Int.cast_mul]
  · rw [abs_mul, Nat.cast_mul]
    exact mul_le_mul hx.abs_le hy.abs_le (abs_nonneg n) (Nat.cast_nonneg c)

theorem fusedMulAdd {e : ℕ} (hx : IsWhole c x m) (hy : IsWhole d y n) (hz : IsWhole e z k)
    (hcde : c * d + e < 2 ^ 53) : IsWhole (c * d + e) (fusedMulAdd x y z) (m * n + k) := by
  refine of_rounds (rounds_fusedMulAdd hx.finite hy.finite hz.finite) ?_ ?_ hcde
  · rw [hx.value_eq, hy.value_eq, hz.value_eq]
    push_cast
    rfl
  · refine (abs_add_le _ _).trans ?_
    rw [abs_mul]
    push_cast
    exact add_le_add (mul_le_mul hx.abs_le hy.abs_le (abs_nonneg n) (Nat.cast_nonneg c)) hz.abs_le

/-- The root of a square is exact. -/
theorem sqrt (hx : IsWhole c x (n * n)) (hn : 0 ≤ n) (hnd : n ≤ d) (hd : d < 2 ^ 53) :
    IsWhole d x.sqrt n := by
  have hsquare : value x = (n : ℝ) * n := by rw [hx.value_eq, Int.cast_mul]
  refine of_rounds (rounds_sqrt hx.finite ?_) ?_ ((abs_of_nonneg hn).trans_le hnd) hd
  · rw [hsquare]
    exact mul_self_nonneg _
  · rw [hsquare, Real.sqrt_mul_self (Int.cast_nonneg hn)]

theorem le_iff (hx : IsWhole c x m) (hy : IsWhole d y n) : x ≤ y ↔ m ≤ n := by
  rw [le_iff_value (isNaN_of_isFinite hx.finite) (isNaN_of_isFinite hy.finite), hx.value_eq,
    hy.value_eq, Int.cast_le]

theorem lt_iff (hx : IsWhole c x m) (hy : IsWhole d y n) : x < y ↔ m < n := by
  rw [lt_iff_value (isNaN_of_isFinite hx.finite) (isNaN_of_isFinite hy.finite), hx.value_eq,
    hy.value_eq, Int.cast_lt]

end IsWhole

theorem isWhole_zero : IsWhole 0 0.0 0 := ⟨by decide +kernel, by simp [value_zero], by simp⟩

/-- A word for a whole number, by the mantissa that it has. -/
theorem isWhole_of_unpack {n k : ℕ} {hm : 0 < n * 2 ^ k}
    (h : x.toModel.unpack = .finite .positive (n * 2 ^ k) (-k) hm) : IsWhole n x n := by
  refine ⟨?_, ?_, by rw [Nat.abs_cast]⟩
  · show x.toModel.unpack.isFinite = true
    rw [h]
    rfl
  · rw [value_positive hm h, power, zpow_neg, zpow_natCast, Nat.cast_mul, Nat.cast_pow,
      Nat.cast_two, mul_inv_cancel_right₀ (by positivity), Int.cast_natCast]

theorem isWhole_two : IsWhole 2 2.0 2 := isWhole_of_unpack (k := 51) rfl

theorem isWhole_four : IsWhole 4 4.0 4 := isWhole_of_unpack (k := 50) rfl

/-- A number that is rounded once is off by at most one part in `2 ^ 51` of a size that is neither
small nor excessive. -/
theorem Rounds.error {q c : ℝ} (h : Rounds q z) (hq : |q| ≤ c) (hlow : 1 ≤ c) (hhigh : c ≤ 2 ^ 60) :
    z.isFinite = true ∧ |value z - q| ≤ c / 2 ^ 51 := by
  have hmost : c ≤ power 1023 := by
    rw [← power_natCast 60] at hhigh
    exact hhigh.trans (power_le_power (by norm_num))
  have hpart : power (-52) = 1 / 2 ^ 52 := by
    unfold power
    norm_num
  have hleast : power (-1074) ≤ 1 / 2 ^ 52 * c := by
    rw [← hpart]
    exact (power_le_power (by norm_num)).trans (le_mul_of_one_le_right (power_pos _).le hlow)
  have hnear {q r : ℝ} (h : Neighbours q r) (h0 : 0 ≤ q) (hq : q ≤ c) : |r - q| ≤ c / 2 ^ 51 := by
    obtain ⟨hbelow, habove⟩ := h.near h0 (hq.trans hmost)
    rw [hpart] at hbelow habove
    exact abs_le.2 ⟨by linarith, by linarith⟩
  refine ⟨h.isFinite (representable_power (k := 1023) (by norm_num) le_rfl) (hq.trans hmost), ?_⟩
  obtain ⟨hqlow, hqhigh⟩ := abs_le.1 hq
  obtain hpos | hneg := le_total 0 q
  · exact hnear h.toNeighbours hpos hqhigh
  · have hmirror := hnear h.toNeighbours.neg (neg_nonneg.2 hneg) (by linarith)
    rwa [neg_sub_neg, abs_sub_comm] at hmirror

/-- A word near to a real number: within `error` of one that is at most `size` to either side. -/
structure Tracks (size error : ℝ) (x : Float) (q : ℝ) : Prop where
  finite : x.isFinite = true
  abs_le : |q| ≤ size
  near : |value x - q| ≤ error

/-- The room for one more rounding, of a number that is already off by an error. -/
structure Room (size error error' : ℝ) : Prop where
  low : 1 ≤ size
  high : size + error ≤ 2 ^ 60
  room : error + (size + error) / 2 ^ 51 ≤ error'

theorem Tracks.of_rounds {q q' size error error' : ℝ} (h : Rounds q z) (hq' : |q'| ≤ size)
    (hnear : |q - q'| ≤ error) (hroom : Room size error error') : Tracks size error' z q' := by
  obtain ⟨hlow, hhigh, hroom⟩ := hroom
  have herror : 0 ≤ error := (abs_nonneg _).trans hnear
  have hq : |q| ≤ size + error := by
    have := abs_add_le (q - q') q'
    rw [sub_add_cancel] at this
    linarith
  obtain ⟨hfinite, hrounded⟩ := h.error hq (by linarith) hhigh
  refine ⟨hfinite, hq', ?_⟩
  calc |value z - q'| ≤ |value z - q| + |q - q'| := abs_sub_le _ _ _
    _ ≤ error' := by linarith

section Operations

variable {c d e f : ℝ} {q r : ℝ}

theorem IsWhole.tracks {size : ℕ} {n : ℤ} (h : IsWhole size x n) : Tracks size 0 x n := by
  refine ⟨h.finite, ?_, ?_⟩
  · exact_mod_cast h.abs_le
  · rw [h.value_eq]
    simp

theorem Tracks.add (hx : Tracks c e x q) (hy : Tracks d f y r) {g : ℝ}
    (hroom : Room (c + d) (e + f) g) : Tracks (c + d) g (x + y) (q + r) := by
  refine .of_rounds (rounds_add hx.finite hy.finite) ?_ ?_ hroom
  · exact (abs_add_le q r).trans (add_le_add hx.abs_le hy.abs_le)
  · rw [add_sub_add_comm]
    exact (abs_add_le _ _).trans (add_le_add hx.near hy.near)

theorem Tracks.sub (hx : Tracks c e x q) (hy : Tracks d f y r) {g : ℝ}
    (hroom : Room (c + d) (e + f) g) : Tracks (c + d) g (x - y) (q - r) := by
  have hneg : Tracks d f (-y) (-r) := by
    refine ⟨isFinite_neg hy.finite, by rw [abs_neg]; exact hy.abs_le, ?_⟩
    rw [value_neg, neg_sub_neg, abs_sub_comm]
    exact hy.near
  rw [sub_eq, sub_eq_add_neg]
  exact hx.add hneg hroom

theorem Tracks.mul (hx : Tracks c e x q) (hy : Tracks d f y r) {g : ℝ}
    (hroom : Room (c * d) (c * f + d * e + e * f) g) : Tracks (c * d) g (x * y) (q * r) := by
  have hc : 0 ≤ c := (abs_nonneg q).trans hx.abs_le
  have he : 0 ≤ e := (abs_nonneg _).trans hx.near
  refine .of_rounds (rounds_mul hx.finite hy.finite) ?_ ?_ hroom
  · rw [abs_mul]
    exact mul_le_mul hx.abs_le hy.abs_le (abs_nonneg r) hc
  · have hsplit : value x * value y - q * r =
        q * (value y - r) + (value x - q) * r + (value x - q) * (value y - r) := by ring
    rw [hsplit]
    refine (abs_add_three _ _ _).trans ?_
    rw [abs_mul, abs_mul, abs_mul]
    have h₁ := mul_le_mul hx.abs_le hy.near (abs_nonneg _) hc
    have h₂ := mul_le_mul hx.near hy.abs_le (abs_nonneg _) he
    have h₃ := mul_le_mul hx.near hy.near (abs_nonneg _) he
    linarith

end Operations

end Binary64

end FlagCombat
