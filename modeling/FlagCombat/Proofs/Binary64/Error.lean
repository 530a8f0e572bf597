import FlagCombat.Proofs.Binary64.Relative

/-!
The error of one rounding. A real number of at most `2 ^ 1023` has numbers that a word can hold
within one part in `2 ^ 52` and the least number above zero, on either side.
-/

namespace FlagCombat

namespace Binary64

variable {q r u : ℝ}

/-- A real number counts fewer units than a mantissa holds, and the unit is small against it unless
it is the least one. -/
theorem exists_unit (hmost : u < power 1023) :
    ∃ e : ℤ, -1074 ≤ e ∧ e ≤ 970 ∧ u < (2 ^ 53 : ℕ) * power e ∧
      (e = -1074 ∨ power e ≤ power (-52) * u) := by
  rw [Nat.cast_pow, Nat.cast_two]
  obtain hsmall | hlarge := lt_or_ge u (power (-1021))
  · refine ⟨-1074, le_rfl, by norm_num, ?_, .inl rfl⟩
    rwa [show (-1021 : ℤ) = (53 : ℕ) + -1074 by norm_num, power_add, power_natCast] at hsmall
  · obtain ⟨n, hn, hn'⟩ := exists_mem_Ico_zpow ((power_pos _).trans_le hlarge) one_lt_two
    have hlow := (zpow_lt_zpow_iff_right₀ (one_lt_two (α := ℝ))).1 (hlarge.trans_lt hn')
    have hhigh := (zpow_lt_zpow_iff_right₀ (one_lt_two (α := ℝ))).1 (hn.trans_lt hmost)
    refine ⟨n - 52, by omega, by omega, ?_, .inr ?_⟩
    · rw [← power_natCast 53, ← power_add]
      exact hn'.trans_eq (congrArg power (by push_cast; ring))
    · rw [sub_eq_neg_add, power_add]
      exact mul_le_mul_of_nonneg_left hn (power_pos _).le

theorem unit_le {e : ℤ} (hu : 0 ≤ u) (h : e = -1074 ∨ power e ≤ power (-52) * u) :
    power e ≤ power (-52) * u + power (-1074) := by
  have hpart := mul_nonneg (power_pos (-52)).le hu
  have hleast := power_pos (-1074)
  obtain rfl | h := h
  · linarith
  · linarith

/-- A full mantissa and one more unit is a power of two. -/
theorem representable_units {n : ℕ} {e : ℤ} (hn : n ≤ 2 ^ 53) (hlow : -1074 ≤ e) (hhigh : e ≤ 970) :
    Representable (n * power e) := by
  obtain hless | rfl := Nat.lt_or_eq_of_le hn
  · exact representable_natCast_mul n e hless hlow (by omega)
  · rw [Nat.cast_pow, Nat.cast_two, ← power_natCast, ← power_add]
    exact representable_power (by push_cast; omega) (by push_cast; omega)

theorem exists_near_above (hu : 0 ≤ u) (hmost : u ≤ power 1023) :
    ∃ f, Representable f ∧ u ≤ f ∧ f ≤ (1 + power (-52)) * u + power (-1074) := by
  obtain hless | rfl := lt_or_eq_of_le hmost
  · obtain ⟨e, hlow, hhigh, hfew, hunit⟩ := exists_unit hless
    have hpos := power_pos e
    have hceil : (⌈u / power e⌉₊ : ℝ) < u / power e + 1 :=
      Nat.ceil_lt_add_one (div_nonneg hu hpos.le)
    have hcount : ⌈u / power e⌉₊ ≤ 2 ^ 53 :=
      Nat.ceil_le.2 ((div_lt_iff₀ hpos).2 hfew).le
    refine ⟨⌈u / power e⌉₊ * power e, representable_units hcount hlow hhigh,
      (div_le_iff₀ hpos).1 (Nat.le_ceil _), ?_⟩
    have hnext := mul_lt_mul_of_pos_right hceil hpos
    rw [add_mul, div_mul_cancel₀ _ hpos.ne'] at hnext
    linarith [unit_le hu hunit]
  · refine ⟨_, representable_power (by norm_num) le_rfl, le_rfl, ?_⟩
    linarith [mul_nonneg (power_pos (-52)).le hu, power_pos (-1074)]

theorem exists_near_below (hu : 0 ≤ u) (hmost : u ≤ power 1023) :
    ∃ f, Representable f ∧ (1 - power (-52)) * u - power (-1074) ≤ f ∧ f ≤ u := by
  obtain hless | rfl := lt_or_eq_of_le hmost
  · obtain ⟨e, hlow, hhigh, hfew, hunit⟩ := exists_unit hless
    have hpos := power_pos e
    have hfloor : (⌊u / power e⌋₊ : ℝ) ≤ u / power e := Nat.floor_le (div_nonneg hu hpos.le)
    have hcount : ⌊u / power e⌋₊ ≤ 2 ^ 53 :=
      Nat.cast_le.1 (hfloor.trans ((div_lt_iff₀ hpos).2 hfew).le)
    refine ⟨⌊u / power e⌋₊ * power e, representable_units hcount hlow hhigh, ?_,
      (le_div_iff₀ hpos).1 hfloor⟩
    have hnext := mul_lt_mul_of_pos_right (Nat.lt_floor_add_one (u / power e)) hpos
    rw [add_mul, div_mul_cancel₀ _ hpos.ne'] at hnext
    linarith [unit_le hu hunit]
  · refine ⟨_, representable_power (by norm_num) le_rfl, ?_, le_rfl⟩
    linarith [mul_nonneg (power_pos (-52)).le hu, power_pos (-1074)]

/-- How far a rounded number is from what is rounded. -/
theorem Neighbours.near (h : Neighbours q r) (hq : 0 ≤ q) (hmost : q ≤ power 1023) :
    (1 - power (-52)) * q - power (-1074) ≤ r ∧ r ≤ (1 + power (-52)) * q + power (-1074) := by
  obtain ⟨f, hf, habove, hnear⟩ := exists_near_above hq hmost
  obtain ⟨g, hg, hnear', hbelow⟩ := exists_near_below hq hmost
  exact ⟨hnear'.trans (h.ge_of_ge hg hbelow), (h.le_of_le hf habove).trans hnear⟩

end Binary64

end FlagCombat
