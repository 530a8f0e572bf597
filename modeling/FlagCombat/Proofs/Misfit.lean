import FlagCombat.Feature
import FlagCombat.Proofs.Binary64.Order

/-!
Vectors that do not fit a shape. The fault that is found is the length, or else the first value that
its interval excludes.
-/

namespace FlagCombat

namespace Interval

/-- No number, or a number beyond an end. -/
def Excludes (b : Interval) (x : Float) : Prop := x.isNaN = true ∨ ¬(b.low ≤ x ∧ x ≤ b.high)

theorem contains_iff (b : Interval) (x : Float) : b.contains x = true ↔ b.low ≤ x ∧ x ≤ b.high := by
  unfold contains
  rw [Bool.and_eq_true, decide_eq_true_iff, decide_eq_true_iff]

theorem contains_iff_not_excludes (b : Interval) (x : Float) :
    b.contains x = true ↔ ¬b.Excludes x := by
  rw [contains_iff]
  constructor
  · rintro hx (hnan | hout)
    · rw [(Binary64.number_of_le hx.1).2] at hnan
      cases hnan
    · exact hout hx
  · intro hx
    exact Decidable.not_not.1 fun hout => hx (.inr hout)

end Interval

namespace Shape

/-- What is wrong with a vector of some shape. -/
inductive Misfit (s : Shape) (values : List Float) : Violation → Prop
  | length (h : values.length ≠ s.length) : Misfit s values (.length s.length values.length)
  | outside {index : Nat} {x : Float} {b : Interval} (hlength : values.length = s.length)
      (hx : values[index]? = some x) (hb : s.bounds[index]? = some b) (hout : b.Excludes x)
      (hleast : ∀ j < index, ∀ y c, values[j]? = some y → s.bounds[j]? = some c → ¬c.Excludes y) :
      Misfit s values (.outOfBounds index x b)

/-- The first excluded value, the slots being numbered from `start` on. -/
theorem firstOutside_eq_some_iff {start : Nat} {bounds : List Interval} {values : List Float}
    {v : Violation} :
    firstOutside start bounds values = some v ↔
      ∃ (k : Nat) (x : Float) (b : Interval), v = .outOfBounds (start + k) x b ∧
        values[k]? = some x ∧ bounds[k]? = some b ∧ b.Excludes x ∧
        ∀ j < k, ∀ y c, values[j]? = some y → bounds[j]? = some c → ¬c.Excludes y := by
  induction bounds generalizing start values with
  | nil =>
    simp [firstOutside]
  | cons b bounds ih =>
    cases values with
    | nil => simp [firstOutside]
    | cons x values =>
      unfold firstOutside
      by_cases hin : b.contains x = true
      · rw [if_pos hin, ih]
        have hkeep := (b.contains_iff_not_excludes x).1 hin
        constructor
        · rintro ⟨k, y, c, rfl, hy, hc, hout, hleast⟩
          refine ⟨k + 1, y, c, by rw [Nat.add_right_comm, Nat.add_assoc], hy, hc, hout, ?_⟩
          intro j hj z d hz hd
          cases j with
          | zero =>
            cases hz
            cases hd
            exact hkeep
          | succ j => exact hleast j (by omega) z d hz hd
        · rintro ⟨k, y, c, rfl, hy, hc, hout, hleast⟩
          cases k with
          | zero =>
            cases hy
            cases hc
            exact absurd hout hkeep
          | succ k =>
            refine ⟨k, y, c, by rw [Nat.add_right_comm, Nat.add_assoc], hy, hc, hout, ?_⟩
            intro j hj z d hz hd
            exact hleast (j + 1) (by omega) z d hz hd
      · rw [if_neg hin]
        have hout : b.Excludes x :=
          Classical.not_not.1 fun h => hin ((b.contains_iff_not_excludes x).2 h)
        constructor
        · intro hv
          cases hv
          exact ⟨0, x, b, rfl, rfl, rfl, hout, fun j hj => absurd hj (by omega)⟩
        · rintro ⟨k, y, c, rfl, hy, hc, -, hleast⟩
          cases k with
          | zero =>
            cases hy
            cases hc
            rfl
          | succ k => exact absurd hout (hleast 0 (by omega) x b rfl rfl)

theorem violation?_eq_some_iff {s : Shape} {values : List Float} {v : Violation} :
    s.violation? values = some v ↔ s.Misfit values v := by
  unfold violation?
  by_cases hlength : values.length = s.length
  · rw [if_neg (fun h => h hlength), firstOutside_eq_some_iff]
    constructor
    · rintro ⟨k, x, b, rfl, hx, hb, hout, hleast⟩
      rw [Nat.zero_add]
      exact .outside hlength hx hb hout hleast
    · rintro (h | @⟨k, x, b, -, hx, hb, hout, hleast⟩)
      · exact absurd hlength h
      · exact ⟨k, x, b, by rw [Nat.zero_add], hx, hb, hout, hleast⟩
  · rw [if_pos hlength, Option.some.injEq]
    constructor
    · rintro rfl
      exact .length hlength
    · rintro (h | ⟨h, -⟩)
      · rfl
      · exact absurd h hlength

theorem firstOutside_eq_none_iff {start : Nat} {bounds : List Interval} {values : List Float} :
    firstOutside start bounds values = none ↔
      ∀ (k : Nat) x b, values[k]? = some x → bounds[k]? = some b → b.contains x = true := by
  induction bounds generalizing start values with
  | nil => simp [firstOutside]
  | cons b bounds ih =>
    cases values with
    | nil => simp [firstOutside]
    | cons x values =>
      unfold firstOutside
      by_cases hin : b.contains x = true
      · rw [if_pos hin, ih]
        constructor
        · intro hrest k y c hy hc
          cases k with
          | zero =>
            cases hy
            cases hc
            exact hin
          | succ k => exact hrest k y c hy hc
        · exact fun hall k y c hy hc => hall (k + 1) y c hy hc
      · rw [if_neg hin]
        constructor
        · intro hv
          cases hv
        · exact fun hall => absurd (hall 0 x b rfl rfl) hin

/-- A vector fits when it has the length and every value lies in its interval. -/
theorem violation?_eq_none_iff {s : Shape} {values : List Float} :
    s.violation? values = none ↔ values.length = s.length ∧
      ∀ (k : Nat) x b, values[k]? = some x → s.bounds[k]? = some b → b.contains x = true := by
  unfold violation?
  by_cases hlength : values.length = s.length
  · rw [if_neg (fun h => h hlength), firstOutside_eq_none_iff]
    exact ⟨fun h => ⟨hlength, h⟩, fun h => h.2⟩
  · rw [if_pos hlength]
    constructor
    · intro hv
      cases hv
    · exact fun h => absurd h.1 hlength

section Uniform

/-! Shapes in which all slots have one interval, and vectors with a value for each of some items. -/

variable {α : Type} {b : Interval} {f : α → Float} {items : List α}

theorem firstOutside_map_eq_none_iff {start : Nat} :
    firstOutside start (items.map fun _ => b) (items.map f) = none ↔
      ∀ item ∈ items, b.contains (f item) = true := by
  induction items generalizing start with
  | nil => simp [firstOutside]
  | cons first rest ih =>
    by_cases hin : b.contains (f first) = true
    · simp only [List.map_cons, firstOutside, hin, if_true, ih, List.forall_mem_cons, true_and]
    · simp [firstOutside, hin]

theorem violation?_map_eq_none_iff :
    (mk (items.map fun _ => b)).violation? (items.map f) = none ↔
      ∀ item ∈ items, b.contains (f item) = true := by
  unfold violation?
  rw [if_neg (by simp [length])]
  exact firstOutside_map_eq_none_iff

/-- The fault is that of the first item whose value is excluded. -/
theorem violation?_map_eq_some_iff {v : Violation} :
    (mk (items.map fun _ => b)).violation? (items.map f) = some v ↔
      ∃ (index : Nat) (item : α), items[index]? = some item ∧
        v = .outOfBounds index (f item) b ∧ b.contains (f item) = false ∧
        ∀ j < index, ∀ other, items[j]? = some other → b.contains (f other) = true := by
  rw [violation?_eq_some_iff]
  constructor
  · rintro (hlength | @⟨index, x, c, -, hx, hc, hout, hleast⟩)
    · exact absurd (by simp [length]) hlength
    · rw [List.getElem?_map, Option.map_eq_some_iff] at hx hc
      obtain ⟨item, hitem, rfl⟩ := hx
      obtain ⟨_, -, rfl⟩ := hc
      refine ⟨index, item, hitem, rfl, ?_, fun j hj other hother => ?_⟩
      · exact Bool.eq_false_iff.2 fun hin => (b.contains_iff_not_excludes _).1 hin hout
      · refine (b.contains_iff_not_excludes _).2 (hleast j hj _ b ?_ ?_)
        · simp only [List.getElem?_map, hother, Option.map_some]
        · simp only [List.getElem?_map, hother, Option.map_some]
  · rintro ⟨index, item, hitem, rfl, hout, hleast⟩
    have hat {β : Type} (g : α → β) : (items.map g)[index]? = some (g item) := by
      simp only [List.getElem?_map, hitem, Option.map_some]
    refine .outside (by simp [length]) (hat f) (hat fun _ => b) ?_ ?_
    · by_contra hkept
      rw [(b.contains_iff_not_excludes _).2 hkept] at hout
      cases hout
    · intro j hj y c hy hc
      rw [List.getElem?_map, Option.map_eq_some_iff] at hy hc
      obtain ⟨other, hother, rfl⟩ := hy
      obtain ⟨_, -, rfl⟩ := hc
      exact (b.contains_iff_not_excludes _).1 (hleast j hj other hother)

end Uniform

end Shape

end FlagCombat
