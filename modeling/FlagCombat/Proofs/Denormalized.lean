import FlagCombat.Proofs.Interval

/-!
Vectors scaled back from the unit interval. The value at place one is the largest one of an interval.
It is the low end plus the length, each rounded, so it can lie beyond the high end where the length
was rounded up. The main statement says which values do, and which shapes take all vectors that are
scaled back to them.
-/

namespace FlagCombat

open Binary64

namespace Interval

variable {b : Interval} {x : Float}

/-- The value at a place is beyond the high end. This is so only where the length is rounded up to a
finite number, and then the value at place one is beyond the high end too. -/
structure Overshoots (b : Interval) (x : Float) : Prop where
  finite : b.span.isFinite = true
  rounded_up : value b.high - value b.low < value b.span
  beyond : b.high < b.ofUnit x
  le_top : b.ofUnit x ≤ b.ofUnit 1.0

namespace Proper

/-- What the interval does not contain of the values at places. -/
theorem excludes_ofUnit_iff (h : b.Proper) (hx : x.isNaN = false) :
    b.Excludes (b.ofUnit x) ↔ b.Overshoots x := by
  have hnumber := isNaN_ofUnit h.low_finite hx
  have hhigh := isNaN_of_isFinite h.high_finite
  have htop := h.ofUnit_le_top hx
  constructor
  · rintro (hnan | hout)
    · rw [hnumber] at hnan
      cases hnan
    · have hbeyond : b.high < b.ofUnit x := by
        by_contra hle
        exact hout ⟨h.low_le_ofUnit hx, (le_iff_not_lt hnumber hhigh).2 hle⟩
      have hlength : ¬(b.span.isFinite = true → value b.span ≤ value b.high - value b.low) :=
        fun hlength => not_lt_of_le_of_le htop (h.top_le_high hlength) hbeyond
      obtain ⟨hfinite, hlong⟩ := Classical.not_imp.1 hlength
      exact ⟨hfinite, not_le.1 hlong, hbeyond, htop⟩
  · exact fun hover => .inr fun hin => (le_iff_not_lt hnumber hhigh).1 hin.2 hover.beyond

end Proper

theorem Overshoots.not_top_le (hover : b.Overshoots x) : ¬b.ofUnit 1.0 ≤ b.high :=
  fun hle => not_lt_of_le_of_le hover.le_top hle hover.beyond

end Interval

namespace Shape


/-- The first of the places of a vector whose value is beyond the high end of its interval. -/
def FirstOvershoot (s : Shape) (places : List Float) (v : Violation) : Prop :=
  ∃ (index : Nat) (x : Float) (b : Interval), places[index]? = some x ∧ s.bounds[index]? = some b ∧
    v = .outOfBounds index (b.ofUnit x) b ∧ b.Overshoots x ∧
    ∀ j < index, ∀ y c, places[j]? = some y → s.bounds[j]? = some c → ¬c.Overshoots y

variable {s : Shape} {places : List Float} {v : Violation}

theorem length_denormalize (hlength : places.length = s.length) :
    (s.denormalize places).length = s.length := by
  unfold denormalize
  rw [List.length_zipWith, hlength]
  exact Nat.min_self _

theorem getElem?_denormalize_eq_some {index : Nat} {z : Float} :
    (s.denormalize places)[index]? = some z ↔
      ∃ x b, places[index]? = some x ∧ s.bounds[index]? = some b ∧ b.ofUnit x = z :=
  List.getElem?_zipWith_eq_some

/-- A vector scaled back to a shape of proper intervals does not fit for one reason only. -/
theorem violation?_denormalize_eq_some_iff (hs : ∀ b ∈ s.bounds, b.Proper)
    (hlength : places.length = s.length) (hplaces : ∀ x ∈ places, x.isNaN = false) :
    s.violation? (s.denormalize places) = some v ↔ s.FirstOvershoot places v := by
  have hexcludes {j : Nat} {x : Float} {b : Interval} (hx : places[j]? = some x)
      (hb : s.bounds[j]? = some b) : b.Excludes (b.ofUnit x) ↔ b.Overshoots x :=
    (hs b (List.mem_of_getElem? hb)).excludes_ofUnit_iff (hplaces x (List.mem_of_getElem? hx))
  rw [violation?_eq_some_iff]
  constructor
  · rintro (hwrong | @⟨index, z, b, -, hz, hb, hout, hleast⟩)
    · exact absurd (length_denormalize hlength) hwrong
    · obtain ⟨x, c, hx, hc, rfl⟩ := getElem?_denormalize_eq_some.1 hz
      obtain rfl : b = c := Option.some.inj (hb.symm.trans hc)
      refine ⟨index, x, b, hx, hb, rfl, (hexcludes hx hb).1 hout, fun j hj y d hy hd hover => ?_⟩
      exact hleast j hj _ d (getElem?_denormalize_eq_some.2 ⟨y, d, hy, hd, rfl⟩) hd
        ((hexcludes hy hd).2 hover)
  · rintro ⟨index, x, b, hx, hb, rfl, hover, hleast⟩
    refine .outside (length_denormalize hlength)
      (getElem?_denormalize_eq_some.2 ⟨x, b, hx, hb, rfl⟩) hb ((hexcludes hx hb).2 hover) ?_
    intro j hj z d hz hd hout
    obtain ⟨y, c, hy, hc, rfl⟩ := getElem?_denormalize_eq_some.1 hz
    obtain rfl : d = c := Option.some.inj (hd.symm.trans hc)
    exact hleast j hj y d hy hd ((hexcludes hy hd).1 hout)

/-- Vectors scaled back to a shape of proper intervals fit, but for values beyond a high end; and
all of them fit if and only if place one stays inside every interval, as it does where no length is
rounded up. -/
theorem denormalize_fits_iff (hs : ∀ b ∈ s.bounds, b.Proper) :
    (∀ places : List Float, places.length = s.length → (∀ x ∈ places, x.isNaN = false) →
      ∀ v, s.violation? (s.denormalize places) = some v ↔ s.FirstOvershoot places v) ∧
    ((∀ places : List Float, places.length = s.length → (∀ x ∈ places, x.isNaN = false) →
      s.violation? (s.denormalize places) = none) ↔ ∀ b ∈ s.bounds, b.ofUnit 1.0 ≤ b.high) ∧
    ∀ b ∈ s.bounds, (b.span.isFinite = true → value b.span ≤ value b.high - value b.low) →
      b.ofUnit 1.0 ≤ b.high := by
  refine ⟨fun places hlength hplaces v => violation?_denormalize_eq_some_iff hs hlength hplaces,
    ⟨fun hfits => ?_, fun htop places hlength hplaces => ?_⟩, fun b hb => (hs b hb).top_le_high⟩
  · intro b hb
    obtain ⟨index, hindex⟩ := List.mem_iff_getElem?.1 hb
    have hnone := hfits (s.bounds.map fun _ => 1.0) (List.length_map _) fun x hx => by
      obtain ⟨-, -, rfl⟩ := List.mem_map.1 hx
      decide +kernel
    have hplace : (s.bounds.map fun _ => (1.0 : Float))[index]? = some 1.0 := by
      rw [List.getElem?_map, hindex]
      rfl
    have hin := (violation?_eq_none_iff.1 hnone).2 index _ b
      (getElem?_denormalize_eq_some.2 ⟨1.0, b, hplace, hindex, rfl⟩) hindex
    exact ((b.contains_iff _).1 hin).2
  · rw [Option.eq_none_iff_forall_ne_some]
    intro v hv
    obtain ⟨index, x, b, hx, hb, -, hover, -⟩ :=
      (violation?_denormalize_eq_some_iff hs hlength hplaces).1 hv
    exact hover.not_top_le (htop b (List.mem_of_getElem? hb))

/-- The length from `-1e16` to `1.5` is rounded up to `1e16 + 2`, so place one has the value two. -/
theorem denormalize_fits_iff_wide :
    (∀ b ∈ (Shape.mk [⟨-1e16, 1.5⟩]).bounds, b.Proper) ∧
      (Shape.mk [⟨-1e16, 1.5⟩]).violation? ((Shape.mk [⟨-1e16, 1.5⟩]).denormalize [1.0]) =
        some (.outOfBounds 0 2.0 ⟨-1e16, 1.5⟩) ∧
      (Shape.mk [⟨-1e16, 1.5⟩]).FirstOvershoot [1.0] (.outOfBounds 0 2.0 ⟨-1e16, 1.5⟩) ∧
      ¬∀ places : List Float, places.length = 1 → (∀ x ∈ places, x.isNaN = false) →
        (Shape.mk [⟨-1e16, 1.5⟩]).violation? ((Shape.mk [⟨-1e16, 1.5⟩]).denormalize places) =
          none := by
  have hproper : ∀ b ∈ (Shape.mk [⟨-1e16, 1.5⟩]).bounds, b.Proper := by
    intro b hb
    obtain rfl := List.mem_singleton.1 hb
    exact ⟨by decide +kernel, by decide +kernel, by decide +kernel⟩
  have hviolation : (Shape.mk [⟨-1e16, 1.5⟩]).violation?
      ((Shape.mk [⟨-1e16, 1.5⟩]).denormalize [1.0]) = some (.outOfBounds 0 2.0 ⟨-1e16, 1.5⟩) := by
    decide +kernel
  obtain ⟨hcause, hall, -⟩ := denormalize_fits_iff hproper
  refine ⟨hproper, hviolation, (hcause [1.0] rfl ?_ _).1 hviolation, fun hfits => ?_⟩
  · intro x hx
    obtain rfl := List.mem_singleton.1 hx
    decide +kernel
  · have htop := hall.1 hfits ⟨-1e16, 1.5⟩ List.mem_cons_self
    revert htop
    decide +kernel

end Shape

end FlagCombat
