import FlagCombat.Random.Draw
import FlagCombat.Agent.Identity
import Mathlib.Data.List.Nodup
import Mathlib.Data.List.Perm.Subperm

/-!
What a draw can give. A whole number is drawn below its bound, and an element is drawn of every list
that has one.
-/

namespace FlagCombat

namespace Generator

/-- The high part of a product is raised only if it is not the last number below the bound. -/
theorem scaled_lt {size n : Nat} {draw : Generator → Nat × Generator}
    (hdraw : ∀ g, (draw g).1 < size) (hn : 0 < n) (hsize : n ≤ size) (g : Generator) :
    (scaled size draw n g).1 < n := by
  have hw := hdraw g
  have hhigh : (draw g).1 * n / size < n :=
    Nat.div_lt_of_lt_mul (Nat.mul_lt_mul_of_pos_right hw hn)
  unfold scaled
  dsimp only
  split
  · rename_i hlow
    have hlast : (draw g).1 * n / size ≠ n - 1 := by
      intro heq
      have hsplit := Nat.div_add_mod' ((draw g).1 * n) size
      have hmost : (draw g).1 * n ≤ (size - 1) * n := Nat.mul_le_mul_right n (by omega)
      rw [Nat.sub_mul, Nat.one_mul] at hmost
      rw [heq, Nat.sub_mul, Nat.one_mul] at hsplit
      have hcomm := Nat.mul_comm n size
      have hleast : size ≤ size * n := Nat.le_mul_of_pos_right size hn
      omega
    dsimp only
    split
    · omega
    · exact hhigh
  · exact hhigh

theorem below32_lt {n : Nat} (hn : 0 < n) (hsize : n ≤ UInt32.size) (g : Generator) :
    (below32 n g).1 < n :=
  scaled_lt (fun g => g.word32.1.toNat_lt) hn hsize g

theorem below64_lt {n : Nat} (hn : 0 < n) (hsize : n ≤ UInt64.size) (g : Generator) :
    (below64 n g).1 < n :=
  scaled_lt (fun g => g.word64.1.toNat_lt) hn hsize g

/-- A list that has an element, and no more than a word can count, has one drawn. -/
theorem exists_choose? {α : Type} {xs : List α} (hne : xs ≠ []) (hlength : xs.length ≤ UInt32.size)
    (g : Generator) : ∃ x ∈ xs, (g.choose? xs).1 = some x := by
  have hlt := below32_lt (List.length_pos_iff.2 hne) hlength g
  refine ⟨xs[(below32 xs.length g).1], List.getElem_mem hlt, ?_⟩
  unfold choose?
  rw [if_neg (by simpa using hne)]
  exact List.getElem?_eq_getElem hlt

end Generator

/-- There are no more agents than ids. -/
theorem AgentId.length_le {ids : List AgentId} (h : ids.Nodup) : ids.length ≤ UInt32.size := by
  have hinj : Function.Injective fun id : AgentId => id.value.toNat := fun _ _ => ext_toNat
  have hsub : ids.map (fun id => id.value.toNat) ⊆ List.range UInt32.size := fun n hn => by
    obtain ⟨id, -, rfl⟩ := List.mem_map.1 hn
    exact List.mem_range.2 id.value.toNat_lt
  have hperm := List.subperm_of_subset (List.Nodup.map hinj h) hsub
  simpa only [List.length_map, List.length_range] using hperm.length_le

end FlagCombat
