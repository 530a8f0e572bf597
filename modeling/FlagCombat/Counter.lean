/-!
Counters of a fixed width that stay at their largest value instead of wrapping.
-/

namespace FlagCombat

/-- The sum, or the largest 32-bit number if the sum is larger. -/
def addCapped32 (a b : UInt32) : UInt32 :=
  if a.toNat + b.toNat < UInt32.size then a + b else 0xffffffff

/-- The sum, or the largest 64-bit number if the sum is larger. -/
def addCapped64 (a b : UInt64) : UInt64 :=
  if a.toNat + b.toNat < UInt64.size then a + b else 0xffffffffffffffff

theorem toNat_addCapped32 (a b : UInt32) :
    (addCapped32 a b).toNat = min (a.toNat + b.toNat) (UInt32.size - 1) := by
  unfold addCapped32
  split <;> simp [UInt32.toNat_add, UInt32.size] at * <;> omega

theorem toNat_addCapped64 (a b : UInt64) :
    (addCapped64 a b).toNat = min (a.toNat + b.toNat) (UInt64.size - 1) := by
  unfold addCapped64
  split <;> simp [UInt64.toNat_add, UInt64.size] at * <;> omega

end FlagCombat
