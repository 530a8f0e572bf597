import FlagCombat.Binary64.Scaled

/-!
Decimal digits of a positive number `mantissa * 2 ^ exponent`. `significant` rounds to a given count
of digits; `shortest` takes the fewest digits that still read back as the same binary64 number. Both
compare exact whole numbers, so neither depends on how a platform prints. A number halfway between
two candidates goes where a `Tie` says.
-/

namespace FlagCombat

/-- The number `digits * 10 ^ exponent`. -/
structure Decimal where
  digits : Nat
  exponent : Int
deriving DecidableEq, Repr

namespace Decimal

/-- Where a number halfway between two candidates goes. -/
inductive Tie where
  | toEven
  | up
deriving DecidableEq, Repr

/-- `a / b` rounded to the nearest whole number. -/
def divNearest (tie : Tie) (a b : Nat) : Nat :=
  let quotient := a / b
  match compare (2 * (a % b)) b with
  | .lt => quotient
  | .eq => match tie with
    | .toEven => quotient + quotient % 2
    | .up => quotient + 1
  | .gt => quotient + 1

/-- `m * 2 ^ e * 10 ^ k` as a fraction of whole numbers. -/
def ratio (m : Nat) (e k : Int) : Nat × Nat :=
  ((m * Nat.pow 10 k.toNat) <<< e.toNat, Nat.pow 10 (-k).toNat <<< (-e).toNat)

/-- Whether `m * 2 ^ e` is at least `10 ^ k`. -/
def atLeastPower (m : Nat) (e k : Int) : Bool :=
  let (a, b) := ratio m e (-k)
  b ≤ a

/-- The exponent `k` of the leading digit of `m * 2 ^ e`: `10 ^ k ≤ m * 2 ^ e < 10 ^ (k + 1)`. The
guess from the binary logarithm is off by at most one. -/
def leadingExponent (m : Nat) (e : Int) : Int :=
  let guess := (m.log2 + e) * 30103 / 100000
  if !atLeastPower m e guess then guess - 1
  else if atLeastPower m e (guess + 1) then guess + 1
  else guess

/-- `m * 2 ^ e` rounded to `count` significant digits, a tie to the even digit. -/
def significant (count m : Nat) (e : Int) : Decimal :=
  let unit := leadingExponent m e + 1 - count
  let (a, b) := ratio m e (-unit)
  ⟨divNearest .toEven a b, unit⟩

/-- Whether the decimal reads back as the binary64 number `m * 2 ^ e`: it lies between the midpoints
to the neighbours, or on one of them if `m` is even. -/
def readsBack (d : Decimal) (m : Nat) (e : Int) : Bool :=
  let below : Nat := if m = 0x10000000000000 ∧ -1074 < e then 1 else 2
  let (a, b) := ratio d.digits (2 - e) d.exponent
  let low := (4 * m - below) * b
  let high := (4 * m + 2) * b
  if m % 2 = 0 then low ≤ a && a ≤ high else low < a && a < high

/-- The neighbour of `m * 2 ^ e` on the grid of `count` significant digits that reads back, the
nearer one if both do. -/
def onGrid? (tie : Tie) (count m : Nat) (e : Int) : Option Decimal :=
  let unit := leadingExponent m e + 1 - count
  let (a, b) := ratio m e (-unit)
  let nearest := divNearest tie a b
  let other := if nearest * b ≤ a then nearest + 1 else nearest - 1
  [nearest, other].map (⟨·, unit⟩) |>.find? (readsBack · m e)

def dropZeros : Nat → Decimal → Decimal
  | 0, d => d
  | fuel + 1, d =>
    if d.digits % 10 = 0 ∧ d.digits ≠ 0 then dropZeros fuel ⟨d.digits / 10, d.exponent + 1⟩ else d

/-- The fewest digits that read back as `m * 2 ^ e`; seventeen always do. -/
def shortest (tie : Tie) (m : Nat) (e : Int) : Decimal :=
  let found := (List.range 17).findSome? fun count => onGrid? tie (count + 1) m e
  dropZeros 17 (found.getD (significant 17 m e))

/-- The binary64 number nearest to the decimal. -/
def toFloat (d : Decimal) : Float := Float.ofScientific d.digits (d.exponent < 0) d.exponent.natAbs

end Decimal

end FlagCombat
