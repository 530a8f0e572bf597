/-!
Finite binary64 numbers read as signed scaled integers, and the way back: any signed scaled integer
is rounded once, to the nearest binary64 number, and a tie goes to the even mantissa. Sums and
products of scaled integers are exact, so an operation that ends in one `toFloat` rounds exactly
once.
-/

namespace FlagCombat

/-- The number `± mantissa * 2 ^ exponent`; a zero mantissa keeps its sign. -/
structure Scaled where
  negative : Bool
  mantissa : Nat
  exponent : Int
deriving DecidableEq, Repr

namespace Scaled

/-- The sign, mantissa and exponent of a finite binary64 number; subnormal numbers have the exponent
of the smallest normal ones. -/
def ofFloat (x : Float) : Scaled :=
  let bits := x.toBits
  let biased := ((bits >>> 52) &&& 0x7ff).toNat
  let fraction := (bits &&& 0xfffffffffffff).toNat
  if biased = 0 then ⟨bits >>> 63 != 0, fraction, -1074⟩
  else ⟨bits >>> 63 != 0, fraction + 0x10000000000000, biased - 1075⟩

/-- `m / 2 ^ s` rounded to the nearest whole number, a tie to the even one. -/
def shiftRightNearest (m s : Nat) : Nat :=
  let quotient := m >>> s
  let rest := m - quotient <<< s
  match compare (2 * rest) (1 <<< s) with
  | .lt => quotient
  | .eq => quotient + quotient % 2
  | .gt => quotient + 1

/-- The exponent of the last place of the binary64 numbers about the size of `x`. -/
def unitExponent (x : Scaled) : Int :=
  max (x.mantissa.log2 + x.exponent - 52) (-1074)

/-- `x` in units of its last place, rounded to nearest even. -/
def units (x : Scaled) : Nat :=
  let unit := x.unitExponent
  if unit ≤ x.exponent then x.mantissa <<< (x.exponent - unit).toNat
  else shiftRightNearest x.mantissa (unit - x.exponent).toNat

/-- The nearest binary64 number, a tie to the even mantissa; too large a number is infinite. The
units carry into the exponent field when rounding reaches the next power of two. -/
def toFloat (x : Scaled) : Float :=
  let magnitude := ((x.unitExponent + 1074).toNat <<< 52) + x.units
  let magnitude := if magnitude < 0x7ff0000000000000 then magnitude else 0x7ff0000000000000
  let sign : UInt64 := if x.negative then 0x8000000000000000 else 0
  if x.mantissa = 0 then Float.ofBits sign else Float.ofBits (sign ||| magnitude.toUInt64)

/-- The signed whole number of units `2 ^ e` in `x`, for `e` at most the exponent of `x`. -/
def inUnits (x : Scaled) (e : Int) : Int :=
  let magnitude : Nat := x.mantissa <<< (x.exponent - e).toNat
  if x.negative then -magnitude else magnitude

/-- The exact sum; a zero sum is negative only if both terms are. -/
def add (x y : Scaled) : Scaled :=
  let e := min x.exponent y.exponent
  let sum := x.inUnits e + y.inUnits e
  if sum = 0 then ⟨x.negative && y.negative, 0, e⟩ else ⟨sum < 0, sum.natAbs, e⟩

def mul (x y : Scaled) : Scaled :=
  ⟨x.negative != y.negative, x.mantissa * y.mantissa, x.exponent + y.exponent⟩

/-- The remainder of the magnitudes, with the sign of `x`; `y` is not zero. -/
def remainder (x y : Scaled) : Scaled :=
  let e := min x.exponent y.exponent
  ⟨x.negative, (x.inUnits e).natAbs % (y.inUnits e).natAbs, e⟩

end Scaled

end FlagCombat
