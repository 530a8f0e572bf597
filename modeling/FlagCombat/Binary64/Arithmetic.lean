import FlagCombat.Binary64.Scaled
import FlagCombat.Binary64.Word

/-!
Operations on binary64 numbers beyond the basic ones: fused multiplication and addition and the
remainder of a division, which round once or not at all, the hypotenuse, which is off by less than a
unit of the last place, and the order in which every number has its place.
-/

namespace FlagCombat.Binary64

/-- The double nearest to `π`. -/
def pi : Float := 3.141592653589793

/-- The largest finite number. -/
def maxFinite : Float := Float.ofBits 0x7fefffffffffffff

/-- The distance from one to the next larger number. -/
def epsilon : Float := Float.ofBits 0x3cb0000000000000

/-- Degrees to radians, by one multiplication. -/
def radians (degrees : Float) : Float := degrees * (pi / 180.0)

/-- Radians to degrees, by one multiplication. -/
def degrees (radians : Float) : Float := radians * (180.0 / pi)

/-- `x * y + z` with a single rounding. -/
def fusedMulAdd (x y z : Float) : Float :=
  if x.isFinite && y.isFinite then
    if z.isFinite then (((Scaled.ofFloat x).mul (.ofFloat y)).add (.ofFloat z)).toFloat else z
  else x * y + z

/-- The hypotenuse of the legs `a ≥ b ≥ 0`, whose squares neither overflow nor underflow. The root
`h` of the rounded sum is corrected by one step toward the root of the exact one: by `h² - a² - b²`,
which is taken from the differences of `h` and a leg, over `2 h`. -/
def correctedHypotenuse (a b : Float) : Float :=
  let h := (a * a + b * b).sqrt
  let excess :=
    if h ≤ 2.0 * b then
      let d := h - b
      a * (2.0 * d - a) + (d - 2.0 * (a - b)) * d
    else
      let d := h - a
      2.0 * d * (a - 2.0 * b) + ((4.0 * d - b) * b + d * d)
  h - excess / (2.0 * h)

/-- The hypotenuse of the legs `a ≥ b ≥ 0`. Legs beyond `2 ^ 511` are scaled down and those below
`2 ^ (-459)` up, by `2 ^ 600`; a leg of at most `2 ^ (-54)` of the other one is only added. -/
def scaledHypotenuse (a b : Float) : Float :=
  let large := Float.ofBits 0x5fe0000000000000
  let tiny := Float.ofBits 0x2340000000000000
  let scale := Float.ofBits 0x1a70000000000000
  let negligible := Float.ofBits 0x3c90000000000000
  if a > large then
    if b ≤ a * negligible then a + b
    else correctedHypotenuse (a * scale) (b * scale) / scale
  else if b < tiny then
    if a ≥ b / negligible then a + b
    else correctedHypotenuse (a / scale) (b / scale) * scale
  else if b ≤ a * negligible then a + b
  else correctedHypotenuse a b

/-- `√(x² + y²)` to within a unit of the last place; an infinite leg wins over one that is not a
number. -/
def hypotenuse (x y : Float) : Float :=
  if x.isFinite && y.isFinite then
    let x := x.abs
    let y := y.abs
    if x < y then scaledHypotenuse y x else scaledHypotenuse x y
  else if x.isInf || y.isInf then 1.0 / 0.0
  else x + y

/-- The remainder of `x` divided by `y` toward zero, for a finite `y` other than zero: exact, and
with the sign of `x`. -/
def remainder (x y : Float) : Float :=
  if x.isFinite then ((Scaled.ofFloat x).remainder (.ofFloat y)).toFloat else 0.0 / 0.0

/-- The remainder of `x` divided by a positive `y`, raised by `y` when it is negative. -/
def remainderAbove (x y : Float) : Float :=
  let r := remainder x y
  if r < 0.0 then r + y else r

/-- `x` moved to the nearer end of `[low, high]` when it is outside; not a number stays that. -/
def clamp (x low high : Float) : Float :=
  let x := if x < low then low else x
  if x > high then high else x

/-- The smaller of two numbers, the other one when one is not a number. -/
def minNumber (x y : Float) : Float :=
  if x.isNaN then y else if y < x then y else x

/-- The place of a number in the order of words; what is not a number comes last. -/
def rank (x : Float) : Int := (Word.ofFloat x).rank

end FlagCombat.Binary64
