import FlagCombat.Plane

/-!
Discs of the plane, and where a segment enters one. A segment that starts inside a disc does not
enter it.
-/

namespace FlagCombat

open Binary64

/-- A round object. -/
structure Disc where
  center : Point
  radius : Float
deriving DecidableEq

namespace Disc

def contains (d : Disc) (p : Point) : Bool := d.center.distance p ≤ d.radius

/-- The fraction of the segment at which it enters the disc: the smaller root of the equation for
the distance to the center, if it is between 0 and 1. -/
def entry? (d : Disc) (start finish : Point) : Option Float :=
  let dx := finish.x - start.x
  let dy := finish.y - start.y
  let fx := start.x - d.center.x
  let fy := start.y - d.center.y
  let a := fusedMulAdd dx dx (dy * dy)
  let b := 2.0 * fusedMulAdd fx dx (fy * dy)
  let c := fusedMulAdd d.radius (-d.radius) (fusedMulAdd fx fx (fy * fy))
  let discriminant := fusedMulAdd b b (-4.0 * a * c)
  if a ≤ 0.0 || discriminant < 0.0 || d.contains start then none
  else
    let t := (-b - discriminant.sqrt) / (2.0 * a)
    if 0.0 ≤ t && t ≤ 1.0 then some t else none

end Disc

end FlagCombat
