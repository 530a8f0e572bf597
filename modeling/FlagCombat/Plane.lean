import FlagCombat.Binary64.Arithmetic

/-!
Points and poses of the plane. Headings are degrees; a heading of zero looks along the first axis.
The functions here say how far one point is from another and at which angle it stands.
-/

namespace FlagCombat

open Binary64

/-- A point of the plane. -/
structure Point where
  x : Float
  y : Float
deriving DecidableEq, Inhabited

/-- The place of an agent and the direction it looks, in degrees. -/
structure Pose where
  x : Float
  y : Float
  heading : Float
deriving DecidableEq, Inhabited

namespace Point

def origin : Point := ⟨0.0, 0.0⟩

def distance (a b : Point) : Float := hypotenuse (a.x - b.x) (a.y - b.y)

/-- The mean of some points, none of no points; the sums run from the first point on. -/
def centroid? (points : List Point) : Option Point :=
  let sum := points.foldl (fun s p => (⟨s.x + p.x, s.y + p.y⟩ : Point)) origin
  let count := points.foldl (fun n _ => n + 1.0) 0.0
  if count > 0.0 then some ⟨sum.x / count, sum.y / count⟩ else none

end Point

/-- The heading turned by `delta`, in `[0, 360)`. A sum just below zero can round up to the whole
turn, which is read as zero. -/
def wrapDegrees (heading delta : Float) : Float :=
  let wrapped := remainderAbove (heading + delta) 360.0
  if wrapped ≥ 360.0 then 0.0 else wrapped

namespace Pose

/-- At the origin, looking along the first axis. -/
def origin : Pose := ⟨0.0, 0.0, 0.0⟩

def position (p : Pose) : Point := ⟨p.x, p.y⟩

/-- The angle from the heading to the direction of a point, folded once into the half turns to either
side. A point at no distance is straight ahead. -/
def bearing (pose : Pose) (point : Point) : Float :=
  let dx := point.x - pose.x
  let dy := point.y - pose.y
  if dx == 0.0 && dy == 0.0 then 0.0
  else
    let relative := degrees (Float.atan2 dy dx) - pose.heading
    let relative := if relative < -180.0 then relative + 360.0 else relative
    if relative > 180.0 then relative - 360.0 else relative

/-- The pose after a turn by `turn` degrees and a walk of `step` in the new direction. -/
def advance (p : Pose) (step turn : Float) : Pose :=
  let heading := wrapDegrees p.heading turn
  let angle := radians heading
  ⟨fusedMulAdd step angle.cos p.x, fusedMulAdd step angle.sin p.y, heading⟩

end Pose

end FlagCombat
