import FlagCombat.Plane
import FlagCombat.Agent.Identity

/-!
Choosing among candidates by cost. Both the target of a shot and the nearest agent are first strict
minima: of equal costs the earlier candidate stays.
-/

namespace FlagCombat

open Binary64

/-- The candidate of least cost, the first one among equals. -/
def firstLeast (candidates : List (AgentId × Float)) : Option (AgentId × Float) :=
  candidates.foldl (fun best candidate => match best with
    | none => some candidate
    | some current => if candidate.2 < current.2 then some candidate else some current) none

/-- How targets are chosen: by distance, at a cost for the angle, inside a cone to either side. -/
structure Targeting where
  coneHalfAngle : Float := 2.0
  angularPenalty : Float := 20.0
deriving DecidableEq

namespace Targeting

/-- The angle at which a requester sees a foe, to either side. -/
def offAngle (requester foe : Pose) : Float := (requester.bearing foe.position).abs

def outside (t : Targeting) (requester foe : Pose) : Bool :=
  offAngle requester foe > t.coneHalfAngle

/-- The distance of a foe, divided by the cosine of its weighted angle. -/
def cost (t : Targeting) (requester foe : Pose) : Float :=
  requester.position.distance foe.position /
    (radians (offAngle requester foe * t.angularPenalty)).cos

def select (t : Targeting) (requester : Pose) (foes : List (AgentId × Pose)) : Option AgentId :=
  let kept := foes.filter fun foe => !t.outside requester foe.2
  (firstLeast (kept.map fun foe => (foe.1, t.cost requester foe.2))).map (·.1)

end Targeting

/-- The nearest candidate other than `exclude`, with its distance. -/
def nearest (origin : Point) (exclude : AgentId) (candidates : List (AgentId × Point)) :
    Option (AgentId × Float) :=
  firstLeast ((candidates.filter (·.1 ≠ exclude)).map fun c => (c.1, origin.distance c.2))

end FlagCombat
