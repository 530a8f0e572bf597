import FlagCombat.Profile
import FlagCombat.Sensor

/-!
The vectors that cross the border of a battle. An observation holds the readings of the host, one
per sensor, and ends in three slots of the battle: the distance and the bearing of the team's
centroid, and whether there is a target.
-/

namespace FlagCombat

namespace Profile

/-- The shapes of what an agent perceives, does and earns. -/
def interface (p : Profile) : Interface where
  sensors := ⟨List.replicate p.observationLength ⟨0.0, 1.0⟩⟩
  actions := ⟨[⟨-1.0, 1.0⟩, ⟨-p.maxTurn, p.maxTurn⟩]⟩
  rewards := ⟨p.dimensions.map fun _ => Interval.unbounded⟩

end Profile

namespace SensorLayout

def sector (l : SensorLayout) (mask : Mask) (bin : RadarBin) : Sensor :=
  .radar bin.left bin.right (-90.0) 90.0 l.visionRadius mask

/-- The sensors of an agent: rays for walls, sectors for the flag, sectors for the other team. -/
def sensors (l : SensorLayout) (agent : Handle) : List Sensor :=
  l.wallRays.map (fun angle => .ray angle l.rayRadius .obstacle) ++
    l.flagRadar.map (l.sector .flag) ++
    l.enemyRadar.map (l.sector (.team agent.team.opponent))

end SensorLayout

namespace Observation

/-- The index of the slot at an offset from the end. -/
def slotFromEnd? (length offset : Nat) : Option Nat :=
  if offset ≤ length then some (length - offset) else none

/-- Sets the slot at an offset from the end, if the vector reaches that far. -/
def setFromEnd (observations : List Float) (offset : Nat) (value : Float) : List Float :=
  match slotFromEnd? observations.length offset with
  | none => observations
  | some i => observations.set i value

def tailLength : Nat := 3

/-- Writes the last slot: 1 if there is a target, else 0. -/
def writeHasTarget (observations : List Float) (hasTarget : Bool) : List Float :=
  setFromEnd observations 1 (if hasTarget then 1.0 else 0.0)

/-- Whether a centroid at a distance is too far to be written. -/
def beyond (distance radius : Float) : Bool := distance > radius

/-- Writes the two slots before the last: the distance of the centroid as a share of the radius, and
its bearing as a share of a turn. A centroid beyond the radius is not written. -/
def writeCentroid (observations : List Float) (distance bearing radius : Float) :
    Bool × List Float :=
  if beyond distance radius then (false, observations)
  else
    let observations := setFromEnd observations 3 (distance / radius)
    (true, setFromEnd observations 2 ((bearing + 180.0) / 360.0))

end Observation

end FlagCombat
