import FlagCombat.Targeting
import FlagCombat.Fitness
import FlagCombat.Episode

/-!
The profile of a battle: what is rewarded, how agents aim, sense and move, and how long they last. A
profile is valid when every angle, speed and radius is one that the battle can work with; the first
field that is not names the error.
-/

namespace FlagCombat

/-- The edges of a radar sector, in degrees from the heading. -/
structure RadarBin where
  left : Float
  right : Float
deriving DecidableEq

namespace RadarBin

/-- Five sectors: four in front, one behind. -/
def standard : List RadarBin :=
  [⟨90.0, 12.0⟩, ⟨18.0, -3.0⟩, ⟨3.0, -18.0⟩, ⟨-12.0, -90.0⟩, ⟨-87.0, 87.0⟩]

end RadarBin

/-- The sensors that every agent carries. -/
structure SensorLayout where
  wallRays : List Float := [90.0, 45.0, 0.0, -45.0, -90.0]
  rayRadius : Float := 50.0
  flagRadar : List RadarBin := RadarBin.standard
  enemyRadar : List RadarBin := RadarBin.standard
  visionRadius : Float := 300.0
deriving DecidableEq

def SensorLayout.hostChannels (l : SensorLayout) : Nat :=
  l.wallRays.length + l.flagRadar.length + l.enemyRadar.length

/-- The rules of a battle. -/
structure Profile where
  dimensions : List Dimension := Dimension.all
  targeting : Targeting := {}
  sensors : SensorLayout := {}
  maxSpeed : Float := 1.0
  maxTurn : Float := 0.2
  lifetime : UInt64 := 1000
  hitPoints : UInt32 := 20
  spawn : Point := ⟨400.0, 200.0⟩
  spawnJitter : UInt32 := 20
  flag : Point := ⟨400.0, 600.0⟩
  friendRadius : Float := 15.0
deriving DecidableEq

namespace Profile

/-- The number fields that a profile can have wrong. -/
inductive Field where
  | coneHalfAngle
  | angularPenalty
  | maxSpeed
  | maxTurn
  | friendRadius
deriving DecidableEq, Repr

def Field.path : Field → String
  | .coneHalfAngle => "targeting.cone_half_angle"
  | .angularPenalty => "targeting.angular_penalty"
  | .maxSpeed => "max_speed"
  | .maxTurn => "max_turn"
  | .friendRadius => "friend_radius"

/-- Why a profile is not valid. -/
inductive Error where
  | noDimensions
  | repeatedDimension (dimension : Dimension)
  | badValue (field : Field) (value : Float)
deriving DecidableEq

def Error.message : Error → String
  | .noDimensions => "profile declares no fitness dimensions"
  | .repeatedDimension d => "fitness dimension " ++ d.label ++ " is declared more than once"
  | .badValue field value =>
    "profile field " ++ field.path ++ " has invalid value " ++ Decimal.floatText Decimal.plain value

/-- The number of slots of an observation: the readings of the host and three slots of the
battle. -/
def observationLength (p : Profile) : Nat := p.sensors.hostChannels + 3

def limits (p : Profile) : Episode.Limits := ⟨p.lifetime, p.hitPoints⟩

/-- The first dimension that occurs in `seen` or earlier in the list. -/
def firstRepeat (seen : List Dimension) : List Dimension → Option Dimension
  | [] => none
  | d :: rest => if d ∈ seen then some d else firstRepeat (d :: seen) rest

/-- Fails for a field that is not a finite number above zero. -/
def requirePositive (field : Field) (value : Float) : Except Error Unit :=
  if value.isFinite && value > 0.0 then .ok () else .error (.badValue field value)

/-- Checks a profile from its dimensions to its radius and names the first fault. The widest angle,
weighted, must stay below a right angle, where the cosine that divides a cost is positive. -/
def validate (p : Profile) : Except Error Unit := do
  if p.dimensions.isEmpty then throw .noDimensions
  if let some d := firstRepeat [] p.dimensions then throw (.repeatedDimension d)
  let cone := p.targeting.coneHalfAngle
  let penalty := p.targeting.angularPenalty
  if !(cone > 0.0 && cone ≤ 180.0) then throw (.badValue .coneHalfAngle cone)
  if !penalty.isFinite || penalty < 0.0 then throw (.badValue .angularPenalty penalty)
  if cone * penalty ≥ 90.0 then throw (.badValue .angularPenalty penalty)
  requirePositive .maxSpeed p.maxSpeed
  requirePositive .maxTurn p.maxTurn
  requirePositive .friendRadius p.friendRadius

end Profile

end FlagCombat
