import FlagCombat.Feature

/-!
Fitness by dimension. Every dimension scores what happened to an agent in one step, and a reward
lists the scores of the declared dimensions in order.
-/

namespace FlagCombat

/-- What an agent can be scored for. -/
inductive Dimension where
  | standGround
  | stickTogether
  | approachEnemy
  | approachFlag
  | hitTarget
  | avoidFire
deriving DecidableEq, Repr

namespace Dimension

/-- All dimensions, in the order of the default layout. -/
def all : List Dimension :=
  [.standGround, .stickTogether, .approachEnemy, .approachFlag, .hitTarget, .avoidFire]

def label : Dimension → String
  | .standGround => "Stand ground"
  | .stickTogether => "Stick together"
  | .approachEnemy => "Approach enemy"
  | .approachFlag => "Approach flag"
  | .hitTarget => "Hit target"
  | .avoidFire => "Avoid fire"

end Dimension

/-- What happened to an agent in a step. -/
structure Outcome where
  motion : Motion
  nearestFriend : Option Float
  nearestFoe : Option Float
  flagDistance : Float
  hit : Bool
  damage : UInt32

namespace Outcome

/-- The square of a distance, as a loss. -/
def squareLoss (d : Float) : Float := -(d * d)

def score (o : Outcome) : Dimension → Float
  | .standGround => -o.motion.moveBy
  | .stickTogether => (o.nearestFriend.map squareLoss).getD 0.0
  | .approachEnemy => (o.nearestFoe.map squareLoss).getD 0.0
  | .approachFlag => squareLoss o.flagDistance
  | .hitTarget => if o.hit then 1.0 else 0.0
  | .avoidFire => -o.damage.toFloat

/-- The scores of the declared dimensions, in their order. -/
def reward (o : Outcome) (layout : List Dimension) : List Float := layout.map o.score

end Outcome

def zeroReward (layout : List Dimension) : List Float := layout.map fun _ => 0.0

/-- The totals with a reward added slot by slot; they first grow with zeros to its length. -/
def accumulate : List Float → List Float → List Float
  | totals, [] => totals
  | [], rewards => rewards.map (0.0 + ·)
  | total :: totals, reward :: rewards => (total + reward) :: accumulate totals rewards

end FlagCombat
