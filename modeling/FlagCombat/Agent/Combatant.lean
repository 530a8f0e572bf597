import FlagCombat.Counter
import FlagCombat.Plane
import FlagCombat.Feature
import FlagCombat.Episode
import FlagCombat.Random.Draw

/-!
The record of an agent in a battle: where it is and was, the damage it took, its animation and the
status of its episode. Damage taken waits until the agent's own step, which moves it to the total.
-/

namespace FlagCombat

/-- What everybody may see of an agent. -/
structure View where
  id : AgentId
  team : Team
  pose : Pose
  previousPose : Pose
  totalDamage : UInt32
deriving DecidableEq

/-- The record of an agent. -/
structure Combatant where
  id : AgentId
  team : Team
  group : Group
  pose : Pose := .origin
  previousPose : Pose := .origin
  initialPosition : Point := .origin
  initialHeading : Float := 0.0
  totalDamage : UInt32 := 0
  pendingDamage : UInt32 := 0
  animation : Option String := none
  status : Episode.Status := .active
deriving DecidableEq

namespace Combatant

def resetPose (c : Combatant) (position : Point) (heading : Float) : Combatant :=
  let pose := ⟨position.x, position.y, heading⟩
  { c with
    initialPosition := position
    initialHeading := heading
    pose := pose
    previousPose := pose }

/-- A whole number of `[-jitter, jitter)`; one that 32 signed bits do not hold counts as zero. A
jitter of zero draws nothing. -/
def jitterOffset (jitter : UInt32) (g : Generator) : Float × Generator :=
  if jitter = 0 then (0.0, g)
  else
    let (n, g) := g.below64 (2 * jitter.toNat)
    let offset : Int := n - jitter.toNat
    (if -0x80000000 ≤ offset ∧ offset < 0x80000000 then Float.ofInt offset else 0.0, g)

/-- Starts an episode near the spawn point, with the heading of the last start. -/
def randomize (c : Combatant) (spawn : Point) (jitter : UInt32) (g : Generator) :
    Combatant × Generator :=
  let (dx, g) := jitterOffset jitter g
  let (dy, g) := jitterOffset jitter g
  (c.resetPose ⟨spawn.x + dx, spawn.y + dy⟩ c.initialHeading, g)

def resetEpisode (c : Combatant) : Combatant :=
  { c with totalDamage := 0, pendingDamage := 0, status := .active }

/-- Takes damage, which waits for the agent's own step. -/
def takeHit (c : Combatant) (damage : UInt32) : Combatant :=
  { c with pendingDamage := addCapped32 c.pendingDamage damage }

/-- Moves the waiting damage to the total, and says how much it was. -/
def drainDamage (c : Combatant) : UInt32 × Combatant :=
  (c.pendingDamage,
    { c with totalDamage := addCapped32 c.totalDamage c.pendingDamage, pendingDamage := 0 })

/-- Walks at a share of the largest speed. -/
def move (c : Combatant) (motion : Motion) (maxSpeed : Float) : Combatant :=
  { c with previousPose := c.pose, pose := c.pose.advance (maxSpeed * motion.moveBy) motion.turnBy }

/-- Sets the animation, and says whether it changed. -/
def animate (c : Combatant) (animation : String) : Bool × Combatant :=
  if c.animation = some animation then (false, c)
  else (true, { c with animation := some animation })

def view (c : Combatant) : View := ⟨c.id, c.team, c.pose, c.previousPose, c.totalDamage⟩

/-- A pose with two decimal places each. -/
def poseText (p : Pose) : String :=
  "(" ++ ", ".intercalate ([p.x, p.y, p.heading].map (Decimal.fixedPlaces 2)) ++ ")"

def text (c : Combatant) : String :=
  "agent \x7b id: " ++ c.id.text ++ ", pose: " ++ poseText c.pose ++
    ", prev_pose: " ++ poseText c.previousPose ++ " \x7d"

end Combatant

end FlagCombat
