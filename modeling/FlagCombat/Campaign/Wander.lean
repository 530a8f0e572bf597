import FlagCombat.Campaign.Policy
import FlagCombat.Random.Draw

/-!
A policy without learning: an agent wanders forward, creeps and turns near a wall, and stands still
while it has a target. Its actions are shares of the declared intervals.
-/

namespace FlagCombat

/-- A wanderer that takes the first readings for wall rays. -/
structure WanderPolicy where
  generator : Generator
  wallRays : Nat

namespace WanderPolicy

def ofSeed (seed : UInt64) (wallRays : Nat) : WanderPolicy := ⟨.ofSeed seed, wallRays⟩

/-- A ray shorter than this share of its length is a near wall. -/
def wallClearance : Float := 0.5

/-- The share of the move interval near a wall. -/
def wallCreep : Float := 0.6

def hasTarget (readings : List Float) : Bool := readings.getLast?.any (· > 0.5)

def nearWall (p : WanderPolicy) (readings : List Float) : Bool :=
  (readings.take p.wallRays).any (· < wallClearance)

/-- An action in shares of the intervals: a full turn near a wall, else a forward move and
any turn. -/
def shares (p : WanderPolicy) (readings : List Float) : List Float × WanderPolicy :=
  if p.nearWall readings then ([wallCreep, 1.0], p)
  else
    let (move, g) := p.generator.uniform 0.5 1.0
    let (turn, g) := g.uniform 0.0 1.0
    ([move, turn], { p with generator := g })

instance : Policy WanderPolicy where
  start p _ shapes _ := (shapes.actions.zeros, p)
  act p agent shapes observations _ :=
    let readings := shapes.sensors.normalize observations
    if agent.group.isStationary || hasTarget readings then (shapes.actions.zeros, p)
    else
      let (shares, p) := p.shares readings
      (shapes.actions.denormalize shares, p)
  finish p _ _ := p

end WanderPolicy

end FlagCombat
