import FlagCombat.Arena.Basic
import FlagCombat.Battle.Replacement
import FlagCombat.Campaign.Run
import FlagCombat.Campaign.Wander

/-!
The campaign that a configuration describes: an arena, a replacement trainer, and a line of turrets
of team one. The agents of team zero join at the spawn point as the trainer asks for them.
-/

namespace FlagCombat

open Binary64

/-- Turrets look down the field. -/
def turretHeading : Float := 270.0

/-- New agents look up the field. -/
def spawnHeading : Float := 90.0

/-- Evenly spaced turrets, the line's point being the middle. -/
def PopulationSettings.turretPoses (p : PopulationSettings) : List Pose :=
  let count := p.turrets.toFloat
  let first := fusedMulAdd p.turretSpacing (-(count - 1.0) / 2.0) p.turretLine.x
  (List.range p.turrets.toNat).map fun i =>
    ⟨fusedMulAdd p.turretSpacing (Float.ofNat i) first, p.turretLine.y, turretHeading⟩

namespace Configuration

def spawnPoint (c : Configuration) : SpawnPoint :=
  ⟨.zero, ⟨c.profile.spawn.x, c.profile.spawn.y, spawnHeading⟩⟩

def control (c : Configuration) : RunControl where
  maxTicks := c.limits.maxTicks
  maxSeconds := c.limits.maxSeconds
  tickIntervalMs := c.world.tickIntervalMs

def wanderer (c : Configuration) : WanderPolicy :=
  .ofSeed c.world.seed c.profile.sensors.wallRays.length

def placeTurrets {H T P : Type} [Host H] [Trainer T] [Policy P] :
    List Pose → Campaign.Action H T P Unit
  | [] => pure ()
  | pose :: rest => do
    let _ ← Campaign.spawn .one .turret pose
    placeTurrets rest

def emptyCampaign {P : Type} (c : Configuration) (policy : P) :
    Campaign Arena ReplacementTrainer P where
  battle := .start c.profile (.ofWorld c.world c.profile.flag) (.ofSeed c.trainer c.world.seed)
    c.world.seed
  roster := .empty
  policy := policy

/-- The campaign of a configuration, with its turrets. -/
def build {P : Type} [Policy P] (c : Configuration) (policy : P) :
    Except CampaignError (Campaign Arena ReplacementTrainer P) :=
  match placeTurrets c.population.turretPoses (c.emptyCampaign policy) with
  | .ok () campaign => .ok campaign
  | .error e _ => .error e

end Configuration

end FlagCombat
