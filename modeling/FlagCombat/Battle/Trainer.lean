import FlagCombat.Agent.Identity
import FlagCombat.Random.Draw

/-!
What a battle asks of whoever breeds the agents' organisms. A trainer can withdraw the organism of
an agent, which ends the agent's episode, and can ask for more agents.
-/

namespace FlagCombat

/-- A breeder of organisms. -/
class Trainer (T : Type) where
  setLifetime : T → UInt64 → T
  /-- Whether agents may be asked for. -/
  ready : T → Bool
  /-- Whether an agent still holds an organism that was not withdrawn. -/
  hasOrganism : T → AgentId → Bool
  wanted : T → Nat
  addAgent : T → T
  /-- The number of agents to spawn now; they are not asked for again. -/
  takeSpawnRequests : T → Nat × T
  nextOrganism : T → AgentId → T
  /-- Takes the summed rewards of an episode; fails if a random choice has no probability. -/
  reportFitness : T → AgentId → List Float → Except BadProbability T

/-- A trainer that never withdraws nor adds, and counts reports. -/
structure FixedTrainer where
  lifetime : UInt64 := 0
  reports : Nat := 0
deriving DecidableEq

instance : Trainer FixedTrainer where
  setLifetime t lifetime := { t with lifetime }
  ready _ := true
  hasOrganism _ _ := true
  wanted _ := 0
  addAgent t := t
  takeSpawnRequests t := (0, t)
  nextOrganism t _ := t
  reportFitness t _ _ := .ok { t with reports := t.reports + 1 }

end FlagCombat
