import FlagCombat.Agent.Identity

/-!
When the episode of an agent ends. An episode that is over stays over, for the reason that ended it
first.
-/

namespace FlagCombat.Episode

/-- Why an episode ends. -/
inductive Reason where
  | stepBudget
  | organismRecycled
  | damageCap
deriving DecidableEq, Repr

/-- Whether an episode still runs. -/
inductive Status where
  | active
  | done (reason : Reason)
deriving DecidableEq, Repr

def Status.isDone : Status → Bool
  | .active => false
  | .done _ => true

/-- What ends episodes; a limit of zero ends none. -/
structure Limits where
  lifetime : UInt64
  hitPoints : UInt32
deriving DecidableEq

/-- How far an episode has come. -/
structure Progress where
  group : Group
  step : UInt64
  hasOrganism : Bool
  totalDamage : UInt32
deriving DecidableEq

/-- The reason to end an episode now: the steps first, then the organism, then the damage; a
stationary agent has none. -/
def check (p : Progress) (limits : Limits) : Option Reason :=
  if p.group.isStationary then none
  else if limits.lifetime ≠ 0 ∧ limits.lifetime ≤ p.step then some .stepBudget
  else if !p.hasOrganism then some .organismRecycled
  else if limits.hitPoints ≠ 0 ∧ limits.hitPoints ≤ p.totalDamage then some .damageCap
  else none

def Status.advance : Status → Option Reason → Status
  | .active, some reason => .done reason
  | status, _ => status

end FlagCombat.Episode
