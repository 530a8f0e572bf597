import FlagCombat.Agent.Identity
import FlagCombat.Observation

/-!
What decides on the actions of the agents, and the policy that never moves.
-/

namespace FlagCombat

/-- A chooser of actions. -/
class Policy (P : Type) where
  start : P → Handle → Interface → (observations : List Float) → List Float × P
  /-- Every later action, with the reward of the one before. -/
  act : P → Handle → Interface → (observations reward : List Float) → List Float × P
  /-- Told when an episode is over, with its last reward. -/
  finish : P → Handle → (reward : List Float) → P

/-- Every action is zero. -/
structure HoldPolicy where
deriving DecidableEq

instance : Policy HoldPolicy where
  start p _ shapes _ := (shapes.actions.zeros, p)
  act p _ shapes _ _ := (shapes.actions.zeros, p)
  finish p _ _ := p

end FlagCombat
