import FlagCombat.Battle.Callback

/-!
The calls of a battle as data. `perform` makes one call and keeps the battle when the call fails;
`performAll` makes a list of calls one after the other, so that a statement about every history of a
battle is a statement about every list of calls.
-/

namespace FlagCombat

/-- A call that drives a battle. -/
inductive Call where
  | beginTick (tick : UInt64)
  | register (agent : Handle)
  | reset (agent : Handle)
  | step (agent : Handle) (action : List Float)
  | sense (agent : Handle) (observations : List Float)
  | isEpisodeOver (agent : Handle)
  | removeAgent (agent : AgentId)
  | cleanup
deriving DecidableEq

/-- What a call that succeeds answers. -/
inductive Reply where
  | done
  | shapes (interface : Interface)
  | verdict (value : Bool)
  | vector (values : List Float)
  | removed (agent : Combatant)
deriving DecidableEq

namespace Battle

variable {H T : Type} [Host H] [Trainer T]

def attempt (b : Battle H T) : Call → Except BattleError (Reply × Battle H T)
  | .beginTick tick => .ok (.done, b.beginTick tick)
  | .register agent => (b.register agent).map fun (shapes, b) => (.shapes shapes, b)
  | .reset agent => (b.reset agent).map fun b => (.verdict true, b)
  | .step agent action => (b.step agent action).map fun (reward, b) => (.vector reward, b)
  | .sense agent values => (b.sense agent values).map fun (values, b) => (.vector values, b)
  | .isEpisodeOver agent => (b.isEpisodeOver agent).map fun (isOver, b) => (.verdict isOver, b)
  | .removeAgent agent => (b.removeAgent agent).map fun (c, b) => (.removed c, b)
  | .cleanup => .ok (.verdict true, b.cleanup)

/-- Makes a call, and keeps the battle as it was when the call fails. -/
def perform (b : Battle H T) (call : Call) : Except BattleError Reply × Battle H T :=
  match b.attempt call with
  | .ok (reply, b) => (.ok reply, b)
  | .error e => (.error e, b)

def performAll (b : Battle H T) (calls : List Call) : Battle H T :=
  calls.foldl (fun b call => (b.perform call).2) b

end Battle

end FlagCombat
