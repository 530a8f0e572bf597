import FlagCombat.Battle.Call
import FlagCombat.Campaign.Policy

/-!
A campaign drives a battle: a roster holds the running agents, and a tick takes every one of them,
in ascending order, through the end of its episode, its senses, its decision and its step. What an
agent did before a failure stays done, so an operation of a campaign keeps the state it reached also
when it fails.
-/

namespace FlagCombat

/-- A running agent: its handle, its last reward, and the rewards of its episode so far. -/
structure Slot where
  handle : Handle
  lastReward : List Float := []
  episodeFitness : List Float := []
deriving DecidableEq

def Slot.renewed (s : Slot) : Slot := { handle := { s.handle with step := 0 } }

def Slot.stepped (s : Slot) (reward : List Float) : Slot where
  handle := { s.handle with step := addCapped64 s.handle.step 1 }
  lastReward := reward
  episodeFitness := accumulate s.episodeFitness reward

abbrev Roster := IdMap Slot

/-- The handles of the running agents, by ascending id. -/
def Roster.handles (r : Roster) : List Handle := r.values.map Slot.handle

/-- Why a campaign stops. -/
inductive CampaignError where
  | battle (error : BattleError)
  | probability (error : BadProbability)
deriving DecidableEq

def CampaignError.message : CampaignError → String
  | .battle error => "environment error: " ++ error.message
  | .probability error =>
    "probability " ++ Decimal.floatText Decimal.plain error.value ++ " is outside [0, 1]"

/-- What a tick came to. -/
structure TickSummary where
  tick : UInt64
  agents : Nat
  episodesEnded : Nat
  spawned : Nat
  /-- The shots that landed since the battle started. -/
  totalHits : Nat
deriving DecidableEq

/-- Where agents that the trainer asks for join. -/
structure SpawnPoint where
  team : Team
  pose : Pose
deriving DecidableEq

/-- A battle, its running agents, and what decides for them. -/
structure Campaign (H T P : Type) where
  battle : Battle H T
  roster : Roster
  policy : P

namespace Campaign

variable {H T P : Type}

/-- An operation on a campaign, which keeps the state it reached when it fails. -/
abbrev Action (H T P α : Type) := EStateM CampaignError (Campaign H T P) α

def modifyBattle (f : Battle H T → Battle H T) : Action H T P Unit :=
  modify fun c => { c with battle := f c.battle }

/-- Makes a call to the battle, which stays as it was if the call fails. -/
def call {α : Type} (f : Battle H T → Except BattleError (α × Battle H T)) : Action H T P α :=
  fun c => match f c.battle with
    | .ok (a, battle) => .ok a { c with battle }
    | .error e => .error (.battle e) c

def modifyTrainer (f : T → T) : Action H T P Unit :=
  modifyBattle fun b => { b with trainer := f b.trainer }

def putSlot (slot : Slot) : Action H T P Unit :=
  modify fun c => { c with roster := c.roster.insert slot.handle.id slot }

variable [Host H] [Trainer T] [Policy P]

/-- Puts a new agent into the world, the battle and the roster. -/
def spawn (team : Team) (group : Group) (pose : Pose) : Action H T P AgentId := do
  let (id, host) := Host.spawnAgent (← get).battle.host team group pose
  modifyBattle fun b => { b with host }
  let handle : Handle := { id, team, group }
  let _ ← call fun b => b.register handle
  modifyTrainer (Trainer.nextOrganism · id)
  putSlot { handle }
  return id

/-- Takes an agent off the roster, out of the battle and out of the world. -/
def despawn (agent : AgentId) : Action H T P Unit := do
  modify fun c => { c with roster := c.roster.erase agent }
  let _ ← call fun b => b.removeAgent agent
  modifyBattle fun b => { b with host := Host.despawnAgent b.host agent }

/-- Ends the episode of an agent and starts its next one with a fresh organism. -/
def turnOver (slot : Slot) : Action H T P Slot := do
  modify fun c => { c with policy := Policy.finish c.policy slot.handle slot.lastReward }
  match Trainer.reportFitness (← get).battle.trainer slot.handle.id slot.episodeFitness with
  | .error e => throw (.probability e)
  | .ok trainer => modifyBattle fun b => { b with trainer }
  call fun b => (b.reset slot.handle).map ((), ·)
  modifyTrainer (Trainer.nextOrganism · slot.handle.id)
  putSlot slot.renewed
  return slot.renewed

/-- What an agent perceives: the readings of the host, and the slots of the battle. -/
def observe (handle : Handle) : Action H T P (List Float) := do
  let battle := (← get).battle
  let zeros := battle.profile.interface.sensors.zeros
  let (readings, host) := Host.senseChannels battle.host handle.id zeros
  modifyBattle fun b => { b with host }
  call fun b => b.sense handle readings

def decide (slot : Slot) (observations : List Float) : Action H T P (List Float) := do
  let c ← get
  let shapes := c.battle.profile.interface
  let (action, policy) :=
    if slot.handle.step = 0 then Policy.start c.policy slot.handle shapes observations
    else Policy.act c.policy slot.handle shapes observations slot.lastReward
  set { c with policy }
  return action

/-- Lets an agent sense, decide and step. -/
def play (slot : Slot) : Action H T P Unit := do
  let observations ← observe slot.handle
  let action ← Campaign.decide slot observations
  let reward ← call fun b => b.step slot.handle action
  putSlot (slot.stepped reward)

/-- Takes an agent through its part of a tick, and says whether an episode of it ended. -/
def stepAgent (agent : AgentId) : Action H T P Bool := do
  let some slot := (← get).roster.get? agent | return false
  let ended ← call fun b => b.isEpisodeOver slot.handle
  let slot ← if ended then turnOver slot else pure slot
  play slot
  return ended

/-- Takes some agents through their part of a tick, and counts the episodes that ended. -/
def stepAgents : List AgentId → Action H T P Nat
  | [] => pure 0
  | agent :: rest => do
    let ended ← stepAgent agent
    let others ← stepAgents rest
    return (if ended then 1 else 0) + others

def spawnMany (point : SpawnPoint) : Nat → Action H T P Unit
  | 0 => pure ()
  | count + 1 => do
    let _ ← spawn point.team .agent point.pose
    spawnMany point count

/-- Runs one tick; the agents that the trainer asked for join at its end. -/
def tick (number : UInt64) (point : SpawnPoint) : Action H T P TickSummary := do
  modifyBattle (·.beginTick number)
  let running := (← get).roster.keys
  let episodesEnded ← stepAgents running
  let (spawned, trainer) := Trainer.takeSpawnRequests (← get).battle.trainer
  modifyBattle fun b => { b with trainer }
  spawnMany point spawned
  return {
    tick := number
    agents := running.length
    episodesEnded
    spawned
    totalHits := (← get).battle.hits }

end Campaign

end FlagCombat
