import FlagCombat.Battle.Basic

/-!
The calls that drive a battle. A call that fails returns no battle: whoever made it keeps the one it
had.
-/

namespace FlagCombat

namespace Battle

variable {H T : Type} [Host H] [Trainer T]

/-- Starts a tick: freezes the poses of all agents. -/
def beginTick (b : Battle H T) (tick : UInt64) : Battle H T :=
  { b with snapshot := .capture tick (.ofList (b.combatants.values.map fun c => (c.id, c.pose))) }

def equip (b : Battle H T) (agent : Handle) : Battle H T :=
  let sensors := b.profile.sensors.sensors agent
  { b with
    host := sensors.foldl (fun host sensor => Host.addSensor host agent.id sensor) b.host }

/-- Gives the host the sensors of an agent, and tells the shapes of the battle. -/
def register (b : Battle H T) (agent : Handle) : Except BattleError (Interface × Battle H T) :=
  (b.enroll agent).map fun b => (b.profile.interface, b.equip agent)

/-- The battle with the damage of an agent forgotten and, if it is mobile, the agent near the spawn
point. -/
def restart (b : Battle H T) (agent : Handle) : Battle H T :=
  let b := b.modifyAgent agent.id (·.resetEpisode)
  if agent.group.isMobile then
    match b.combatants.get? agent.id with
    | none => b
    | some c =>
      let (c, generator) := c.randomize b.profile.spawn b.profile.spawnJitter b.generator
      let b := { b with generator, combatants := b.combatants.insert agent.id c }
      (b.showPose agent.id).freezePose agent.id
  else b

def reset (b : Battle H T) (agent : Handle) : Except BattleError (Battle H T) :=
  (b.enroll agent).map (·.restart agent)

/-- What an action does. The first step of a mobile agent only places it; every other step may ask
for growth, shoots, earns a reward and moves. -/
def act (b : Battle H T) (agent : Handle) (action : List Float) : List Float × Battle H T :=
  if agent.step = 0 ∧ agent.group.isMobile then
    (zeroReward b.profile.dimensions, b.placeAtStart agent.id)
  else
    let motion := Motion.ofAction action
    let (reward, b) := (b.requestGrowth.animate agent.id motion).reward agent.id motion
    let b := b.modifyAgent agent.id (·.move motion b.profile.maxSpeed)
    (reward, b.showPose agent.id)

/-- Takes a step, unless the action is not one of the declared shape. -/
def step (b : Battle H T) (agent : Handle) (action : List Float) :
    Except BattleError (List Float × Battle H T) :=
  match b.profile.interface.actions.violation? action with
  | some violation => .error (.invalidAction agent.id violation)
  | none => (b.enroll agent).map (·.act agent action)

/-- What an agent perceives: the observation with its last three slots written. -/
def perceive (b : Battle H T) (agent : AgentId) (observations : List Float) :
    List Float × Battle H T :=
  let (found, b) := b.target agent
  let observations := Observation.writeHasTarget observations found.isSome
  if b.teams.hasOtherFriends agent then
    match b.combatants.get? agent, b.snapshot.poses.centroid? b.teams agent with
    | some c, some center =>
      let distance := c.pose.position.distance center
      let bearing := c.pose.bearing center
      ((Observation.writeCentroid observations distance bearing b.profile.friendRadius).2, b)
    | _, _ => (observations, b)
  else (observations, b)

/-- Writes the last three slots of an observation, unless it has fewer. -/
def sense (b : Battle H T) (agent : Handle) (observations : List Float) :
    Except BattleError (List Float × Battle H T) :=
  if observations.length < Observation.tailLength then
    .error (.observationTooShort agent.id Observation.tailLength observations.length)
  else (b.enroll agent).map (·.perceive agent.id observations)

/-- The status of the episode of an agent whose record is `c`, checked now. -/
def checkedStatus (b : Battle H T) (agent : Handle) (c : Combatant) : Episode.Status :=
  let progress : Episode.Progress := {
    group := agent.group
    step := agent.step
    hasOrganism := Trainer.hasOrganism b.trainer agent.id
    totalDamage := c.totalDamage }
  c.status.advance (Episode.check progress b.profile.limits)

/-- Checks the episode of an agent, and says whether it is over. -/
def judge (b : Battle H T) (agent : Handle) : Bool × Battle H T :=
  match b.combatants.get? agent.id with
  | none => (false, b)
  | some c =>
    let status := b.checkedStatus agent c
    (status.isDone, { b with combatants := b.combatants.insert agent.id { c with status } })

/-- Checks the episode of an agent, which gets a record first. -/
def isEpisodeOver (b : Battle H T) (agent : Handle) : Except BattleError (Bool × Battle H T) :=
  (b.enroll agent).map (·.judge agent)

/-- Forgets an agent, and returns its last record. -/
def removeAgent (b : Battle H T) (agent : AgentId) : Except BattleError (Combatant × Battle H T) :=
  match b.combatants.get? agent with
  | none => .error (.unknownAgent agent)
  | some c => .ok (c, { b with
      combatants := b.combatants.erase agent
      teams := (b.teams.remove agent).2
      snapshot := b.snapshot.remove agent })

/-- Ends the battle: the host stops its menu. -/
def cleanup (b : Battle H T) : Battle H T :=
  { b with host := Host.stopScript b.host Host.menuScript }

end Battle

end FlagCombat
