import FlagCombat.Agent.Combatant
import FlagCombat.Observation
import FlagCombat.Snapshot
import FlagCombat.Battle.Host
import FlagCombat.Battle.Trainer

/-!
A battle and what happens to one agent at a time. A record is made on first contact with a handle.
Shots and distances are measured between the poses frozen at the start of the tick, so the order in
which the agents of a tick act does not show in what they see. An operation on an agent without a
record changes nothing.
-/

namespace FlagCombat

/-- Why a battle refuses a call. -/
inductive BattleError where
  | invalidAction (agent : AgentId) (violation : Violation)
  | observationTooShort (agent : AgentId) (required actual : Nat)
  | unknownAgent (agent : AgentId)
  | teamMismatch (agent : AgentId) (registered claimed : Team)
deriving DecidableEq

def BattleError.message : BattleError → String
  | .invalidAction agent violation =>
    "invalid action for agent " ++ agent.text ++ ": " ++ violation.text
  | .observationTooShort agent required actual =>
    "observation buffer for agent " ++ agent.text ++ " has " ++ toString actual ++
      " slots, need at least " ++ toString required
  | .unknownAgent agent => "agent " ++ agent.text ++ " is not known to the environment"
  | .teamMismatch agent registered claimed =>
    "agent " ++ agent.text ++ " is registered on team " ++ registered.text ++ ", handle says " ++
      claimed.text

/-- A battle over a host and a trainer. -/
structure Battle (H T : Type) where
  profile : Profile
  host : H
  trainer : T
  combatants : IdMap Combatant
  teams : Teams
  snapshot : Snapshot
  generator : Generator
  /-- The number of shots that landed. -/
  hits : Nat

namespace Battle

variable {H T : Type} [Host H] [Trainer T]

/-- A battle without agents; the trainer learns how long episodes last. -/
def start (profile : Profile) (host : H) (trainer : T) (seed : UInt64) : Battle H T where
  profile := profile
  host := host
  trainer := Trainer.setLifetime trainer profile.lifetime
  combatants := .empty
  teams := .empty
  snapshot := {}
  generator := .ofSeed seed
  hits := 0

def damagePerHit : UInt32 := 1

def agent? (b : Battle H T) (agent : AgentId) : Option Combatant := b.combatants.get? agent

/-- What everybody may see, by ascending id. -/
def views (b : Battle H T) : List View := b.combatants.values.map Combatant.view

def modifyAgent (b : Battle H T) (agent : AgentId) (f : Combatant → Combatant) : Battle H T :=
  match b.combatants.get? agent with
  | none => b
  | some c => { b with combatants := b.combatants.insert agent (f c) }

/-- The battle with the host showing an agent where its record says. -/
def showPose (b : Battle H T) (agent : AgentId) : Battle H T :=
  match b.combatants.get? agent with
  | none => b
  | some c => { b with host := Host.setTransform b.host agent c.pose }

/-- The battle with the recorded pose of an agent frozen in the snapshot. -/
def freezePose (b : Battle H T) (agent : AgentId) : Battle H T :=
  match b.combatants.get? agent with
  | none => b
  | some c => { b with snapshot := b.snapshot.place agent c.pose }

/-- The first record of an agent, where the host shows it or else at the origin. -/
def newcomer (b : Battle H T) (agent : Handle) : Combatant :=
  let c : Combatant := { id := agent.id, team := agent.team, group := agent.group }
  match Host.transform b.host agent.id with
  | none => c
  | some pose => c.resetPose pose.position pose.heading

/-- The battle with a record for the agent; fails if there is one on the other team. -/
def enroll (b : Battle H T) (agent : Handle) : Except BattleError (Battle H T) :=
  match b.combatants.get? agent.id with
  | some c =>
    if c.team = agent.team then .ok b
    else .error (.teamMismatch agent.id c.team agent.team)
  | none =>
    let c := b.newcomer agent
    .ok { b with
      snapshot := b.snapshot.place agent.id c.pose
      teams := (b.teams.register agent.id agent.team).2
      combatants := b.combatants.insert agent.id c }

/-- Places a mobile agent where the host shows it, with a heading drawn among the whole degrees. -/
def placeAtStart (b : Battle H T) (agent : AgentId) : Battle H T :=
  let pose := (Host.transform b.host agent).getD .origin
  let (heading, generator) := b.generator.below32 360
  let b := { b with generator }
  let b := b.modifyAgent agent fun c => c.resetPose pose.position (Float.ofNat heading)
  (b.showPose agent).freezePose agent

def requestGrowth (b : Battle H T) : Battle H T :=
  if Trainer.ready b.trainer && Trainer.wanted b.trainer > 0 then
    { b with trainer := Trainer.addAgent b.trainer }
  else b

/-- Starts the walk animation unless it runs, and sets its speed if the host shows frames. -/
def animate (b : Battle H T) (agent : AgentId) (motion : Motion) : Battle H T :=
  let b := match b.combatants.get? agent with
    | none => b
    | some c =>
      let (changed, c) := c.animate Host.runAnimation
      let b := { b with combatants := b.combatants.insert agent c }
      if changed then { b with host := Host.setAnimation b.host agent Host.runAnimation } else b
  let delay := Host.frameDelay b.host
  if delay > 0.0 then
    let speed := motion.moveBy * Host.animationFrames / delay
    { b with host := Host.setAnimationSpeed b.host agent speed }
  else b

/-- The target of an agent; one without other friends has none. -/
def target (b : Battle H T) (agent : AgentId) : Option AgentId × Battle H T :=
  if b.teams.hasOtherFriends agent then
    let (found, snapshot) := b.snapshot.target b.teams b.profile.targeting agent
    (found, { b with snapshot })
  else (none, b)

/-- Shoots at the target, if there is one, and says whether the shot landed. -/
def engage (b : Battle H T) (agent : AgentId) : Bool × Battle H T :=
  match b.target agent with
  | (none, b) => (false, b)
  | (some victim, b) =>
    match b.snapshot.poses.get? agent, b.snapshot.poses.get? victim with
    | some start, some finish =>
      let (strikes, host) := Host.rayCast b.host start.position finish.position .shotBlockers
      let b := { b with host }
      if lineOfSightClear strikes victim && b.combatants.contains victim then
        let b := b.modifyAgent victim (·.takeHit damagePerHit)
        (true, { b with hits := b.hits + 1 })
      else (false, b)
    | _, _ => (false, b)

/-- What a motion earns an agent: it shoots, is measured, and takes the damage that waited. An agent
without other friends earns nothing and keeps the damage waiting. -/
def reward (b : Battle H T) (agent : AgentId) (motion : Motion) : List Float × Battle H T :=
  if b.teams.hasOtherFriends agent then
    let (hit, b) := b.engage agent
    let (friend, snapshot) := b.snapshot.nearestFriend b.teams agent
    let (foe, snapshot) := snapshot.nearestFoe b.teams agent
    let b := { b with snapshot }
    match b.combatants.get? agent with
    | none => (zeroReward b.profile.dimensions, b)
    | some c =>
      let (damage, drained) := c.drainDamage
      let outcome : Outcome := {
        motion
        nearestFriend := friend.map (·.2)
        nearestFoe := foe.map (·.2)
        flagDistance := c.pose.position.distance b.profile.flag
        hit
        damage }
      (outcome.reward b.profile.dimensions,
        { b with combatants := b.combatants.insert agent drained })
  else (zeroReward b.profile.dimensions, b)

end Battle

end FlagCombat
