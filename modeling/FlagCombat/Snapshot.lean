import FlagCombat.Targeting
import FlagCombat.Teams

/-!
The poses of all agents as they were at the start of a tick. Questions about them are answered once
per agent and kept; whatever changes a pose forgets the answers. The functions on `Poses` answer
without keeping.
-/

namespace FlagCombat

abbrev Poses := IdMap Pose

namespace Poses

/-- The members of a team that have a pose, with it. -/
def ofMembers (poses : Poses) (members : List AgentId) : List (AgentId × Pose) :=
  members.filterMap fun id => (poses.get? id).map fun pose => (id, pose)

def target (poses : Poses) (teams : Teams) (targeting : Targeting) (agent : AgentId) :
    Option AgentId :=
  (poses.get? agent).bind fun pose => targeting.select pose (poses.ofMembers (teams.foesOf agent))

/-- The nearest of some agents to an agent, itself excluded. -/
def nearestOf (poses : Poses) (agent : AgentId) (members : List AgentId) :
    Option (AgentId × Float) :=
  (poses.get? agent).bind fun pose =>
    nearest pose.position agent ((poses.ofMembers members).map fun m => (m.1, m.2.position))

/-- The nearest other agent on the team of an agent. -/
def nearestFriend (poses : Poses) (teams : Teams) (agent : AgentId) : Option (AgentId × Float) :=
  poses.nearestOf agent (teams.friendsOf agent)

def nearestFoe (poses : Poses) (teams : Teams) (agent : AgentId) : Option (AgentId × Float) :=
  poses.nearestOf agent (teams.foesOf agent)

/-- The mean position of the team of an agent, itself included. -/
def centroid? (poses : Poses) (teams : Teams) (agent : AgentId) : Option Point :=
  Point.centroid? ((poses.ofMembers (teams.friendsOf agent)).map fun m => m.2.position)

end Poses

/-- The poses of a tick, and the answers given so far. -/
structure Snapshot where
  tick : UInt64 := 0
  poses : Poses := .empty
  targets : IdMap (Option AgentId) := .empty
  nearestFriends : IdMap (Option (AgentId × Float)) := .empty
  nearestFoes : IdMap (Option (AgentId × Float)) := .empty

namespace Snapshot

/-- The poses of a tick, before any question. -/
def capture (tick : UInt64) (poses : Poses) : Snapshot := { tick, poses }

def place (s : Snapshot) (agent : AgentId) (pose : Pose) : Snapshot :=
  capture s.tick (s.poses.insert agent pose)

def remove (s : Snapshot) (agent : AgentId) : Snapshot := capture s.tick (s.poses.erase agent)

/-- The kept answer for an agent, or else a new one, which is kept. -/
@[macro_inline]
def answerOnce {α : Type} (answers : IdMap α) (agent : AgentId) (answer : α) : α × IdMap α :=
  match answers.get? agent with
  | some kept => (kept, answers)
  | none => (answer, answers.insert agent answer)

/-- The target of an agent, as first answered. -/
def target (s : Snapshot) (teams : Teams) (targeting : Targeting) (agent : AgentId) :
    Option AgentId × Snapshot :=
  let (found, targets) := answerOnce s.targets agent (s.poses.target teams targeting agent)
  (found, { s with targets })

/-- The nearest friend of an agent, as first answered. -/
def nearestFriend (s : Snapshot) (teams : Teams) (agent : AgentId) :
    Option (AgentId × Float) × Snapshot :=
  let (found, nearestFriends) :=
    answerOnce s.nearestFriends agent (s.poses.nearestFriend teams agent)
  (found, { s with nearestFriends })

/-- The nearest foe of an agent, as first answered. -/
def nearestFoe (s : Snapshot) (teams : Teams) (agent : AgentId) :
    Option (AgentId × Float) × Snapshot :=
  let (found, nearestFoes) := answerOnce s.nearestFoes agent (s.poses.nearestFoe teams agent)
  (found, { s with nearestFoes })

end Snapshot

end FlagCombat
