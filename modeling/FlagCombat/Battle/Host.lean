import FlagCombat.Counter
import FlagCombat.IdMap
import FlagCombat.Plane
import FlagCombat.Sensor

/-!
What a battle asks of the world that shows it. A host keeps a transform, animations and sensors per
agent, casts rays, and takes the sensor readings. Every operation is a function of the state of the
host, so a host that notes its calls and one that draws them are the same to a battle.
-/

namespace FlagCombat

/-- A world that shows a battle. -/
class Host (H : Type) where
  /-- What a segment strikes, the nearest first, among objects of the masked kinds. -/
  rayCast : H → (start finish : Point) → Mask → List Strike × H
  transform : H → AgentId → Option Pose
  setTransform : H → AgentId → Pose → H
  setAnimation : H → AgentId → String → H
  setAnimationSpeed : H → AgentId → Float → H
  /-- The time between two frames, zero if nothing is animated. -/
  frameDelay : H → Float
  addSensor : H → AgentId → Sensor → H
  /-- Writes the readings of an agent's sensors over the head of an observation. -/
  senseChannels : H → AgentId → List Float → List Float × H
  spawnAgent : H → Team → Group → Pose → AgentId × H
  despawnAgent : H → AgentId → H
  stopScript : H → String → H

namespace Host

def runAnimation : String := "run"

/-- The frames of one walk. -/
def animationFrames : Float := 28.0

def menuScript : String := "menu"

end Host

/-- An open field, which keeps the poses of its agents: nothing ever stops a ray. -/
structure OpenField where
  transforms : IdMap Pose := .empty
  lastId : UInt32 := 0

instance : Host OpenField where
  rayCast h _ _ _ := ([], h)
  transform h agent := h.transforms.get? agent
  setTransform h agent pose := { h with transforms := h.transforms.insert agent pose }
  setAnimation h _ _ := h
  setAnimationSpeed h _ _ := h
  frameDelay _ := 0.0
  addSensor h _ _ := h
  senseChannels h _ readings := (readings, h)
  spawnAgent h _ _ pose :=
    let id : AgentId := ⟨addCapped32 h.lastId 1⟩
    (id, { transforms := h.transforms.insert id pose, lastId := id.value })
  despawnAgent h agent := { h with transforms := h.transforms.erase agent }
  stopScript h _ := h

end FlagCombat
