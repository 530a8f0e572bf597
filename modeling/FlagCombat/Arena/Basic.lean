import FlagCombat.Arena.Disc
import FlagCombat.Battle.Host
import FlagCombat.Configuration.Basic
import FlagCombat.IdMap
import FlagCombat.Counter

/-!
A flat arena that nobody sees: a walled rectangle with a flag, obstacles, and one round body per
agent. It casts rays and takes sensor readings from the poses it holds. A ray reading is the
fraction of the ray that is free; a radar reading is the closeness of what its sector shows, at most
1.
-/

namespace FlagCombat

open Binary64

/-- The body of an agent. -/
structure Body where
  team : Team
  group : Group
  pose : Pose
  sensors : List Sensor := []
deriving DecidableEq

/-- The radius of a body. -/
def Body.radius : Float := 3.0

def Body.disc (b : Body) : Disc := ⟨b.pose.position, Body.radius⟩

/-- A walled rectangle and what is in it. -/
structure Arena where
  width : Float
  height : Float
  flag : Disc
  obstacles : List (ObjectId × Disc)
  bodies : IdMap Body := .empty
  frameDelay : Float
  lastId : UInt32 := 0
  stoppedScripts : List String := []

namespace Arena

/-- The radius of the flag. -/
def flagRadius : Float := 5.0

/-- The object number of the flag; the walls have the four numbers before it. -/
def flagObject : ObjectId := ⟨4⟩

/-- Obstacles with the object numbers that follow `last`. -/
def numberObstacles (last : UInt32) : List Obstacle → List (ObjectId × Disc)
  | [] => []
  | o :: rest =>
    let number := addCapped32 last 1
    (⟨number⟩, ⟨⟨o.x, o.y⟩, o.radius⟩) :: numberObstacles number rest

/-- The arena of a world, without agents. -/
def ofWorld (world : WorldSettings) (flag : Point) : Arena where
  width := world.width
  height := world.height
  flag := ⟨flag, flagRadius⟩
  obstacles := numberObstacles flagObject.value world.obstacles
  frameDelay := world.frameDelay

/-- Something that a segment strikes, at a fraction of the segment. -/
structure Crossing where
  fraction : Float
  strike : Strike
deriving DecidableEq

/-- The fraction at which a coordinate running from `start` to `finish` reaches a line, if it runs
and does. -/
def lineCrossing? (start finish line : Float) : Option Float :=
  let span := finish - start
  if span.abs < epsilon then none
  else
    let t := (line - start) / span
    if t > 0.0 && t ≤ 1.0 then some t else none

/-- The nearest crossing with the lines of the four walls, the first one among equals. -/
def wallEntry? (a : Arena) (start finish : Point) : Option Crossing :=
  let crossings := [
    (0, lineCrossing? start.x finish.x 0.0),
    (1, lineCrossing? start.x finish.x a.width),
    (2, lineCrossing? start.y finish.y 0.0),
    (3, lineCrossing? start.y finish.y a.height)]
  crossings.foldl (fun nearest (wall, crossing) => match nearest, crossing with
    | nearest, none => nearest
    | none, some t => some ⟨t, .object ⟨wall⟩⟩
    | some best, some t => if t < best.fraction then some ⟨t, .object ⟨wall⟩⟩ else some best) none

/-- Everything a segment strikes, in no order of distance: walls, obstacles, the flag, and bodies by
id. -/
def crossings (a : Arena) (start finish : Point) (mask : Mask) : List Crossing :=
  let walls := if mask.intersects .obstacle then (a.wallEntry? start finish).toList else []
  let obstacles := if mask.intersects .obstacle then
      a.obstacles.filterMap fun (id, disc) => (disc.entry? start finish).map (⟨·, .object id⟩)
    else []
  let flag := if mask.intersects .flag then
      ((a.flag.entry? start finish).map (⟨·, .object flagObject⟩)).toList
    else []
  let bodies := a.bodies.entries.filterMap fun (id, body) =>
    if mask.intersects (.team body.team) then
      (body.disc.entry? start finish).map (⟨·, .agent id⟩)
    else none
  walls ++ obstacles ++ flag ++ bodies

/-- Everything a segment strikes, the nearest first; equal fractions keep their order. -/
def cast (a : Arena) (start finish : Point) (mask : Mask) : List Crossing :=
  (a.crossings start finish mask).mergeSort fun x y => rank x.fraction ≤ rank y.fraction

/-- The free fraction of a ray from a pose. -/
def rayReading (a : Arena) (pose : Pose) (angle radius : Float) (mask : Mask) : Float :=
  let direction := radians (pose.heading + angle)
  let finish : Point :=
    ⟨fusedMulAdd radius direction.cos pose.x, fusedMulAdd radius direction.sin pose.y⟩
  ((a.cast pose.position finish mask).head?.map (·.fraction)).getD 1.0

/-- Whether an angle is in a sector. A left edge at or beyond the right one bounds the sector
between them; else the sector is what lies outside. -/
def inSector (angle left right : Float) : Bool :=
  if left ≥ right then right ≤ angle && angle ≤ left else angle ≥ right || angle ≤ left

/-- The points that a radar can show to an agent: the flag, and the other agents of the masked
teams. -/
def radarPoints (a : Arena) (owner : AgentId) (mask : Mask) : List Point :=
  let flag := if mask.intersects .flag then [a.flag.center] else []
  let bodies := a.bodies.entries.filterMap fun (id, body) =>
    if id ≠ owner ∧ mask.intersects (.team body.team) then some body.pose.position else none
  flag ++ bodies

/-- The summed closeness of the points in a sector, at most 1. -/
def radarReading (a : Arena) (owner : AgentId) (pose : Pose) (left right radius : Float)
    (mask : Mask) : Float :=
  let closeness := (a.radarPoints owner mask).foldl (fun sum point =>
    let range := pose.position.distance point
    if range ≤ radius && inSector (pose.bearing point) left right then sum + (1.0 - range / radius)
    else sum) 0.0
  minNumber closeness 1.0

def reading (a : Arena) (owner : AgentId) (pose : Pose) : Sensor → Float
  | .ray angle radius mask => a.rayReading pose angle radius mask
  | .radar left right _ _ radius mask => a.radarReading owner pose left right radius mask

/-- Writes values over the head of a vector, as far as both reach. -/
def overwriteHead : List Float → List Float → List Float
  | value :: values, _ :: rest => value :: overwriteHead values rest
  | _, rest => rest

/-- The observation with the readings of an agent's sensors at its head. -/
def senseChannels (a : Arena) (agent : AgentId) (observations : List Float) : List Float :=
  match a.bodies.get? agent with
  | none => observations
  | some body =>
    overwriteHead ((body.sensors.take observations.length).map (a.reading agent body.pose))
      observations

def modifyBody (a : Arena) (agent : AgentId) (f : Body → Body) : Arena :=
  match a.bodies.get? agent with
  | none => a
  | some body => { a with bodies := a.bodies.insert agent (f body) }

def spawn (a : Arena) (team : Team) (group : Group) (pose : Pose) : AgentId × Arena :=
  let number := addCapped32 a.lastId 1
  (⟨number⟩, { a with lastId := number, bodies := a.bodies.insert ⟨number⟩ { team, group, pose } })

instance : Host Arena where
  rayCast a start finish mask := ((a.cast start finish mask).map (·.strike), a)
  transform a agent := (a.bodies.get? agent).map Body.pose
  setTransform a agent pose := a.modifyBody agent fun body => { body with pose }
  setAnimation a _ _ := a
  setAnimationSpeed a _ _ := a
  frameDelay a := a.frameDelay
  addSensor a agent sensor :=
    a.modifyBody agent fun body => { body with sensors := body.sensors ++ [sensor] }
  senseChannels a agent observations := (a.senseChannels agent observations, a)
  spawnAgent := spawn
  despawnAgent a agent := { a with bodies := a.bodies.erase agent }
  stopScript a script := { a with stoppedScripts := a.stoppedScripts ++ [script] }

end Arena

end FlagCombat
