import FlagCombat.Document.Codec
import FlagCombat.Agent.Combatant
import FlagCombat.Observation

/-!
The written forms of the values that cross the border of a battle. Ids, masks and teams are numbers;
groups, dimensions and reasons are names; the others are records. A sensor names its kind, and its
contents are a record that no list can stand for.
-/

namespace FlagCombat

open FieldReader

instance : Writable AgentId := ⟨fun a => encode a.value⟩
instance : Readable AgentId := ⟨fun format d => (decode format d).map AgentId.mk⟩
instance : Writable ObjectId := ⟨fun a => encode a.value⟩
instance : Readable ObjectId := ⟨fun format d => (decode format d).map ObjectId.mk⟩
instance : Writable Mask := ⟨fun m => encode m.bits⟩
instance : Readable Mask := ⟨fun format d => (decode format d).map Mask.mk⟩
instance : Writable Team := ⟨fun t => .integer t.index⟩
instance : Readable Team := ⟨fun _ d => d.nat?.bind Team.ofIndex?⟩

def Group.name : Group → String
  | .agent => "agent"
  | .turret => "turret"

def Group.ofName? (name : String) : Option Group := [.agent, .turret].find? (·.name = name)

instance : Writable Group := ⟨fun g => .text g.name⟩
instance : Readable Group := ⟨fun format d => (d.caseName? format).bind Group.ofName?⟩

def Dimension.name : Dimension → String
  | .standGround => "stand_ground"
  | .stickTogether => "stick_together"
  | .approachEnemy => "approach_enemy"
  | .approachFlag => "approach_flag"
  | .hitTarget => "hit_target"
  | .avoidFire => "avoid_fire"

def Dimension.ofName? (name : String) : Option Dimension := Dimension.all.find? (·.name = name)

instance : Writable Dimension := ⟨fun d => .text d.name⟩
instance : Readable Dimension := ⟨fun format d => (d.caseName? format).bind Dimension.ofName?⟩

def Episode.Reason.name : Episode.Reason → String
  | .stepBudget => "step_budget"
  | .organismRecycled => "organism_recycled"
  | .damageCap => "damage_cap"

def Episode.Reason.ofName? (name : String) : Option Episode.Reason :=
  [.stepBudget, .organismRecycled, .damageCap].find? (·.name = name)

instance : Writable Episode.Reason := ⟨fun r => .text r.name⟩
instance : Readable Episode.Reason :=
  ⟨fun format d => (d.caseName? format).bind Episode.Reason.ofName?⟩

instance : Writable Point := ⟨fun p => .record [("x", encode p.x), ("y", encode p.y)]⟩
instance : Readable Point where
  decode format := FieldReader.run format ["x", "y"] do
    return ⟨← required format, ← required format⟩

instance : Writable Pose :=
  ⟨fun p => .record [("x", encode p.x), ("y", encode p.y), ("heading", encode p.heading)]⟩
instance : Readable Pose where
  decode format := FieldReader.run format ["x", "y", "heading"] do
    return ⟨← required format, ← required format, ← required format⟩

instance : Writable Handle where
  encode h := .record
    [("id", encode h.id), ("team", encode h.team), ("group", encode h.group),
      ("step", encode h.step)]
instance : Readable Handle where
  decode format := FieldReader.run format ["id", "team", "group", "step"] do
    return ⟨← required format, ← required format, ← required format, ← required format⟩

instance : Writable View where
  encode v := .record
    [("id", encode v.id), ("team", encode v.team), ("pose", encode v.pose),
      ("prev_pose", encode v.previousPose), ("total_damage", encode v.totalDamage)]
instance : Readable View where
  decode format := FieldReader.run format ["id", "team", "pose", "prev_pose", "total_damage"] do
    return ⟨← required format, ← required format, ← required format, ← required format,
      ← required format⟩

instance : Writable Strike where
  encode
    | .agent id => .record [("Agent", encode id)]
    | .object id => .record [("Object", encode id)]
instance : Readable Strike where
  decode format
    | .record [("Agent", id)] => (decode format id).map .agent
    | .record [("Object", id)] => (decode format id).map .object
    | _ => none

instance : Writable Sensor where
  encode
    | .ray angle radius mask => .record [("Ray", .record
        [("angle", encode angle), ("radius", encode radius), ("mask", encode mask)])]
    | .radar left right bottom top radius mask => .record [("Radar", .record
        [("left", encode left), ("right", encode right), ("bottom", encode bottom),
          ("top", encode top), ("radius", encode radius), ("mask", encode mask)])]
/-- Sensors are read from parsed JSON values, in which the content of a kind with named fields is an
object, never an array of the fields. -/
instance : Readable Sensor where
  decode format
    | .record [("Ray", .record fields)] =>
      .record fields |> FieldReader.run format ["angle", "radius", "mask"] do
        return .ray (← required format) (← required format) (← required format)
    | .record [("Radar", .record fields)] =>
      .record fields |>
        FieldReader.run format ["left", "right", "bottom", "top", "radius", "mask"] do
          return .radar (← required format) (← required format) (← required format)
            (← required format) (← required format) (← required format)
    | _ => none

instance : Writable Interval :=
  ⟨fun b => .record [("min", encode b.low), ("max", encode b.high)]⟩
instance : Readable Interval where
  decode format := FieldReader.run format ["min", "max"] do
    return ⟨← required format, ← required format⟩

instance : Writable Shape := ⟨fun s => .record [("bounds", encode s.bounds)]⟩
instance : Readable Shape where
  decode format := FieldReader.run format ["bounds"] do return ⟨← required format⟩

instance : Writable Interface where
  encode i := .record
    [("sensors", encode i.sensors), ("actions", encode i.actions), ("rewards", encode i.rewards)]
instance : Readable Interface where
  decode format := FieldReader.run format ["sensors", "actions", "rewards"] do
    return ⟨← required format, ← required format, ← required format⟩

end FlagCombat
