import FlagCombat.Configuration.Basic
import FlagCombat.Document.Values
import FlagCombat.Document.Yaml.Tree

/-!
Reading configurations. A section or a field that is not given keeps the value it stands for; a text
that is blank is the configuration where nothing is given.
-/

namespace FlagCombat

open FieldReader

instance : Readable Targeting where
  decode format := FieldReader.run format ["cone_half_angle", "angular_penalty"] do
    let base : Targeting := {}
    return {
      coneHalfAngle := ← orElse format base.coneHalfAngle
      angularPenalty := ← orElse format base.angularPenalty }

instance : Readable RadarBin where
  decode format := FieldReader.run format ["left", "right"] do
    return ⟨← required format, ← required format⟩

instance : Readable SensorLayout where
  decode format := FieldReader.run format
      ["wall_rays", "ray_radius", "flag_radar", "enemy_radar", "vision_radius"] do
    let base : SensorLayout := {}
    return {
      wallRays := ← orElse format base.wallRays
      rayRadius := ← orElse format base.rayRadius
      flagRadar := ← orElse format base.flagRadar
      enemyRadar := ← orElse format base.enemyRadar
      visionRadius := ← orElse format base.visionRadius }

instance : Readable Profile where
  decode format := FieldReader.run format
      ["fitness_dimensions", "targeting", "sensors", "max_speed", "max_turn", "lifetime",
        "hit_points", "spawn", "spawn_jitter", "flag", "friend_radius"] do
    let base : Profile := {}
    return {
      dimensions := ← orElse format base.dimensions
      targeting := ← orElse format base.targeting
      sensors := ← orElse format base.sensors
      maxSpeed := ← orElse format base.maxSpeed
      maxTurn := ← orElse format base.maxTurn
      lifetime := ← orElse format base.lifetime
      hitPoints := ← orElse format base.hitPoints
      spawn := ← orElse format base.spawn
      spawnJitter := ← orElse format base.spawnJitter
      flag := ← orElse format base.flag
      friendRadius := ← orElse format base.friendRadius }

instance : Readable Obstacle where
  decode format := FieldReader.run format ["x", "y", "radius"] do
    return ⟨← required format, ← required format, ← required format⟩

instance : Readable WorldSettings where
  decode format := FieldReader.run format
      ["name", "seed", "tick_interval_ms", "width", "height", "frame_delay", "obstacles"] do
    let base : WorldSettings := {}
    return {
      name := ← orElse format base.name
      seed := ← orElse format base.seed
      tickIntervalMs := ← orElse format base.tickIntervalMs
      width := ← orElse format base.width
      height := ← orElse format base.height
      frameDelay := ← orElse format base.frameDelay
      obstacles := ← orElse format base.obstacles }

instance : Readable TrainerSettings where
  decode format := FieldReader.run format
      ["pop_size", "exploit_probability", "replacement_interval"] do
    let base : TrainerSettings := {}
    return {
      populationSize := ← orElse format base.populationSize
      exploitProbability := ← orElse format base.exploitProbability
      replacementInterval := ← orElse format base.replacementInterval }

instance : Readable PopulationSettings where
  decode format := FieldReader.run format ["turrets", "turret_line", "turret_spacing"] do
    let base : PopulationSettings := {}
    return {
      turrets := ← orElse format base.turrets
      turretLine := ← orElse format base.turretLine
      turretSpacing := ← orElse format base.turretSpacing }

instance : Readable LimitSettings where
  decode format := FieldReader.run format ["max_ticks", "max_real_time_seconds"] do
    let base : LimitSettings := {}
    return {
      maxTicks := ← orElse format base.maxTicks
      maxSeconds := ← orElse format base.maxSeconds }

instance : Readable LoggingSettings where
  decode format := FieldReader.run format ["level", "summary_interval_ticks"] do
    let base : LoggingSettings := {}
    return {
      level := ← orElse format base.level
      summaryInterval := ← orElse format base.summaryInterval }

instance : Readable Configuration where
  decode format := FieldReader.run format
      ["world", "profile", "trainer", "population", "simulation", "logging"] do
    let base : Configuration := {}
    return {
      world := ← orElse format base.world
      profile := ← orElse format base.profile
      trainer := ← orElse format base.trainer
      population := ← orElse format base.population
      limits := ← orElse format base.limits
      logging := ← orElse format base.logging }

namespace Configuration

/-- Why a configuration cannot be had. -/
inductive Error where
  | unreadableFile
  | malformed
  | invalid (invalidity : Invalidity)
deriving DecidableEq

/-- The error in words; what the system or the text is at fault for is told elsewhere. -/
def Error.message : Error → String
  | .unreadableFile => "failed to read config file"
  | .malformed => "failed to parse config YAML"
  | .invalid invalidity => invalidity.message

/-- The configuration of a YAML text, without any check. -/
def ofYaml? (text : String) : Option Configuration :=
  if text.toList.all Text.isBlank then some {}
  else (Document.Yaml.ofText? text).bind (decode .yaml)

/-- The valid configuration of a YAML text, with the seed that the surroundings name. -/
def parse (text : String) (seedText : Option String) : Except Error Configuration :=
  match ofYaml? text with
  | none => .error .malformed
  | some c =>
    let c := c.withSeed seedText
    match c.validate with
    | .error e => .error (.invalid e)
    | .ok () => .ok c

/-- What there is where a configuration file should be. -/
inductive File where
  | missing
  | unreadable
  | text (contents : String)
deriving DecidableEq

/-- The valid configuration of a file, which must be there. -/
def ofFile (file : File) (seedText : Option String) : Except Error Configuration :=
  match file with
  | .text contents => parse contents seedText
  | _ => .error .unreadableFile

/-- The configuration of a file that may be missing; one that is missing gives nothing and is not
checked. -/
def load (file : File) (seedText : Option String) : Except Error Configuration :=
  match file with
  | .missing => .ok (({} : Configuration).withSeed seedText)
  | file => ofFile file seedText

end Configuration

end FlagCombat
