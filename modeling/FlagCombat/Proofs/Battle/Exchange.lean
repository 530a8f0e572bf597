import FlagCombat.Arena.Basic
import FlagCombat.Proofs.Battle.Relabel

/-!
The arena with its two teams exchanged: every body is on the other team, and every sensor looks for
either team where it looked for the other. Nothing that the arena shows to anybody changes, so the
exchange is a relabelling of the battles in it.
-/

namespace FlagCombat

namespace Mask

theorem intersects_union (a b c : Mask) :
    (a.union b).intersects c = (a.intersects c || b.intersects c) := by
  have hdistrib : (a.bits ||| b.bits) &&& c.bits = a.bits &&& c.bits ||| b.bits &&& c.bits := by
    apply UInt32.eq_of_toBitVec_eq
    simp [BitVec.and_or_distrib_right]
  rw [Bool.eq_iff_iff]
  simp only [intersects, union, hdistrib, bne_iff_ne, Bool.or_eq_true, ne_eq, UInt32.or_eq_zero_iff]
  rw [Decidable.not_and_iff_or_not]

/-- The mask without the kinds of another one. -/
def without (a b : Mask) : Mask := ⟨a.bits &&& ~~~b.bits⟩

theorem intersects_without {b c : Mask} {kinds : UInt32} (h : ~~~b.bits &&& c.bits = kinds)
    (a : Mask) : (a.without b).intersects c = a.intersects ⟨kinds⟩ := by
  unfold without intersects
  rw [UInt32.and_assoc, h]

/-- The mask that looks for either team where the mask looks for the other. -/
def exchanged (m : Mask) : Mask :=
  (m.without ((team .zero).union (team .one))).union
    ((if m.intersects (team .zero) then team .one else none).union
      (if m.intersects (team .one) then team .zero else none))

theorem intersects_exchanged (m : Mask) (t : Team) :
    m.exchanged.intersects (team t.opponent) = m.intersects (team t) := by
  have hrest :
      (m.without ((team .zero).union (team .one))).intersects (team t.opponent) = false := by
    have hnone : ~~~((team .zero).union (team .one)).bits &&& (team t.opponent).bits = 0 := by
      cases t <;> decide
    rw [intersects_without hnone]
    simp [intersects]
  unfold exchanged
  rw [intersects_union, intersects_union, hrest, Bool.false_or]
  cases t with
  | zero =>
    cases m.intersects (team .zero) <;> cases m.intersects (team .one) <;> decide
  | one =>
    cases m.intersects (team .zero) <;> cases m.intersects (team .one) <;> decide

/-- Kinds that are no team are looked for as before. -/
theorem intersects_exchanged_of_kind {kind : Mask}
    (h : kind = obstacle ∨ kind = flag) (m : Mask) :
    m.exchanged.intersects kind = m.intersects kind := by
  have hrest :
      (m.without ((team .zero).union (team .one))).intersects kind = m.intersects kind := by
    have hkept : ~~~((team .zero).union (team .one)).bits &&& kind.bits = kind.bits := by
      rcases h with rfl | rfl <;> decide
    rw [intersects_without hkept]
  have hteams : ((if m.intersects (team .zero) then team .one else none).union
      (if m.intersects (team .one) then team .zero else none)).intersects kind = false := by
    rcases h with rfl | rfl <;> cases m.intersects (team .zero) <;>
      cases m.intersects (team .one) <;> decide
  rw [exchanged, intersects_union, hrest, hteams, Bool.or_false]

theorem exchanged_team (t : Team) : (team t).exchanged = team t.opponent := by
  cases t <;> decide

theorem exchanged_shotBlockers : shotBlockers.exchanged = shotBlockers := by decide

end Mask

/-- The sensor that looks for either team where the sensor looks for the other. -/
def Sensor.exchanged : Sensor → Sensor
  | .ray angle radius mask => .ray angle radius mask.exchanged
  | .radar left right bottom top radius mask => .radar left right bottom top radius mask.exchanged

theorem SensorLayout.sensors_exchanged (l : SensorLayout) (agent : Handle) :
    l.sensors { agent with team := agent.team.opponent } =
      (l.sensors agent).map Sensor.exchanged := by
  have hobstacle : Mask.obstacle.exchanged = Mask.obstacle := by decide
  have hflag : Mask.flag.exchanged = Mask.flag := by decide
  unfold sensors sector
  simp [Sensor.exchanged, hobstacle, hflag, Mask.exchanged_team, Function.comp_def]

def Body.exchanged (b : Body) : Body :=
  { b with team := b.team.opponent, sensors := b.sensors.map Sensor.exchanged }

namespace Arena

/-- The arena with its teams exchanged. -/
def exchanged (a : Arena) : Arena := { a with bodies := a.bodies.mapValues fun _ => Body.exchanged }

variable (a : Arena)

theorem entries_exchanged :
    a.exchanged.bodies.entries = a.bodies.entries.map fun e => (e.1, e.2.exchanged) := rfl

theorem crossings_exchanged (start finish : Point) (mask : Mask) :
    a.exchanged.crossings start finish mask.exchanged = a.crossings start finish mask := by
  have hobstacle := Mask.intersects_exchanged_of_kind (.inl rfl) mask
  have hflag := Mask.intersects_exchanged_of_kind (.inr rfl) mask
  have hwalls : a.exchanged.wallEntry? start finish = a.wallEntry? start finish := rfl
  unfold crossings
  simp only [hobstacle, hflag, hwalls, entries_exchanged, List.filterMap_map, Function.comp_def,
    Body.exchanged, Mask.intersects_exchanged]
  rfl

theorem cast_exchanged (start finish : Point) (mask : Mask) :
    a.exchanged.cast start finish mask.exchanged = a.cast start finish mask := by
  unfold cast
  rw [crossings_exchanged]

theorem radarPoints_exchanged (owner : AgentId) (mask : Mask) :
    a.exchanged.radarPoints owner mask.exchanged = a.radarPoints owner mask := by
  have hflag := Mask.intersects_exchanged_of_kind (.inr rfl) mask
  unfold radarPoints
  simp only [hflag, entries_exchanged, List.filterMap_map, Function.comp_def, Body.exchanged,
    Mask.intersects_exchanged]
  rfl

theorem reading_exchanged (owner : AgentId) (pose : Pose) (s : Sensor) :
    a.exchanged.reading owner pose s.exchanged = a.reading owner pose s := by
  cases s with
  | ray angle radius mask =>
    show a.exchanged.rayReading pose angle radius mask.exchanged = _
    unfold rayReading
    simp only [cast_exchanged]
    rfl
  | radar left right bottom top radius mask =>
    show a.exchanged.radarReading owner pose left right radius mask.exchanged = _
    unfold radarReading
    simp only [radarPoints_exchanged]
    rfl

theorem get?_exchanged (agent : AgentId) :
    a.exchanged.bodies.get? agent = (a.bodies.get? agent).map Body.exchanged :=
  IdMap.get?_mapValues _ _ _

theorem senseChannels_exchanged (agent : AgentId) (observations : List Float) :
    a.exchanged.senseChannels agent observations = a.senseChannels agent observations := by
  unfold senseChannels
  rw [get?_exchanged]
  cases a.bodies.get? agent with
  | none => rfl
  | some body =>
    simp only [Option.map_some, Body.exchanged, ← List.map_take, List.map_map, Function.comp_def,
      reading_exchanged]

theorem modifyBody_exchanged (agent : AgentId) {f f' : Body → Body}
    (h : ∀ body, (f body).exchanged = f' body.exchanged) :
    a.exchanged.modifyBody agent f' = (a.modifyBody agent f).exchanged := by
  unfold modifyBody
  rw [get?_exchanged]
  cases a.bodies.get? agent with
  | none => rfl
  | some body => simp only [Option.map_some, exchanged, IdMap.mapValues_insert, h]

theorem spawn_exchanged (t : Team) (group : Group) (pose : Pose) :
    a.exchanged.spawn t.opponent group pose =
      ((a.spawn t group pose).1, (a.spawn t group pose).2.exchanged) := by
  unfold spawn
  simp only [exchanged, IdMap.mapValues_insert]
  rfl

/-- The exchange of the teams of an arena. -/
def exchange : Relabelling Arena where
  team := Team.opponent
  team_opponent _ := rfl
  layout dimensions := dimensions
  host := exchanged
  sensor := Sensor.exchanged
  sensors := SensorLayout.sensors_exchanged
  rayCast a start finish := by
    have hcast := a.cast_exchanged start finish .shotBlockers
    rw [Mask.exchanged_shotBlockers] at hcast
    exact congrArg (fun crossings => (crossings.map Crossing.strike, a.exchanged)) hcast
  transform a agent := by
    show (a.exchanged.bodies.get? agent).map Body.pose = (a.bodies.get? agent).map Body.pose
    rw [get?_exchanged, Option.map_map]
    rfl
  setTransform a agent pose := a.modifyBody_exchanged agent fun _ => rfl
  setAnimation _ _ _ := rfl
  setAnimationSpeed _ _ _ := rfl
  frameDelay _ := rfl
  addSensor a agent s := a.modifyBody_exchanged agent fun body => by simp [Body.exchanged]
  senseChannels a agent observations :=
    congrArg (·, a.exchanged) (a.senseChannels_exchanged agent observations)
  spawnAgent := spawn_exchanged
  despawnAgent a agent := by
    show { a.exchanged with bodies := a.exchanged.bodies.erase agent } = _
    simp only [exchanged, ← IdMap.mapValues_erase]
    rfl
  stopScript _ _ := rfl

variable {T : Type} (b : Battle Arena T)

theorem reset_exchange (agent : Handle) :
    ((exchange.battle b).reset (exchange.handle agent)).map ((), ·) =
      exchange.outcome id ((b.reset agent).map ((), ·)) := by
  rw [exchange.reset_battle]
  cases b.reset agent <;> rfl

/-- A step earns the same on either team. -/
theorem step_exchange [Trainer T] (agent : Handle) (action : List Float) :
    (exchange.battle b).step (exchange.handle agent) action =
      exchange.outcome id (b.step agent action) := by
  obtain ⟨score, hscored, hstep⟩ := exchange.step_battle b agent action
  rw [hstep]
  cases hok : b.step agent action with
  | error e => rfl
  | ok r => exact congrArg (fun rewards => Except.ok (rewards, _)) (hscored r.1 r.2 hok).symm

end Arena

end FlagCombat
