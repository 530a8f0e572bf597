import FlagCombat.Proofs.Battle.Shot

/-!
Battles under other labels. A relabelling gives the teams other names, and the host and the sensors
with them, and it may lay rewards out anew. Whatever a call does in a battle, it does in the
relabelled battle too, relabelled: nothing is decided by the name of a team or by the layout of a
reward.
-/

namespace FlagCombat

namespace IdMap

variable {α : Type u}

theorem modify_mapValues (m : IdMap α) (k : AgentId) {f g : α → α} (h : ∀ a, g (f a) = f (g a)) :
    (m.mapValues fun _ => g).modify k f = (m.modify k f).mapValues fun _ => g := by
  apply ext_get?
  intro k'
  simp only [get?_mapValues, get?_modify]
  split
  · cases m.get? k' <;> simp [h]
  · rfl

theorem values_mapValues (m : IdMap α) (g : α → α) :
    (m.mapValues fun _ => g).values = m.values.map g := by
  simp [values, mapValues]

/-- Sets of ids are known by their members. -/
theorem ext_contains {m n : IdMap Unit} (h : ∀ k, m.contains k = n.contains k) : m = n := by
  apply ext_get?
  intro k
  have hk := h k
  unfold contains at hk
  cases hm : m.get? k <;> cases hn : n.get? k <;> simp [hm, hn] at hk ⊢

end IdMap

namespace Teams

/-- Teams are known by the team of every agent. -/
theorem ext_teamOf {t t' : Teams} (h : ∀ agent, t.teamOf agent = t'.teamOf agent) : t = t' := by
  obtain ⟨⟨zero, one⟩, teams, kept⟩ := t
  obtain ⟨⟨zero', one'⟩, teams', kept'⟩ := t'
  have hteams : teams = teams' := IdMap.ext_get? h
  subst hteams
  have hzero : zero = zero' := IdMap.ext_contains fun k =>
    Bool.eq_iff_iff.2 ((kept .zero k).trans (kept' .zero k).symm)
  have hone : one = one' := IdMap.ext_contains fun k =>
    Bool.eq_iff_iff.2 ((kept .one k).trans (kept' .one k).symm)
  subst hzero hone
  rfl

/-- The teams under other names, if renaming twice gives the old ones back. -/
def relabel (t : Teams) (f : Team → Team) (hf : ∀ team, f (f team) = team) : Teams where
  sets := ⟨t.sets.of (f .zero), t.sets.of (f .one)⟩
  teams := t.teams.mapValues fun _ => f
  kept team agent := by
    have hset : (⟨t.sets.of (f .zero), t.sets.of (f .one)⟩ : MemberSets).of team =
        t.sets.of (f team) := by cases team <;> rfl
    rw [hset, t.kept, IdMap.get?_mapValues]
    cases t.teams.get? agent with
    | none => simp
    | some own =>
      rw [Option.map_some, Option.some.injEq, Option.some.injEq]
      exact ⟨fun h => h ▸ hf team, fun h => h ▸ (hf own).symm⟩

section Relabel

variable (t : Teams) (f : Team → Team) (hf : ∀ team, f (f team) = team)

@[simp] theorem teamOf_relabel (agent : AgentId) :
    (t.relabel f hf).teamOf agent = (t.teamOf agent).map f := IdMap.get?_mapValues _ _ _

theorem members_relabel (team : Team) : (t.relabel f hf).members (f team) = t.members team := by
  have hset : (t.relabel f hf).sets.of (f team) = t.sets.of (f (f team)) := by
    cases f team <;> rfl
  unfold members
  rw [hset, hf]

@[simp] theorem friendsOf_relabel (agent : AgentId) :
    (t.relabel f hf).friendsOf agent = t.friendsOf agent := by
  unfold friendsOf
  rw [teamOf_relabel]
  cases t.teamOf agent with
  | none => rfl
  | some team => exact t.members_relabel f hf team

@[simp] theorem foesOf_relabel (h : ∀ team, f team.opponent = (f team).opponent)
    (agent : AgentId) : (t.relabel f hf).foesOf agent = t.foesOf agent := by
  unfold foesOf
  rw [teamOf_relabel]
  cases t.teamOf agent with
  | none => rfl
  | some team =>
    show (t.relabel f hf).members (f team).opponent = _
    rw [← h, members_relabel]

@[simp] theorem hasOtherFriends_relabel (agent : AgentId) :
    (t.relabel f hf).hasOtherFriends agent = t.hasOtherFriends agent := by
  unfold hasOtherFriends
  rw [friendsOf_relabel]

theorem register_relabel (agent : AgentId) (team : Team) :
    ((t.relabel f hf).register agent (f team)).2 = (t.register agent team).2.relabel f hf := by
  have hteam := t.teamOf_relabel f hf agent
  cases h : t.teamOf agent with
  | none =>
    rw [h] at hteam
    apply ext_teamOf
    intro other
    rw [teamOf_register hteam, teamOf_relabel, teamOf_relabel, teamOf_register h]
    split <;> rfl
  | some own =>
    have hout : (t.relabel f hf).teamOf agent ≠ none := by simp [h]
    rw [register, register, dif_neg hout, dif_neg (by simp [h])]

theorem remove_relabel (agent : AgentId) :
    ((t.relabel f hf).remove agent).2 = (t.remove agent).2.relabel f hf := by
  apply ext_teamOf
  intro other
  rw [teamOf_remove, teamOf_relabel, teamOf_relabel, teamOf_remove]
  split <;> rfl

end Relabel

end Teams

/-- Other names for the teams, which a host and its sensors go along with, and another layout of
rewards. -/
structure Relabelling (H : Type) [Host H] where
  team : Team → Team
  team_opponent (t : Team) : team t.opponent = (team t).opponent
  layout : List Dimension → List Dimension
  host : H → H
  sensor : Sensor → Sensor
  sensors (l : SensorLayout) (agent : Handle) :
    l.sensors { agent with team := team agent.team } = (l.sensors agent).map sensor
  rayCast (h : H) (start finish : Point) :
    Host.rayCast (host h) start finish .shotBlockers =
      ((Host.rayCast h start finish .shotBlockers).1,
        host (Host.rayCast h start finish .shotBlockers).2)
  transform (h : H) (agent : AgentId) : Host.transform (host h) agent = Host.transform h agent
  setTransform (h : H) (agent : AgentId) (pose : Pose) :
    Host.setTransform (host h) agent pose = host (Host.setTransform h agent pose)
  setAnimation (h : H) (agent : AgentId) (name : String) :
    Host.setAnimation (host h) agent name = host (Host.setAnimation h agent name)
  setAnimationSpeed (h : H) (agent : AgentId) (speed : Float) :
    Host.setAnimationSpeed (host h) agent speed = host (Host.setAnimationSpeed h agent speed)
  frameDelay (h : H) : Host.frameDelay (host h) = Host.frameDelay h
  addSensor (h : H) (agent : AgentId) (s : Sensor) :
    Host.addSensor (host h) agent (sensor s) = host (Host.addSensor h agent s)
  senseChannels (h : H) (agent : AgentId) (observations : List Float) :
    Host.senseChannels (host h) agent observations =
      ((Host.senseChannels h agent observations).1,
        host (Host.senseChannels h agent observations).2)
  spawnAgent (h : H) (t : Team) (group : Group) (pose : Pose) :
    Host.spawnAgent (host h) (team t) group pose =
      ((Host.spawnAgent h t group pose).1, host (Host.spawnAgent h t group pose).2)
  despawnAgent (h : H) (agent : AgentId) :
    Host.despawnAgent (host h) agent = host (Host.despawnAgent h agent)
  stopScript (h : H) (script : String) :
    Host.stopScript (host h) script = host (Host.stopScript h script)

namespace Relabelling

variable {H T α β : Type} [Host H] (ρ : Relabelling H)

/-- There are two teams, so a renaming that keeps opponents keeps the names or exchanges them. -/
theorem team_team (t : Team) : ρ.team (ρ.team t) = t := by
  have hone : ρ.team .one = (ρ.team .zero).opponent := ρ.team_opponent .zero
  cases hzero : ρ.team .zero <;> cases t <;> simp [hone, hzero, Team.opponent]

theorem team_inj {t t' : Team} : ρ.team t = ρ.team t' ↔ t = t' :=
  ⟨fun h => by rw [← ρ.team_team t, h, ρ.team_team], congrArg ρ.team⟩

def handle (agent : Handle) : Handle := { agent with team := ρ.team agent.team }

def combatant (c : Combatant) : Combatant := { c with team := ρ.team c.team }

def error : BattleError → BattleError
  | .teamMismatch agent registered claimed =>
    .teamMismatch agent (ρ.team registered) (ρ.team claimed)
  | e => e

def profile (p : Profile) : Profile := { p with dimensions := ρ.layout p.dimensions }

def teams (t : Teams) : Teams := t.relabel ρ.team ρ.team_team

def battle (b : Battle H T) : Battle H T where
  profile := ρ.profile b.profile
  host := ρ.host b.host
  trainer := b.trainer
  combatants := b.combatants.mapValues fun _ => ρ.combatant
  teams := ρ.teams b.teams
  snapshot := b.snapshot
  generator := b.generator
  hits := b.hits

/-- What a call comes to in the relabelled battle, its answer being another one. -/
def outcome (f : α → β) :
    Except BattleError (α × Battle H T) → Except BattleError (β × Battle H T)
  | .ok (a, b) => .ok (f a, ρ.battle b)
  | .error e => .error (ρ.error e)

section Snapshot

variable (t : Teams) (s : Snapshot) (agent : AgentId)

@[simp] theorem hasOtherFriends_teams :
    (ρ.teams t).hasOtherFriends agent = t.hasOtherFriends agent :=
  t.hasOtherFriends_relabel _ _ agent

@[simp] theorem target_teams (targeting : Targeting) :
    s.target (ρ.teams t) targeting agent = s.target t targeting agent := by
  unfold Snapshot.target Poses.target teams
  rw [Teams.foesOf_relabel _ _ _ ρ.team_opponent]

@[simp] theorem nearestFriend_teams :
    s.nearestFriend (ρ.teams t) agent = s.nearestFriend t agent := by
  unfold Snapshot.nearestFriend Poses.nearestFriend teams
  rw [Teams.friendsOf_relabel]

@[simp] theorem nearestFoe_teams : s.nearestFoe (ρ.teams t) agent = s.nearestFoe t agent := by
  unfold Snapshot.nearestFoe Poses.nearestFoe teams
  rw [Teams.foesOf_relabel _ _ _ ρ.team_opponent]

@[simp] theorem centroid?_teams (poses : Poses) :
    poses.centroid? (ρ.teams t) agent = poses.centroid? t agent := by
  unfold Poses.centroid? teams
  rw [Teams.friendsOf_relabel]

end Snapshot

section Parts

variable (b : Battle H T)

@[simp] theorem get?_battle (agent : AgentId) :
    (ρ.battle b).combatants.get? agent = (b.combatants.get? agent).map ρ.combatant :=
  IdMap.get?_mapValues _ _ _

@[simp] theorem hasOtherFriends_battle (agent : AgentId) :
    (ρ.battle b).teams.hasOtherFriends agent = b.teams.hasOtherFriends agent :=
  ρ.hasOtherFriends_teams b.teams agent

theorem modifyAgent_battle (agent : AgentId) {f : Combatant → Combatant}
    (hf : ∀ c, ρ.combatant (f c) = f (ρ.combatant c)) :
    (ρ.battle b).modifyAgent agent f = ρ.battle (b.modifyAgent agent f) := by
  simp only [Battle.modifyAgent_eq, battle, IdMap.modify_mapValues _ _ hf]

theorem showPose_battle (agent : AgentId) :
    (ρ.battle b).showPose agent = ρ.battle (b.showPose agent) := by
  unfold Battle.showPose
  rw [get?_battle]
  cases b.combatants.get? agent with
  | none => rfl
  | some c => simp only [battle, Option.map_some, combatant, setTransform]

theorem freezePose_battle (agent : AgentId) :
    (ρ.battle b).freezePose agent = ρ.battle (b.freezePose agent) := by
  unfold Battle.freezePose
  rw [get?_battle]
  cases b.combatants.get? agent <;> rfl

theorem newcomer_battle (agent : Handle) :
    (ρ.battle b).newcomer (ρ.handle agent) = ρ.combatant (b.newcomer agent) := by
  unfold Battle.newcomer
  simp only [battle, handle, ρ.transform]
  cases Host.transform b.host agent.id <;> rfl

/-- A record is made or missed alike under other names. -/
theorem enroll_battle (agent : Handle) :
    (ρ.battle b).enroll (ρ.handle agent) = ((b.enroll agent).map ρ.battle).mapError ρ.error := by
  unfold Battle.enroll
  have hid : (ρ.handle agent).id = agent.id := rfl
  rw [hid, get?_battle]
  cases b.combatants.get? agent.id with
  | none =>
    simp only [Option.map_none, newcomer_battle]
    show Except.ok _ = Except.ok _
    simp only [battle, teams, combatant, handle, IdMap.mapValues_insert, Teams.register_relabel]
  | some c =>
    have hteam : (ρ.combatant c).team = (ρ.handle agent).team ↔ c.team = agent.team := ρ.team_inj
    simp only [Option.map_some, hteam]
    split <;> rfl

theorem placeAtStart_battle (agent : AgentId) :
    (ρ.battle b).placeAtStart agent = ρ.battle (b.placeAtStart agent) := by
  have htransform : Host.transform (ρ.battle b).host agent = Host.transform b.host agent :=
    ρ.transform b.host agent
  unfold Battle.placeAtStart
  dsimp only
  rw [htransform, ← freezePose_battle, ← showPose_battle, ← modifyAgent_battle]
  · rfl
  · exact fun c => rfl

theorem requestGrowth_battle [Trainer T] :
    (ρ.battle b).requestGrowth = ρ.battle b.requestGrowth := by
  unfold Battle.requestGrowth
  have htrainer : (ρ.battle b).trainer = b.trainer := rfl
  rw [htrainer]
  split <;> rfl

theorem animatedHost_battle (agent : AgentId) (motion : Motion) :
    (ρ.battle b).animatedHost agent motion = ρ.host (b.animatedHost agent motion) := by
  have hspeed (h : H) : (if Host.frameDelay (ρ.host h) > 0.0 then
      Host.setAnimationSpeed (ρ.host h) agent
        (motion.moveBy * Host.animationFrames / Host.frameDelay (ρ.host h))
      else ρ.host h) = ρ.host (if Host.frameDelay h > 0.0 then
      Host.setAnimationSpeed h agent (motion.moveBy * Host.animationFrames / Host.frameDelay h)
      else h) := by
    rw [ρ.frameDelay, ρ.setAnimationSpeed]
    split <;> rfl
  unfold Battle.animatedHost
  rw [get?_battle]
  cases b.combatants.get? agent with
  | none => exact hspeed b.host
  | some c =>
    have hchanged : ((ρ.combatant c).animate Host.runAnimation).1 =
        (c.animate Host.runAnimation).1 := by
      unfold Combatant.animate combatant
      split <;> rfl
    simp only [Option.map_some, hchanged, battle, ρ.setAnimation]
    split
    · exact hspeed _
    · exact hspeed _

theorem animate_battle (agent : AgentId) (motion : Motion) :
    (ρ.battle b).animate agent motion = ρ.battle (b.animate agent motion) := by
  rw [Battle.animate_eq, Battle.animate_eq, animatedHost_battle]
  simp only [battle]
  rw [IdMap.modify_mapValues]
  exact fun c => rfl

end Parts

section Shot

variable (b : Battle H T) (agent : AgentId)

theorem target_battle :
    (ρ.battle b).target agent = ((b.target agent).1, ρ.battle (b.target agent).2) := by
  unfold Battle.target
  rw [hasOtherFriends_battle]
  split
  · simp only [battle, target_teams, profile]
  · rfl

theorem aim?_battle : (ρ.battle b).aim? agent = b.aim? agent := by
  unfold Battle.aim?
  rw [target_battle]
  rfl

theorem victim?_battle : (ρ.battle b).victim? agent = b.victim? agent := by
  unfold Battle.victim?
  rw [aim?_battle]
  simp only [battle, IdMap.contains_mapValues, ρ.rayCast]

theorem hostAfterShot_battle :
    (ρ.battle b).hostAfterShot agent = ρ.host (b.hostAfterShot agent) := by
  unfold Battle.hostAfterShot
  rw [aim?_battle]
  cases b.aim? agent with
  | none => rfl
  | some aim => simp only [battle, ρ.rayCast]

theorem recordsAfterShot_battle :
    (ρ.battle b).recordsAfterShot agent =
      (b.recordsAfterShot agent).mapValues fun _ => ρ.combatant := by
  unfold Battle.recordsAfterShot
  rw [victim?_battle]
  cases b.victim? agent with
  | none => rfl
  | some victim =>
    dsimp only [battle]
    rw [IdMap.modify_mapValues]
    exact fun c => rfl

theorem askedSnapshot_battle : (ρ.battle b).askedSnapshot agent = b.askedSnapshot agent := by
  unfold Battle.askedSnapshot
  rw [target_battle]
  simp only [battle, nearestFriend_teams, nearestFoe_teams]

theorem outcome_battle (motion : Motion) (c : Combatant) :
    (ρ.battle b).outcome agent motion (ρ.combatant c) = b.outcome agent motion c := by
  unfold Battle.outcome
  rw [target_battle, victim?_battle]
  simp only [battle, nearestFriend_teams, nearestFoe_teams, combatant, profile]

/-- A reward scores the declared dimensions, and the scores do not depend on what is declared. -/
theorem reward_battle {b : Battle H T} {agent : AgentId}
    (hc : b.combatants.contains agent = true) (motion : Motion) :
    ∃ score : Dimension → Float, (b.reward agent motion).1 = b.profile.dimensions.map score ∧
      (ρ.battle b).reward agent motion =
        ((ρ.layout b.profile.dimensions).map score, ρ.battle (b.reward agent motion).2) := by
  cases hfriends : b.teams.hasOtherFriends agent with
  | false =>
    have hlone : (ρ.battle b).teams.hasOtherFriends agent = false := by simpa using hfriends
    rw [Battle.reward_of_lone hfriends, Battle.reward_of_lone hlone]
    exact ⟨fun _ => 0.0, rfl, rfl⟩
  | true =>
    have hboth : (ρ.battle b).teams.hasOtherFriends agent = true := by simpa using hfriends
    rw [← Battle.contains_recordsAfterShot b agent] at hc
    obtain ⟨c, hc⟩ := (IdMap.contains_eq_true_iff _).1 hc
    have hc' : ((ρ.battle b).recordsAfterShot agent).get? agent = some (ρ.combatant c) := by
      simp [recordsAfterShot_battle, hc]
    rw [Battle.reward_eq hfriends hc, Battle.reward_eq hboth hc', outcome_battle,
      hostAfterShot_battle, recordsAfterShot_battle, askedSnapshot_battle, victim?_battle]
    refine ⟨(b.outcome agent motion c).score, rfl, ?_⟩
    rw [IdMap.modify_mapValues]
    · rfl
    · exact fun c => rfl

end Shot

section Respond

variable (b : Battle H T)

theorem equip_battle (agent : Handle) :
    (ρ.battle b).equip (ρ.handle agent) = ρ.battle (b.equip agent) := by
  have hsensors : (ρ.battle b).profile.sensors.sensors (ρ.handle agent) =
      (b.profile.sensors.sensors agent).map ρ.sensor := ρ.sensors b.profile.sensors agent
  have hfold (sensors : List Sensor) (h : H) :
      (sensors.map ρ.sensor).foldl (fun h s => Host.addSensor h agent.id s) (ρ.host h) =
        ρ.host (sensors.foldl (fun h s => Host.addSensor h agent.id s) h) := by
    induction sensors generalizing h with
    | nil => rfl
    | cons s sensors ih => rw [List.map_cons, List.foldl_cons, ρ.addSensor, ih, List.foldl_cons]
  unfold Battle.equip
  dsimp only
  rw [hsensors]
  exact congrArg (fun host => { ρ.battle b with host }) (hfold _ b.host)

theorem restart_battle (agent : Handle) :
    (ρ.battle b).restart (ρ.handle agent) = ρ.battle (b.restart agent) := by
  have hforgotten := ρ.modifyAgent_battle b agent.id (f := Combatant.resetEpisode) fun _ => rfl
  unfold Battle.restart
  have hid : (ρ.handle agent).id = agent.id := rfl
  have hgroup : (ρ.handle agent).group = agent.group := rfl
  rw [hid, hgroup, hforgotten]
  generalize b.modifyAgent agent.id Combatant.resetEpisode = r
  dsimp only
  split
  · rw [get?_battle]
    cases r.combatants.get? agent.id with
    | none => rfl
    | some c =>
      dsimp only [Option.map_some]
      rw [← freezePose_battle, ← showPose_battle]
      simp only [battle, IdMap.mapValues_insert]
      rfl
  · rfl

theorem perceive_battle (agent : AgentId) (observations : List Float) :
    (ρ.battle b).perceive agent observations =
      ((b.perceive agent observations).1, ρ.battle (b.perceive agent observations).2) := by
  unfold Battle.perceive
  rw [target_battle]
  generalize b.target agent = r
  obtain ⟨found, t⟩ := r
  dsimp only
  rw [hasOtherFriends_battle, get?_battle]
  have hcenter : (ρ.battle t).snapshot.poses.centroid? (ρ.battle t).teams agent =
      t.snapshot.poses.centroid? t.teams agent := ρ.centroid?_teams _ _ _
  rw [hcenter]
  split
  · cases t.combatants.get? agent with
    | none => rfl
    | some c => cases t.snapshot.poses.centroid? t.teams agent <;> rfl
  · rfl

theorem beginTick_battle (tick : UInt64) :
    (ρ.battle b).beginTick tick = ρ.battle (b.beginTick tick) := by
  unfold Battle.beginTick
  simp only [battle, IdMap.values_mapValues, List.map_map]
  rfl

theorem removeAgent_battle (agent : AgentId) :
    (ρ.battle b).removeAgent agent = ρ.outcome ρ.combatant (b.removeAgent agent) := by
  unfold Battle.removeAgent
  rw [get?_battle]
  cases b.combatants.get? agent with
  | none => rfl
  | some c =>
    dsimp only [Option.map_some, outcome]
    simp only [battle, teams, Teams.remove_relabel, IdMap.mapValues_erase]

theorem cleanup_battle : (ρ.battle b).cleanup = ρ.battle b.cleanup := by
  unfold Battle.cleanup
  simp only [battle, ρ.stopScript]

theorem register_battle (agent : Handle) :
    (ρ.battle b).register (ρ.handle agent) =
      ρ.outcome (fun shapes => { shapes with rewards := (ρ.battle b).profile.interface.rewards })
        (b.register agent) := by
  unfold Battle.register
  rw [enroll_battle]
  cases h : b.enroll agent with
  | error e => rfl
  | ok e =>
    have hprofile : e.profile = b.profile := (Battle.enroll_changes h).profile
    show Except.ok ((ρ.profile e.profile).interface, (ρ.battle e).equip (ρ.handle agent)) = _
    rw [equip_battle, hprofile]
    dsimp only [Except.map, outcome]
    rw [hprofile]
    rfl

theorem reset_battle (agent : Handle) :
    (ρ.battle b).reset (ρ.handle agent) = ((b.reset agent).map ρ.battle).mapError ρ.error := by
  unfold Battle.reset
  rw [enroll_battle]
  cases b.enroll agent with
  | error e => rfl
  | ok e => exact congrArg Except.ok (ρ.restart_battle e agent)

theorem sense_battle (agent : Handle) (observations : List Float) :
    (ρ.battle b).sense (ρ.handle agent) observations =
      ρ.outcome id (b.sense agent observations) := by
  unfold Battle.sense
  split
  · rfl
  · rw [enroll_battle]
    cases b.enroll agent with
    | error e => rfl
    | ok e => exact congrArg Except.ok (ρ.perceive_battle e agent.id observations)

variable [Trainer T]

theorem judge_battle (agent : Handle) :
    (ρ.battle b).judge (ρ.handle agent) = ((b.judge agent).1, ρ.battle (b.judge agent).2) := by
  unfold Battle.judge
  have hid : (ρ.handle agent).id = agent.id := rfl
  rw [hid, get?_battle]
  cases b.combatants.get? agent.id with
  | none => rfl
  | some c =>
    dsimp only [Option.map_some]
    simp only [battle, IdMap.mapValues_insert]
    rfl

theorem isEpisodeOver_battle (agent : Handle) :
    (ρ.battle b).isEpisodeOver (ρ.handle agent) = ρ.outcome id (b.isEpisodeOver agent) := by
  unfold Battle.isEpisodeOver
  rw [enroll_battle]
  cases b.enroll agent with
  | error e => rfl
  | ok e => exact congrArg Except.ok (ρ.judge_battle e agent)

theorem walking_battle (agent : Handle) (action : List Float) :
    (ρ.battle b).walking (ρ.handle agent) action = ρ.battle (b.walking agent action) := by
  unfold Battle.walking
  rw [requestGrowth_battle, animate_battle]
  rfl

theorem act_battle {b : Battle H T} {agent : Handle}
    (hc : b.combatants.contains agent.id = true) (action : List Float) :
    ∃ score : Dimension → Float, (b.act agent action).1 = b.profile.dimensions.map score ∧
      (ρ.battle b).act (ρ.handle agent) action =
        ((ρ.layout b.profile.dimensions).map score, ρ.battle (b.act agent action).2) := by
  by_cases hfirst : agent.step = 0 ∧ agent.group.isMobile
  · have hfirst' : (ρ.handle agent).step = 0 ∧ (ρ.handle agent).group.isMobile := hfirst
    unfold Battle.act
    rw [if_pos hfirst, if_pos hfirst', ← placeAtStart_battle]
    exact ⟨fun _ => 0.0, rfl, rfl⟩
  · have hfirst' : ¬((ρ.handle agent).step = 0 ∧ (ρ.handle agent).group.isMobile) := hfirst
    have hwalk : (b.walking agent action).combatants.contains agent.id = true := by
      simpa [Battle.walking_eq] using hc
    have hprofile : (b.walking agent action).profile = b.profile := by rw [Battle.walking_eq]
    obtain ⟨score, hscored, hreward⟩ := ρ.reward_battle hwalk (Motion.ofAction action)
    have hid : (ρ.handle agent).id = agent.id := rfl
    rw [hprofile] at hscored hreward
    rw [Battle.act_snd hfirst, Battle.act_snd hfirst', walking_battle, hid, hreward]
    refine ⟨score, hscored, ?_⟩
    rw [← showPose_battle, ← modifyAgent_battle]
    · rfl
    · exact fun c => rfl

/-- A step scores what is declared, and does the same whatever is declared. -/
theorem step_battle (agent : Handle) (action : List Float) :
    ∃ score : Dimension → Float,
      (∀ r b', b.step agent action = .ok (r, b') → r = b.profile.dimensions.map score) ∧
      (ρ.battle b).step (ρ.handle agent) action =
        ρ.outcome (fun _ => (ρ.layout b.profile.dimensions).map score) (b.step agent action) := by
  have hactions : (ρ.battle b).profile.interface.actions = b.profile.interface.actions := rfl
  unfold Battle.step
  rw [hactions]
  cases b.profile.interface.actions.violation? action with
  | some violation => exact ⟨fun _ => 0.0, fun _ _ h => (by cases h), rfl⟩
  | none =>
    dsimp only
    rw [enroll_battle]
    cases h : b.enroll agent with
    | error e => exact ⟨fun _ => 0.0, fun _ _ h => (by cases h), rfl⟩
    | ok e =>
      have hprofile : e.profile = b.profile := (Battle.enroll_changes h).profile
      obtain ⟨score, hscored, hact⟩ := ρ.act_battle (Battle.contains_of_enroll h) action
      rw [hprofile] at hscored hact
      refine ⟨score, ?_, congrArg Except.ok hact⟩
      intro r b' hok
      have hr : e.act agent action = (r, b') := Except.ok.inj hok
      rw [← hscored, hr]

end Respond

end Relabelling

end FlagCombat
