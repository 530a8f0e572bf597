import FlagCombat.Proofs.Choice
import FlagCombat.Proofs.Battle.Sound

/-!
A step, part by part: the agent walks, shoots, is measured and takes the damage that waited, and
moves. The victim of a shot that lands is a foe of the agent, and nobody else's record changes except
the agent's own.
-/

namespace FlagCombat

namespace Battle

variable {H T : Type} [Host H] [Trainer T]

section Shot

omit [Trainer T]

omit [Host H] in
theorem aim?_of_lone {b : Battle H T} {agent : AgentId}
    (h : b.teams.hasOtherFriends agent = false) : b.aim? agent = none := by
  simp [aim?, target, h]

theorem victim?_of_lone {b : Battle H T} {agent : AgentId}
    (h : b.teams.hasOtherFriends agent = false) : b.victim? agent = none := by
  simp [victim?, aim?_of_lone h]

/-- A victim is the target, and it has a record. -/
theorem target_of_victim {b : Battle H T} {agent foe : AgentId} (h : b.victim? agent = some foe) :
    (b.target agent).1 = some foe ∧ b.combatants.contains foe = true := by
  unfold victim? at h
  obtain ⟨⟨aimed, start, finish⟩, haim, hland⟩ := Option.bind_eq_some_iff.1 h
  dsimp only at hland
  split at hland
  · rename_i hclear
    cases hland
    refine ⟨?_, (Bool.and_eq_true_iff.1 hclear).2⟩
    unfold aim? at haim
    obtain ⟨found, hfound, hends⟩ := Option.bind_eq_some_iff.1 haim
    split at hends
    · cases hends
      exact hfound
    · cases hends
  · cases hland

theorem foe_of_victim {b : Battle H T} (hb : b.snapshot.Coherent b.teams b.profile.targeting)
    {agent foe : AgentId} (h : b.victim? agent = some foe) : foe ∈ b.teams.foesOf agent := by
  have htarget := (target_of_victim h).1
  unfold target at htarget
  split at htarget
  · rw [hb.target_fst agent] at htarget
    exact (Poses.target_mem htarget).1
  · cases htarget

/-- The victim's record is on the other team than the shooter's. -/
theorem Sound.team_of_victim {b : Battle H T} (hb : b.Sound) {agent foe : AgentId}
    {c : Combatant} (hc : b.combatants.get? agent = some c) (h : b.victim? agent = some foe) :
    ∃ d, b.combatants.get? foe = some d ∧ d.team = c.team.opponent := by
  obtain ⟨team, hteam, hfoe⟩ := (Teams.mem_foesOf_iff _).1 (foe_of_victim hb.coherent h)
  rw [hb.teamOf, hc] at hteam
  rw [hb.teamOf] at hfoe
  obtain ⟨d, hd, hdteam⟩ := Option.map_eq_some_iff.1 hfoe
  cases hteam
  exact ⟨d, hd, hdteam⟩

/-- Nobody shoots itself. -/
theorem victim_ne {b : Battle H T} (hb : b.snapshot.Coherent b.teams b.profile.targeting)
    {agent foe : AgentId} (h : b.victim? agent = some foe) : foe ≠ agent := by
  rintro rfl
  obtain ⟨team, hteam, hfoe⟩ := (Teams.mem_foesOf_iff _).1 (foe_of_victim hb h)
  rw [hteam] at hfoe
  exact team.opponent_ne (Option.some.inj hfoe).symm

theorem contains_recordsAfterShot (b : Battle H T) (agent other : AgentId) :
    (b.recordsAfterShot agent).contains other = b.combatants.contains other := by
  unfold recordsAfterShot
  cases b.victim? agent <;> simp

theorem get?_recordsAfterShot (b : Battle H T) (agent other : AgentId) :
    (b.recordsAfterShot agent).get? other = (b.combatants.get? other).map fun c =>
      if b.victim? agent = some other then c.takeHit damagePerHit else c := by
  unfold recordsAfterShot
  cases b.victim? agent with
  | none => simp
  | some foe =>
    by_cases h : other = foe
    · simp [h]
    · simp [h, Ne.symm h]

/-- What is left of a battle after a reward, for an agent with a record. -/
theorem reward_snd {b : Battle H T} {agent : AgentId}
    (hc : b.combatants.contains agent = true) (motion : Motion) :
    (b.reward agent motion).2 = { b with
      host := b.hostAfterShot agent
      snapshot := if b.teams.hasOtherFriends agent then b.askedSnapshot agent else b.snapshot
      combatants :=
        if b.teams.hasOtherFriends agent then
          (b.recordsAfterShot agent).modify agent (·.drainDamage.2)
        else b.combatants
      hits := b.hits + if (b.victim? agent).isSome then 1 else 0 } := by
  cases h : b.teams.hasOtherFriends agent with
  | false => simp [reward_of_lone h, hostAfterShot, aim?_of_lone h, victim?_of_lone h]
  | true =>
    rw [← contains_recordsAfterShot b agent] at hc
    obtain ⟨c, hc⟩ := (IdMap.contains_eq_true_iff _).1 hc
    simp [reward_eq h hc]

end Shot

section Act

omit [Trainer T] in
theorem combatants_showPose (b : Battle H T) (agent : AgentId) :
    (b.showPose agent).combatants = b.combatants := by
  unfold showPose
  cases b.combatants.get? agent <;> rfl

/-- The battle in which an agent that takes a step shoots. -/
def walking (b : Battle H T) (agent : Handle) (action : List Float) : Battle H T :=
  b.requestGrowth.animate agent.id (Motion.ofAction action)

theorem walking_eq (b : Battle H T) (agent : Handle) (action : List Float) :
    b.walking agent action = { b with
      host := b.animatedHost agent.id (Motion.ofAction action)
      trainer := b.requestGrowth.trainer
      combatants := b.combatants.modify agent.id fun c =>
        { c with animation := some Host.runAnimation } } := by
  have hgrowth : b.requestGrowth = { b with trainer := b.requestGrowth.trainer } := by
    unfold requestGrowth
    split <;> rfl
  unfold walking
  rw [animate_eq, hgrowth]
  rfl

theorem Sound.walking {b : Battle H T} (hb : b.Sound) (agent : Handle) (action : List Float) :
    (b.walking agent action).Sound :=
  hb.changes ((requestGrowth_changes b).trans (animate_changes _ agent.id _))

/-- What a step of `agent` makes of the record of `other`. -/
def effect (b : Battle H T) (agent : Handle) (action : List Float) (other : AgentId)
    (c : Combatant) : Combatant :=
  let c := if other = agent.id then { c with animation := some Host.runAnimation } else c
  let c :=
    if (b.walking agent action).victim? agent.id = some other then c.takeHit damagePerHit else c
  if other = agent.id then
    (if b.teams.hasOtherFriends agent.id then c.drainDamage.2 else c).move
      (Motion.ofAction action) b.profile.maxSpeed
  else c

theorem effect_rest (b : Battle H T) (agent : Handle) (action : List Float) (other : AgentId)
    (c : Combatant) : (b.effect agent action other c).team = c.team ∧
      (b.effect agent action other c).status = c.status := by
  unfold effect Combatant.move Combatant.drainDamage Combatant.takeHit
  by_cases ho : other = agent.id
  · simp only [if_pos ho]
    split <;> split <;> exact ⟨rfl, rfl⟩
  · simp only [if_neg ho]
    split <;> exact ⟨rfl, rfl⟩

/-- Every step but the first one of a mobile agent. -/
theorem act_snd {b : Battle H T} {agent : Handle} (h : ¬(agent.step = 0 ∧ agent.group.isMobile))
    (action : List Float) :
    b.act agent action = (((b.walking agent action).reward agent.id (Motion.ofAction action)).1,
      (((b.walking agent action).reward agent.id (Motion.ofAction action)).2.modifyAgent agent.id
        (·.move (Motion.ofAction action) b.profile.maxSpeed)).showPose agent.id) := by
  have hprofile : ((b.walking agent action).reward agent.id
      (Motion.ofAction action)).2.profile = b.profile := by
    rw [(reward_changes _ _ _).profile, walking_eq]
  unfold act
  rw [if_neg h, ← hprofile]
  rfl

theorem get?_act {b : Battle H T} {agent : Handle}
    (h : ¬(agent.step = 0 ∧ agent.group.isMobile))
    (hc : b.combatants.contains agent.id = true) (action : List Float) (other : AgentId) :
    (b.act agent action).2.combatants.get? other =
      (b.combatants.get? other).map (b.effect agent action other) := by
  have hwalk : (b.walking agent action).combatants.contains agent.id = true := by
    simpa [walking_eq] using hc
  have hteams : (b.walking agent action).teams = b.teams := by rw [walking_eq]
  have hrecords : (b.walking agent action).combatants =
      b.combatants.modify agent.id fun c => { c with animation := some Host.runAnimation } := by
    rw [walking_eq]
  rw [act_snd h, combatants_showPose, modifyAgent_eq, reward_snd hwalk, hteams]
  dsimp only
  have hlone : b.teams.hasOtherFriends agent.id = false →
      (b.walking agent action).victim? agent.id = none :=
    fun hf => victim?_of_lone (hteams ▸ hf)
  unfold effect
  cases hf : b.teams.hasOtherFriends agent.id with
  | false =>
    by_cases ho : other = agent.id
    · subst ho
      cases hg : b.combatants.get? agent.id <;> simp [hg, hrecords, hlone hf]
    · cases hg : b.combatants.get? other <;> simp [hg, hrecords, hlone hf, ho]
  | true =>
    by_cases ho : other = agent.id
    · subst ho
      cases hg : b.combatants.get? agent.id <;> simp [hg, hrecords, get?_recordsAfterShot]
    · cases hg : b.combatants.get? other <;> simp [hg, hrecords, get?_recordsAfterShot, ho]

/-- What a step leaves but for the records, when only the host is left to show the agent. -/
theorem act_rest {b : Battle H T} {agent : Handle}
    (h : ¬(agent.step = 0 ∧ agent.group.isMobile))
    (hc : b.combatants.contains agent.id = true) (action : List Float) :
    ∃ r : Battle H T, (b.act agent action).2 = r.showPose agent.id ∧ r.teams = b.teams ∧
      r.snapshot.poses = b.snapshot.poses ∧
      r.host = (b.walking agent action).hostAfterShot agent.id ∧
      r.trainer = b.requestGrowth.trainer := by
  have hwalk : (b.walking agent action).combatants.contains agent.id = true := by
    simpa [walking_eq] using hc
  have hposes : ((b.walking agent action).askedSnapshot agent.id).poses = b.snapshot.poses := by
    unfold askedSnapshot
    rw [Snapshot.poses_nearestFoe, Snapshot.poses_nearestFriend, target_snd, walking_eq]
    dsimp only
    split <;> rfl
  refine ⟨_, congrArg Prod.snd (act_snd h action), ?_⟩
  rw [modifyAgent_eq, reward_snd hwalk]
  refine ⟨by rw [walking_eq], ?_, rfl, by rw [walking_eq]⟩
  dsimp only
  split
  · exact hposes
  · rw [walking_eq]

theorem contains_act {b : Battle H T} {agent : Handle}
    (h : ¬(agent.step = 0 ∧ agent.group.isMobile))
    (hc : b.combatants.contains agent.id = true) (action : List Float) (other : AgentId) :
    (b.act agent action).2.combatants.contains other = b.combatants.contains other := by
  unfold IdMap.contains
  rw [get?_act h hc, Option.isSome_map]

end Act

section Length

omit [Trainer T] in
theorem length_reward (b : Battle H T) (agent : AgentId) (motion : Motion) :
    (b.reward agent motion).1.length = b.profile.dimensions.length := by
  have hprofile : (b.engage agent).2.profile = b.profile := (engage_changes b agent).profile
  unfold reward
  split
  · dsimp only
    rw [← hprofile]
    split <;> simp [zeroReward, Outcome.reward]
  · simp [zeroReward]

/-- Every step returns a score for each dimension. -/
theorem length_of_step {b b' : Battle H T} {agent : Handle}
    {action reward : List Float} (h : b.step agent action = .ok (reward, b')) :
    reward.length = b.profile.dimensions.length := by
  unfold step at h
  split at h
  · cases h
  · obtain ⟨e, henroll, hact⟩ := map_ok h
    have hprofile : e.profile = b.profile := (enroll_changes henroll).profile
    have hreward : reward = (e.act agent action).1 := by rw [hact]
    rw [← hprofile, hreward]
    by_cases hfirst : agent.step = 0 ∧ agent.group.isMobile
    · simp [act, hfirst, zeroReward]
    · rw [act_snd hfirst, length_reward, walking_eq]

end Length

end Battle

end FlagCombat
