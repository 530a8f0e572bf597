import FlagCombat.Proofs.Battle.Shot

/-!
What a battle does to its host. A call for an agent casts rays, moves and animates bodies and adds
sensors; it never spawns or despawns an agent, nor stops a script.
-/

namespace FlagCombat

/-- The hosts that the calls for agents lead to. -/
inductive Touched {H : Type} [Host H] (host : H) : H → Prop
  | refl : Touched host host
  | rayCast {h : H} (start finish : Point) (mask : Mask) (ht : Touched host h) :
      Touched host (Host.rayCast h start finish mask).2
  | setTransform {h : H} (agent : AgentId) (pose : Pose) (ht : Touched host h) :
      Touched host (Host.setTransform h agent pose)
  | setAnimation {h : H} (agent : AgentId) (name : String) (ht : Touched host h) :
      Touched host (Host.setAnimation h agent name)
  | setAnimationSpeed {h : H} (agent : AgentId) (speed : Float) (ht : Touched host h) :
      Touched host (Host.setAnimationSpeed h agent speed)
  | addSensor {h : H} (agent : AgentId) (sensor : Sensor) (ht : Touched host h) :
      Touched host (Host.addSensor h agent sensor)

namespace Battle

variable {H T : Type} [Host H] {host : H} {b : Battle H T}

theorem touched_equip (ht : Touched host b.host) (agent : Handle) :
    Touched host (b.equip agent).host := by
  show Touched host ((b.profile.sensors.sensors agent).foldl _ b.host)
  generalize b.host = h at ht
  induction b.profile.sensors.sensors agent generalizing h with
  | nil => exact ht
  | cons sensor sensors ih => exact ih _ (ht.addSensor agent.id sensor)

theorem touched_showPose (ht : Touched host b.host) (agent : AgentId) :
    Touched host (b.showPose agent).host := by
  unfold showPose
  split
  · exact ht
  · exact ht.setTransform agent _

omit [Host H] in
theorem host_freezePose (b : Battle H T) (agent : AgentId) :
    (b.freezePose agent).host = b.host := by
  unfold freezePose
  split <;> rfl

omit [Host H] in
theorem host_modifyAgent (b : Battle H T) (agent : AgentId) (f : Combatant → Combatant) :
    (b.modifyAgent agent f).host = b.host := by
  rw [modifyAgent_eq]

theorem touched_placeAtStart (ht : Touched host b.host) (agent : AgentId) :
    Touched host (b.placeAtStart agent).host := by
  unfold placeAtStart
  dsimp only
  rw [host_freezePose]
  apply touched_showPose
  rw [host_modifyAgent]
  exact ht

theorem touched_restart (ht : Touched host b.host) (agent : Handle) :
    Touched host (b.restart agent).host := by
  have hforgotten : Touched host (b.modifyAgent agent.id Combatant.resetEpisode).host := by
    rw [host_modifyAgent]
    exact ht
  unfold restart
  dsimp only
  split
  · split
    · exact hforgotten
    · rw [host_freezePose]
      apply touched_showPose
      exact hforgotten
  · exact hforgotten

theorem touched_animatedHost (ht : Touched host b.host) (agent : AgentId) (motion : Motion) :
    Touched host (b.animatedHost agent motion) := by
  have hspeed (h : H) (ht : Touched host h) : Touched host
      (if Host.frameDelay h > 0.0 then
        Host.setAnimationSpeed h agent (motion.moveBy * Host.animationFrames / Host.frameDelay h)
      else h) := by
    split
    · exact ht.setAnimationSpeed agent _
    · exact ht
  unfold animatedHost
  apply hspeed
  split
  · exact ht
  · split
    · exact ht.setAnimation agent _
    · exact ht

theorem touched_hostAfterShot (ht : Touched host b.host) (agent : AgentId) :
    Touched host (b.hostAfterShot agent) := by
  unfold hostAfterShot
  split
  · exact ht
  · exact ht.rayCast _ _ _

variable [Trainer T]

theorem touched_act (ht : Touched host b.host) {agent : Handle}
    (hc : b.combatants.contains agent.id = true) (action : List Float) :
    Touched host (b.act agent action).2.host := by
  by_cases hfirst : agent.step = 0 ∧ agent.group.isMobile
  · unfold act
    rw [if_pos hfirst]
    exact touched_placeAtStart ht agent.id
  · obtain ⟨r, hr, -, -, hhost, -⟩ := act_rest hfirst hc action
    have hwalking : Touched host (b.walking agent action).host := by
      rw [walking_eq]
      exact touched_animatedHost ht agent.id _
    rw [hr]
    apply touched_showPose
    rw [hhost]
    exact touched_hostAfterShot hwalking agent.id

/-- What a call does for an agent with a record leaves a touched host. -/
theorem touched_respond {call : Call} {agent : Handle} (hh : call.handle? = some agent)
    (hc : b.combatants.contains agent.id = true) : Touched b.host (b.respond call).2.host := by
  cases call with
  | register a => exact touched_equip .refl a
  | reset a => exact touched_restart .refl a
  | step _ action =>
    cases hh
    exact touched_act .refl hc action
  | sense a values =>
    show Touched b.host (b.perceive a.id values).2.host
    rw [perceive_snd, target_snd]
    exact .refl
  | isEpisodeOver a =>
    show Touched b.host (b.judge a).2.host
    unfold judge
    split <;> exact .refl
  | beginTick | removeAgent | cleanup => exact .refl

end Battle

end FlagCombat
