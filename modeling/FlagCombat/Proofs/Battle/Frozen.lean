import FlagCombat.Proofs.Battle.Anew
import FlagCombat.Proofs.Battle.Shot

/-!
What a step reads. A shot, a reward and an observation look at the frozen poses, the teams, the rays
of the host and the agent's own record; two battles that agree on these see the same.
-/

namespace FlagCombat

/-- Rays strike the same on two hosts. -/
def SameRays {H : Type} [Host H] (host host' : H) : Prop :=
  ∀ start finish mask,
    (Host.rayCast host' start finish mask).1 = (Host.rayCast host start finish mask).1

/-- A host on which no agent that shoots, walks or is animated changes what a ray strikes. -/
structure StableRays (H : Type) [Host H] : Prop where
  rayCast : ∀ (host : H) start finish mask,
    SameRays host (Host.rayCast host start finish mask).2
  setTransform : ∀ (host : H) agent pose, SameRays host (Host.setTransform host agent pose)
  setAnimation : ∀ (host : H) agent name, SameRays host (Host.setAnimation host agent name)
  setAnimationSpeed : ∀ (host : H) agent speed,
    SameRays host (Host.setAnimationSpeed host agent speed)

theorem SameRays.refl {H : Type} [Host H] (host : H) : SameRays host host := fun _ _ _ => rfl

theorem stableRays_openField : StableRays OpenField where
  rayCast _ _ _ _ := .refl _
  setTransform _ _ _ _ _ _ := rfl
  setAnimation _ _ _ := .refl _
  setAnimationSpeed _ _ _ := .refl _

theorem SameRays.trans {H : Type} [Host H] {host host' host'' : H} (h : SameRays host host')
    (h' : SameRays host' host'') : SameRays host host'' :=
  fun start finish mask => (h' start finish mask).trans (h start finish mask)

namespace Battle

variable {H T : Type} [Host H]

/-- Two battles that agree on all that the agents of a tick read of each other. -/
structure Alike (b b' : Battle H T) : Prop where
  profile : b'.profile = b.profile
  teams : b'.teams = b.teams
  poses : b'.snapshot.poses = b.snapshot.poses
  rays : SameRays b.host b'.host
  coherent : b.snapshot.Coherent b.teams b.profile.targeting
  coherent' : b'.snapshot.Coherent b'.teams b'.profile.targeting
  known : ∀ agent, b'.combatants.contains agent = b.combatants.contains agent

section Alike

variable {b b' : Battle H T}

theorem Alike.join {frozen : Battle H T} (h : Alike frozen b) (h' : Alike frozen b') :
    Alike b b' where
  profile := h'.profile.trans h.profile.symm
  teams := h'.teams.trans h.teams.symm
  poses := h'.poses.trans h.poses.symm
  rays start finish mask := (h'.rays start finish mask).trans (h.rays start finish mask).symm
  coherent := h.coherent'
  coherent' := h'.coherent'
  known agent := (h'.known agent).trans (h.known agent).symm

omit [Host H] in
/-- An aim is settled by the frozen poses and the teams. -/
theorem aim?_eq (hb : b.snapshot.Coherent b.teams b.profile.targeting)
    (hb' : b'.snapshot.Coherent b'.teams b'.profile.targeting) (hprofile : b'.profile = b.profile)
    (hteams : b'.teams = b.teams) (hposes : b'.snapshot.poses = b.snapshot.poses)
    (agent : AgentId) :
    (b'.target agent).1 = (b.target agent).1 ∧ b'.aim? agent = b.aim? agent := by
  have htarget : (b'.target agent).1 = (b.target agent).1 := by
    rw [target_forget hb, target_forget hb']
    unfold targetAnew forget Snapshot.forget Snapshot.capture
    rw [hprofile, hteams, hposes]
  refine ⟨htarget, ?_⟩
  unfold aim?
  rw [htarget, hposes]

theorem Alike.target (h : Alike b b') (agent : AgentId) :
    (b'.target agent).1 = (b.target agent).1 :=
  (aim?_eq h.coherent h.coherent' h.profile h.teams h.poses agent).1

theorem Alike.victim? (h : Alike b b') (agent : AgentId) : b'.victim? agent = b.victim? agent := by
  have haim := (aim?_eq h.coherent h.coherent' h.profile h.teams h.poses agent).2
  unfold Battle.victim?
  rw [haim]
  congr 1
  funext ⟨foe, start, finish⟩
  dsimp only
  rw [h.rays start finish, h.known foe]

omit [Host H] in
theorem nearestFriend_eq (hb : b.snapshot.Coherent b.teams b.profile.targeting) (agent : AgentId) :
    ((b.target agent).2.snapshot.nearestFriend b.teams agent).1 =
      b.snapshot.poses.nearestFriend b.teams agent := by
  rw [(coherent_target hb agent).nearestFriend_fst, target_snd]
  split <;> rfl

omit [Host H] in
theorem nearestFoe_eq (hb : b.snapshot.Coherent b.teams b.profile.targeting) (agent : AgentId) :
    (((b.target agent).2.snapshot.nearestFriend b.teams agent).2.nearestFoe b.teams agent).1 =
      b.snapshot.poses.nearestFoe b.teams agent := by
  rw [((coherent_target hb agent).nearestFriend_snd agent).nearestFoe_fst, target_snd]
  split <;> rfl

/-- All but the damage of what happens to an agent is the same, wherever others moved. -/
theorem Alike.score (h : Alike b b') (agent : AgentId) (motion : Motion) {c c' : Combatant}
    (hpose : c'.pose = c.pose) {d : Dimension} (hd : d ≠ .avoidFire) :
    (b'.outcome agent motion c').score d = (b.outcome agent motion c).score d := by
  have hfriend := nearestFriend_eq h.coherent agent
  have hfoe := nearestFoe_eq h.coherent agent
  have hfriend' := nearestFriend_eq h.coherent' agent
  have hfoe' := nearestFoe_eq h.coherent' agent
  rw [h.poses, h.teams] at hfriend' hfoe'
  unfold outcome
  dsimp only
  rw [h.teams, hfriend, hfoe, hfriend', hfoe', h.victim?, hpose, h.profile]
  cases d <;> first | rfl | exact absurd rfl hd

/-- What an agent perceives depends on others by what is frozen. -/
theorem Alike.perceive (h : Alike b b') {agent : AgentId}
    (hpose : (b'.combatants.get? agent).map Combatant.pose =
      (b.combatants.get? agent).map Combatant.pose) (observations : List Float) :
    (b'.perceive agent observations).1 = (b.perceive agent observations).1 := by
  have htarget : b'.forget.targetAnew agent = b.forget.targetAnew agent := by
    rw [← target_forget h.coherent, ← target_forget h.coherent', h.target]
  have hrecord (e : Battle H T) : e.forget.combatants = e.combatants := rfl
  have hteams (e : Battle H T) : e.forget.teams = e.teams := rfl
  have hposes (e : Battle H T) : e.forget.snapshot.poses = e.snapshot.poses := rfl
  have hprofile (e : Battle H T) : e.forget.profile = e.profile := rfl
  rw [← (perceive_forget h.coherent agent observations).1,
    ← (perceive_forget h.coherent' agent observations).1]
  unfold perceiveAnew
  rw [htarget, hrecord, hrecord, hteams, hteams, hposes, hposes, hprofile, hprofile, h.teams,
    h.poses, h.profile]
  cases hc : b.combatants.get? agent with
  | none =>
    rw [hc] at hpose
    rw [Option.map_eq_none_iff.1 hpose]
  | some c =>
    rw [hc] at hpose
    obtain ⟨c', hc', heq⟩ := Option.map_eq_some_iff.1 hpose
    rw [hc']
    cases b.snapshot.poses.centroid? b.teams agent with
    | none => rfl
    | some center =>
      dsimp only at heq ⊢
      rw [heq]

/-- A new agent that both hosts show at one place is new in the same way. -/
theorem Alike.enlist (h : Alike b b') {agent : Handle}
    (hshown : Host.transform b'.host agent.id = Host.transform b.host agent.id) :
    b'.newcomer agent = b.newcomer agent ∧ Alike (b.enlist agent) (b'.enlist agent) := by
  have hnew : b'.newcomer agent = b.newcomer agent := by
    unfold newcomer
    rw [hshown]
  refine ⟨hnew, ?_⟩
  unfold Battle.enlist
  rw [hnew]
  refine ⟨h.profile, by rw [h.teams], ?_, h.rays, Snapshot.coherent_place _ _ _ _ _,
    Snapshot.coherent_place _ _ _ _ _, fun other => ?_⟩
  · simp only [Snapshot.place, Snapshot.capture, h.poses]
  · simp only [IdMap.contains_insert, h.known]

/-- What an agent is told of its surroundings is the same, if it has a record or is to be seen at one
place, and did not move. -/
theorem Alike.sense [Trainer T] (h : Alike b b') (hb : b.Sound) (hb' : b'.Sound) {agent : Handle}
    (hpose : (b'.combatants.get? agent.id).map Combatant.pose =
      (b.combatants.get? agent.id).map Combatant.pose)
    (hshown : b.combatants.contains agent.id = true ∨
      Host.transform b'.host agent.id = Host.transform b.host agent.id)
    (values : List Float) :
    (b'.perform (.sense agent values)).1 = (b.perform (.sense agent values)).1 := by
  have hrefusal : b'.refusal? (.sense agent values) = b.refusal? (.sense agent values) := rfl
  unfold perform
  rw [attempt_of_handle b rfl, attempt_of_handle b' rfl, hrefusal]
  cases b.refusal? (.sense agent values) with
  | some e => rfl
  | none =>
    have hteam : (b'.combatants.get? agent.id).map Combatant.team =
        (b.combatants.get? agent.id).map Combatant.team := by
      rw [← hb.teamOf, ← hb'.teamOf, h.teams]
    unfold enroll
    cases hc : b.combatants.get? agent.id with
    | none =>
      have hc' : b'.combatants.get? agent.id = none := by
        rw [hc] at hpose
        exact Option.map_eq_none_iff.1 hpose
      have hunknown : b.combatants.contains agent.id = false := by simp [IdMap.contains, hc]
      obtain ⟨hnew, halike⟩ := h.enlist (hshown.resolve_left (by simp [hunknown]))
      rw [hc']
      have hsame : ((b'.enlist agent).combatants.get? agent.id).map Combatant.pose =
          ((b.enlist agent).combatants.get? agent.id).map Combatant.pose := by
        simp [Battle.enlist, hnew]
      exact congrArg (fun r => Except.ok (Reply.vector r)) (halike.perceive hsame values)
    | some c =>
      have hperceive := h.perceive hpose values
      rw [hc] at hteam hpose
      obtain ⟨c', hc', hct⟩ := Option.map_eq_some_iff.1 hteam
      rw [hc']
      dsimp only at hct ⊢
      rw [hct]
      by_cases hmatch : c.team = agent.team
      · simp only [if_pos hmatch]
        exact congrArg (fun r => Except.ok (Reply.vector r)) hperceive
      · simp only [if_neg hmatch]
        rfl

end Alike

section Stable

variable {frozen b : Battle H T} (hstable : StableRays H)

include hstable

theorem sameRays_animatedHost (b : Battle H T) (agent : AgentId) (motion : Motion) :
    SameRays b.host (b.animatedHost agent motion) := by
  have hspeed (shown : H) (h : SameRays b.host shown) : SameRays b.host
      (if Host.frameDelay shown > 0.0 then
        Host.setAnimationSpeed shown agent
          (motion.moveBy * Host.animationFrames / Host.frameDelay shown)
      else shown) := by
    split
    · exact h.trans (hstable.setAnimationSpeed _ _ _)
    · exact h
  unfold animatedHost
  cases b.combatants.get? agent with
  | none => exact hspeed _ (.refl _)
  | some c =>
    refine hspeed _ ?_
    dsimp only
    split
    · exact hstable.setAnimation _ _ _
    · exact .refl _

theorem sameRays_hostAfterShot (b : Battle H T) (agent : AgentId) :
    SameRays b.host (b.hostAfterShot agent) := by
  unfold hostAfterShot
  split
  · exact .refl _
  · exact hstable.rayCast _ _ _ _

theorem sameRays_showPose (b : Battle H T) (agent : AgentId) :
    SameRays b.host (b.showPose agent).host := by
  unfold showPose
  split
  · exact .refl _
  · exact hstable.setTransform _ _ _

variable [Trainer T]

/-- The battle in which an agent shoots is like the one in which it starts to walk. -/
theorem Alike.walking (h : Alike frozen b) (agent : Handle) (action : List Float) :
    Alike frozen (b.walking agent action) := by
  have hrays := sameRays_animatedHost hstable b agent.id (Motion.ofAction action)
  rw [walking_eq]
  exact ⟨h.profile, h.teams, h.poses, h.rays.trans hrays, h.coherent, h.coherent', fun other => by
    rw [IdMap.contains_modify, h.known]⟩

/-- A step changes nothing that the other agents of the tick read. -/
theorem Alike.act (h : Alike frozen b) (hb : b.Sound) {agent : Handle}
    (hfirst : ¬(agent.step = 0 ∧ agent.group.isMobile))
    (hc : b.combatants.contains agent.id = true) (action : List Float) :
    Alike frozen (b.act agent action).2 := by
  have hwalk := h.walking hstable agent action
  have hshot := sameRays_hostAfterShot hstable (b.walking agent action) agent.id
  obtain ⟨r, hr, hteams, hposes, hhost, -⟩ := act_rest hfirst hc action
  have hshown := sameRays_showPose hstable r agent.id
  have hkept : (r.showPose agent.id).teams = r.teams ∧
      (r.showPose agent.id).snapshot = r.snapshot := by
    unfold showPose
    split <;> exact ⟨rfl, rfl⟩
  rw [hhost, ← hr] at hshown
  rw [← hr] at hkept
  exact {
    profile := (act_changes b agent action).profile.trans h.profile
    teams := (hkept.1.trans hteams).trans h.teams
    poses := by rw [hkept.2, hposes, h.poses]
    rays := (hwalk.rays.trans hshot).trans hshown
    coherent := h.coherent
    coherent' := (hb.changes (act_changes b agent action)).coherent
    known := fun other => by rw [contains_act hfirst hc, h.known] }

end Stable

end Battle

end FlagCombat
