import FlagCombat.Proofs.Battle.Parts
import Mathlib.Logic.Relation

/-!
Elementary changes of a battle. Every operation of a battle is a chain of them, so a property that no
elementary change breaks is kept by all operations.
-/

namespace FlagCombat

namespace Battle

variable {H T : Type}

/-- An elementary change of a battle. -/
inductive Change [Host H] : Battle H T → Battle H T → Prop
  /-- Nothing that the battle itself keeps about agents. -/
  | surroundings (b : Battle H T) (host : H) (trainer : T) (generator : Generator) (hits : Nat) :
      Change b { b with host, trainer, generator, hits }
  | record (b : Battle H T) (agent : AgentId) (f : Combatant → Combatant)
      (hf : ∀ c, (f c).id = c.id ∧ (f c).team = c.team ∧ (f c).group = c.group) :
      Change b { b with combatants := b.combatants.modify agent f }
  | freeze (b : Battle H T) (agent : AgentId) (c : Combatant)
      (h : b.combatants.get? agent = some c) :
      Change b { b with snapshot := b.snapshot.place agent c.pose }
  | capture (b : Battle H T) (tick : UInt64) : Change b (b.beginTick tick)
  | askTarget (b : Battle H T) (agent : AgentId) :
      Change b { b with snapshot := (b.snapshot.target b.teams b.profile.targeting agent).2 }
  | askNearestFriend (b : Battle H T) (agent : AgentId) :
      Change b { b with snapshot := (b.snapshot.nearestFriend b.teams agent).2 }
  | askNearestFoe (b : Battle H T) (agent : AgentId) :
      Change b { b with snapshot := (b.snapshot.nearestFoe b.teams agent).2 }
  | enlist (b : Battle H T) (agent : Handle) (h : b.combatants.get? agent.id = none) :
      Change b (b.enlist agent)
  | dismiss (b : Battle H T) (agent : AgentId) (c : Combatant)
      (h : b.combatants.get? agent = some c) : Change b (b.dismiss agent)

/-- A chain of elementary changes. -/
abbrev Changes [Host H] : Battle H T → Battle H T → Prop := Relation.ReflTransGen Change

section Chains

variable [Host H]

theorem enroll_changes {b b' : Battle H T} {agent : Handle} (h : b.enroll agent = .ok b') :
    Changes b b' := by
  rcases enroll_cases h with ⟨c, -, -, rfl⟩ | ⟨hnone, rfl⟩
  · exact .refl
  · exact .single (.enlist b agent hnone)

theorem modifyAgent_changes (b : Battle H T) (agent : AgentId) {f : Combatant → Combatant}
    (hf : ∀ c, (f c).id = c.id ∧ (f c).team = c.team ∧ (f c).group = c.group) :
    Changes b (b.modifyAgent agent f) := by
  rw [modifyAgent_eq]
  exact .single (.record b agent f hf)

theorem insert_changes {b b' : Battle H T} (hb : Changes b b') {agent : AgentId} {c : Combatant}
    (h : b'.combatants.get? agent = some c) {f : Combatant → Combatant}
    (hf : ∀ c, (f c).id = c.id ∧ (f c).team = c.team ∧ (f c).group = c.group) :
    Changes b { b' with combatants := b'.combatants.insert agent (f c) } := by
  rw [IdMap.insert_eq_modify h f]
  exact hb.tail (.record b' agent f hf)

theorem showPose_changes (b : Battle H T) (agent : AgentId) : Changes b (b.showPose agent) := by
  cases h : b.combatants.get? agent with
  | none => simpa only [showPose, h] using .refl
  | some c =>
    rw [showPose_eq h]
    exact .single (.surroundings b _ b.trainer b.generator b.hits)

theorem freezePose_changes (b : Battle H T) (agent : AgentId) :
    Changes b (b.freezePose agent) := by
  cases h : b.combatants.get? agent with
  | none => simpa only [freezePose, h] using .refl
  | some c =>
    rw [freezePose_eq h]
    exact .single (.freeze b agent c h)

theorem placeAtStart_changes (b : Battle H T) (agent : AgentId) :
    Changes b (b.placeAtStart agent) := by
  have hdraw := Change.surroundings b b.host b.trainer (b.generator.below32 360).2 b.hits
  refine .head hdraw (.trans (modifyAgent_changes _ agent ?_) (.trans (showPose_changes _ agent)
    (freezePose_changes _ agent)))
  exact fun c => ⟨rfl, rfl, rfl⟩

theorem requestGrowth_changes [Trainer T] (b : Battle H T) : Changes b b.requestGrowth := by
  unfold requestGrowth
  split
  · exact .single (.surroundings b b.host _ b.generator b.hits)
  · exact .refl

theorem target_changes (b : Battle H T) (agent : AgentId) : Changes b (b.target agent).2 := by
  rw [target_snd]
  split
  · exact .single (.askTarget b agent)
  · exact .refl

theorem engage_changes (b : Battle H T) (agent : AgentId) : Changes b (b.engage agent).2 := by
  have hrest (t : Battle H T) (ht : t.combatants = b.combatants) (hits : Nat) :
      Changes t { t with
        host := b.hostAfterShot agent, combatants := b.recordsAfterShot agent, hits } := by
    refine .head (.surroundings t (b.hostAfterShot agent) t.trainer t.generator hits) ?_
    unfold recordsAfterShot
    cases b.victim? agent with
    | none => simpa only [← ht] using .refl
    | some victim =>
      rw [← ht]
      exact .single (.record _ victim _ fun c => ⟨rfl, rfl, rfl⟩)
  rw [engage_eq]
  exact (target_changes b agent).trans (hrest _ (by rw [target_snd]) _)

theorem reward_changes (b : Battle H T) (agent : AgentId) (motion : Motion) :
    Changes b (b.reward agent motion).2 := by
  have hengage := engage_changes b agent
  unfold reward
  generalize b.engage agent = r at hengage ⊢
  obtain ⟨hit, e⟩ := r
  split
  · have hasked : Changes b { e with snapshot :=
        ((e.snapshot.nearestFriend e.teams agent).2.nearestFoe e.teams agent).2 } :=
      (hengage.tail (.askNearestFriend e agent)).tail (.askNearestFoe _ agent)
    dsimp only
    split
    · exact hasked
    · rename_i c hc
      exact insert_changes hasked hc (f := fun c => c.drainDamage.2) fun c => ⟨rfl, rfl, rfl⟩
  · exact .refl

theorem animate_changes (b : Battle H T) (agent : AgentId) (motion : Motion) :
    Changes b (b.animate agent motion) := by
  rw [animate_eq]
  refine .head (.surroundings b (b.animatedHost agent motion) b.trainer b.generator b.hits)
    (.single (.record _ agent _ fun c => ?_))
  exact ⟨rfl, rfl, rfl⟩

theorem act_changes [Trainer T] (b : Battle H T) (agent : Handle) (action : List Float) :
    Changes b (b.act agent action).2 := by
  unfold act
  split
  · exact placeAtStart_changes b agent.id
  · have hwalk := (requestGrowth_changes b).trans
      (animate_changes b.requestGrowth agent.id (Motion.ofAction action))
    have hreward := hwalk.trans (reward_changes _ agent.id (Motion.ofAction action))
    have hmove := hreward.trans (modifyAgent_changes _ agent.id
      (f := fun c => c.move (Motion.ofAction action)
        ((b.requestGrowth.animate agent.id (Motion.ofAction action)).reward agent.id
          (Motion.ofAction action)).2.profile.maxSpeed) fun c => ⟨rfl, rfl, rfl⟩)
    exact hmove.trans (showPose_changes _ agent.id)

theorem restart_changes (b : Battle H T) (agent : Handle) : Changes b (b.restart agent) := by
  have hreset : Changes b (b.modifyAgent agent.id Combatant.resetEpisode) :=
    modifyAgent_changes b agent.id fun c => ⟨rfl, rfl, rfl⟩
  unfold restart
  generalize b.modifyAgent agent.id Combatant.resetEpisode = r at hreset ⊢
  split
  · dsimp only
    split
    · exact hreset
    · rename_i c hc
      have hdraw : Changes b { r with
          generator := (c.randomize r.profile.spawn r.profile.spawnJitter r.generator).2 } :=
        hreset.tail (.surroundings r r.host r.trainer _ r.hits)
      have hmoved := insert_changes hdraw hc (f := fun d =>
        (d.randomize r.profile.spawn r.profile.spawnJitter r.generator).1) fun c => ⟨rfl, rfl, rfl⟩
      exact hmoved.trans ((showPose_changes _ agent.id).trans (freezePose_changes _ agent.id))
  · exact hreset

theorem perceive_changes (b : Battle H T) (agent : AgentId) (observations : List Float) :
    Changes b (b.perceive agent observations).2 := by
  rw [perceive_snd]
  exact target_changes b agent

theorem judge_changes [Trainer T] (b : Battle H T) (agent : Handle) :
    Changes b (b.judge agent).2 := by
  unfold judge
  split
  · exact .refl
  · rename_i c hc
    exact insert_changes .refl hc (f := fun d => { d with status := b.checkedStatus agent d })
      fun c => ⟨rfl, rfl, rfl⟩

end Chains

end Battle

end FlagCombat
