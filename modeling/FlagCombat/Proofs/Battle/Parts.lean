import FlagCombat.Battle.Call
import FlagCombat.Proofs.KeptAnswers

/-!
The operations that the calls of a battle are made of, each as one update of the record of the
battle. What a shot does is read off the battle it is fired from: whom it is aimed at, whether it
lands, and what the host and the records are afterwards.
-/

namespace FlagCombat

theorem map_ok {ε α β : Type} {x : Except ε α} {f : α → β} {b : β} (h : x.map f = .ok b) :
    ∃ a, x = .ok a ∧ f a = b := by
  cases x with
  | error e => cases h
  | ok a => exact ⟨a, rfl, Except.ok.inj h⟩

theorem exists_of_isOk {ε α : Type} {x : Except ε α} (h : x.isOk = true) : ∃ a, x = .ok a := by
  cases x with
  | error e => cases h
  | ok a => exact ⟨a, rfl⟩

theorem Combatant.animate_snd (c : Combatant) (name : String) :
    (c.animate name).2 = { c with animation := some name } := by
  unfold animate
  split
  · rename_i h
    rw [← h]
  · rfl

namespace Battle

variable {H T : Type}

theorem modifyAgent_eq (b : Battle H T) (agent : AgentId) (f : Combatant → Combatant) :
    b.modifyAgent agent f = { b with combatants := b.combatants.modify agent f } := by
  unfold modifyAgent IdMap.modify
  cases b.combatants.get? agent <;> rfl

theorem freezePose_eq {b : Battle H T} {agent : AgentId} {c : Combatant}
    (h : b.combatants.get? agent = some c) :
    b.freezePose agent = { b with snapshot := b.snapshot.place agent c.pose } := by
  simp [freezePose, h]

theorem showPose_eq [Host H] {b : Battle H T} {agent : AgentId} {c : Combatant}
    (h : b.combatants.get? agent = some c) :
    b.showPose agent = { b with host := Host.setTransform b.host agent c.pose } := by
  simp [showPose, h]

/-- The battle with a record for an agent that has none. -/
def enlist [Host H] (b : Battle H T) (agent : Handle) : Battle H T :=
  { b with
    snapshot := b.snapshot.place agent.id (b.newcomer agent).pose
    teams := (b.teams.register agent.id agent.team).2
    combatants := b.combatants.insert agent.id (b.newcomer agent) }

/-- The battle without the record of an agent. -/
def dismiss (b : Battle H T) (agent : AgentId) : Battle H T :=
  { b with
    combatants := b.combatants.erase agent
    teams := (b.teams.remove agent).2
    snapshot := b.snapshot.remove agent }

theorem newcomer_identity [Host H] (b : Battle H T) (agent : Handle) :
    (b.newcomer agent).id = agent.id ∧ (b.newcomer agent).team = agent.team ∧
      (b.newcomer agent).group = agent.group := by
  unfold newcomer
  cases Host.transform b.host agent.id <;> exact ⟨rfl, rfl, rfl⟩

theorem enroll_cases [Host H] {b b' : Battle H T} {agent : Handle} (h : b.enroll agent = .ok b') :
    (∃ c, b.combatants.get? agent.id = some c ∧ c.team = agent.team ∧ b' = b) ∨
      (b.combatants.get? agent.id = none ∧ b' = b.enlist agent) := by
  unfold enroll at h
  cases hc : b.combatants.get? agent.id with
  | none =>
    rw [hc] at h
    exact .inr ⟨rfl, (Except.ok.inj h).symm⟩
  | some c =>
    rw [hc] at h
    by_cases ht : c.team = agent.team
    · simp only [ht, ↓reduceIte, Except.ok.injEq] at h
      exact .inl ⟨c, rfl, ht, h.symm⟩
    · simp [ht] at h

theorem target_snd (b : Battle H T) (agent : AgentId) :
    (b.target agent).2 = { b with
      snapshot :=
        if b.teams.hasOtherFriends agent then
          (b.snapshot.target b.teams b.profile.targeting agent).2
        else b.snapshot } := by
  unfold target
  split <;> rfl

/-- Perceiving asks for the target and changes nothing else. -/
theorem perceive_snd (b : Battle H T) (agent : AgentId) (observations : List Float) :
    (b.perceive agent observations).2 = (b.target agent).2 := by
  unfold perceive
  generalize b.target agent = r
  obtain ⟨found, t⟩ := r
  dsimp only
  split
  · split <;> rfl
  · rfl

theorem contains_of_enroll [Host H] {b b' : Battle H T} {agent : Handle}
    (h : b.enroll agent = .ok b') : b'.combatants.contains agent.id = true := by
  rcases enroll_cases h with ⟨c, hc, -, rfl⟩ | ⟨-, rfl⟩
  · exact (IdMap.contains_eq_true_iff _).2 ⟨c, hc⟩
  · simp [enlist, IdMap.contains_insert]

/-- A record that is there is found as it is. -/
theorem eq_of_enroll [Host H] {b b' : Battle H T} {agent : Handle} (h : b.enroll agent = .ok b')
    (hc : b.combatants.contains agent.id = true) : b' = b := by
  rcases enroll_cases h with ⟨c, -, -, rfl⟩ | ⟨hnone, -⟩
  · rfl
  · simp [IdMap.contains, hnone] at hc

theorem get?_of_enroll [Host H] {b b' : Battle H T} {agent : Handle}
    (h : b.enroll agent = .ok b') {other : AgentId} (hne : other ≠ agent.id) :
    b'.combatants.get? other = b.combatants.get? other := by
  rcases enroll_cases h with ⟨c, -, -, rfl⟩ | ⟨-, rfl⟩
  · rfl
  · simp [enlist, hne]

section Step

variable [Host H]

/-- The host after an agent started to walk and the speed of its walk was set. -/
def animatedHost (b : Battle H T) (agent : AgentId) (motion : Motion) : H :=
  let host := match b.combatants.get? agent with
    | none => b.host
    | some c =>
      if (c.animate Host.runAnimation).1 then Host.setAnimation b.host agent Host.runAnimation
      else b.host
  let delay := Host.frameDelay host
  if delay > 0.0 then
    Host.setAnimationSpeed host agent (motion.moveBy * Host.animationFrames / delay)
  else host

theorem animate_eq (b : Battle H T) (agent : AgentId) (motion : Motion) :
    b.animate agent motion = { b with
      host := b.animatedHost agent motion
      combatants := b.combatants.modify agent fun c =>
        { c with animation := some Host.runAnimation } } := by
  unfold animate animatedHost IdMap.modify
  cases b.combatants.get? agent with
  | none =>
    dsimp only
    split <;> rfl
  | some c =>
    dsimp only
    rw [c.animate_snd]
    cases (c.animate Host.runAnimation).1 with
    | false =>
      simp only [Bool.false_eq_true, ↓reduceIte]
      split <;> rfl
    | true =>
      simp only [↓reduceIte]
      split <;> rfl

/-- The foe that an agent aims at, with the ends of the ray: the target, if both have a frozen
pose. -/
def aim? (b : Battle H T) (agent : AgentId) : Option (AgentId × Point × Point) :=
  (b.target agent).1.bind fun foe =>
    match b.snapshot.poses.get? agent, b.snapshot.poses.get? foe with
    | some start, some finish => some (foe, start.position, finish.position)
    | _, _ => none

/-- The victim of the shot of an agent, if its shot lands. -/
def victim? (b : Battle H T) (agent : AgentId) : Option AgentId :=
  (b.aim? agent).bind fun (foe, start, finish) =>
    if lineOfSightClear (Host.rayCast b.host start finish .shotBlockers).1 foe &&
      b.combatants.contains foe then some foe
    else none

/-- The host after the ray of a shot. -/
def hostAfterShot (b : Battle H T) (agent : AgentId) : H :=
  match b.aim? agent with
  | none => b.host
  | some (_, start, finish) => (Host.rayCast b.host start finish .shotBlockers).2

/-- The records after the shot of an agent. -/
def recordsAfterShot (b : Battle H T) (agent : AgentId) : IdMap Combatant :=
  match b.victim? agent with
  | none => b.combatants
  | some victim => b.combatants.modify victim (·.takeHit damagePerHit)

/-- A shot leaves its mark on the host, on the record of the victim and on the number of hits. -/
theorem engage_eq (b : Battle H T) (agent : AgentId) :
    b.engage agent = ((b.victim? agent).isSome, { (b.target agent).2 with
      host := b.hostAfterShot agent
      combatants := b.recordsAfterShot agent
      hits := b.hits + if (b.victim? agent).isSome then 1 else 0 }) := by
  have hsnd := b.target_snd agent
  have hposes : (b.target agent).2.snapshot.poses = b.snapshot.poses := by
    rw [hsnd]
    split <;> rfl
  unfold engage recordsAfterShot hostAfterShot victim? aim?
  generalize hr : b.target agent = r at *
  obtain ⟨found, b'⟩ := r
  subst hsnd
  cases found with
  | none => rfl
  | some foe =>
    simp only [Option.bind_some] at hposes ⊢
    rw [hposes]
    obtain hs | ⟨start, hs⟩ := Option.eq_none_or_eq_some (b.snapshot.poses.get? agent)
    · simp [hs]
    obtain hf | ⟨finish, hf⟩ := Option.eq_none_or_eq_some (b.snapshot.poses.get? foe)
    · simp [hs, hf]
    simp only [hs, hf, Option.bind_some]
    split
    · simp [modifyAgent_eq]
    · rfl

/-- The snapshot after the questions of a reward: the target, the nearest friend, the nearest
foe. -/
def askedSnapshot (b : Battle H T) (agent : AgentId) : Snapshot :=
  (((b.target agent).2.snapshot.nearestFriend b.teams agent).2.nearestFoe b.teams agent).2

/-- What happens in a step to an agent whose record is `c` after its shot. -/
def outcome (b : Battle H T) (agent : AgentId) (motion : Motion) (c : Combatant) : Outcome :=
  let asked := (b.target agent).2.snapshot
  { motion
    nearestFriend := (asked.nearestFriend b.teams agent).1.map (·.2)
    nearestFoe := ((asked.nearestFriend b.teams agent).2.nearestFoe b.teams agent).1.map (·.2)
    flagDistance := c.pose.position.distance b.profile.flag
    hit := (b.victim? agent).isSome
    damage := c.pendingDamage }

theorem reward_of_lone {b : Battle H T} {agent : AgentId} (h : b.teams.hasOtherFriends agent = false)
    (motion : Motion) : b.reward agent motion = (zeroReward b.profile.dimensions, b) := by
  simp [reward, h]

theorem reward_eq {b : Battle H T} {agent : AgentId} {c : Combatant}
    (h : b.teams.hasOtherFriends agent = true) (hc : (b.recordsAfterShot agent).get? agent = some c)
    (motion : Motion) :
    b.reward agent motion = ((b.outcome agent motion c).reward b.profile.dimensions, { b with
      host := b.hostAfterShot agent
      snapshot := b.askedSnapshot agent
      combatants := (b.recordsAfterShot agent).modify agent (·.drainDamage.2)
      hits := b.hits + if (b.victim? agent).isSome then 1 else 0 }) := by
  have hsnd := b.target_snd agent
  unfold reward outcome askedSnapshot
  rw [engage_eq, ← IdMap.insert_eq_modify hc]
  simp only [hsnd, h, ↓reduceIte, hc, Combatant.drainDamage]

end Step

end Battle

end FlagCombat
