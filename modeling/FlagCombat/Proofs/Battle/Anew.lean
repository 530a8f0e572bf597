import FlagCombat.Proofs.Battle.Sound

/-!
A battle whose snapshot keeps no answers: the operations that ask a snapshot ask about the frozen
poses instead, every time. The battle that keeps answers does the same: it replies alike to every
call, its host and trainer are in the same state, and forgetting the kept answers of the one leaves
the other.
-/

namespace FlagCombat

namespace Battle

variable {H T : Type}

def targetAnew (b : Battle H T) (agent : AgentId) : Option AgentId :=
  if b.teams.hasOtherFriends agent then
    b.snapshot.poses.target b.teams b.profile.targeting agent
  else none

section Operations

variable [Host H]

def engageAnew (b : Battle H T) (agent : AgentId) : Bool × Battle H T :=
  match b.targetAnew agent with
  | none => (false, b)
  | some victim =>
    match b.snapshot.poses.get? agent, b.snapshot.poses.get? victim with
    | some start, some finish =>
      let (strikes, host) := Host.rayCast b.host start.position finish.position .shotBlockers
      let b := { b with host }
      if lineOfSightClear strikes victim && b.combatants.contains victim then
        let b := b.modifyAgent victim (·.takeHit damagePerHit)
        (true, { b with hits := b.hits + 1 })
      else (false, b)
    | _, _ => (false, b)

def rewardAnew (b : Battle H T) (agent : AgentId) (motion : Motion) : List Float × Battle H T :=
  if b.teams.hasOtherFriends agent then
    let (hit, b) := b.engageAnew agent
    match b.combatants.get? agent with
    | none => (zeroReward b.profile.dimensions, b)
    | some c =>
      let (damage, drained) := c.drainDamage
      let outcome : Outcome := {
        motion
        nearestFriend := (b.snapshot.poses.nearestFriend b.teams agent).map (·.2)
        nearestFoe := (b.snapshot.poses.nearestFoe b.teams agent).map (·.2)
        flagDistance := c.pose.position.distance b.profile.flag
        hit
        damage }
      (outcome.reward b.profile.dimensions,
        { b with combatants := b.combatants.insert agent drained })
  else (zeroReward b.profile.dimensions, b)

def actAnew [Trainer T] (b : Battle H T) (agent : Handle) (action : List Float) :
    List Float × Battle H T :=
  if agent.step = 0 ∧ agent.group.isMobile then
    (zeroReward b.profile.dimensions, b.placeAtStart agent.id)
  else
    let motion := Motion.ofAction action
    let (reward, b) := (b.requestGrowth.animate agent.id motion).rewardAnew agent.id motion
    let b := b.modifyAgent agent.id (·.move motion b.profile.maxSpeed)
    (reward, b.showPose agent.id)

omit [Host H] in
def perceiveAnew (b : Battle H T) (agent : AgentId) (observations : List Float) : List Float :=
  let observations := Observation.writeHasTarget observations (b.targetAnew agent).isSome
  if b.teams.hasOtherFriends agent then
    match b.combatants.get? agent, b.snapshot.poses.centroid? b.teams agent with
    | some c, some center =>
      let distance := c.pose.position.distance center
      let bearing := c.pose.bearing center
      (Observation.writeCentroid observations distance bearing b.profile.friendRadius).2
    | _, _ => observations
  else observations

/-- Makes a call without a kept answer. Only a step and a look at the surroundings ask the
snapshot. -/
def attemptAnew [Trainer T] (b : Battle H T) : Call → Except BattleError (Reply × Battle H T)
  | .step agent action =>
    match b.profile.interface.actions.violation? action with
    | some violation => .error (.invalidAction agent.id violation)
    | none => (b.enroll agent).map fun b =>
      let (reward, b) := b.actAnew agent action
      (.vector reward, b)
  | .sense agent values =>
    if values.length < Observation.tailLength then
      .error (.observationTooShort agent.id Observation.tailLength values.length)
    else (b.enroll agent).map fun b => (.vector (b.perceiveAnew agent.id values), b)
  | call => b.attempt call

def performAnew [Trainer T] (b : Battle H T) (call : Call) :
    Except BattleError Reply × Battle H T :=
  match b.attemptAnew call with
  | .ok (reply, b) => (.ok reply, b)
  | .error e => (.error e, b)

def performAllAnew [Trainer T] (b : Battle H T) (calls : List Call) : Battle H T :=
  calls.foldl (fun b call => (b.performAnew call).2) b

end Operations

/-- The battle without the answers its snapshot keeps. -/
def forget (b : Battle H T) : Battle H T := { b with snapshot := b.snapshot.forget }

section Forget

theorem forget_modifyAgent (b : Battle H T) (agent : AgentId) (f : Combatant → Combatant) :
    (b.modifyAgent agent f).forget = b.forget.modifyAgent agent f := by
  simp only [modifyAgent_eq, forget]

theorem forget_freezePose (b : Battle H T) (agent : AgentId) :
    (b.freezePose agent).forget = b.forget.freezePose agent := by
  cases h : b.combatants.get? agent with
  | none => simp [freezePose, forget, h]
  | some c => rw [freezePose_eq h, freezePose_eq (b := b.forget) h]; rfl

variable [Host H]

theorem forget_showPose (b : Battle H T) (agent : AgentId) :
    (b.showPose agent).forget = b.forget.showPose agent := by
  cases h : b.combatants.get? agent with
  | none => simp [showPose, forget, h]
  | some c => rw [showPose_eq h, showPose_eq (b := b.forget) h]; rfl

theorem forget_animate (b : Battle H T) (agent : AgentId) (motion : Motion) :
    (b.animate agent motion).forget = b.forget.animate agent motion := by
  simp only [animate_eq]
  rfl

theorem forget_placeAtStart (b : Battle H T) (agent : AgentId) :
    (b.placeAtStart agent).forget = b.forget.placeAtStart agent := by
  unfold placeAtStart
  dsimp only
  rw [forget_freezePose, forget_showPose, forget_modifyAgent]
  rfl

theorem forget_restart (b : Battle H T) (agent : Handle) :
    (b.restart agent).forget = b.forget.restart agent := by
  unfold restart
  rw [← forget_modifyAgent]
  generalize b.modifyAgent agent.id Combatant.resetEpisode = r
  split
  · dsimp only
    have hc : r.forget.combatants.get? agent.id = r.combatants.get? agent.id := rfl
    rw [hc]
    cases r.combatants.get? agent.id with
    | none => rfl
    | some c =>
      dsimp only
      rw [forget_freezePose, forget_showPose]
      rfl
  · rfl

/-- A record is made or missed alike with and without kept answers. -/
theorem enroll_forget (b : Battle H T) (agent : Handle) :
    b.forget.enroll agent = (b.enroll agent).map forget := by
  unfold enroll
  have hc : b.forget.combatants.get? agent.id = b.combatants.get? agent.id := rfl
  rw [hc]
  cases b.combatants.get? agent.id with
  | none => rfl
  | some c =>
    dsimp only
    split <;> rfl

variable [Trainer T]

omit [Host H] in
theorem forget_requestGrowth (b : Battle H T) :
    b.requestGrowth.forget = b.forget.requestGrowth := by
  unfold requestGrowth
  split <;> split <;> first | rfl | contradiction

omit [Host H] in
theorem judge_forget (b : Battle H T) (agent : Handle) :
    b.forget.judge agent = ((b.judge agent).1, (b.judge agent).2.forget) := by
  unfold judge
  have hc : b.forget.combatants.get? agent.id = b.combatants.get? agent.id := rfl
  rw [hc]
  cases b.combatants.get? agent.id <;> rfl

end Forget

section Asking

/-- The target that a coherent snapshot tells is the one found anew. -/
theorem target_forget {b : Battle H T} (hb : b.snapshot.Coherent b.teams b.profile.targeting)
    (agent : AgentId) : (b.target agent).1 = b.forget.targetAnew agent := by
  unfold target targetAnew
  split
  · rename_i h
    rw [if_pos (show b.forget.teams.hasOtherFriends agent = true from h)]
    exact hb.target_fst agent
  · rename_i h
    rw [if_neg (show ¬ b.forget.teams.hasOtherFriends agent = true from h)]

theorem target_snd_forget (b : Battle H T) (agent : AgentId) :
    (b.target agent).2.forget = b.forget := by
  rw [target_snd]
  split <;> rfl

theorem coherent_target {b : Battle H T} (hb : b.snapshot.Coherent b.teams b.profile.targeting)
    (agent : AgentId) :
    (b.target agent).2.snapshot.Coherent b.teams b.profile.targeting := by
  rw [target_snd]
  dsimp only
  split
  · exact hb.target_snd agent
  · exact hb

variable [Host H]

theorem engage_forget {b : Battle H T} (hb : b.snapshot.Coherent b.teams b.profile.targeting)
    (agent : AgentId) :
    b.forget.engageAnew agent = ((b.engage agent).1, (b.engage agent).2.forget) := by
  have hfound := target_forget hb agent
  have hkept := target_snd_forget b agent
  unfold engageAnew engage
  rw [← hfound]
  generalize b.target agent = r at hkept ⊢
  obtain ⟨found, t⟩ := r
  cases found with
  | none => exact congrArg (false, ·) hkept.symm
  | some victim =>
    dsimp only at hkept ⊢
    have hposes : t.forget.snapshot.poses = t.snapshot.poses := rfl
    rw [← hkept, hposes]
    obtain hs | ⟨start, hs⟩ := Option.eq_none_or_eq_some (t.snapshot.poses.get? agent)
    · simp only [hs]
    obtain hf | ⟨finish, hf⟩ := Option.eq_none_or_eq_some (t.snapshot.poses.get? victim)
    · simp only [hs, hf]
    simp only [hs, hf, forget, modifyAgent_eq]
    split <;> rfl

theorem engage_parts (b : Battle H T) (agent : AgentId) :
    (b.engage agent).2.teams = b.teams ∧ (b.engage agent).2.profile = b.profile ∧
      (b.engage agent).2.snapshot = (b.target agent).2.snapshot := by
  rw [engage_eq, target_snd]
  exact ⟨rfl, rfl, rfl⟩

theorem reward_forget {b : Battle H T} (hb : b.snapshot.Coherent b.teams b.profile.targeting)
    (agent : AgentId) (motion : Motion) :
    b.forget.rewardAnew agent motion =
      ((b.reward agent motion).1, (b.reward agent motion).2.forget) := by
  have hengage := engage_forget hb agent
  obtain ⟨hteams, hprofile, hsnapshot⟩ := engage_parts b agent
  have hcoherent := coherent_target hb agent
  rw [← hsnapshot] at hcoherent
  unfold rewardAnew reward
  rw [hengage]
  generalize b.engage agent = r at hteams hprofile hcoherent ⊢
  obtain ⟨hit, e⟩ := r
  dsimp only at hteams hprofile hcoherent ⊢
  have hlone : b.forget.teams.hasOtherFriends agent = b.teams.hasOtherFriends agent := rfl
  rw [hlone]
  split
  · rw [← hteams, ← hprofile] at hcoherent
    have hfriend := hcoherent.nearestFriend_fst agent
    have hfoe := (hcoherent.nearestFriend_snd agent).nearestFoe_fst agent
    rw [hfriend, hfoe]
    obtain hc | ⟨c, hc⟩ := Option.eq_none_or_eq_some (e.combatants.get? agent)
    · simp only [forget, hc]
      rfl
    · simp only [forget, hc]
      rfl
  · rfl

theorem act_forget [Trainer T] {b : Battle H T}
    (hb : b.snapshot.Coherent b.teams b.profile.targeting) (agent : Handle)
    (action : List Float) :
    b.forget.actAnew agent action = ((b.act agent action).1, (b.act agent action).2.forget) := by
  unfold actAnew act
  split
  · rw [forget_placeAtStart]
    rfl
  · dsimp only
    rw [← forget_requestGrowth, ← forget_animate]
    generalize hw : b.requestGrowth.animate agent.id (Motion.ofAction action) = w
    have hcoherent : w.snapshot.Coherent w.teams w.profile.targeting := by
      subst hw
      rw [animate_eq]
      unfold requestGrowth
      split <;> exact hb
    rw [reward_forget hcoherent, forget_showPose, forget_modifyAgent]
    rfl

omit [Host H] in
theorem perceive_forget {b : Battle H T} (hb : b.snapshot.Coherent b.teams b.profile.targeting)
    (agent : AgentId) (observations : List Float) :
    b.forget.perceiveAnew agent observations = (b.perceive agent observations).1 ∧
      (b.perceive agent observations).2.forget = b.forget := by
  have hkept := target_snd_forget b agent
  unfold perceiveAnew perceive
  rw [← target_forget hb agent, ← hkept]
  generalize b.target agent = r
  obtain ⟨found, t⟩ := r
  dsimp only
  have hlone : t.forget.teams.hasOtherFriends agent = t.teams.hasOtherFriends agent := rfl
  rw [hlone]
  split
  · obtain hc | ⟨c, hc⟩ := Option.eq_none_or_eq_some (t.combatants.get? agent)
    · simp [forget, hc]
    · simp only [forget, hc]
      have hposes : t.snapshot.forget.poses = t.snapshot.poses := rfl
      rw [hposes]
      cases t.snapshot.poses.centroid? t.teams agent <;> exact ⟨rfl, rfl⟩
  · exact ⟨rfl, rfl⟩

end Asking

section Runs

variable [Host H] [Trainer T]

theorem attempt_forget {b : Battle H T} (hb : b.Sound) (call : Call) :
    b.forget.attemptAnew call = (b.attempt call).map fun (reply, b) => (reply, b.forget) := by
  have hsound {agent : Handle} {b₁ : Battle H T} (h : b.enroll agent = .ok b₁) : b₁.Sound :=
    hb.changes (enroll_changes h)
  cases call with
  | step agent action =>
    have hshape : b.forget.profile = b.profile := rfl
    simp only [attemptAnew, attempt, step, hshape, enroll_forget]
    cases b.profile.interface.actions.violation? action with
    | some violation => rfl
    | none =>
      cases he : b.enroll agent with
      | error e => rfl
      | ok b₁ => simp [Except.map, act_forget (hsound he).coherent]
  | sense agent values =>
    simp only [attemptAnew, attempt, sense, enroll_forget]
    split
    · rfl
    · cases he : b.enroll agent with
      | error e => rfl
      | ok b₁ =>
        obtain ⟨hvalues, hkept⟩ := perceive_forget (hsound he).coherent agent.id values
        simp [Except.map, hvalues, hkept]
  | register agent =>
    simp only [attemptAnew, attempt, register, enroll_forget]
    cases b.enroll agent <;> rfl
  | reset agent =>
    simp only [attemptAnew, attempt, reset, enroll_forget]
    cases b.enroll agent with
    | error e => rfl
    | ok b₁ => simp [Except.map, forget_restart]
  | isEpisodeOver agent =>
    simp only [attemptAnew, attempt, isEpisodeOver, enroll_forget]
    cases b.enroll agent with
    | error e => rfl
    | ok b₁ => simp [Except.map, judge_forget]
  | removeAgent agent =>
    simp only [attemptAnew, attempt, removeAgent]
    have hc : b.forget.combatants.get? agent = b.combatants.get? agent := rfl
    rw [hc]
    cases b.combatants.get? agent <;> rfl
  | beginTick tick => rfl
  | cleanup => rfl

/-- One call keeps the two battles together. -/
theorem perform_forget {b : Battle H T} (hb : b.Sound) (call : Call) :
    b.forget.performAnew call = ((b.perform call).1, (b.perform call).2.forget) := by
  unfold performAnew perform
  rw [attempt_forget hb call]
  cases b.attempt call <;> rfl

theorem performAll_forget {b : Battle H T} (hb : b.Sound) (calls : List Call) :
    b.forget.performAllAnew calls = (b.performAll calls).forget := by
  induction calls generalizing b with
  | nil => rfl
  | cons call calls ih =>
    have hnext : (b.forget.performAnew call).2 = (b.perform call).2.forget := by
      rw [perform_forget hb call]
    show (b.forget.performAnew call).2.performAllAnew calls = _
    rw [hnext, ih (hb.perform call)]
    rfl

/-- After every history each kept answer is the one found anew, and the battle that keeps answers
goes on exactly as the one that asks anew every time. -/
theorem keptAnswers_unobservable (profile : Profile) (host : H) (trainer : T) (seed : UInt64)
    (calls : List Call) (call : Call) :
    let kept := (start profile host trainer seed).performAll calls
    let anew := (start profile host trainer seed).performAllAnew calls
    kept.snapshot.Coherent kept.teams profile.targeting ∧
      anew.performAnew call = ((kept.perform call).1, (kept.perform call).2.forget) := by
  intro kept anew
  have hstart : Reachable (start profile host trainer seed) := .start profile host trainer seed
  have hkept : kept.Sound := (hstart.performAll calls).sound
  have hprofile : kept.profile = profile := profile_performAll _ calls
  refine ⟨hprofile ▸ hkept.coherent, ?_⟩
  have hanew : anew = kept.forget := performAll_forget hstart.sound calls
  rw [hanew, perform_forget hkept call]

end Runs

end Battle

end FlagCombat
