import FlagCombat.Proofs.Battle.Attempt
import FlagCombat.Proofs.Battle.Shot

/-!
The calls of a battle carried out where it stands: each part changes the battle at once, looks up
records anew whenever it needs one, and a part that fails leaves behind what was changed before it.
A call that fails does so before its first change, so carrying out a call is attempting it.
-/

namespace FlagCombat

/-- A change to a battle that can fail halfway. -/
abbrev Deed (H T α : Type) := EStateM BattleError (Battle H T) α

namespace Deed

variable {H T : Type}

/-- The record of an agent that ought to have one. -/
def recordOf (agent : AgentId) : Deed H T Combatant := do
  match (← get).combatants.get? agent with
  | none => throw (.unknownAgent agent)
  | some c => pure c

def putRecord (agent : AgentId) (c : Combatant) : Deed H T Unit :=
  modify fun b => { b with combatants := b.combatants.insert agent c }

def modifyHost (f : H → H) : Deed H T Unit := modify fun b => { b with host := f b.host }

def freeze (agent : AgentId) (pose : Pose) : Deed H T Unit :=
  modify fun b => { b with snapshot := b.snapshot.place agent pose }

/-- The result that an attempt from a battle stands for. -/
def carriedOut (b : Battle H T) :
    Except BattleError (Reply × Battle H T) → EStateM.Result BattleError (Battle H T) Reply
  | .ok (reply, b') => .ok reply b'
  | .error e => .error e b

variable [Host H]

def ensureRecord (agent : Handle) : Deed H T Unit := do
  match (← get).combatants.get? agent.id with
  | some c => if c.team ≠ agent.team then throw (.teamMismatch agent.id c.team agent.team)
  | none =>
    let c := (← get).newcomer agent
    freeze agent.id c.pose
    modify fun b => { b with teams := (b.teams.register agent.id agent.team).2 }
    putRecord agent.id c

def register (agent : Handle) : Deed H T Interface := do
  ensureRecord agent
  for sensor in (← get).profile.sensors.sensors agent do
    modifyHost (Host.addSensor · agent.id sensor)
  return (← get).profile.interface

/-- Shows an agent at a pose, and freezes the pose. -/
def present (agent : AgentId) (pose : Pose) : Deed H T Unit := do
  modifyHost (Host.setTransform · agent pose)
  freeze agent pose

def reset (agent : Handle) : Deed H T Bool := do
  ensureRecord agent
  let c ← recordOf agent.id
  putRecord agent.id c.resetEpisode
  if agent.group.isMobile then
    let b ← get
    let (c, generator) := c.resetEpisode.randomize b.profile.spawn b.profile.spawnJitter b.generator
    modify fun b => { b with generator }
    putRecord agent.id c
    present agent.id c.pose
  return true

def placeAtStart (agent : AgentId) : Deed H T Unit := do
  let pose := (Host.transform (← get).host agent).getD .origin
  let (heading, generator) := (← get).generator.below32 360
  modify fun b => { b with generator }
  let c ← recordOf agent
  let c := c.resetPose pose.position (Float.ofNat heading)
  putRecord agent c
  present agent c.pose

def setPace (agent : AgentId) (motion : Motion) : Deed H T Unit := do
  let delay := Host.frameDelay (← get).host
  if delay > 0.0 then
    modifyHost (Host.setAnimationSpeed · agent (motion.moveBy * Host.animationFrames / delay))

def animate (agent : AgentId) (motion : Motion) : Deed H T Unit := do
  let (changed, c) := (← recordOf agent).animate Host.runAnimation
  putRecord agent c
  if changed then modifyHost (Host.setAnimation · agent Host.runAnimation)
  setPace agent motion

def reward (agent : AgentId) (motion : Motion) : Deed H T (List Float) := do
  if !(← get).teams.hasOtherFriends agent then return zeroReward (← get).profile.dimensions
  let hit ← modifyGet (·.engage agent)
  let friend ← modifyGet fun b =>
    let (found, snapshot) := b.snapshot.nearestFriend b.teams agent
    (found, { b with snapshot })
  let foe ← modifyGet fun b =>
    let (found, snapshot) := b.snapshot.nearestFoe b.teams agent
    (found, { b with snapshot })
  let c ← recordOf agent
  let (damage, drained) := c.drainDamage
  putRecord agent drained
  let profile := (← get).profile
  let outcome : Outcome := {
    motion
    nearestFriend := friend.map (·.2)
    nearestFoe := foe.map (·.2)
    flagDistance := c.pose.position.distance profile.flag
    hit
    damage }
  return outcome.reward profile.dimensions

def step [Trainer T] (agent : Handle) (action : List Float) : Deed H T (List Float) := do
  match (← get).profile.interface.actions.violation? action with
  | some violation => throw (.invalidAction agent.id violation)
  | none =>
    ensureRecord agent
    if agent.step = 0 ∧ agent.group.isMobile then
      placeAtStart agent.id
      return zeroReward (← get).profile.dimensions
    modify Battle.requestGrowth
    let motion := Motion.ofAction action
    animate agent.id motion
    let reward ← reward agent.id motion
    let c := (← recordOf agent.id).move motion (← get).profile.maxSpeed
    putRecord agent.id c
    modifyHost (Host.setTransform · agent.id c.pose)
    return reward

def sense (agent : Handle) (observations : List Float) : Deed H T (List Float) := do
  if observations.length < Observation.tailLength then
    throw (.observationTooShort agent.id Observation.tailLength observations.length)
  ensureRecord agent
  let found ← modifyGet (·.target agent.id)
  let observations := Observation.writeHasTarget observations found.isSome
  if !(← get).teams.hasOtherFriends agent.id then return observations
  let c ← recordOf agent.id
  match (← get).snapshot.poses.centroid? (← get).teams agent.id with
  | none => return observations
  | some center =>
    let distance := c.pose.position.distance center
    let bearing := c.pose.bearing center
    return (Observation.writeCentroid observations distance bearing (← get).profile.friendRadius).2

def isEpisodeOver [Trainer T] (agent : Handle) : Deed H T Bool := do
  ensureRecord agent
  let c ← recordOf agent.id
  let status := (← get).checkedStatus agent c
  putRecord agent.id { c with status }
  return status.isDone

omit [Host H] in
def removeAgent (agent : AgentId) : Deed H T Combatant := do
  let c ← recordOf agent
  modify fun b => { b with combatants := b.combatants.erase agent }
  modify fun b => { b with teams := (b.teams.remove agent).2 }
  modify fun b => { b with snapshot := b.snapshot.remove agent }
  return c

def ofCall [Trainer T] : Call → Deed H T Reply
  | .beginTick tick => do
    modify (·.beginTick tick)
    return .done
  | .register agent => return .shapes (← register agent)
  | .reset agent => return .verdict (← reset agent)
  | .step agent action => return .vector (← step agent action)
  | .sense agent values => return .vector (← sense agent values)
  | .isEpisodeOver agent => return .verdict (← isEpisodeOver agent)
  | .removeAgent agent => return .removed (← removeAgent agent)
  | .cleanup => do
    modifyHost (Host.stopScript · Host.menuScript)
    return .verdict true

section Run

variable {α β : Type} {b b' : Battle H T}

section Parts

omit [Host H]

theorem bind_of_ok {x : Deed H T α} {a : α} (h : x b = .ok a b') (f : α → Deed H T β) :
    (x >>= f) b = f a b' := by
  change EStateM.bind x f b = _
  simp only [EStateM.bind, h]

theorem bind_of_error {x : Deed H T α} {e : BattleError} (h : x b = .error e b')
    (f : α → Deed H T β) : (x >>= f) b = .error e b' := by
  change EStateM.bind x f b = _
  simp only [EStateM.bind, h]

theorem get_bind (b : Battle H T) (f : Battle H T → Deed H T α) : (get >>= f) b = f b b := rfl

theorem modify_bind (b : Battle H T) (g : Battle H T → Battle H T) (f : Unit → Deed H T α) :
    (modify g >>= f) b = f () (g b) := rfl

theorem modifyGet_bind (b : Battle H T) (g : Battle H T → α × Battle H T) (f : α → Deed H T β) :
    (modifyGet g >>= f) b = f (g b).1 (g b).2 := rfl

theorem recordOf_bind {agent : AgentId} {c : Combatant} (h : b.combatants.get? agent = some c)
    (f : Combatant → Deed H T α) : (recordOf agent >>= f) b = f c b := by
  apply bind_of_ok
  unfold recordOf
  rw [get_bind, h]
  rfl

theorem recordOf_of_contains {agent : AgentId} (h : b.combatants.contains agent = true) :
    ∃ c, b.combatants.get? agent = some c := (IdMap.contains_eq_true_iff _).1 h

end Parts

theorem ensureRecord_run (b : Battle H T) (agent : Handle) :
    ensureRecord agent b = match b.enroll agent with
      | .ok b' => .ok () b'
      | .error e => .error e b := by
  unfold ensureRecord Battle.enroll
  rw [get_bind]
  cases b.combatants.get? agent.id with
  | none => rfl
  | some c =>
    by_cases ht : c.team = agent.team
    · simp only [ht, ne_eq, not_true_eq_false, ↓reduceIte]
      rfl
    · simp only [ht, ne_eq, not_false_eq_true, ↓reduceIte]
      rfl

theorem addSensors_run (agent : AgentId) (sensors : List Sensor) (b : Battle H T) :
    (forIn sensors () fun sensor _ => do
      modifyHost (Host.addSensor · agent sensor)
      pure (ForInStep.yield ()) : Deed H T Unit) b =
      .ok () { b with
        host := sensors.foldl (fun host sensor => Host.addSensor host agent sensor) b.host } := by
  induction sensors generalizing b with
  | nil => rfl
  | cons sensor sensors ih =>
    rw [List.forIn_cons]
    exact ih { b with host := Host.addSensor b.host agent sensor }

variable {agent : Handle} (h : b.enroll agent = .ok b')

include h

theorem register_run : register agent b = .ok b'.profile.interface (b'.equip agent) := by
  unfold register
  rw [bind_of_ok (by rw [ensureRecord_run, h]), get_bind, bind_of_ok (addSensors_run _ _ _)]
  rfl

theorem reset_run : reset agent b = .ok true (b'.restart agent) := by
  obtain ⟨c, hc⟩ := recordOf_of_contains (Battle.contains_of_enroll h)
  unfold reset Battle.restart
  rw [bind_of_ok (by rw [ensureRecord_run, h]), recordOf_bind hc]
  have hreset : b'.modifyAgent agent.id (·.resetEpisode) =
      { b' with combatants := b'.combatants.insert agent.id c.resetEpisode } := by
    simp [Battle.modifyAgent, hc]
  rw [hreset]
  cases agent.group with
  | turret => rfl
  | agent =>
    simp [Battle.showPose, Battle.freezePose, Group.isMobile]
    rfl

omit h

section Record

variable {agent : AgentId} {c : Combatant} (hc : b.combatants.get? agent = some c)

include hc

theorem placeAtStart_run : placeAtStart agent b = .ok () (b.placeAtStart agent) := by
  unfold placeAtStart Battle.placeAtStart
  rw [get_bind, get_bind]
  generalize Generator.below32 360 b.generator = draw
  obtain ⟨heading, generator⟩ := draw
  dsimp only
  rw [modify_bind, recordOf_bind (b := { b with generator }) hc]
  simp [Battle.modifyAgent, Battle.showPose, Battle.freezePose, hc]
  rfl

omit hc in
theorem setPace_run (b : Battle H T) (agent : AgentId) (motion : Motion) :
    let speed := motion.moveBy * Host.animationFrames / Host.frameDelay b.host
    setPace agent motion b = .ok ()
      (if Host.frameDelay b.host > 0.0 then
        { b with host := Host.setAnimationSpeed b.host agent speed }
      else b) := by
  intro speed
  unfold setPace
  rw [get_bind]
  by_cases hdelay : Host.frameDelay b.host > 0.0
  · simp only [hdelay, ↓reduceIte]
    rfl
  · simp only [hdelay, ↓reduceIte]
    rfl

theorem animate_run (motion : Motion) : animate agent motion b = .ok () (b.animate agent motion) := by
  unfold animate Battle.animate
  rw [recordOf_bind hc]
  simp only [hc]
  cases (c.animate Host.runAnimation).1 with
  | false => exact setPace_run _ agent motion
  | true => exact setPace_run _ agent motion

theorem reward_run (motion : Motion) :
    reward agent motion b = .ok (b.reward agent motion).1 (b.reward agent motion).2 := by
  unfold reward
  rw [get_bind]
  cases hf : b.teams.hasOtherFriends agent with
  | false =>
    rw [Battle.reward_of_lone hf]
    rfl
  | true =>
    have hafter : (b.engage agent).2.combatants.contains agent = true := by
      rw [Battle.engage_eq]
      exact (Battle.contains_recordsAfterShot b agent agent).trans
        ((IdMap.contains_eq_true_iff _).2 ⟨c, hc⟩)
    obtain ⟨d, hd⟩ := (IdMap.contains_eq_true_iff _).1 hafter
    unfold Battle.reward
    simp only [hf, hd, Bool.not_true, Bool.false_eq_true, ↓reduceIte]
    rw [modifyGet_bind, modifyGet_bind, modifyGet_bind]
    refine (recordOf_bind (c := d) ?_ _).trans ?_
    · exact hd
    · rfl

end Record

theorem step_run [Trainer T] (agent : Handle) (action : List Float)
    (hfits : b.profile.interface.actions.violation? action = none)
    (h : b.enroll agent = .ok b') :
    step agent action b = .ok (b'.act agent action).1 (b'.act agent action).2 := by
  have hc := Battle.contains_of_enroll h
  unfold step
  rw [get_bind, hfits]
  dsimp only
  rw [bind_of_ok (by rw [ensureRecord_run, h])]
  by_cases hfirst : agent.step = 0 ∧ agent.group.isMobile
  · obtain ⟨c, hc⟩ := recordOf_of_contains hc
    unfold Battle.act
    simp only [hfirst, and_self, ↓reduceIte]
    rw [bind_of_ok (placeAtStart_run hc), get_bind,
      (Battle.placeAtStart_changes b' agent.id).profile]
    rfl
  · have hgrown : b'.requestGrowth.combatants.contains agent.id = true := by
      unfold Battle.requestGrowth
      split <;> exact hc
    have hwalking : (b'.walking agent action).combatants.contains agent.id = true := by
      simpa [Battle.walking_eq] using hc
    have hpaid : ((b'.walking agent action).reward agent.id (Motion.ofAction
        action)).2.combatants.contains agent.id = true := by
      rw [Battle.reward_snd hwalking]
      dsimp only
      split
      · simpa [Battle.contains_recordsAfterShot] using hwalking
      · exact hwalking
    have hprofile : ((b'.walking agent action).reward agent.id (Motion.ofAction
        action)).2.profile = b'.profile := by
      rw [(Battle.reward_changes _ _ _).profile, Battle.walking_eq]
    obtain ⟨c, hgrown⟩ := recordOf_of_contains hgrown
    obtain ⟨d, hwalking⟩ := recordOf_of_contains hwalking
    obtain ⟨e, hpaid⟩ := recordOf_of_contains hpaid
    rw [Battle.act_snd hfirst]
    simp only [hfirst, ↓reduceIte]
    rw [modify_bind, bind_of_ok (animate_run hgrown _)]
    refine (bind_of_ok (reward_run hwalking _) _).trans ?_
    rw [recordOf_bind hpaid, get_bind, hprofile]
    simp [Battle.modifyAgent, Battle.showPose, hpaid]
    rfl

theorem sense_run (agent : Handle) (observations : List Float)
    (hlong : ¬observations.length < Observation.tailLength) (h : b.enroll agent = .ok b') :
    sense agent observations b =
      .ok (b'.perceive agent.id observations).1 (b'.perceive agent.id observations).2 := by
  obtain ⟨c, hc⟩ := recordOf_of_contains (Battle.contains_of_enroll h)
  have hsnd := b'.target_snd agent.id
  unfold sense Battle.perceive
  simp only [hlong, ↓reduceIte]
  rw [bind_of_ok (by rw [ensureRecord_run, h]), modifyGet_bind, get_bind]
  generalize b'.target agent.id = aimed at hsnd
  obtain ⟨found, t⟩ := aimed
  have ht : t.combatants.get? agent.id = some c := by
    rw [show t = _ from hsnd]
    exact hc
  cases hf : t.teams.hasOtherFriends agent.id with
  | false => rfl
  | true =>
    simp only [Bool.not_true, Bool.false_eq_true, ↓reduceIte, ht]
    rw [recordOf_bind ht, get_bind, get_bind]
    cases t.snapshot.poses.centroid? t.teams agent.id <;> rfl

theorem isEpisodeOver_run [Trainer T] (agent : Handle) (h : b.enroll agent = .ok b') :
    isEpisodeOver agent b = .ok (b'.judge agent).1 (b'.judge agent).2 := by
  obtain ⟨c, hc⟩ := recordOf_of_contains (Battle.contains_of_enroll h)
  unfold isEpisodeOver Battle.judge
  rw [bind_of_ok (by rw [ensureRecord_run, h]), recordOf_bind hc, get_bind]
  simp only [hc]
  rfl

omit [Host H] in
theorem removeAgent_run (b : Battle H T) (agent : AgentId) :
    removeAgent agent b = match b.removeAgent agent with
      | .ok (c, b') => .ok c b'
      | .error e => .error e b := by
  unfold removeAgent Battle.removeAgent
  cases hc : b.combatants.get? agent with
  | some c =>
    rw [recordOf_bind hc]
    rfl
  | none =>
    apply bind_of_error
    unfold recordOf
    rw [get_bind, hc]
    rfl

section Handle

variable [Trainer T] {call : Call} {agent : Handle} {e : BattleError}
  (hh : call.handle? = some agent)

include hh

theorem ofCall_refused (hrefusal : b.refusal? call = some e) : ofCall call b = .error e b := by
  cases call with
  | step _ action =>
    cases hh
    obtain ⟨violation, hviolation, rfl⟩ := Option.map_eq_some_iff.1 hrefusal
    apply bind_of_error
    unfold step
    rw [get_bind, hviolation]
    rfl
  | sense _ values =>
    cases hh
    unfold Battle.refusal? at hrefusal
    dsimp only at hrefusal
    split at hrefusal
    · rename_i hshort
      cases hrefusal
      apply bind_of_error
      unfold sense
      simp only [hshort, ↓reduceIte]
      rfl
    · cases hrefusal
  | register | reset | isEpisodeOver => cases hrefusal
  | beginTick | removeAgent | cleanup => cases hh

theorem ofCall_mismatched (hrefusal : b.refusal? call = none) (henroll : b.enroll agent = .error e) :
    ofCall call b = .error e b := by
  have hensure : ensureRecord agent b = .error e b := by rw [ensureRecord_run, henroll]
  cases call with
  | register | reset | isEpisodeOver =>
    cases hh
    exact bind_of_error (bind_of_error hensure _) _
  | step _ action =>
    cases hh
    apply bind_of_error
    unfold step
    rw [get_bind, Option.map_eq_none_iff.1 hrefusal]
    exact bind_of_error hensure _
  | sense _ values =>
    cases hh
    have hlong := Battle.long_of_refusal hrefusal
    apply bind_of_error
    unfold sense
    simp only [hlong, ↓reduceIte]
    exact bind_of_error hensure _
  | beginTick | removeAgent | cleanup => cases hh

theorem ofCall_ok (hrefusal : b.refusal? call = none) (henroll : b.enroll agent = .ok b') :
    ofCall call b = .ok (b'.respond call).1 (b'.respond call).2 := by
  cases call with
  | register _ =>
    cases hh
    exact bind_of_ok (register_run henroll) _
  | reset _ =>
    cases hh
    exact bind_of_ok (reset_run henroll) _
  | isEpisodeOver _ =>
    cases hh
    exact bind_of_ok (isEpisodeOver_run _ henroll) _
  | step _ action =>
    cases hh
    exact bind_of_ok (step_run _ action (Option.map_eq_none_iff.1 hrefusal) henroll) _
  | sense _ values =>
    cases hh
    have hlong := Battle.long_of_refusal hrefusal
    exact bind_of_ok (sense_run _ values hlong henroll) _
  | beginTick | removeAgent | cleanup => cases hh

theorem ofCall_of_handle : ofCall call b = carriedOut b (b.attempt call) := by
  rw [Battle.attempt_of_handle b hh]
  cases hrefusal : b.refusal? call with
  | some e => exact ofCall_refused hh hrefusal
  | none =>
    cases henroll : b.enroll agent with
    | error e => exact ofCall_mismatched hh hrefusal henroll
    | ok b' => exact ofCall_ok hh hrefusal henroll

end Handle

/-- Carrying out a call is attempting it: when it succeeds it leaves the battle of the attempt, and
when it fails it has changed nothing. -/
theorem ofCall_run [Trainer T] (b : Battle H T) (call : Call) :
    ofCall call b = carriedOut b (b.attempt call) := by
  cases call with
  | beginTick tick => rfl
  | cleanup => rfl
  | removeAgent agent =>
    have hremove := removeAgent_run b agent
    have hattempt : b.attempt (.removeAgent agent) =
        (b.removeAgent agent).map fun r => (.removed r.1, r.2) := rfl
    rw [hattempt]
    cases h : b.removeAgent agent with
    | ok last =>
      rw [h] at hremove
      exact bind_of_ok hremove _
    | error e =>
      rw [h] at hremove
      exact bind_of_error hremove _
  | register agent | reset agent | isEpisodeOver agent => exact ofCall_of_handle rfl
  | step agent action => exact ofCall_of_handle rfl
  | sense agent values => exact ofCall_of_handle rfl

end Run

end Deed

end FlagCombat
