import FlagCombat.Arena.Basic
import FlagCombat.Proofs.Battle.Beside
import FlagCombat.Proofs.Battle.Touch

/-!
Where an agent is in a battle that an arena shows: in its record, in the frozen poses and on the
field. A reset or a first step puts a mobile agent at one pose in all of them; any other step moves
its record and its body, and leaves its frozen pose behind; no other call moves anybody.
-/

namespace FlagCombat

/-- The poses of an agent, as far as it has a record, a frozen pose and a body. -/
structure Whereabouts where
  live : Option Pose
  previous : Option Pose
  frozen : Option Pose
  shown : Option Pose

/-- At one pose in all respects. -/
def Whereabouts.still (pose : Pose) : Whereabouts := ⟨some pose, some pose, some pose, some pose⟩

namespace Arena

theorem bodies_modifyBody (a : Arena) (agent : AgentId) (f : Body → Body) :
    (a.modifyBody agent f).bodies = a.bodies.modify agent f := by
  unfold modifyBody IdMap.modify
  cases a.bodies.get? agent <;> rfl

theorem read_modifyBody {α : Type} (a : Arena) (agent other : AgentId) (f : Body → Body)
    (read : Body → α) :
    ((a.modifyBody agent f).bodies.get? other).map read =
      if other = agent then (a.bodies.get? agent).map fun body => read (f body)
      else (a.bodies.get? other).map read := by
  rw [bodies_modifyBody, IdMap.get?_modify]
  split
  · rename_i hother
    rw [hother, Option.map_map]
    rfl
  · rfl

theorem transform_setTransform (a : Arena) (agent other : AgentId) (pose : Pose) :
    Host.transform (Host.setTransform a agent pose) other =
      if other = agent then (Host.transform a agent).map fun _ => pose
      else Host.transform a other := by
  show ((a.modifyBody agent fun body => { body with pose }).bodies.get? other).map Body.pose = _
  rw [read_modifyBody]
  simp [Host.transform, Function.comp_def]

theorem transform_addSensor (a : Arena) (agent other : AgentId) (sensor : Sensor) :
    Host.transform (Host.addSensor a agent sensor) other = Host.transform a other := by
  show ((a.modifyBody agent
    fun body => { body with sensors := body.sensors ++ [sensor] }).bodies.get? other).map _ = _
  rw [read_modifyBody]
  split
  · rename_i hother
    subst hother
    rfl
  · rfl

theorem transform_spawn {a a' : Arena} {agent : AgentId} {team : Team} {group : Group} {pose : Pose}
    (h : Host.spawnAgent a team group pose = (agent, a')) (other : AgentId) :
    Host.transform a' other = if other = agent then some pose else Host.transform a other := by
  have hspawn : a.spawn team group pose = (agent, a') := h
  obtain ⟨rfl, rfl⟩ := Prod.mk.inj hspawn
  show ((a.bodies.insert _ _).get? other).map Body.pose = _
  rw [IdMap.get?_insert]
  split <;> rfl

theorem transform_despawn (a : Arena) (agent other : AgentId) :
    Host.transform (Host.despawnAgent a agent) other =
      if other = agent then none else Host.transform a other := by
  show ((a.bodies.erase agent).get? other).map Body.pose = _
  rw [IdMap.get?_erase]
  split <;> rfl

/-- The arenas in which at most the body of an agent has moved. -/
inductive Reposed (agent : AgentId) (a : Arena) : Arena → Prop
  | still : Reposed agent a a
  | moved (pose : Pose) : Reposed agent a (Host.setTransform a agent pose)

theorem Reposed.of_eq {a a₁ a' : Arena} {agent : AgentId} (h : Reposed agent a₁ a') (heq : a₁ = a) :
    Reposed agent a a' := heq ▸ h

theorem Reposed.transform_of_ne {a a' : Arena} {agent other : AgentId} (h : Reposed agent a a')
    (hother : other ≠ agent) : Host.transform a' other = Host.transform a other := by
  cases h with
  | still => rfl
  | moved pose => exact (transform_setTransform a agent other pose).trans (if_neg hother)

/-- A body keeps its sensors where it goes. -/
theorem Reposed.sensors {a a' : Arena} {agent : AgentId} (h : Reposed agent a a') (other : AgentId) :
    (a'.bodies.get? other).map Body.sensors = (a.bodies.get? other).map Body.sensors := by
  cases h with
  | still => rfl
  | moved pose =>
    show ((a.modifyBody agent fun body => { body with pose }).bodies.get? other).map _ = _
    rw [read_modifyBody]
    split
    · rename_i hother
      rw [hother]
    · rfl

end Arena

namespace Battle

variable {T : Type}

def whereabouts (b : Battle Arena T) (agent : AgentId) : Whereabouts where
  live := (b.combatants.get? agent).map Combatant.pose
  previous := (b.combatants.get? agent).map Combatant.previousPose
  frozen := b.snapshot.poses.get? agent
  shown := Host.transform b.host agent

variable {b b' : Battle Arena T} {agent other : AgentId} {handle : Handle}

theorem Beside.whereabouts (h : Beside agent b b') (hother : other ≠ agent)
    (hshown : Host.transform b'.host other = Host.transform b.host other) :
    b'.whereabouts other = b.whereabouts other := by
  unfold Battle.whereabouts
  rw [h.read (f := Combatant.pose) (fun _ => rfl) hother,
    h.read (f := Combatant.previousPose) (fun _ => rfl) hother, h.frozen other hother, hshown]

/-- The start of a tick freezes everybody where the record says. -/
theorem whereabouts_beginTick (hb : b.Sound) (number : UInt64) (agent : AgentId) :
    (b.beginTick number).whereabouts agent =
      { b.whereabouts agent with frozen := (b.whereabouts agent).live } := by
  have hfrozen : (b.beginTick number).snapshot.poses.get? agent =
      (b.combatants.get? agent).map Combatant.pose := by
    show (IdMap.ofList (b.combatants.values.map fun c => (c.id, c.pose))).get? agent = _
    rw [IdMap.ofList_values b.combatants _ hb.record_id, IdMap.get?_mapValues]
  unfold Battle.whereabouts
  rw [hfrozen]
  rfl

/-- Whoever leaves is nowhere, and nobody else moves. -/
theorem whereabouts_dismiss (b : Battle Arena T) (agent other : AgentId) :
    ({ b.dismiss agent with host := Host.despawnAgent b.host agent } :
        Battle Arena T).whereabouts other =
      if other = agent then ⟨none, none, none, none⟩ else b.whereabouts other := by
  unfold Battle.whereabouts
  rw [Arena.transform_despawn]
  simp only [dismiss, Snapshot.remove, Snapshot.capture, IdMap.get?_erase]
  split <;> rfl

section Host

/-- To sense, to animate and to shoot shows nobody elsewhere. -/
theorem animatedHost_eq (b : Battle Arena T) (agent : AgentId) (motion : Motion) :
    b.animatedHost agent motion = b.host := by
  have hspeed (a : Arena) : (if Host.frameDelay a > 0.0 then
      Host.setAnimationSpeed a agent (motion.moveBy * Host.animationFrames / Host.frameDelay a)
      else a) = a := by
    split <;> rfl
  unfold animatedHost
  cases b.combatants.get? agent with
  | none => exact hspeed b.host
  | some c =>
    dsimp only
    split
    · exact hspeed b.host
    · exact hspeed b.host

theorem hostAfterShot_eq (b : Battle Arena T) (agent : AgentId) :
    b.hostAfterShot agent = b.host := by
  unfold hostAfterShot
  split <;> rfl

theorem shown_equip (b : Battle Arena T) (handle : Handle) (other : AgentId) :
    Host.transform (b.equip handle).host other = Host.transform b.host other := by
  show Host.transform ((b.profile.sensors.sensors handle).foldl _ b.host) other = _
  generalize b.host = a
  induction b.profile.sensors.sensors handle generalizing a with
  | nil => rfl
  | cons sensor sensors ih =>
    rw [List.foldl_cons, ih]
    exact Arena.transform_addSensor a handle.id other sensor

/-- A newcomer is still where the arena put it, and nobody else moves. -/
theorem whereabouts_enroll {pose : Pose} (hnone : b.combatants.get? handle.id = none)
    (hbody : Host.transform b.host handle.id = some pose) (h : b.enroll handle = .ok b')
    (other : AgentId) :
    (b'.equip handle).whereabouts other =
      if other = handle.id then .still pose else b.whereabouts other := by
  rcases enroll_cases h with ⟨c, hc, -, -⟩ | ⟨-, rfl⟩
  · rw [hnone] at hc
    cases hc
  · have hplaced : (b.newcomer handle).pose = pose ∧ (b.newcomer handle).previousPose = pose := by
      unfold newcomer
      rw [hbody]
      exact ⟨rfl, rfl⟩
    have hrecords : ((b.enlist handle).equip handle).combatants = (b.enlist handle).combatants := rfl
    have hfrozen : ((b.enlist handle).equip handle).snapshot = (b.enlist handle).snapshot := rfl
    unfold Battle.whereabouts
    rw [shown_equip, hrecords, hfrozen]
    simp only [enlist, Snapshot.place, Snapshot.capture, IdMap.get?_insert]
    by_cases hother : other = handle.id
    · simp [hother, hplaced, hbody, Whereabouts.still]
    · simp [hother]

theorem reposed_showPose (b : Battle Arena T) (agent : AgentId) :
    Arena.Reposed agent b.host (b.showPose agent).host := by
  unfold showPose
  split
  · exact .still
  · exact .moved _

theorem reposed_placeAtStart (b : Battle Arena T) (agent : AgentId) :
    Arena.Reposed agent b.host (b.placeAtStart agent).host := by
  unfold placeAtStart
  dsimp only
  rw [host_freezePose]
  refine (reposed_showPose _ agent).of_eq ?_
  rw [host_modifyAgent]

theorem reposed_restart (b : Battle Arena T) (handle : Handle) :
    Arena.Reposed handle.id b.host (b.restart handle).host := by
  have hforgotten := host_modifyAgent b handle.id Combatant.resetEpisode
  unfold restart
  dsimp only
  split
  · split
    · exact .of_eq .still hforgotten
    · rw [host_freezePose]
      exact (reposed_showPose _ handle.id).of_eq hforgotten
  · exact .of_eq .still hforgotten

variable [Trainer T]

theorem reposed_act (hc : b.combatants.contains handle.id = true) (action : List Float) :
    Arena.Reposed handle.id b.host (b.act handle action).2.host := by
  by_cases hfirst : handle.step = 0 ∧ handle.group.isMobile
  · unfold act
    rw [if_pos hfirst]
    exact reposed_placeAtStart b handle.id
  · obtain ⟨r, hr, -, -, hhost, -⟩ := act_rest hfirst hc action
    rw [hr]
    refine (reposed_showPose r handle.id).of_eq ?_
    rw [hhost, hostAfterShot_eq, walking_eq]
    exact animatedHost_eq b handle.id _

/-- A call other than a registration at most moves the body of its agent. -/
theorem reposed_respond {call : Call} (hh : call.handle? = some handle)
    (hc : b.combatants.contains handle.id = true) (hentered : call ≠ .register handle) :
    Arena.Reposed handle.id b.host (b.respond call).2.host := by
  cases call with
  | register a =>
    cases hh
    exact absurd rfl hentered
  | reset a =>
    cases hh
    exact reposed_restart b handle
  | step a action =>
    cases hh
    exact reposed_act hc action
  | sense a values =>
    show Arena.Reposed handle.id b.host (b.perceive a.id values).2.host
    rw [perceive_snd, target_snd]
    exact .still
  | isEpisodeOver a =>
    show Arena.Reposed handle.id b.host (b.judge a).2.host
    unfold judge
    split <;> exact .still
  | beginTick | removeAgent | cleanup => cases hh

theorem shown_respond_of_ne {call : Call} (hh : call.handle? = some handle)
    (hc : b.combatants.contains handle.id = true) (hother : other ≠ handle.id) :
    Host.transform (b.respond call).2.host other = Host.transform b.host other := by
  by_cases hentered : call = .register handle
  · rw [hentered]
    exact shown_equip b handle other
  · exact (reposed_respond hh hc hentered).transform_of_ne hother

/-- A call leaves all others where they are. -/
theorem whereabouts_attempt_of_ne {call : Call} {reply : Reply} (hh : call.handle? = some handle)
    (h : b.attempt call = .ok (reply, b')) (hother : other ≠ handle.id) :
    b'.whereabouts other = b.whereabouts other := by
  have hbeside := beside_attempt hh h
  refine hbeside.whereabouts hother ?_
  rw [attempt_of_handle b hh] at h
  cases hrefusal : b.refusal? call with
  | some e =>
    rw [hrefusal] at h
    cases h
  | none =>
    rw [hrefusal] at h
    obtain ⟨e, henroll, heq⟩ := map_ok h
    have hresponse := shown_respond_of_ne hh (contains_of_enroll henroll) hother
    rw [heq] at hresponse
    rcases enroll_cases henroll with ⟨c, -, -, rfl⟩ | ⟨-, rfl⟩
    · exact hresponse
    · exact hresponse

end Host

section Own

/-- Shown and frozen where its record says, an agent that came from nowhere is still. -/
theorem still_of_settled {c : Combatant} (hc : b.combatants.get? agent = some c)
    (hsame : c.previousPose = c.pose) (hbody : (Host.transform b.host agent).isSome = true) :
    ((b.showPose agent).freezePose agent).whereabouts agent = .still c.pose := by
  obtain ⟨pose, hbody⟩ := Option.isSome_iff_exists.1 hbody
  have hshown : (b.showPose agent).combatants.get? agent = some c := by
    rw [combatants_showPose]
    exact hc
  rw [freezePose_eq hshown, showPose_eq hc]
  simp only [Battle.whereabouts, Whereabouts.still, Snapshot.place, Snapshot.capture,
    IdMap.get?_insert, Arena.transform_setTransform, hbody, hc, hsame, ↓reduceIte, Option.map_some]

theorem whereabouts_placeAtStart (hc : b.combatants.contains agent = true)
    (hbody : (Host.transform b.host agent).isSome = true) :
    ∃ place, (b.placeAtStart agent).whereabouts agent = .still place := by
  obtain ⟨c, hc⟩ := (IdMap.contains_eq_true_iff _).1 hc
  unfold placeAtStart
  generalize b.generator.below32 360 = draw
  let placed : Combatant := c.resetPose ((Host.transform b.host agent).getD .origin).position
    (Float.ofNat draw.1)
  refine ⟨placed.pose, still_of_settled (c := placed) ?_ rfl ?_⟩
  · rw [modifyAgent_eq]
    simp [hc, placed]
  · rw [host_modifyAgent]
    exact hbody

theorem whereabouts_restart (hc : b.combatants.contains handle.id = true)
    (hbody : (Host.transform b.host handle.id).isSome = true) :
    if handle.group.isMobile then
      ∃ place, (b.restart handle).whereabouts handle.id = .still place
    else (b.restart handle).whereabouts handle.id = b.whereabouts handle.id := by
  obtain ⟨c, hc⟩ := (IdMap.contains_eq_true_iff _).1 hc
  have hforgotten : (b.modifyAgent handle.id Combatant.resetEpisode).combatants.get? handle.id =
      some c.resetEpisode := by
    rw [modifyAgent_eq]
    simp [hc]
  have hshown := host_modifyAgent b handle.id Combatant.resetEpisode
  have hfrozen : (b.modifyAgent handle.id Combatant.resetEpisode).snapshot = b.snapshot := by
    rw [modifyAgent_eq]
  unfold restart
  generalize b.modifyAgent handle.id Combatant.resetEpisode = r at hforgotten hshown hfrozen ⊢
  dsimp only
  split
  · let placed := c.resetEpisode.randomize r.profile.spawn r.profile.spawnJitter r.generator
    rw [hforgotten]
    refine ⟨placed.1.pose, still_of_settled (c := placed.1) ?_ rfl ?_⟩
    · simp [placed]
    · show (Host.transform r.host handle.id).isSome = true
      rw [hshown]
      exact hbody
  · unfold Battle.whereabouts
    rw [hforgotten, hc, hshown, hfrozen]
    rfl

variable [Trainer T]

/-- A step leaves where its agent was as its previous and its frozen pose. -/
theorem whereabouts_act {c : Combatant} (hfirst : ¬(handle.step = 0 ∧ handle.group.isMobile))
    (hc : b.combatants.get? handle.id = some c)
    (hbody : (Host.transform b.host handle.id).isSome = true) (action : List Float) :
    ∃ place, (b.act handle action).2.whereabouts handle.id =
      ⟨some place, some c.pose, b.snapshot.poses.get? handle.id, some place⟩ := by
  obtain ⟨pose, hbody⟩ := Option.isSome_iff_exists.1 hbody
  have hcontains := (IdMap.contains_eq_true_iff b.combatants).2 ⟨c, hc⟩
  have hrecord := get?_act hfirst hcontains action handle.id
  obtain ⟨r, hr, -, hposes, hhost, -⟩ := act_rest hfirst hcontains action
  rw [hc, Option.map_some, hr, combatants_showPose] at hrecord
  have hprevious : (b.effect handle action handle.id c).previousPose = c.pose := by
    unfold effect Combatant.move Combatant.drainDamage Combatant.takeHit
    simp only [↓reduceIte]
    split <;> split <;> rfl
  have hshown : r.host = b.host := by
    rw [hhost, hostAfterShot_eq, walking_eq]
    exact animatedHost_eq b handle.id _
  refine ⟨(b.effect handle action handle.id c).pose, ?_⟩
  rw [hr, showPose_eq hrecord]
  simp only [Battle.whereabouts, hrecord, Option.map_some, hprevious, hposes, hshown,
    Arena.transform_setTransform, ↓reduceIte, hbody]

end Own

end Battle

/-- How a call for an agent changes its whereabouts. -/
def Call.Leads (w w' : Whereabouts) : Call → Prop
  | .reset handle =>
    if handle.group.isMobile then ∃ place, w' = .still place else w' = w
  | .step handle _ =>
    if handle.step = 0 ∧ handle.group.isMobile then ∃ place, w' = .still place
    else ∃ place, w' = ⟨some place, w.live, w.frozen, some place⟩
  | _ => w' = w

namespace Battle

variable {T : Type} [Trainer T] {b b' : Battle Arena T} {handle : Handle}

theorem leads_respond {call : Call} (hh : call.handle? = some handle)
    (hc : b.combatants.contains handle.id = true)
    (hbody : (Host.transform b.host handle.id).isSome = true) :
    call.Leads (b.whereabouts handle.id) ((b.respond call).2.whereabouts handle.id) := by
  cases call with
  | register a =>
    cases hh
    show (b.equip handle).whereabouts handle.id = _
    unfold Battle.whereabouts
    rw [shown_equip]
    rfl
  | reset a =>
    cases hh
    exact whereabouts_restart hc hbody
  | step a action =>
    cases hh
    show if handle.step = 0 ∧ handle.group.isMobile then
      ∃ place, (b.act handle action).2.whereabouts handle.id = .still place
      else ∃ place, (b.act handle action).2.whereabouts handle.id =
        ⟨some place, (b.whereabouts handle.id).live, (b.whereabouts handle.id).frozen, some place⟩
    split
    · rename_i hfirst
      unfold act
      rw [if_pos hfirst]
      exact whereabouts_placeAtStart hc hbody
    · rename_i hfirst
      obtain ⟨c, hc⟩ := (IdMap.contains_eq_true_iff _).1 hc
      obtain ⟨place, hplace⟩ := whereabouts_act hfirst hc hbody action
      have hlive : (b.whereabouts handle.id).live = some c.pose := by
        simp [Battle.whereabouts, hc]
      rw [hlive]
      exact ⟨place, hplace⟩
  | sense a values =>
    cases hh
    show (b.perceive handle.id values).2.whereabouts handle.id = _
    rw [perceive_snd, target_snd]
    unfold Battle.whereabouts
    dsimp only
    split
    · rw [Snapshot.poses_target]
    · rfl
  | isEpisodeOver a =>
    cases hh
    obtain ⟨c, hc⟩ := (IdMap.contains_eq_true_iff _).1 hc
    show (b.judge handle).2.whereabouts handle.id = _
    unfold judge Battle.whereabouts
    simp [hc]
  | beginTick | removeAgent | cleanup => cases hh

/-- A call for an agent with a record and a body changes its whereabouts as it should. -/
theorem leads_attempt {call : Call} {reply : Reply} (hh : call.handle? = some handle)
    (hlive : (b.whereabouts handle.id).live.isSome = true)
    (hshown : (b.whereabouts handle.id).shown.isSome = true)
    (h : b.attempt call = .ok (reply, b')) :
    call.Leads (b.whereabouts handle.id) (b'.whereabouts handle.id) := by
  have hcontains : b.combatants.contains handle.id = true := by
    simpa [Battle.whereabouts, IdMap.contains] using hlive
  obtain ⟨c, hc⟩ := (IdMap.contains_eq_true_iff _).1 hcontains
  rw [attempt_of_handle b hh] at h
  cases hrefusal : b.refusal? call with
  | some e =>
    rw [hrefusal] at h
    cases h
  | none =>
    rw [hrefusal] at h
    obtain ⟨e, henroll, heq⟩ := map_ok h
    have hleads := leads_respond hh hcontains hshown
    obtain rfl := eq_of_enroll henroll hcontains
    rw [heq] at hleads
    exact hleads

end Battle

end FlagCombat
