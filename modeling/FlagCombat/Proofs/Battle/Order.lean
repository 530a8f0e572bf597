import FlagCombat.Proofs.Battle.Frozen
import FlagCombat.Proofs.Battle.Ledger

/-!
The order within a tick. Once the poses are frozen, every agent that takes a step sees the battle as
it was frozen, whoever stepped before it, so any two orders of the same steps give the same rewards,
poses and hits, and do the same damage.
-/

namespace FlagCombat

/-- Where an agent is and was. -/
def Combatant.poses (c : Combatant) : Pose × Pose := (c.pose, c.previousPose)

/-- Who steps in a call, and its action. -/
def Call.move? : Call → Option (Handle × List Float)
  | .step agent action => some (agent, action)
  | _ => none

/-- The steps of an order. -/
def moves (calls : List Call) : List (Handle × List Float) := calls.filterMap Call.move?

namespace Battle

variable {H T : Type}

/-- Whether a call may stand in an order of a tick: a step of an agent with a record that is not the
first one of a mobile agent, with an action of the declared shape; or a look of an agent with a
record. -/
def Permits (b : Battle H T) : Call → Prop
  | .step agent action =>
    (b.combatants.get? agent.id).map Combatant.team = some agent.team ∧
      b.profile.interface.actions.violation? action = none ∧
      ¬(agent.step = 0 ∧ agent.group.isMobile)
  | .sense agent _ => b.combatants.contains agent.id
  | _ => False

instance (b : Battle H T) : (call : Call) → Decidable (b.Permits call)
  | .step _ _ => inferInstanceAs (Decidable (_ ∧ _ ∧ _))
  | .sense _ _ => inferInstanceAs (Decidable (_ = true))
  | .beginTick _ | .register _ | .reset _ | .isEpisodeOver _ | .removeAgent _ | .cleanup =>
    inferInstanceAs (Decidable False)

variable [Host H]

/-- What a step earns in a dimension, read off a battle in which nobody stepped yet. -/
def worth (b : Battle H T) (agent : AgentId) (motion : Motion) (d : Dimension) : Option Float :=
  if b.teams.hasOtherFriends agent then
    (b.combatants.get? agent).map fun c => (b.outcome agent motion c).score d
  else some 0.0

/-- The battle `b` is what a frozen one has become after some of its agents moved. -/
structure Continues (frozen b : Battle H T) (moved : List (Handle × List Float)) : Prop where
  origin : frozen.Sound
  sound : b.Sound
  alike : Alike frozen b
  stood : ∀ agent, (∀ move ∈ moved, move.1.id ≠ agent) →
    (b.combatants.get? agent).map Combatant.poses =
      (frozen.combatants.get? agent).map Combatant.poses
  walked : ∀ move ∈ moved, (b.combatants.get? move.1.id).map Combatant.poses =
    (frozen.combatants.get? move.1.id).map fun c =>
      (c.move (Motion.ofAction move.2) frozen.profile.maxSpeed).poses
  hits : b.hits = frozen.hits + moved.countP fun move => (frozen.victim? move.1.id).isSome

theorem continues_self {b : Battle H T} (hb : b.Sound) : Continues b b [] where
  origin := hb
  sound := hb
  alike := ⟨rfl, rfl, rfl, .refl _, hb.coherent, hb.coherent, fun _ => rfl⟩
  stood _ _ := rfl
  walked _ h := nomatch h
  hits := rfl

theorem pose_recordsAfterShot [Trainer T] (b : Battle H T) (agent : Handle) (action : List Float)
    (other : AgentId) :
    (((b.walking agent action).recordsAfterShot agent.id).get? other).map Combatant.pose =
      (b.combatants.get? other).map Combatant.pose := by
  have hshot (c : Combatant) : (if (b.walking agent action).victim? agent.id = some other then
      c.takeHit damagePerHit else c).pose = c.pose := by
    split <;> rfl
  have hwalk : ((b.walking agent action).combatants.get? other).map Combatant.pose =
      (b.combatants.get? other).map Combatant.pose := by
    rw [walking_eq]
    dsimp only
    rw [IdMap.get?_modify]
    split
    · simp [Function.comp_def]
    · rfl
  rw [get?_recordsAfterShot, Option.map_map, ← hwalk]
  exact congrArg (Option.map · _) (funext hshot)

theorem poses_effect [Trainer T] (b : Battle H T) (agent : Handle) (action : List Float)
    (other : AgentId) (c : Combatant) :
    (b.effect agent action other c).poses =
      if other = agent.id then (c.move (Motion.ofAction action) b.profile.maxSpeed).poses
      else c.poses := by
  unfold effect
  by_cases ho : other = agent.id
  · simp only [if_pos ho, Combatant.poses, Combatant.move, Combatant.drainDamage,
      Combatant.takeHit]
    split <;> split <;> rfl
  · simp only [if_neg ho]
    split <;> rfl

/-- A step that is not refused, and is no first one, shoots while its agent walks. -/
theorem victim?_of_step [Trainer T] {b : Battle H T} {agent : Handle} {action : List Float}
    (hrefusal : b.refusal? (.step agent action) = none) (henroll : b.enroll agent = .ok b)
    (hfirst : ¬(agent.step = 0 ∧ agent.group.isMobile)) :
    (Moment.mk b (.step agent action)).victim? = (b.walking agent action).victim? agent.id := by
  have hshot : (Moment.mk b (.step agent action)).shot? =
      if b.teams.hasOtherFriends agent.id then some (b.walking agent action, agent.id)
      else none := by
    simp only [Moment.shot?, hrefusal, henroll]
    exact if_neg hfirst
  rw [Moment.victim?_eq, hshot]
  cases hf : b.teams.hasOtherFriends agent.id with
  | true => rfl
  | false => exact (victim?_of_lone (by rw [walking_eq]; exact hf)).symm

section Step

variable {frozen b : Battle H T} {moved : List (Handle × List Float)} {agent : Handle}

/-- An agent that the frozen battle knows on the team of its handle is still known so. -/
theorem Continues.enroll (h : Continues frozen b moved)
    (hteam : (frozen.combatants.get? agent.id).map Combatant.team = some agent.team) :
    b.enroll agent = .ok b ∧ b.combatants.contains agent.id = true := by
  rw [← h.origin.teamOf, ← h.alike.teams, h.sound.teamOf] at hteam
  obtain ⟨c, hc, hct⟩ := Option.map_eq_some_iff.1 hteam
  refine ⟨?_, (IdMap.contains_eq_true_iff _).2 ⟨c, hc⟩⟩
  unfold Battle.enroll
  rw [hc]
  exact if_pos hct

variable [Trainer T] (hstable : StableRays H)

omit [Trainer T] in
theorem Continues.refusal (h : Continues frozen b moved) {action : List Float}
    (hpermit : frozen.Permits (.step agent action)) : b.refusal? (.step agent action) = none := by
  simp only [refusal?, h.alike.profile, hpermit.2.1, Option.map_none]

theorem Continues.perform_step (h : Continues frozen b moved) {action : List Float}
    (hpermit : frozen.Permits (.step agent action)) :
    b.perform (.step agent action) =
      (.ok (.vector (b.act agent action).1), (b.act agent action).2) := by
  unfold perform
  rw [attempt_of_handle b rfl, h.refusal hpermit, (h.enroll hpermit.1).1]
  rfl

include hstable

/-- Whom a step strikes is settled by the frozen battle. -/
theorem Continues.victim (h : Continues frozen b moved) {action : List Float}
    (hpermit : frozen.Permits (.step agent action)) :
    (Moment.mk b (.step agent action)).victim? = frozen.victim? agent.id := by
  rw [victim?_of_step (h.refusal hpermit) (h.enroll hpermit.1).1 hpermit.2.2]
  exact (h.alike.walking hstable agent action).victim? agent.id

/-- The reward of a step is the one of the frozen battle, but for the damage. -/
theorem Continues.reward (h : Continues frozen b moved) {action : List Float}
    (hpermit : frozen.Permits (.step agent action)) (hfresh : ∀ move ∈ moved, move.1.id ≠ agent.id) :
    (b.act agent action).1.length = frozen.profile.dimensions.length ∧
      ∀ (k : Nat) d, frozen.profile.dimensions[k]? = some d → d ≠ .avoidFire →
        (b.act agent action).1[k]? = frozen.worth agent.id (Motion.ofAction action) d := by
  obtain ⟨hteam, -, hfirst⟩ := hpermit
  have hc := (h.enroll hteam).2
  have hwalk := h.alike.walking hstable agent action
  rw [act_snd hfirst]
  unfold worth
  cases hf : frozen.teams.hasOtherFriends agent.id with
  | false =>
    rw [reward_of_lone (by rw [hwalk.teams, hf]), hwalk.profile]
    refine ⟨by simp [zeroReward], fun k d hk _ => ?_⟩
    simp only [zeroReward, List.getElem?_map, hk]
    rfl
  | true =>
    obtain ⟨c, hget⟩ := (IdMap.contains_eq_true_iff _).1 hc
    have hstood := h.stood agent.id hfresh
    rw [hget, Option.map_some] at hstood
    obtain ⟨c₀, hget₀, hposes⟩ := Option.map_eq_some_iff.1 hstood.symm
    have hrecord := pose_recordsAfterShot b agent action agent.id
    rw [hget, Option.map_some, show c.pose = c₀.pose from congrArg Prod.fst hposes.symm] at hrecord
    obtain ⟨c', hc', hpose⟩ := Option.map_eq_some_iff.1 hrecord
    rw [reward_eq (by rw [hwalk.teams, hf]) hc', hwalk.profile, hget₀]
    refine ⟨by simp [Outcome.reward], fun k d hk hd => ?_⟩
    simp only [Outcome.reward, List.getElem?_map, hk, Option.map_some,
      hwalk.score agent.id (Motion.ofAction action) hpose hd]
    rfl

/-- One more step: the agent moves as it would have moved first, and shoots whom it would have. -/
theorem Continues.act (h : Continues frozen b moved) {action : List Float}
    (hpermit : frozen.Permits (.step agent action)) (hfresh : ∀ move ∈ moved, move.1.id ≠ agent.id) :
    Continues frozen (b.act agent action).2 (moved ++ [(agent, action)]) := by
  obtain ⟨hteam, -, hfirst⟩ := hpermit
  have hc := (h.enroll hteam).2
  have hwalk := h.alike.walking hstable agent action
  have hposes (other : AgentId) : ((b.act agent action).2.combatants.get? other).map
      Combatant.poses = (b.combatants.get? other).map fun c =>
        if other = agent.id then (c.move (Motion.ofAction action) b.profile.maxSpeed).poses
        else c.poses := by
    rw [get?_act hfirst hc, Option.map_map]
    exact congrArg (Option.map · _) (funext fun c => poses_effect b agent action other c)
  refine ⟨h.origin, h.sound.changes (act_changes b agent action),
    h.alike.act hstable h.sound hfirst hc action, fun other hother => ?_, fun move hmove => ?_, ?_⟩
  · have hne : other ≠ agent.id := fun heq =>
      hother (agent, action) (List.mem_append_right _ List.mem_cons_self) heq.symm
    rw [hposes]
    simp only [if_neg hne]
    exact h.stood other fun move hmove => hother move (List.mem_append_left _ hmove)
  · rw [hposes]
    rcases List.mem_append.1 hmove with hmove | hmove
    · simp only [if_neg (hfresh move hmove)]
      exact h.walked move hmove
    · obtain rfl := List.mem_singleton.1 hmove
      have hstood := h.stood agent.id hfresh
      simp only [↓reduceIte, h.alike.profile]
      have hmoved := congrArg (Option.map fun p : Pose × Pose =>
        (p.1.advance (frozen.profile.maxSpeed * (Motion.ofAction action).moveBy)
          (Motion.ofAction action).turnBy, p.1)) hstood
      rw [Option.map_map, Option.map_map] at hmoved
      exact hmoved
  · rw [hits_act hfirst hc, h.hits, hwalk.victim?, List.countP_append, List.countP_singleton,
      Nat.add_assoc]

omit hstable in
/-- A look of an agent with a record keeps the battle, or asks for the target. -/
theorem Continues.look (h : Continues frozen b moved) {values : List Float}
    (hpermit : frozen.Permits (.sense agent values)) :
    Continues frozen (b.perform (.sense agent values)).2 moved := by
  have hasked : Continues frozen (b.target agent.id).2 moved := by
    have hsound := h.sound.changes (target_changes b agent.id)
    rw [target_snd] at hsound ⊢
    refine ⟨h.origin, hsound, ?_, h.stood, h.walked, h.hits⟩
    refine ⟨h.alike.profile, h.alike.teams, ?_, h.alike.rays, h.alike.coherent, hsound.coherent,
      h.alike.known⟩
    dsimp only
    split <;> exact h.alike.poses
  unfold perform
  cases hattempt : b.attempt (.sense agent values) with
  | error e => exact h
  | ok result =>
    obtain ⟨reply, b'⟩ := result
    cases success_of_attempt hattempt with
    | handle hh hrefusal henroll =>
      cases hh
      have hknown : b.combatants.contains agent.id = true := by rw [h.alike.known]; exact hpermit
      obtain rfl := eq_of_enroll henroll hknown
      simp only [respond, perceive_snd]
      exact hasked

end Step

section Two

variable {frozen b b' : Battle H T} {moved moved' : List (Handle × List Float)}

/-- After the same moves in two orders everybody is at the same place. -/
theorem Continues.poses_eq (h : Continues frozen b moved) (h' : Continues frozen b' moved')
    (hperm : moved.Perm moved') (agent : AgentId) :
    (b.combatants.get? agent).map Combatant.poses =
      (b'.combatants.get? agent).map Combatant.poses := by
  by_cases hmoved : ∃ move ∈ moved, move.1.id = agent
  · obtain ⟨move, hmove, rfl⟩ := hmoved
    rw [h.walked move hmove, h'.walked move (hperm.mem_iff.1 hmove)]
  · have hstood : ∀ move ∈ moved, move.1.id ≠ agent := fun move hmove heq =>
      hmoved ⟨move, hmove, heq⟩
    rw [h.stood agent hstood, h'.stood agent fun move hmove => hstood move (hperm.mem_iff.2 hmove)]

/-- An agent that did not move is told the same of its surroundings, whoever else moved. -/
theorem Continues.sense_eq [Trainer T] (h : Continues frozen b moved)
    (h' : Continues frozen b' moved') {agent : Handle}
    (hstill : ∀ move ∈ moved ++ moved', move.1.id ≠ agent.id)
    (hshown : frozen.combatants.contains agent.id = true ∨
      Host.transform b'.host agent.id = Host.transform b.host agent.id) (values : List Float) :
    (b.perform (.sense agent values)).1 = (b'.perform (.sense agent values)).1 := by
  have hstood := h.stood agent.id fun move hmove => hstill move (List.mem_append_left _ hmove)
  have hstood' := h'.stood agent.id fun move hmove => hstill move (List.mem_append_right _ hmove)
  have hpose := congrArg (Option.map Prod.fst) (hstood.trans hstood'.symm)
  rw [Option.map_map, Option.map_map] at hpose
  refine (h'.alike.join h.alike).sense h'.sound h.sound hpose (hshown.imp ?_ Eq.symm) values
  intro hknown
  rw [h'.alike.known]
  exact hknown

end Two

section Orders

variable [Trainer T] (hstable : StableRays H) {frozen : Battle H T}

theorem moves_concat (calls : List Call) (call : Call) :
    moves (calls ++ [call]) = moves calls ++ call.move?.toList := by
  unfold moves
  rw [List.filterMap_append]
  cases h : call.move? <;> simp [h]

include hstable

/-- After every order the battle is the frozen one but for what its agents did. -/
theorem continues_performAll (hfrozen : frozen.Sound) {calls : List Call}
    (hpermits : ∀ call ∈ calls, frozen.Permits call)
    (hdistinct : ((moves calls).map (·.1.id)).Nodup) :
    Continues frozen (frozen.performAll calls) (moves calls) := by
  induction calls using List.reverseRecOn with
  | nil => exact continues_self hfrozen
  | append_singleton calls call ih =>
    rw [moves_concat, List.map_append] at hdistinct
    obtain ⟨hbefore, -, hdisjoint⟩ := List.nodup_append.1 hdistinct
    have h := ih (fun call hcall => hpermits call (List.mem_append_left _ hcall)) hbefore
    have hpermit := hpermits call (List.mem_append_right _ List.mem_cons_self)
    rw [performAll_append, moves_concat]
    show Continues frozen ((frozen.performAll calls).perform call).2 _
    cases call with
    | step agent action =>
      have hfresh : ∀ move ∈ moves calls, move.1.id ≠ agent.id := fun move hmove =>
        hdisjoint _ (List.mem_map_of_mem hmove) agent.id (by simp [Call.move?])
      rw [h.perform_step hpermit]
      exact h.act hstable hpermit hfresh
    | sense agent values =>
      rw [show (Call.sense agent values).move?.toList = [] from rfl, List.append_nil]
      exact h.look hpermit
    | _ => cases hpermit

theorem continues_before (hfrozen : frozen.Sound) {calls before after : List Call}
    (hpermits : ∀ call ∈ calls, frozen.Permits call)
    (hdistinct : ((moves calls).map (·.1.id)).Nodup) (hsplit : calls = before ++ after) :
    Continues frozen (frozen.performAll before) (moves before) := by
  subst hsplit
  unfold moves at hdistinct
  rw [List.filterMap_append, List.map_append] at hdistinct
  exact continues_performAll hstable hfrozen
    (fun call hcall => hpermits call (List.mem_append_left _ hcall))
    (List.nodup_append.1 hdistinct).1

/-- What a step of an order earns is settled by the frozen battle, whatever came before it. -/
theorem reward_in_order (hfrozen : frozen.Sound) {calls before after : List Call} {agent : Handle}
    {action : List Float} (hpermits : ∀ call ∈ calls, frozen.Permits call)
    (hdistinct : ((moves calls).map (·.1.id)).Nodup)
    (hsplit : calls = before ++ .step agent action :: after) :
    ∃ rewards, ((frozen.performAll before).perform (.step agent action)).1 =
        .ok (.vector rewards) ∧
      rewards.length = frozen.profile.dimensions.length ∧
      ∀ (k : Nat) d, frozen.profile.dimensions[k]? = some d → d ≠ .avoidFire →
        rewards[k]? = frozen.worth agent.id (Motion.ofAction action) d := by
  have h := continues_before hstable hfrozen hpermits hdistinct hsplit
  have hpermit := hpermits (.step agent action) (by simp [hsplit])
  have hfresh : ∀ move ∈ moves before, move.1.id ≠ agent.id := by
    subst hsplit
    unfold moves at hdistinct
    rw [List.filterMap_append, List.map_append] at hdistinct
    have hdisjoint := (List.nodup_append.1 hdistinct).2.2
    exact fun move hmove => hdisjoint _ (List.mem_map_of_mem hmove) agent.id
      (by simp [Call.move?])
  exact ⟨_, by rw [h.perform_step hpermit], h.reward hstable hpermit hfresh⟩

/-- As long as no counter comes to its limit, the damage of an agent grows by the shots of the order
that are aimed at it and land. -/
theorem damage_performAll (hfrozen : frozen.Sound) {calls : List Call}
    (hpermits : ∀ call ∈ calls, frozen.Permits call)
    (hdistinct : ((moves calls).map (·.1.id)).Nodup)
    {agent : AgentId} (hexact : ∀ m ∈ frozen.history calls, ∀ a,
      m.battle.account? agent = some a → m.Exact agent a)
    {a₀ : Account} (h₀ : frozen.account? agent = some a₀) :
    ∃ a, (frozen.performAll calls).account? agent = some a ∧
      a.total.toNat + a.pending.toNat = a₀.total.toNat + a₀.pending.toNat +
        (moves calls).countP fun move => frozen.victim? move.1.id = some agent := by
  induction calls using List.reverseRecOn with
  | nil => exact ⟨a₀, h₀, rfl⟩
  | append_singleton calls call ih =>
    have hpermits' := fun call hcall => hpermits call (List.mem_append_left _ hcall)
    have hpermit := hpermits call (List.mem_append_right _ List.mem_cons_self)
    have hknown := (continues_performAll hstable hfrozen hpermits hdistinct).alike.known agent
    rw [moves_concat, List.map_append] at hdistinct
    obtain ⟨hbefore, -, -⟩ := List.nodup_append.1 hdistinct
    rw [performAll_append] at hknown
    rw [history_concat] at hexact
    have h := continues_performAll hstable hfrozen hpermits' hbefore
    obtain ⟨a, ha, hsum⟩ := ih hpermits' hbefore
      fun m hm => hexact m (List.mem_append_left _ hm)
    rw [performAll_append, moves_concat, List.countP_append, ← Nat.add_assoc, ← hsum]
    -- The books of the last call, with its victim read off the frozen battle.
    let m : Moment H T := ⟨frozen.performAll calls, call⟩
    have hreset : m.resets agent = false := by
      cases call with
      | step | sense => rfl
      | _ => cases hpermit
    have hvictim : (if m.victim? = some agent then 1 else 0) =
        call.move?.toList.countP fun move => frozen.victim? move.1.id = some agent := by
      cases call with
      | step handle action =>
        rw [h.victim hstable hpermit]
        simp [Call.move?, List.countP_singleton]
      | sense handle values => rfl
      | _ => cases hpermit
    have hafter : m.after.account? agent = some (m.settle agent a) := by
      refine Moment.account?_after_of_known h.sound hreset ha ?_
      rw [account?_isSome]
      exact hknown.trans (by rw [← account?_isSome, h₀]; rfl)
    have hm : m.Exact agent a := hexact m (List.mem_append_right _ List.mem_cons_self) a ha
    exact ⟨_, hafter, hvictim ▸ (Moment.settle_exact h.sound ha hm).1⟩

/-- The order within a tick does not matter to what agents see. Of two orders of the same steps, with
looks anywhere between them, each step earns the same but for avoiding fire, all agents end at the
same poses, as many shots land, and the damage is the same unless a counter comes to its limit. An
agent that did not step yet is told the same of its surroundings. -/
theorem order_unobservable {b : Battle H T} (hb : Reachable b) (tick : UInt64)
    {calls calls' : List Call} (hpermits : ∀ call ∈ calls, (b.beginTick tick).Permits call)
    (hpermits' : ∀ call ∈ calls', (b.beginTick tick).Permits call)
    (hdistinct : ((moves calls).map (·.1.id)).Nodup) (hperm : (moves calls).Perm (moves calls')) :
    let frozen := b.beginTick tick
    (∀ agent action before after before' after',
      calls = before ++ .step agent action :: after →
      calls' = before' ++ .step agent action :: after' →
      ∃ rewards rewards',
        ((frozen.performAll before).perform (.step agent action)).1 = .ok (.vector rewards) ∧
        ((frozen.performAll before').perform (.step agent action)).1 = .ok (.vector rewards') ∧
        rewards.length = rewards'.length ∧
        ∀ (k : Nat) d, b.profile.dimensions[k]? = some d → d ≠ .avoidFire →
          rewards[k]? = rewards'[k]?) ∧
    (∀ agent, ((frozen.performAll calls).combatants.get? agent).map Combatant.poses =
      ((frozen.performAll calls').combatants.get? agent).map Combatant.poses) ∧
    (frozen.performAll calls).hits = (frozen.performAll calls').hits ∧
    (∀ agent, (∀ m ∈ frozen.history calls ++ frozen.history calls', ∀ a,
        m.battle.account? agent = some a → m.Exact agent a) →
      ∀ c c', (frozen.performAll calls).combatants.get? agent = some c →
        (frozen.performAll calls').combatants.get? agent = some c' →
        c.totalDamage.toNat + c.pendingDamage.toNat =
          c'.totalDamage.toNat + c'.pendingDamage.toNat) ∧
    ∀ agent values before after before' after', calls = before ++ after → calls' = before' ++ after' →
      (∀ move ∈ moves before ++ moves before', move.1.id ≠ agent.id) →
      (b.combatants.contains agent.id = true ∨
        Host.transform (frozen.performAll before').host agent.id =
          Host.transform (frozen.performAll before).host agent.id) →
      ((frozen.performAll before).perform (.sense agent values)).1 =
        ((frozen.performAll before').perform (.sense agent values)).1 := by
  intro frozen
  have hfrozen : frozen.Sound := (hb.perform (.beginTick tick)).sound
  have hdistinct' : ((moves calls').map (·.1.id)).Nodup :=
    (hperm.map (·.1.id)).nodup_iff.1 hdistinct
  have hdone := continues_performAll hstable hfrozen hpermits hdistinct
  have hdone' := continues_performAll hstable hfrozen hpermits' hdistinct'
  refine ⟨?rewards, ?poses, ?hits, ?damage, ?looks⟩
  case rewards =>
    intro agent action before after before' after' hsplit hsplit'
    obtain ⟨rewards, hok, hlength, hworth⟩ :=
      reward_in_order hstable hfrozen hpermits hdistinct hsplit
    obtain ⟨rewards', hok', hlength', hworth'⟩ :=
      reward_in_order hstable hfrozen hpermits' hdistinct' hsplit'
    refine ⟨rewards, rewards', hok, hok', hlength.trans hlength'.symm, fun k d hk hd => ?_⟩
    exact (hworth k d hk hd).trans (hworth' k d hk hd).symm
  case poses => exact fun agent => hdone.poses_eq hdone' hperm agent
  case hits => rw [hdone.hits, hdone'.hits, hperm.countP_eq]
  case damage =>
    intro agent hexact c c' hc hc'
    have hknown : (frozen.account? agent).isSome = true := by
      rw [account?_isSome, ← hdone.alike.known, IdMap.contains, hc]
      rfl
    obtain ⟨a₀, h₀⟩ := Option.isSome_iff_exists.1 hknown
    obtain ⟨a, ha, hsum⟩ := damage_performAll hstable hfrozen hpermits hdistinct
      (fun m hm => hexact m (List.mem_append_left _ hm)) h₀
    obtain ⟨a', ha', hsum'⟩ := damage_performAll hstable hfrozen hpermits' hdistinct'
      (fun m hm => hexact m (List.mem_append_right _ hm)) h₀
    simp only [account?, hc, hc', Option.map_some, Option.some.injEq] at ha ha'
    subst ha ha'
    rw [← hperm.countP_eq] at hsum'
    exact hsum.trans hsum'.symm
  case looks =>
    intro agent values before after before' after' hsplit hsplit' hstill hshown
    have h := continues_before hstable hfrozen hpermits hdistinct hsplit
    have h' := continues_before hstable hfrozen hpermits' hdistinct' hsplit'
    exact h.sense_eq h' hstill hshown values

end Orders

section Volley

def volleyAgent (n : UInt32) (team : Team) : Handle :=
  { id := ⟨n⟩, team, group := .agent, step := 1 }

/-- The first agent meets its foe at one place, and its friend stands apart from both. -/
def volleyPlaces : OpenField where
  transforms := .ofList [(⟨1⟩, ⟨100.0, 200.0, 90.0⟩), (⟨2⟩, ⟨109.0, 212.0, 0.0⟩),
    (⟨3⟩, ⟨100.0, 200.0, 270.0⟩)]

/-- Two of the first team and one of the other. -/
def volleyField : Battle OpenField FixedTrainer :=
  (start {} volleyPlaces {} 0).performAll
    [.register (volleyAgent 1 .zero), .register (volleyAgent 2 .zero),
      .register (volleyAgent 3 .one)]

def volley : List Call :=
  [.step (volleyAgent 1 .zero) [0.5, 0.0], .step (volleyAgent 3 .one) [1.0, 0.1],
    .step (volleyAgent 2 .zero) [0.0, 0.0]]

def volleyBackwards : List Call :=
  [.step (volleyAgent 2 .zero) [0.0, 0.0], .sense (volleyAgent 1 .zero) [0.0, 0.0, 0.0],
    .step (volleyAgent 3 .one) [1.0, 0.1], .step (volleyAgent 1 .zero) [0.5, 0.0]]

/-- The first agent strikes its foe, and is paid for that in either order. -/
theorem order_unobservable_volley :
    let frozen := volleyField.beginTick 1
    ∃ rewards rewards',
      (frozen.perform (.step (volleyAgent 1 .zero) [0.5, 0.0])).1 = .ok (.vector rewards) ∧
      ((frozen.performAll (volleyBackwards.take 3)).perform
        (.step (volleyAgent 1 .zero) [0.5, 0.0])).1 = .ok (.vector rewards') ∧
      rewards[4]? = some 1.0 ∧ rewards'[4]? = some 1.0 ∧
      (frozen.performAll volley).hits = (frozen.performAll volleyBackwards).hits := by
  intro frozen
  have hreach : Reachable volleyField := (Reachable.start _ _ _ _).performAll _
  have hpermits : ∀ call ∈ volley, frozen.Permits call := by decide +kernel
  have hpermits' : ∀ call ∈ volleyBackwards, frozen.Permits call := by decide +kernel
  obtain ⟨hrewards, -, hhits, -⟩ := order_unobservable stableRays_openField hreach 1 hpermits
    hpermits' (by decide +kernel) (List.reverse_perm (moves volleyBackwards))
  obtain ⟨rewards, rewards', hok, hok', -, hsame⟩ := hrewards (volleyAgent 1 .zero) [0.5, 0.0] []
    (volley.drop 1) (volleyBackwards.take 3) [] rfl rfl
  have hpaid : (frozen.perform (.step (volleyAgent 1 .zero) [0.5, 0.0])).1.toOption.bind
      (fun reply => match reply with | .vector values => values[4]? | _ => none) = some 1.0 := by
    decide +kernel
  rw [show (frozen.perform (.step (volleyAgent 1 .zero) [0.5, 0.0])).1 = _ from hok] at hpaid
  have hpaid' := (hsame 4 .hitTarget rfl (by decide)).symm.trans hpaid
  exact ⟨rewards, rewards', hok, hok', hpaid, hpaid', hhits⟩

end Volley

end Battle

end FlagCombat
