import FlagCombat.Proofs.Battle.Exemption
import FlagCombat.Proofs.Battle.Order
import FlagCombat.Proofs.Battle.Whereabouts

/-!
Shots among the bodies of an arena. Where a shot is aimed is settled by the frozen poses; what its
ray strikes is settled by where the arena has the bodies at that moment, so one that moved since can
block a shot, or no longer block it.
-/

namespace FlagCombat

namespace Arena

variable {a : Arena} {agent : AgentId} {start finish : Point}

/-- A body that a segment misses might as well not be there. -/
theorem crossings_despawn
    (hmissed : ∀ pose, Host.transform a agent = some pose →
      Disc.entry? ⟨pose.position, Body.radius⟩ start finish = none) (mask : Mask) :
    (Host.despawnAgent a agent).crossings start finish mask = a.crossings start finish mask := by
  have hbodies (id : AgentId) (body : Body) (hmem : (id, body) ∈ a.bodies.entries) :
      id ≠ agent ∨ body.disc.entry? start finish = none := by
    by_cases hid : id = agent
    · subst hid
      refine .inr (hmissed body.pose ?_)
      show (a.bodies.get? id).map _ = _
      rw [(IdMap.mem_entries_iff _).1 hmem, Option.map_some]
    · exact .inl hid
  show { a with bodies := a.bodies.erase agent }.crossings start finish mask = _
  unfold crossings IdMap.erase
  dsimp only
  rw [List.filterMap_filter]
  congr 1
  refine List.filterMap_congr fun (id, body) hmem => ?_
  obtain hid | hnone := hbodies id body hmem
  · simp [hid]
  · simp [hnone]

/-- A body that moves to where a segment misses it might as well be gone. -/
theorem crossings_setTransform (a : Arena) (agent : AgentId) {pose : Pose}
    (hmisses : Disc.entry? ⟨pose.position, Body.radius⟩ start finish = none) (mask : Mask) :
    (Host.setTransform a agent pose).crossings start finish mask =
      (Host.despawnAgent a agent).crossings start finish mask := by
  have hgone : Host.despawnAgent (Host.setTransform a agent pose) agent =
      Host.despawnAgent a agent := by
    show Host.despawnAgent (a.modifyBody agent _) agent = _
    unfold modifyBody
    cases hbody : a.bodies.get? agent with
    | none => rfl
    | some body =>
      refine congrArg (fun bodies => { a with bodies }) (IdMap.ext_get? fun other => ?_)
      simp only [IdMap.get?_erase, IdMap.get?_insert]
      split <;> rfl
  rw [← hgone]
  refine (crossings_despawn (fun other hother => ?_) mask).symm
  rw [transform_setTransform, if_pos rfl] at hother
  obtain ⟨-, -, rfl⟩ := Option.map_eq_some_iff.1 hother
  exact hmisses

/-- A body that a segment misses, and that moves to where the segment misses it, changes nothing for
its ray. -/
theorem rayCast_setTransform {place pose : Pose} (hshown : Host.transform a agent = some place)
    (hmissed : Disc.entry? ⟨place.position, Body.radius⟩ start finish = none)
    (hmisses : Disc.entry? ⟨pose.position, Body.radius⟩ start finish = none) (mask : Mask) :
    (Host.rayCast (Host.setTransform a agent pose) start finish mask).1 =
      (Host.rayCast a start finish mask).1 := by
  show (cast _ start finish mask).map _ = (cast a start finish mask).map _
  unfold cast
  rw [crossings_setTransform a agent hmisses, crossings_despawn fun other hother => ?_]
  rw [hshown] at hother
  cases hother
  exact hmissed

end Arena

namespace Battle

variable {T : Type} {b : Battle Arena T} {agent : AgentId}

/-- Whether the shot of an agent lands when its ray is cast among the bodies of `shown`. -/
def landsIn (b : Battle Arena T) (shown : Arena) (agent : AgentId) : Bool :=
  (b.aim? agent).any fun (foe, start, finish) =>
    lineOfSightClear (Host.rayCast shown start finish .shotBlockers).1 foe

theorem landsIn_of_aim {foe : AgentId} {start finish : Point}
    (haim : b.aim? agent = some (foe, start, finish)) (shown : Arena) :
    b.landsIn shown agent =
      lineOfSightClear (Host.rayCast shown start finish .shotBlockers).1 foe := by
  unfold landsIn
  rw [haim, Option.any_some]

/-- Whoever an agent aims at has a record. -/
theorem Sound.contains_of_aim (hb : b.Sound) {foe : AgentId} {start finish : Point}
    (h : b.aim? agent = some (foe, start, finish)) : b.combatants.contains foe = true := by
  obtain ⟨found, hfound, hends⟩ := Option.bind_eq_some_iff.1 h
  have hsame : found = foe := by
    split at hends
    · cases hends
      rfl
    · cases hends
  subst hsame
  rw [target_forget hb.coherent] at hfound
  unfold targetAnew at hfound
  split at hfound
  · obtain ⟨team, -, hfoe⟩ := (Teams.mem_foesOf_iff _).1 (Poses.target_mem hfound).1
    have hteam : b.teams.teamOf found = some team.opponent := hfoe
    rw [hb.teamOf] at hteam
    obtain ⟨record, hrecord, -⟩ := Option.map_eq_some_iff.1 hteam
    exact (IdMap.contains_eq_true_iff _).2 ⟨record, hrecord⟩
  · cases hfound

theorem Sound.isSome_victim? (hb : b.Sound) (agent : AgentId) :
    (b.victim? agent).isSome = b.landsIn b.host agent := by
  unfold victim? landsIn
  cases haim : b.aim? agent with
  | none => rfl
  | some aim =>
    obtain ⟨foe, start, finish⟩ := aim
    simp only [Option.bind_some, Option.any_some, hb.contains_of_aim haim, Bool.and_true]
    split <;> simp [*]

variable [Trainer T] {shooter mover : Handle} {action : List Float}

/-- The pose that an agent takes on its way does not change its aim. -/
theorem Sound.aim?_walking (hb : b.Sound) (shooter : Handle) (action : List Float) :
    (b.walking shooter action).aim? shooter.id = b.aim? shooter.id :=
  (aim?_eq hb.coherent (hb.walking shooter action).coherent (by rw [walking_eq])
    (by rw [walking_eq]) (by rw [walking_eq]) shooter.id).2

theorem landsIn_walking (hb : b.Sound) (shooter : Handle) (action : List Float) :
    ((b.walking shooter action).victim? shooter.id).isSome = b.landsIn b.host shooter.id := by
  rw [(hb.walking shooter action).isSome_victim?]
  unfold landsIn
  rw [hb.aim?_walking, walking_eq, animatedHost_eq]

/-- A step that shoots lands among the bodies as they are, and scores for it. -/
theorem Sound.landed (hb : b.Sound) (hpermit : b.Permits (.step shooter action)) :
    (Moment.mk b (.step shooter action)).landed = b.landsIn b.host shooter.id ∧
      ∃ rewards, (Moment.mk b (.step shooter action)).reply = .ok (.vector rewards) ∧
        ∀ k : Nat, b.profile.dimensions[k]? = some .hitTarget →
          rewards[k]? = some (if b.landsIn b.host shooter.id then 1.0 else 0.0) := by
  have hself := continues_self hb
  have hfirst := hpermit.2.2
  have hlands := landsIn_walking hb shooter action
  have hprofile : (b.walking shooter action).profile = b.profile := by rw [walking_eq]
  refine ⟨?_, (b.act shooter action).1, congrArg Prod.fst (hself.perform_step hpermit),
    fun k hk => ?_⟩
  · rw [Moment.landed_eq, victim?_of_step (hself.refusal hpermit) (hself.enroll hpermit.1).1 hfirst,
      hlands]
  · rw [act_snd hfirst, ← hlands]
    cases hf : (b.walking shooter action).teams.hasOtherFriends shooter.id with
    | false =>
      rw [reward_of_lone hf, victim?_of_lone hf, hprofile]
      simp only [zeroReward, List.getElem?_map, hk]
      rfl
    | true =>
      have hwalk : (b.walking shooter action).combatants.contains shooter.id = true := by
        rw [walking_eq, IdMap.contains_modify]
        exact (hself.enroll hpermit.1).2
      rw [← contains_recordsAfterShot _ shooter.id] at hwalk
      obtain ⟨record, hrecord⟩ := (IdMap.contains_eq_true_iff _).1 hwalk
      rw [reward_eq hf hrecord, hprofile]
      simp only [Outcome.reward, List.getElem?_map, hk, Option.map_some]
      rfl

/-- A step of another agent leaves an aim, and shows its agent where it moved. -/
theorem Sound.aim?_act (hb : b.Sound) (hpermit : b.Permits (.step mover action)) {c : Combatant}
    (hc : b.combatants.get? mover.id = some c) (agent : AgentId) :
    (b.act mover action).2.aim? agent = b.aim? agent ∧
      (b.act mover action).2.host = Host.setTransform b.host mover.id
        (Motion.carry b.profile.maxSpeed c.pose (Motion.ofAction action)) := by
  have hfirst := hpermit.2.2
  have hcontains := (IdMap.contains_eq_true_iff b.combatants).2 ⟨c, hc⟩
  have hchanges := act_changes b mover action
  have hpose := pose_act hfirst hc action
  obtain ⟨r, hr, hteams, hposes, hhost, -⟩ := act_rest hfirst hcontains action
  rw [hr, combatants_showPose] at hpose
  obtain ⟨d, hd, hpose⟩ := Option.map_eq_some_iff.1 hpose
  have hshow := showPose_eq hd
  constructor
  · refine (aim?_eq hb.coherent (hb.changes hchanges).coherent hchanges.profile ?_ ?_ agent).2
    · rw [hr, hshow]
      exact hteams
    · rw [hr, hshow]
      exact hposes
  · rw [hr, hshow, hpose, hhost, hostAfterShot_eq, walking_eq, animatedHost_eq]

/-- A shot that is fired after another agent's step lands among the bodies as that step left them. -/
theorem Sound.landed_after (hb : b.Sound) (hne : shooter.id ≠ mover.id) {action' : List Float}
    (hpermit : b.Permits (.step shooter action)) (hmove : b.Permits (.step mover action'))
    {c : Combatant} (hc : b.combatants.get? mover.id = some c) :
    let shot : Moment Arena T := ⟨(b.perform (.step mover action')).2, .step shooter action⟩
    let lands := b.landsIn (Host.setTransform b.host mover.id
      (Motion.carry b.profile.maxSpeed c.pose (Motion.ofAction action'))) shooter.id
    shot.landed = lands ∧ ∃ rewards, shot.reply = .ok (.vector rewards) ∧
      ∀ k : Nat, b.profile.dimensions[k]? = some .hitTarget →
        rewards[k]? = some (if lands then 1.0 else 0.0) := by
  obtain ⟨haim, hhost⟩ := hb.aim?_act hmove hc shooter.id
  have hchanges := act_changes b mover action'
  have hcontains := (IdMap.contains_eq_true_iff b.combatants).2 ⟨c, hc⟩
  have hbeside : Beside mover.id b (b.act mover action').2 := beside_act hcontains action'
  have hteam := hbeside.read (f := Combatant.team) (fun _ => rfl) hne
  have hpermit' : (b.act mover action').2.Permits (.step shooter action) := by
    refine ⟨hteam.trans hpermit.1, ?_, hpermit.2.2⟩
    rw [hchanges.profile]
    exact hpermit.2.1
  have hlanded := (hb.changes hchanges).landed hpermit'
  have hlands : (b.act mover action').2.landsIn (b.act mover action').2.host shooter.id =
      b.landsIn (Host.setTransform b.host mover.id
        (Motion.carry b.profile.maxSpeed c.pose (Motion.ofAction action'))) shooter.id := by
    unfold landsIn
    rw [haim, hhost]
  rw [hlands, hchanges.profile] at hlanded
  have hperform := congrArg Prod.snd ((continues_self hb).perform_step hmove)
  intro shot lands
  have hshot : shot = ⟨(b.act mover action').2, .step shooter action⟩ := by
    rw [← hperform]
  rw [hshot]
  exact hlanded

/-- A shot in a battle before and after another agent's step, which leads from one place to another.
Before it the ray is cast among the bodies as they are, and after it among the bodies with the other
one where it arrived; the shooter's answer scores what its shot did; and if the ray enters the body of
the other agent at neither place, the step makes no difference. -/
structure Crossed (b : Battle Arena T) (shooter mover : AgentId) (place arrival : Pose)
    (first second : Moment Arena T) : Prop where
  shown : Host.transform b.host mover = some place
  landed : first.landed = b.landsIn b.host shooter
  landed_after : second.landed = b.landsIn (Host.setTransform b.host mover arrival) shooter
  scored : ∀ m ∈ [first, second], ∃ rewards, m.reply = .ok (.vector rewards) ∧
    ∀ k : Nat, b.profile.dimensions[k]? = some .hitTarget →
      rewards[k]? = some (if m.landed then 1.0 else 0.0)
  missed : (∀ foe start finish, b.aim? shooter = some (foe, start, finish) →
      Disc.entry? ⟨place.position, Body.radius⟩ start finish = none ∧
      Disc.entry? ⟨arrival.position, Body.radius⟩ start finish = none) →
    second.landed = first.landed

theorem Sound.crossed (hb : b.Sound) (hne : shooter.id ≠ mover.id) {action' : List Float}
    (hpermit : b.Permits (.step shooter action)) (hmove : b.Permits (.step mover action'))
    {c : Combatant} (hc : b.combatants.get? mover.id = some c)
    (hshown : Host.transform b.host mover.id = some c.pose) :
    Crossed b shooter.id mover.id c.pose
      (Motion.carry b.profile.maxSpeed c.pose (Motion.ofAction action'))
      ⟨b, .step shooter action⟩ ⟨(b.perform (.step mover action')).2, .step shooter action⟩ := by
  obtain ⟨hfirst, hscores⟩ := hb.landed hpermit
  obtain ⟨hsecond, hscores'⟩ := hb.landed_after hne hpermit hmove hc
  refine ⟨hshown, hfirst, hsecond, fun m hm => ?_, fun hmissed => ?_⟩
  · rcases List.mem_pair.1 hm with rfl | rfl
    · rw [hfirst]
      exact hscores
    · rw [hsecond]
      exact hscores'
  · rw [hfirst, hsecond]
    unfold landsIn
    cases haim : b.aim? shooter.id with
    | none => rw [Option.any_none, Option.any_none]
    | some aim =>
      obtain ⟨foe, start, finish⟩ := aim
      obtain ⟨hleft, harrived⟩ := hmissed foe start finish haim
      simp only [Option.any_some]
      rw [Arena.rayCast_setTransform hshown hleft harrived]

end Battle

end FlagCombat
