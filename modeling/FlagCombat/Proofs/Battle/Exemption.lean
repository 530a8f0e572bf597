import FlagCombat.Proofs.Battle.Beside
import FlagCombat.Proofs.Battle.Ending

/-!
What spares an agent. Whether a check can end an episode, and whether a reset or a first step puts
its agent somewhere, is up to the group that the handle of the call carries. The group on record is
kept from the first contact on, and never asked.
-/

namespace FlagCombat

open Battle

/-- Where a motion takes an agent, at a share of the largest speed. -/
def Motion.carry (maxSpeed : Float) (pose : Pose) (motion : Motion) : Pose :=
  pose.advance (maxSpeed * motion.moveBy) motion.turnBy

/-- Only mobile agents have an episode that ends. -/
theorem Episode.mobile_of_check {p : Episode.Progress} {limits : Episode.Limits}
    (h : (Episode.check p limits).isSome = true) : p.group = .agent := by
  cases hgroup : p.group with
  | agent => rfl
  | turret => simp [Episode.check, hgroup, Group.isStationary] at h

namespace Moment

variable {H T : Type} [Host H] [Trainer T]

/-- Whether the call puts an agent somewhere: a reset or a first step of it that succeeds, with a
handle that is mobile. -/
def places (m : Moment H T) (agent : AgentId) : Bool :=
  match m.call with
  | .reset handle => m.reply.isOk && decide (handle.id = agent) && handle.group.isMobile
  | .step handle _ =>
    m.reply.isOk && decide (handle.id = agent) && decide (handle.step = 0 ∧ handle.group.isMobile)
  | _ => false

/-- Where the call puts an agent whose record is `c`: near the spawn point, or where the host shows
the agent with a new heading. -/
def placement (m : Moment H T) (agent : AgentId) (c : Combatant) : Pose :=
  match m.call with
  | .reset _ =>
    (c.randomize m.battle.profile.spawn m.battle.profile.spawnJitter m.battle.generator).1.pose
  | _ =>
    { (Host.transform m.battle.host agent).getD .origin with
      heading := Float.ofNat (m.battle.generator.below32 360).1 }

/-- The motion of the call, if it is a step of an agent that succeeds and that places nobody. -/
def walk? (m : Moment H T) (agent : AgentId) : Option Motion :=
  match m.call with
  | .step handle action =>
    if m.reply.isOk && decide (handle.id = agent) && !m.places agent then
      some (Motion.ofAction action)
    else none
  | _ => none

/-- Where the call leaves an agent whose record is `c`. -/
def carried (m : Moment H T) (agent : AgentId) (c : Combatant) : Pose :=
  if m.places agent then m.placement agent c
  else (m.walk? agent).elim c.pose (Motion.carry m.battle.profile.maxSpeed c.pose)

section After

variable {m : Moment H T} {agent : AgentId} {c : Combatant}

/-- A check that finds something comes with a mobile handle. -/
theorem handle_of_found (h : (m.found? agent).isSome = true) :
    ∃ handle, m.call = .isEpisodeOver handle ∧ handle.id = agent ∧ handle.group = .agent := by
  unfold found? at h
  split at h
  · rename_i handle hcall
    split at h
    · rename_i hid
      obtain ⟨reason, hreason⟩ := Option.isSome_iff_exists.1 h
      obtain ⟨b, -, hrecord⟩ := Option.bind_eq_some_iff.1 hreason
      obtain ⟨d, -, hcheck⟩ := Option.bind_eq_some_iff.1 hrecord
      exact ⟨handle, hcall, hid, Episode.mobile_of_check (Option.isSome_of_eq_some hcheck)⟩
    · cases h
  · cases h

theorem carried_of_failure (h : m.reply.isOk = false) : m.carried agent c = c.pose := by
  have hplaces : m.places agent = false := by
    unfold places
    split <;> simp [h]
  have hwalk : m.walk? agent = none := by
    unfold walk?
    split <;> simp [h]
  simp [carried, hplaces, hwalk]

theorem carried_of_other (h : ∀ handle, m.call.handle? = some handle → handle.id ≠ agent) :
    m.carried agent c = c.pose := by
  have hplaces : m.places agent = false := by
    unfold places
    split
    · rename_i handle hcall
      simp [h handle (by rw [hcall]; rfl)]
    · rename_i handle action hcall
      simp [h handle (by rw [hcall]; rfl)]
    · rfl
  have hwalk : m.walk? agent = none := by
    unfold walk?
    split
    · rename_i handle action hcall
      simp [h handle (by rw [hcall]; rfl)]
    · rfl
  simp [carried, hplaces, hwalk]

end After

end Moment

namespace Battle

variable {H T : Type} [Host H]

theorem pose_placeAtStart {b : Battle H T} {agent : AgentId} {c : Combatant}
    (hc : b.combatants.get? agent = some c) :
    ((b.placeAtStart agent).combatants.get? agent).map Combatant.pose =
      some { (Host.transform b.host agent).getD .origin with
        heading := Float.ofNat (b.generator.below32 360).1 } := by
  unfold placeAtStart
  rw [(keeps_freezePose _ _).read, (keeps_showPose _ _).read, modifyAgent_eq]
  simp only [IdMap.get?_modify, ↓reduceIte, hc, Option.map_some]
  rfl

theorem pose_restart {b : Battle H T} {handle : Handle} {c : Combatant}
    (hc : b.combatants.get? handle.id = some c) :
    ((b.restart handle).combatants.get? handle.id).map Combatant.pose =
      some (if handle.group.isMobile then
        (c.randomize b.profile.spawn b.profile.spawnJitter b.generator).1.pose
      else c.pose) := by
  have hforgotten : (b.modifyAgent handle.id Combatant.resetEpisode).combatants.get? handle.id =
      some c.resetEpisode := by
    rw [modifyAgent_eq]
    simp [hc]
  unfold restart
  simp only [hforgotten]
  split
  · rw [(keeps_freezePose _ _).read, (keeps_showPose _ _).read, modifyAgent_eq]
    simp only [IdMap.get?_insert, ↓reduceIte, Option.map_some]
    rfl
  · rw [hforgotten]
    rfl

variable [Trainer T]

theorem pose_act {b : Battle H T} {handle : Handle} {c : Combatant}
    (hfirst : ¬(handle.step = 0 ∧ handle.group.isMobile))
    (hc : b.combatants.get? handle.id = some c) (action : List Float) :
    ((b.act handle action).2.combatants.get? handle.id).map Combatant.pose =
      some (Motion.carry b.profile.maxSpeed c.pose (Motion.ofAction action)) := by
  have hcontains := (IdMap.contains_eq_true_iff b.combatants).2 ⟨c, hc⟩
  rw [get?_act hfirst hcontains, hc]
  unfold effect Combatant.move Combatant.drainDamage Combatant.takeHit
  simp only [↓reduceIte, Option.map_some]
  split <;> split <;> rfl

end Battle

namespace Moment

variable {H T : Type} [Host H] [Trainer T] {m : Moment H T} {agent : AgentId} {c : Combatant}

/-- A call for an agent with a record carries it where it should. -/
theorem pose_of_own {handle : Handle} (hh : m.call.handle? = some handle)
    (hrefusal : m.battle.refusal? m.call = none) (hteam : m.battle.enroll handle = .ok m.battle)
    (hc : m.battle.combatants.get? handle.id = some c) :
    ((m.battle.respond m.call).2.combatants.get? handle.id).map Combatant.pose =
      some (m.carried handle.id c) := by
  have hok : m.reply.isOk = true := by
    rw [reply, perform_of_enroll hh hrefusal hteam]
    rfl
  obtain ⟨b, call⟩ := m
  dsimp only at hh hc ⊢
  have hkept {b' : Battle H T} (hkeeps : Keeps Combatant.pose b b') :
      (b'.combatants.get? handle.id).map Combatant.pose = some c.pose := by
    rw [hkeeps.read, hc, Option.map_some]
  cases call with
  | register a =>
    cases hh
    exact hkept ⟨fun _ => rfl, rfl, rfl⟩
  | sense a values =>
    cases hh
    exact hkept (keeps_perceive b handle.id values)
  | isEpisodeOver a =>
    cases hh
    exact hkept (keeps_judge (fun _ _ => rfl) b handle)
  | reset a =>
    cases hh
    refine (pose_restart hc).trans ?_
    cases hmobile : handle.group.isMobile <;> simp [carried, places, placement, walk?, hok, hmobile]
  | step a action =>
    cases hh
    by_cases hfirst : handle.step = 0 ∧ handle.group.isMobile
    · show ((b.act handle action).2.combatants.get? handle.id).map Combatant.pose = _
      rw [act, if_pos hfirst]
      refine (pose_placeAtStart hc).trans ?_
      simp [carried, places, placement, hok, hfirst]
    · refine (pose_act hfirst hc action).trans ?_
      simp only [carried, places, walk?, hok, hfirst, decide_false, decide_true, Bool.and_false,
        Bool.and_self, Bool.not_false, ↓reduceIte, Bool.false_eq_true, Option.elim_some]
  | beginTick | removeAgent | cleanup => cases hh

/-- Every call but its removal leaves an agent where `carried` says. -/
theorem pose_after (hc : m.battle.combatants.get? agent = some c)
    (hcall : m.call ≠ .removeAgent agent) :
    (m.after.combatants.get? agent).map Combatant.pose = some (m.carried agent c) := by
  cases hattempt : m.battle.attempt m.call with
  | error e =>
    have hperform : m.battle.perform m.call = (.error e, m.battle) := by simp [perform, hattempt]
    rw [carried_of_failure (by rw [reply, hperform]; rfl), after, hperform, hc, Option.map_some]
  | ok result =>
    obtain ⟨answer, b'⟩ := result
    have hafter : m.after = b' := by simp [after, perform, hattempt]
    rw [hafter]
    obtain ⟨battle, call⟩ := m
    dsimp only at hc hcall hattempt
    cases success_of_attempt hattempt with
    | @handle _ handle b hh hrefusal henroll =>
      by_cases hid : handle.id = agent
      · subst hid
        obtain rfl := eq_of_enroll henroll ((IdMap.contains_eq_true_iff _).2 ⟨_, hc⟩)
        exact pose_of_own (m := ⟨_, call⟩) hh hrefusal henroll hc
      · rw [(beside_attempt hh hattempt).read (f := Combatant.pose) (fun _ => rfl) (Ne.symm hid), hc,
          Option.map_some, carried_of_other]
        intro other hother
        rw [hh] at hother
        cases hother
        exact hid
    | beginTick tick | cleanup =>
      rw [carried_of_other (by intro handle hh; cases hh)]
      exact congrArg (Option.map Combatant.pose) hc
    | @removeAgent gone d hd =>
      have hne : agent ≠ gone := fun heq => hcall (heq ▸ rfl)
      rw [carried_of_other (by intro handle hh; cases hh)]
      simp [dismiss, hne, hc]

end Moment

namespace Battle

variable {H T : Type} [Host H] [Trainer T]

/-- Between calls that remove it nobody changes the group of an agent; and as long as no call places
it, its own steps carry it to where it is. -/
theorem pose_undergoAll {b : Battle H T} {agent : AgentId} {c : Combatant}
    (hc : b.combatants.get? agent = some c) (occurrences : List (Occurrence H T))
    (hstays : ∀ m ∈ b.moments occurrences, m.call ≠ .removeAgent agent) :
    ∃ c', (b.undergoAll occurrences).combatants.get? agent = some c' ∧ c'.group = c.group ∧
      ((∀ m ∈ b.moments occurrences, m.places agent = false) →
        c'.pose = ((b.moments occurrences).filterMap (·.walk? agent)).foldl
          (Motion.carry b.profile.maxSpeed) c.pose) := by
  induction occurrences generalizing b c with
  | nil => exact ⟨c, hc, rfl, fun _ => rfl⟩
  | cons occurrence rest ih =>
    cases occurrence with
    | host host => exact ih (b := { b with host }) hc hstays
    | trainer trainer => exact ih (b := { b with trainer }) hc hstays
    | call call =>
      obtain ⟨hcall, hstays⟩ := List.forall_mem_cons.1 hstays
      obtain ⟨d, hd, hidentity⟩ := Option.map_eq_some_iff.1 (identity_perform hc hcall)
      obtain ⟨c', hc', hgroup, hwalked⟩ := ih hd hstays
      have hsame : d.group = c.group := congrArg (·.2.2) hidentity
      refine ⟨c', hc', hgroup.trans hsame, fun hplaces => ?_⟩
      obtain ⟨hfirst, hplaces⟩ := List.forall_mem_cons.1 hplaces
      have hpose := Moment.pose_after (m := ⟨b, call⟩) hc hcall
      have hd' : (Moment.mk b call).after.combatants.get? agent = some d := hd
      rw [hd', Option.map_some, Option.some.injEq, Moment.carried, if_neg (by simp [hfirst])] at hpose
      rw [hwalked hplaces, (perform_changes b call).profile, hpose, moments, List.filterMap_cons]
      cases Moment.walk? ⟨b, call⟩ agent <;> rfl

/-- What spares an agent is the handle of each call, not the group on record. After every history an
episode is over just if a check with a mobile handle found a reason to end it, since the record was
made or last reset. In whatever follows until the agent is removed, its group stays the one on
record; each call carries the agent where the handle of the call says; and as long as no call with a
mobile handle puts it somewhere, only its own steps do. -/
theorem exemption_by_handle (profile : Profile) (host : H) (trainer : T) (seed : UInt64)
    (past rest : List (Occurrence H T)) :
    let log := (start profile host trainer seed).moments past
    let b := (start profile host trainer seed).undergoAll past
    ∀ agent c, b.combatants.get? agent = some c →
      (c.status.isDone = true ↔ ∃ m ∈ course agent log, ∃ handle,
        m.call = .isEpisodeOver handle ∧ handle.id = agent ∧ handle.group = .agent ∧
          (m.found? agent).isSome = true) ∧
      ((∀ m ∈ b.moments rest, m.call ≠ .removeAgent agent) →
        (∀ m ∈ b.moments rest, ∀ d, m.battle.combatants.get? agent = some d →
          (m.after.combatants.get? agent).map Combatant.pose = some (m.carried agent d)) ∧
        ∃ c', (b.undergoAll rest).combatants.get? agent = some c' ∧ c'.group = c.group ∧
          ((∀ m ∈ b.moments rest, m.places agent = false) →
            c'.pose = ((b.moments rest).filterMap (·.walk? agent)).foldl
              (Motion.carry b.profile.maxSpeed) c.pose)) := by
  intro log b agent c hc
  refine ⟨?_, fun hstays => ⟨fun m hm d hd => Moment.pose_after hd (hstays m hm),
    pose_undergoAll hc rest hstays⟩⟩
  have hempty : Told [] (start profile host trainer seed) := by
    intro other status hstatus
    simp [status?, start] at hstatus
  have htold : Told log b := (told_moments hempty past).1
  have hstatus := htold agent c.status (by simp [status?, hc])
  rw [hstatus, Episode.Status.isDone_elim, firstFinding, List.findSome?_isSome_iff]
  constructor
  · rintro ⟨m, hm, hfound⟩
    obtain ⟨handle, hcall, hid, hgroup⟩ := Moment.handle_of_found hfound
    exact ⟨m, hm, handle, hcall, hid, hgroup, hfound⟩
  · rintro ⟨m, hm, -, -, -, -, hfound⟩
    exact ⟨m, hm, hfound⟩

/-- A turret whose episode is checked and reset with the handle of a mobile agent. -/
def mislabelled (step : UInt64) : Handle := { id := ⟨1⟩, team := .zero, group := .agent, step }

theorem exemption_by_handle_mislabelled :
    let b₀ : Battle OpenField FixedTrainer :=
      start { lifetime := 1 } { transforms := .ofList [(⟨1⟩, ⟨10.0, 20.0, 270.0⟩)] } {} 0
    let b := b₀.undergoAll [.call (.register { mislabelled 0 with group := .turret }),
      .call (.isEpisodeOver (mislabelled 1))]
    ∃ c, b.combatants.get? ⟨1⟩ = some c ∧ c.group = .turret ∧ c.pose = ⟨10.0, 20.0, 270.0⟩ ∧
      c.status.isDone = true ∧
      ∃ c', (b.undergoAll [.call (.reset (mislabelled 1))]).combatants.get? ⟨1⟩ = some c' ∧
        c'.group = .turret ∧ c'.pose ≠ c.pose := by
  intro b₀ b
  obtain ⟨c, hc, hidentity⟩ : ∃ c, b.combatants.get? ⟨1⟩ = some c ∧
      (c.group, c.pose) = (.turret, ⟨10.0, 20.0, 270.0⟩) :=
    Option.map_eq_some_iff.1 (by decide +kernel)
  obtain ⟨hgroup, hpose⟩ := Prod.mk.inj hidentity
  obtain ⟨hover, hrest⟩ := exemption_by_handle { lifetime := 1 }
    ({ transforms := .ofList [(⟨1⟩, ⟨10.0, 20.0, 270.0⟩)] } : OpenField) ({} : FixedTrainer) 0
    [.call (.register { mislabelled 0 with group := .turret }),
      .call (.isEpisodeOver (mislabelled 1))] [.call (.reset (mislabelled 1))] ⟨1⟩ c hc
  obtain ⟨-, c', hc', hkept, -⟩ := hrest (by simp [moments])
  let check : Moment OpenField FixedTrainer :=
    ⟨(b₀.perform (.register { mislabelled 0 with group := .turret })).2,
      .isEpisodeOver (mislabelled 1)⟩
  have hcheck : check ∈ course ⟨1⟩
      ([⟨b₀, .register { mislabelled 0 with group := .turret }⟩] ++ [check]) := by
    rw [course_of_kept (by decide +kernel)]
    exact List.mem_append_right _ (List.mem_singleton_self check)
  have hmoved : ((b.undergoAll [.call (.reset (mislabelled 1))]).combatants.get? ⟨1⟩).map
      Combatant.pose ≠ some ⟨10.0, 20.0, 270.0⟩ := by decide +kernel
  refine ⟨c, hc, hgroup, hpose,
    hover.2 ⟨check, hcheck, mislabelled 1, rfl, rfl, rfl, by decide +kernel⟩, c', hc',
    hkept.trans hgroup, fun hsame => hmoved ?_⟩
  rw [hc', Option.map_some, hsame, hpose]

end Battle

end FlagCombat
