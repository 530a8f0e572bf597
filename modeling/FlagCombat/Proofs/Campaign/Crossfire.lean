import FlagCombat.Proofs.Arena.Casting
import FlagCombat.Proofs.Battle.LineOfFire
import FlagCombat.Proofs.Battle.Tail
import FlagCombat.Proofs.Bearing
import FlagCombat.Proofs.Campaign.Poses

/-!
Shots in a tick of a campaign in an arena. Everybody aims from where they were when the tick began,
but a ray meets the bodies where the steps before it have left them. So a shot and another agent's
move can be told apart by their order, and only if the ray enters the body of the one who moved
where it was or where it arrived.
-/

namespace FlagCombat

/-- An agent that has lost its heading, and has a friend, aims at its only foe. -/
theorem Battle.Sound.aim?_of_lost {H T : Type} {b : Battle H T} (hb : b.Sound) {agent foe : AgentId}
    {pose place : Pose} (hfriends : b.teams.hasOtherFriends agent = true)
    (hfoes : b.teams.foesOf agent = [foe]) (hpose : b.snapshot.poses.get? agent = some pose)
    (hplace : b.snapshot.poses.get? foe = some place) (hlost : pose.heading.isNaN = true)
    (hcone : 0.0 ≤ b.profile.targeting.coneHalfAngle) :
    b.aim? agent = some (foe, pose.position, place.position) := by
  have hfoe : b.Foe agent foe := hb.mem_foesOf_iff.1 (hfoes ▸ List.mem_singleton_self foe)
  have hseen : b.InSight agent foe :=
    ⟨hfoe, pose, place, hpose, hplace, Pose.not_abs_bearing_gt hlost _ hcone⟩
  have htarget := hb.isSome_target_iff.2 ⟨hb.hasOtherFriends_iff.1 hfriends, foe, hseen⟩
  obtain ⟨found, hfound⟩ := Option.isSome_iff_exists.1 htarget
  have hlisted := hb.mem_foesOf_iff.2 (hb.target_spec hfound).2.1
  rw [hfoes, List.mem_singleton] at hlisted
  unfold Battle.aim?
  rw [hfound, Option.bind_some, hlisted, hpose, hplace]

/-- Its shot goes to that foe, among the bodies as they are. -/
theorem Battle.Sound.shot_of_lost {T : Type} [Trainer T] {b : Battle Arena T} (hb : b.Sound)
    {shooter : Handle} {foe : AgentId} {pose place : Pose} {action : List Float}
    (hfriends : b.teams.hasOtherFriends shooter.id = true)
    (hfoes : b.teams.foesOf shooter.id = [foe]) (hpose : b.snapshot.poses.get? shooter.id = some pose)
    (hplace : b.snapshot.poses.get? foe = some place) (hlost : pose.heading.isNaN = true)
    (hcone : 0.0 ≤ b.profile.targeting.coneHalfAngle)
    (hshot : (Moment.mk b (.step shooter action)).shot?.isSome = true) :
    ∃ w, (Moment.mk b (.step shooter action)).shot? = some (w, shooter.id) ∧
      w.aim? shooter.id = some (foe, pose.position, place.position) ∧ w.host = b.host ∧
      (Moment.mk b (.step shooter action)).landed = lineOfSightClear
        (Host.rayCast b.host pose.position place.position .shotBlockers).1 foe := by
  have hrecord : b.combatants.contains shooter.id = true :=
    (hb.posed _).symm.trans ((IdMap.contains_eq_true_iff _).2 ⟨_, hpose⟩)
  have haim := hb.aim?_of_lost hfriends hfoes hpose hplace hlost hcone
  obtain ⟨⟨w, _⟩, hshot⟩ := Option.isSome_iff_exists.1 hshot
  obtain ⟨_, _, e, hcall, henroll, -, -, rfl, rfl, -⟩ := Moment.step_of_shot hshot
  cases hcall
  obtain rfl := eq_of_enroll henroll hrecord
  refine ⟨_, hshot, (hb.aim?_walking _ action).trans haim, ?_, ?_⟩
  · rw [walking_eq]
    exact animatedHost_eq ..
  · rw [Moment.landed_eq, Moment.victim?_eq, hshot]
    exact (landsIn_walking hb _ action).trans (landsIn_of_aim haim _)

namespace Campaign

variable {T P : Type} [Trainer T] {profile : Profile} {roll : Roll} {last : Nat}
  {c : Campaign Arena T P}

omit [Trainer T] in
/-- An agent on the roster may take any step but a first one, with an action that fits. -/
theorem Agreed.permits (h : Agreed profile roll last c) {slot : Slot}
    (hslot : c.roster.get? slot.handle.id = some slot) (hwalks : slot.handle.walks = true)
    {action : List Float} (haction : profile.interface.actions.violation? action = none) :
    c.battle.Permits (.step slot.handle action) := by
  obtain ⟨record, hrecord, hteam, -⟩ := h.record (h.listed hslot)
  refine ⟨?_, ?_, ?_⟩
  · rw [hrecord, Option.map_some, hteam]
  · rw [h.profile_eq]
    exact haction
  · simpa only [Handle.walks, Bool.not_eq_true', decide_eq_false_iff_not] using hwalks

/-- Two agents on the roster that both take such a step cross each other's fire. -/
theorem Agreed.crossed (h : Agreed profile roll last c) (hmirrored : c.Mirrored)
    {shooter mover : Slot} (hshooter : c.roster.get? shooter.handle.id = some shooter)
    (hmover : c.roster.get? mover.handle.id = some mover)
    (hne : shooter.handle.id ≠ mover.handle.id) (hshoots : shooter.handle.walks = true)
    (hmoves : mover.handle.walks = true) {shot move : List Float}
    (hshot : profile.interface.actions.violation? shot = none)
    (hmove : profile.interface.actions.violation? move = none) (number : UInt64) :
    ∃ place,
      let frozen := c.battle.beginTick number
      frozen.Crossed shooter.handle.id mover.handle.id place
        (Motion.carry profile.maxSpeed place (Motion.ofAction move))
        ⟨frozen, .step shooter.handle shot⟩
        ⟨(frozen.perform (.step mover.handle move)).2, .step shooter.handle shot⟩ := by
  have hbegun : Agreed profile roll last (c.begun number) := h.beginTick number
  obtain ⟨record, hrecord, -, -⟩ := hbegun.record (hbegun.listed hmover)
  have hshown : Host.transform (c.begun number).battle.host mover.handle.id = some record.pose :=
    (hmirrored mover.handle.id).trans (congrArg (Option.map Combatant.pose) hrecord)
  have hcrossed := hbegun.sound.crossed hne (hbegun.permits hshooter hshoots hshot)
    (hbegun.permits hmover hmoves hmove) hrecord hshown
  rw [hbegun.profile_eq] at hcrossed
  exact ⟨record.pose, hcrossed⟩

/-- Whether a shot lands is up to the order of a tick. After whatever orders to a campaign in an
arena, once a tick has begun: the shot of an agent that takes a step is aimed from the frozen poses,
before or after another agent's step; but its ray is cast among the bodies as the steps before it
left them, so that it lands in both orders alike only as far as the ray meets the same first body.
That is so at least if it enters the body of the other agent neither where it was nor where it
arrived. -/
theorem shots_meet_moved_bodies [Policy P] (profile : Profile) (world : WorldSettings) (trainer : T)
    (seed : UInt64) (policy : P) (orders : List Order) (number : UInt64)
    (hfew : (allArrivals orders (opening profile world trainer seed policy)).length < 2 ^ 32) :
    let c := followAll orders (opening profile world trainer seed policy)
    let frozen := c.battle.beginTick number
    ∀ shooter mover, c.roster.get? shooter.handle.id = some shooter →
      c.roster.get? mover.handle.id = some mover → shooter.handle.id ≠ mover.handle.id →
      shooter.handle.walks = true → mover.handle.walks = true → ∀ shot move,
      profile.interface.actions.violation? shot = none →
      profile.interface.actions.violation? move = none →
      ∃ place, frozen.Crossed shooter.handle.id mover.handle.id place
        (Motion.carry profile.maxSpeed place (Motion.ofAction move))
        ⟨frozen, .step shooter.handle shot⟩
        ⟨(frozen.perform (.step mover.handle move)).2, .step shooter.handle shot⟩ := by
  intro c frozen shooter mover hshooter hmover hne hshoots hmoves shot move hshot hmove
  have hopening : Agreed profile .empty 0 (opening profile world trainer seed policy) :=
    mustered_opening profile world trainer seed policy trivial
  obtain ⟨roll, hleft⟩ := agreed_followAll profile world trainer seed policy orders hfew
  have hmirrored : c.Mirrored := hopening.mirroredAll (fun _ => rfl) orders (by rwa [Nat.zero_add])
  exact hleft.crossed hmirrored hshooter hmover hne hshoots hmoves hshot hmove number

/-- Two of a team, one behind the other, and a foe in front of both. The one behind has lost its
heading, so that no foe is at too wide an angle for it. -/
def sightLine : List Order :=
  [.spawn .zero .turret ⟨100.0, 100.0, 0.0 / 0.0⟩, .spawn .zero .turret ⟨150.0, 100.0, 90.0⟩,
    .spawn .one .turret ⟨200.0, 100.0, 180.0⟩]

/-- The one of the first team with a number. -/
def gun (number : UInt32) : Handle := { id := ⟨number⟩, team := .zero, group := .turret }

/-- An arena with agents that can leave a line of fire in one step. -/
def fastGround : Campaign Arena FixedTrainer HoldPolicy :=
  opening { maxSpeed := 5.0 } {} {} 0 {}

/-- The shot from behind is blocked by the one in front, unless that one moves off the line of fire
first. -/
theorem shots_meet_moved_bodies_sightLine :
    let frozen := (followAll sightLine fastGround).battle.beginTick 0
    let first : Moment Arena FixedTrainer := ⟨frozen, .step (gun 1) [0.0, 0.0]⟩
    let second : Moment Arena FixedTrainer :=
      ⟨(frozen.perform (.step (gun 2) [1.0, 0.0])).2, .step (gun 1) [0.0, 0.0]⟩
    ∃ arrival, first.landed = false ∧
      (Disc.entry? ⟨arrival.position, Body.radius⟩ ⟨100.0, 100.0⟩ ⟨200.0, 100.0⟩ = none →
        second.landed = true) ∧
      frozen.Crossed ⟨1⟩ ⟨2⟩ ⟨150.0, 100.0, 90.0⟩ arrival first second := by
  intro frozen first second
  have hfew : (allArrivals sightLine fastGround).length < 2 ^ 32 := by decide +kernel
  obtain ⟨place, hcrossed⟩ : ∃ place, frozen.Crossed ⟨1⟩ ⟨2⟩ place
      (Motion.carry 5.0 place (Motion.ofAction [1.0, 0.0])) first second :=
    shots_meet_moved_bodies _ _ _ _ _ sightLine 0 hfew { handle := gun 1 } { handle := gun 2 }
      (by decide +kernel) (by decide +kernel) (by decide) (by decide) (by decide) [0.0, 0.0]
      [1.0, 0.0] (by decide +kernel) (by decide +kernel)
  have hplace : Host.transform frozen.host ⟨2⟩ = some ⟨150.0, 100.0, 90.0⟩ := by decide +kernel
  obtain rfl : place = ⟨150.0, 100.0, 90.0⟩ := Option.some.inj (hcrossed.shown.symm.trans hplace)
  obtain ⟨_, hleft⟩ := agreed_followAll _ _ _ _ _ sightLine hfew
  have hpose : frozen.snapshot.poses.get? ⟨1⟩ = some ⟨100.0, 100.0, 0.0 / 0.0⟩ := by decide +kernel
  have hfoe : frozen.snapshot.poses.get? ⟨3⟩ = some ⟨200.0, 100.0, 180.0⟩ := by decide +kernel
  have haim : frozen.aim? ⟨1⟩ = some (⟨3⟩, ⟨100.0, 100.0⟩, ⟨200.0, 100.0⟩) :=
    (hleft.beginTick 0).sound.aim?_of_lost (by decide +kernel) (by decide +kernel) hpose hfoe
      (by decide +kernel) (by decide +kernel)
  have hlands {shown : Arena} (strikes : List Strike)
      (hsorted : (shown.crossings ⟨100.0, 100.0⟩ ⟨200.0, 100.0⟩ .shotBlockers).Pairwise
        fun c d => Binary64.rank c.fraction < Binary64.rank d.fraction)
      (hstrikes : (shown.crossings ⟨100.0, 100.0⟩ ⟨200.0, 100.0⟩ .shotBlockers).map
        Arena.Crossing.strike = strikes) :
      frozen.landsIn shown ⟨1⟩ = lineOfSightClear strikes ⟨3⟩ := by
    rw [Battle.landsIn_of_aim haim, Arena.rayCast_of_perm .rfl hsorted, hstrikes]
  refine ⟨_, hcrossed.landed.trans ?_, fun hoff => hcrossed.landed_after.trans ?_, hcrossed⟩
  · exact hlands [.agent ⟨2⟩, .agent ⟨3⟩] (by decide +kernel) (by decide +kernel)
  · have hgone := Arena.crossings_setTransform frozen.host ⟨2⟩ hoff .shotBlockers
    refine (hlands [.agent ⟨3⟩] ?_ ?_).trans (by decide)
    · rw [hgone]
      decide +kernel
    · rw [hgone]
      decide +kernel

end Campaign

end FlagCombat
