import FlagCombat.Proofs.Battle.Stepping
import FlagCombat.Proofs.Battle.Whereabouts
import FlagCombat.Proofs.Draws

/-!
How an agent stands in its episode: where it is, the damage that it took, the status, and where it
started. A reset leaves a mobile agent fresh near the spawn point, and its first step gives it a
heading there; in between nothing changes of it, and neither does anything by the calls of others.
-/

namespace FlagCombat

/-- The whole numbers that a jitter may add to a coordinate. -/
def Shifts (jitter : UInt32) (d : Int) : Prop :=
  if jitter = 0 then d = 0 else -(jitter.toNat : Int) ≤ d ∧ d < jitter.toNat

namespace Profile

/-- Where a reset may put an agent: the spawn point with whole numbers added to its coordinates. -/
def Surrounds (p : Profile) (point : Point) : Prop :=
  ∃ dx dy : Int, Shifts p.spawnJitter dx ∧ Shifts p.spawnJitter dy ∧
    point = ⟨p.spawn.x + Float.ofInt dx, p.spawn.y + Float.ofInt dy⟩

/-- Where an episode may start: near the spawn point, with a heading of whole degrees. -/
def Starts (p : Profile) (place : Pose) : Prop :=
  p.Surrounds place.position ∧ ∃ degrees < 360, place.heading = Float.ofNat degrees

end Profile

namespace Combatant

/-- Where the episode of an agent started. -/
def start (c : Combatant) : Pose := ⟨c.initialPosition.x, c.initialPosition.y, c.initialHeading⟩

/-- An offset that 32 signed bits do not hold counts as zero, which a jitter may add as well. -/
theorem exists_jitterOffset (jitter : UInt32) (g : Generator) :
    ∃ d, Shifts jitter d ∧ (jitterOffset jitter g).1 = Float.ofInt d := by
  have hzero : (0.0 : Float) = Float.ofInt 0 := by decide +kernel
  unfold jitterOffset Shifts
  split
  · exact ⟨0, rfl, hzero⟩
  · rename_i hjitter
    have hpos : 0 < jitter.toNat :=
      Nat.pos_of_ne_zero fun h => hjitter (UInt32.toNat_inj.1 h)
    have hsize : 2 * jitter.toNat ≤ UInt64.size := by
      have hlt := jitter.toNat_lt
      rw [UInt64.size]
      omega
    have hdraw := Generator.below64_lt (by omega) hsize g
    generalize g.below64 (2 * jitter.toNat) = draw at hdraw ⊢
    dsimp only
    split
    · exact ⟨_, by omega, rfl⟩
    · exact ⟨0, by omega, hzero⟩

theorem exists_randomize (c : Combatant) (p : Profile) (g : Generator) :
    ∃ point, p.Surrounds point ∧
      (c.randomize p.spawn p.spawnJitter g).1 = c.resetPose point c.initialHeading := by
  unfold randomize
  obtain ⟨dx, hdx, hx⟩ := exists_jitterOffset p.spawnJitter g
  generalize jitterOffset p.spawnJitter g = drawn at hx ⊢
  obtain ⟨dy, hdy, hy⟩ := exists_jitterOffset p.spawnJitter drawn.2
  dsimp only
  rw [hx, hy]
  exact ⟨_, ⟨dx, dy, hdx, hdy, rfl⟩, rfl⟩

/-- The record of an agent at the start of an episode. -/
structure Fresh (c : Combatant) (place : Pose) : Prop where
  damage : c.totalDamage = 0
  status : c.status = .active
  start : c.start = place
  pose : c.pose = place
  previous : c.previousPose = place

end Combatant

/-- How an agent stands in its episode, as far as it has a record, a frozen pose and a body. -/
structure Standing where
  whereabouts : Whereabouts
  damage : Option UInt32
  status : Option Episode.Status
  start : Option Pose

/-- At the start of an episode. -/
def Standing.fresh (place : Pose) : Standing := ⟨.still place, some 0, some .active, some place⟩

namespace Battle

variable {T : Type} {b b' : Battle Arena T} {agent other : AgentId} {handle : Handle} {place : Pose}
  {c : Combatant}

def standing (b : Battle Arena T) (agent : AgentId) : Standing where
  whereabouts := b.whereabouts agent
  damage := (b.combatants.get? agent).map Combatant.totalDamage
  status := (b.combatants.get? agent).map Combatant.status
  start := (b.combatants.get? agent).map Combatant.start

theorem exists_fresh (h : b.standing agent = .fresh place) :
    ∃ c, b.combatants.get? agent = some c ∧ c.Fresh place := by
  have hwhere := congrArg Standing.whereabouts h
  obtain ⟨c, hc, hpose⟩ := Option.map_eq_some_iff.1 (congrArg Whereabouts.live hwhere)
  have hprevious := congrArg Whereabouts.previous hwhere
  have hdamage := congrArg Standing.damage h
  have hstatus := congrArg Standing.status h
  have hstart := congrArg Standing.start h
  simp only [standing, whereabouts, hc, Option.map_some] at hprevious hdamage hstatus hstart
  exact ⟨c, hc, Option.some.inj hdamage, Option.some.inj hstatus, Option.some.inj hstart, hpose,
    Option.some.inj hprevious⟩

theorem Beside.standing (h : Beside agent b b') (hother : other ≠ agent)
    (hwhere : b'.whereabouts other = b.whereabouts other) :
    b'.standing other = b.standing other := by
  unfold Battle.standing
  rw [hwhere, h.read (f := Combatant.totalDamage) (fun _ => rfl) hother,
    h.read (f := Combatant.status) (fun _ => rfl) hother,
    h.read (f := Combatant.start) (fun _ => rfl) hother]

/-- An agent whose pose was reset, and that is shown and frozen there, is fresh. -/
theorem standing_settled (point : Point) {heading : Float} (hdamage : c.totalDamage = 0)
    (hstatus : c.status = .active)
    (hc : b.combatants.get? agent = some (c.resetPose point heading))
    (hbody : (Host.transform b.host agent).isSome = true) :
    ((b.showPose agent).freezePose agent).standing agent = .fresh ⟨point.x, point.y, heading⟩ := by
  have hstill := still_of_settled hc rfl hbody
  obtain ⟨hrecords, -⟩ := shown_and_frozen hc
  unfold standing
  rw [hstill, hrecords, hc]
  simp only [Option.map_some, Combatant.resetPose, Combatant.start, hdamage, hstatus]
  rfl

/-- A reset leaves a mobile agent fresh near the spawn point. -/
theorem standing_restart (hmobile : handle.group.isMobile = true)
    (hc : b.combatants.contains handle.id = true)
    (hbody : (Host.transform b.host handle.id).isSome = true) :
    ∃ place, b.profile.Surrounds place.position ∧
      (b.restart handle).standing handle.id = .fresh place := by
  obtain ⟨c, hc⟩ := (IdMap.contains_eq_true_iff _).1 hc
  have hforgotten : b.modifyAgent handle.id Combatant.resetEpisode =
      { b with combatants := b.combatants.modify handle.id Combatant.resetEpisode } :=
    modifyAgent_eq b handle.id _
  have hrecord : (b.combatants.modify handle.id Combatant.resetEpisode).get? handle.id =
      some c.resetEpisode := by
    simp [hc]
  unfold restart
  rw [hforgotten]
  dsimp only
  rw [if_pos hmobile, hrecord]
  obtain ⟨point, hpoint, hplaced⟩ := c.resetEpisode.exists_randomize b.profile b.generator
  refine ⟨⟨point.x, point.y, c.resetEpisode.initialHeading⟩, hpoint, ?_⟩
  exact standing_settled (c := c.resetEpisode) point rfl rfl (by simp [hplaced]) hbody

/-- The first step of a fresh agent gives it a heading where it is. -/
theorem standing_placeAtStart (h : b.standing agent = .fresh place) :
    ∃ degrees < 360, (b.placeAtStart agent).standing agent =
      .fresh { place with heading := Float.ofNat degrees } := by
  obtain ⟨c, hc, hfresh⟩ := exists_fresh h
  have hbody : Host.transform b.host agent = some place :=
    congrArg (fun s => s.whereabouts.shown) h
  have hdraw := Generator.below32_lt (n := 360) (by decide) (by decide) b.generator
  unfold placeAtStart
  rw [hbody]
  generalize b.generator.below32 360 = draw at hdraw ⊢
  refine ⟨draw.1, hdraw, standing_settled (c := c) place.position hfresh.damage hfresh.status ?_ ?_⟩
  · rw [modifyAgent_eq]
    simp [hc]
  · rw [host_modifyAgent]
    simp [hbody]

/-- To look around changes neither how an agent stands nor the profile. -/
theorem standing_sense {values observations : List Float}
    (hc : b.combatants.contains handle.id = true)
    (h : b.sense handle values = .ok (observations, b')) :
    b'.standing handle.id = b.standing handle.id ∧ b'.profile = b.profile := by
  unfold sense at h
  split at h
  · cases h
  · obtain ⟨e, henroll, hperceive⟩ := map_ok h
    obtain rfl := eq_of_enroll henroll hc
    obtain rfl : (e.perceive handle.id values).2 = b' := congrArg Prod.snd hperceive
    refine ⟨?_, (perceive_changes e handle.id values).profile⟩
    rw [perceive_snd, target_snd]
    unfold standing whereabouts
    dsimp only
    split
    · rw [Snapshot.poses_target]
    · rfl

variable [Trainer T]

/-- A call leaves all others as they stand. -/
theorem standing_attempt_of_ne {call : Call} {reply : Reply} (hh : call.handle? = some handle)
    (h : b.attempt call = .ok (reply, b')) (hother : other ≠ handle.id) :
    b'.standing other = b.standing other :=
  (beside_attempt hh h).standing hother (whereabouts_attempt_of_ne hh h hother)

/-- The first step of a mobile agent pays nothing, and leaves a fresh one so, with a heading. -/
theorem first_step {action reward : List Float} (hfirst : handle.step = 0)
    (hmobile : handle.group.isMobile = true) (hfresh : b.standing handle.id = .fresh place)
    (h : b.step handle action = .ok (reward, b')) :
    reward = List.replicate b.profile.dimensions.length 0.0 ∧ ∃ degrees < 360,
      b'.standing handle.id = .fresh { place with heading := Float.ofNat degrees } := by
  obtain ⟨c, hc, -⟩ := exists_fresh hfresh
  unfold step at h
  split at h
  · cases h
  · obtain ⟨e, henroll, hact⟩ := map_ok h
    obtain rfl := eq_of_enroll henroll ((IdMap.contains_eq_true_iff _).2 ⟨c, hc⟩)
    have hpaid := unpaid_act (e := e) (.inl ⟨hfirst, hmobile⟩) action
    unfold act at hpaid hact
    rw [if_pos ⟨hfirst, hmobile⟩] at hpaid hact
    cases hact
    exact ⟨hpaid, standing_placeAtStart hfresh⟩

end Battle

end FlagCombat
