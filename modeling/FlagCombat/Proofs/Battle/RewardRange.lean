import FlagCombat.Proofs.Battle.Stepping
import FlagCombat.Proofs.Binary64.Whole
import FlagCombat.Proofs.Interval

/-!
Rewards against their declared shape. Every slot is declared to hold a finite number, and all fit
but the squares of distances that are too large or that are no numbers: the first of those is what a
check of the reward finds.
-/

namespace FlagCombat

open Binary64

/-- A valid action asks for a finite share of the speed. -/
theorem isFinite_moveBy {profile : Profile} {action : List Float}
    (h : profile.interface.actions.violation? action = none) :
    (Motion.ofAction action).moveBy.isFinite = true := by
  obtain ⟨move, turn, -, hmove, -, hmotion⟩ := Profile.exists_motion h
  rw [hmotion]
  exact Interval.isFinite_of_contains (t := 1.0) (by decide +kernel)
    (((Interval.around 1.0).contains_iff move).2 hmove)

namespace Battle

variable {H T : Type} {b b' e : Battle H T} {agent : Handle} {action : List Float}

/-- The distance whose square a dimension takes away, if there is one. -/
def gap? (e : Battle H T) (agent : AgentId) : Dimension → Option Float
  | .stickTogether => (e.snapshot.poses.nearestFriend e.teams agent).map (·.2)
  | .approachEnemy => (e.snapshot.poses.nearestFoe e.teams agent).map (·.2)
  | .approachFlag =>
    (e.combatants.get? agent).map fun c => c.pose.position.distance e.profile.flag
  | .standGround | .hitTarget | .avoidFire => none

/-- A dimension that takes away no square, or a finite one. -/
def Affordable (e : Battle H T) (agent : AgentId) (d : Dimension) : Prop :=
  ∀ gap, e.gap? agent d = some gap → Moderate gap

theorem not_affordable_iff {id : AgentId} {d : Dimension} :
    ¬e.Affordable id d ↔ ∃ gap, e.gap? id d = some gap ∧ ¬Moderate gap := by
  simp [Affordable]

section Pay

variable {c : Combatant} {friend : AgentId × Float} {motion : Motion} {id : AgentId}
  {d : Dimension} (hc : e.combatants.get? id = some c)
  (hfriend : e.snapshot.poses.nearestFriend e.teams id = some friend)

include hc hfriend

/-- A dimension that takes away a square pays nothing else. -/
theorem pay_of_gap {gap : Float} (hgap : e.gap? id d = some gap) (landed : Bool) :
    d.pay e.profile.flag motion c friend.2 ((e.snapshot.poses.nearestFoe e.teams id).map (·.2))
      landed = -(gap * gap) := by
  cases d with
  | stickTogether =>
    simp only [gap?, hfriend, Option.map_some, Option.some.injEq] at hgap
    rw [Dimension.pay, hgap]
  | approachEnemy =>
    have hfoe : (e.snapshot.poses.nearestFoe e.teams id).map (·.2) = some gap := hgap
    simp only [Dimension.pay, hfoe]
  | approachFlag =>
    simp only [gap?, hc, Option.map_some, Option.some.injEq] at hgap
    rw [Dimension.pay, hgap]
  | standGround | hitTarget | avoidFire => cases hgap

theorem isFinite_pay (hgap : e.gap? id d = none) (hmove : motion.moveBy.isFinite = true)
    (landed : Bool) :
    (d.pay e.profile.flag motion c friend.2 ((e.snapshot.poses.nearestFoe e.teams id).map (·.2))
      landed).isFinite = true := by
  cases d with
  | standGround => exact isFinite_neg hmove
  | stickTogether => simp [gap?, hfriend] at hgap
  | approachEnemy =>
    have hfoe : (e.snapshot.poses.nearestFoe e.teams id).map (·.2) = none := hgap
    simp only [Dimension.pay, hfoe]
    decide +kernel
  | approachFlag => simp [gap?, hc] at hgap
  | hitTarget =>
    simp only [Dimension.pay]
    cases landed <;> decide +kernel
  | avoidFire => exact isFinite_neg (isFinite_toFloat c.pendingDamage)

/-- What a dimension pays is finite but for its square. -/
theorem contains_pay (hmove : motion.moveBy.isFinite = true) (landed : Bool) :
    Interval.unbounded.contains (d.pay e.profile.flag motion c friend.2
      ((e.snapshot.poses.nearestFoe e.teams id).map (·.2)) landed) = true ↔ e.Affordable id d := by
  rw [Interval.contains_unbounded]
  unfold Affordable
  cases hgap : e.gap? id d with
  | none => simp [isFinite_pay hc hfriend hgap hmove landed]
  | some gap => simp [pay_of_gap hc hfriend hgap landed, isFinite_neg_eq, isFinite_mul_self]

end Pay

variable [Host H] [Trainer T]

/-- Every reward has a slot for each dimension. Nothing is wrong with it if nothing was paid, nor if
every square that its dimensions take away is that of a distance below `2 ^ 512`; otherwise the
first dimension that takes away another square names the slot that is wrong, and its value. -/
theorem reward_violation_exact (hb : Reachable b) {reply : Reply}
    (h : b.attempt (.step agent action) = .ok (reply, b')) :
    let shape := b.profile.interface.rewards
    ∃ e rewards, b.enroll agent = .ok e ∧ reply = .vector rewards ∧ rewards.length = shape.length ∧
      (agent.step = 0 ∧ agent.group.isMobile ∨ (∀ other, ¬e.Fellow agent.id other) →
        shape.violation? rewards = none) ∧
      (¬(agent.step = 0 ∧ agent.group.isMobile) → (∃ other, e.Fellow agent.id other) →
        (shape.violation? rewards = none ↔ ∀ d ∈ b.profile.dimensions, e.Affordable agent.id d) ∧
        ∀ violation, shape.violation? rewards = some violation ↔
          ∃ (index : Nat) (d : Dimension) (gap : Float), b.profile.dimensions[index]? = some d ∧
            e.gap? agent.id d = some gap ∧ ¬Moderate gap ∧
            violation = .outOfBounds index (-(gap * gap)) .unbounded ∧
            ∀ j < index, ∀ other, b.profile.dimensions[j]? = some other →
              e.Affordable agent.id other) := by
  intro shape
  cases success_of_handle rfl h with
  | @handle _ _ e hagent hrefusal henroll =>
    cases hagent
    have he : e.Sound := hb.sound.changes (enroll_changes henroll)
    have hprofile : e.profile = b.profile := (enroll_changes henroll).profile
    obtain ⟨c, hc⟩ := (IdMap.contains_eq_true_iff _).1 (contains_of_enroll henroll)
    have hvalid : b.profile.interface.actions.violation? action = none :=
      Option.map_eq_none_iff.1 hrefusal
    have hmove := isFinite_moveBy hvalid
    have hshape : shape = ⟨b.profile.dimensions.map fun _ => .unbounded⟩ := rfl
    refine ⟨e, (e.act agent action).1, henroll, rfl, ?length, fun hunpaid => ?unpaid,
      fun hfirst hfellow => ?paid⟩
    case length => simp [length_of_attempt h, hshape, Shape.length]
    case unpaid =>
      have hzeros : (e.act agent action).1 = b.profile.dimensions.map fun _ => 0.0 := by
        rw [List.map_const', ← hprofile]
        exact unpaid_act (hunpaid.imp_right he.hasOtherFriends_eq_false_iff.2) action
      have hzero : Interval.unbounded.contains 0.0 = true := by decide +kernel
      rw [hshape]
      show Shape.violation? _ (e.act agent action).1 = none
      rw [hzeros, Shape.violation?_map_eq_none_iff]
      exact fun _ _ => hzero
    case paid =>
      obtain ⟨friend, hfriend, -⟩ := he.exists_nearestFriend hfellow
      have hfits (d : Dimension) := contains_pay (d := d) hc hfriend hmove
        ((e.walking agent action).victim? agent.id).isSome
      have hpaid := paid_act he hfirst (he.hasOtherFriends_iff.2 hfellow) hc hfriend action
      rw [hprofile] at hpaid hfits
      rw [hshape]
      show (Shape.violation? _ (e.act agent action).1 = none ↔ _) ∧
        ∀ violation, Shape.violation? _ (e.act agent action).1 = some violation ↔ _
      rw [hpaid, Shape.violation?_map_eq_none_iff]
      refine ⟨by simp only [hfits], fun violation => ?_⟩
      rw [Shape.violation?_map_eq_some_iff]
      simp only [Bool.eq_false_iff, ne_eq, hfits, not_affordable_iff]
      constructor
      · rintro ⟨index, d, hd, rfl, ⟨gap, hgap, hlarge⟩, hleast⟩
        refine ⟨index, d, gap, hd, hgap, hlarge, ?_, hleast⟩
        rw [← hprofile, pay_of_gap hc hfriend hgap]
      · rintro ⟨index, d, gap, hd, hgap, hlarge, rfl, hleast⟩
        refine ⟨index, d, hd, ?_, ⟨gap, hgap, hlarge⟩, hleast⟩
        rw [← hprofile, pay_of_gap hc hfriend hgap]

/-- Two of a team, a great way apart. -/
def afar : Battle OpenField FixedTrainer :=
  let host : OpenField :=
    { transforms := (IdMap.empty.insert ⟨1⟩ ⟨0.0, 0.0, 0.0⟩).insert ⟨2⟩ ⟨1e200, 0.0, 0.0⟩ }
  (start {} host {} 0).performAll
    [.register { id := ⟨1⟩, team := .zero, group := .turret },
      .register { id := ⟨2⟩, team := .zero, group := .turret }]

/-- The rules are valid and all poses are finite, yet the reward does not fit its shape. -/
theorem reward_violation_exact_afar :
    let agent : Handle := { id := ⟨1⟩, team := .zero, group := .turret }
    afar.profile.validate.isOk = true ∧
      ∃ rewards b', afar.attempt (.step agent [0.0, 0.0]) = .ok (.vector rewards, b') ∧
        afar.profile.interface.rewards.violation? rewards ≠ none := by
  intro agent
  have hreach : Reachable afar := (Reachable.start _ _ _ _).performAll _
  have hok : (afar.attempt (.step agent [0.0, 0.0])).isOk = true := by decide +kernel
  obtain ⟨⟨reply, b'⟩, h⟩ := exists_of_isOk hok
  obtain ⟨e, rewards, henroll, rfl, -, -, hpaid⟩ := reward_violation_exact hreach h
  obtain rfl : e = afar := eq_of_enroll henroll (by decide +kernel)
  obtain ⟨hfits, -⟩ := hpaid (by decide) (hreach.sound.hasOtherFriends_iff.1 (by decide +kernel))
  have hgap : afar.gap? ⟨1⟩ .stickTogether = some 1e200 := by decide +kernel
  refine ⟨by decide +kernel, rewards, b', h, fun hnone => ?_⟩
  have hmoderate := hfits.1 hnone .stickTogether (by decide +kernel) 1e200 hgap
  exact absurd hmoderate.2 (by decide +kernel)

end Battle

end FlagCombat
