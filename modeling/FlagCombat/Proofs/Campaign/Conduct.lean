import FlagCombat.Campaign.Wander
import FlagCombat.Proofs.Interval

/-!
Policies whose actions always fit the declared shape. Zeros fit; and so does whatever a wanderer
draws, since it draws numbers, and every number has its value inside an interval around zero.
-/

namespace FlagCombat

open Binary64

/-- The draws of a proper span from a finite number on are numbers. -/
theorem Generator.isNaN_uniform {low high : Float} (hspan : IsProper (high - low))
    (hlow : low.isFinite = true) (g : Generator) : (g.uniform low high).1.isNaN = false := by
  have hscale : IsProper 4503599627370496.0 :=
    isProper_of_isFinite (by decide +kernel) (by decide +kernel)
  unfold uniform
  exact isNaN_add (isNaN_mul (isNaN_div (isNaN_toFloat _) hscale) hspan) hlow

theorem WanderPolicy.exists_shares (p : WanderPolicy) (readings : List Float) :
    ∃ move turn, (p.shares readings).1 = [move, turn] ∧ move.isNaN = false ∧
      turn.isNaN = false := by
  unfold shares
  split
  · exact ⟨wallCreep, 1.0, rfl, by decide +kernel, by decide +kernel⟩
  · have hhalf : IsProper (1.0 - 0.5) :=
      isProper_of_isFinite (by decide +kernel) (by decide +kernel)
    have hwhole : IsProper (1.0 - 0.0) :=
      isProper_of_isFinite (by decide +kernel) (by decide +kernel)
    exact ⟨_, _, rfl, Generator.isNaN_uniform hhalf (by decide +kernel) _,
      Generator.isNaN_uniform hwhole (by decide +kernel) _⟩

/-- The intervals of the actions are around zero, and a turn has a size. -/
def Profile.Steerable (p : Profile) : Prop := p.maxTurn.isFinite = true ∧ 0.0 < p.maxTurn

section Fitting

variable {profile : Profile} (h : profile.Steerable)

theorem violation?_pair {move turn : Float} (hmove : (Interval.around 1.0).contains move = true)
    (hturn : (Interval.around profile.maxTurn).contains turn = true) :
    profile.interface.actions.violation? [move, turn] = none := by
  show Shape.firstOutside 0 [.around 1.0, .around profile.maxTurn] [move, turn] = none
  simp only [Shape.firstOutside, hmove, hturn, if_true]

include h

theorem violation?_zeros :
    profile.interface.actions.violation? profile.interface.actions.zeros = none :=
  violation?_pair (Interval.contains_zero (by decide +kernel) (by decide +kernel))
    (Interval.contains_zero h.1 h.2)

theorem violation?_denormalize {move turn : Float} (hmove : move.isNaN = false)
    (hturn : turn.isNaN = false) :
    profile.interface.actions.violation? (profile.interface.actions.denormalize [move, turn]) =
      none :=
  violation?_pair (Interval.contains_ofUnit (by decide +kernel) (by decide +kernel) hmove)
    (Interval.contains_ofUnit h.1 h.2 hturn)

end Fitting

/-- A kind of policy whose actions fit under a profile. -/
structure Fitting (P : Type) [Policy P] (profile : Profile) : Prop where
  start : ∀ (p : P) (agent : Handle) (observations : List Float),
    profile.interface.actions.violation?
      (Policy.start p agent profile.interface observations).1 = none
  act : ∀ (p : P) (agent : Handle) (observations reward : List Float),
    profile.interface.actions.violation?
      (Policy.act p agent profile.interface observations reward).1 = none

theorem fitting_hold {profile : Profile} (h : profile.Steerable) : Fitting HoldPolicy profile where
  start _ _ _ := violation?_zeros h
  act _ _ _ _ := violation?_zeros h

theorem fitting_wander {profile : Profile} (h : profile.Steerable) :
    Fitting WanderPolicy profile where
  start _ _ _ := violation?_zeros h
  act p agent observations _ := by
    simp only [Policy.act]
    split
    · exact violation?_zeros h
    · obtain ⟨move, turn, hshares, hmove, hturn⟩ :=
        p.exists_shares (profile.interface.sensors.normalize observations)
      rw [hshares]
      exact violation?_denormalize h hmove hturn

end FlagCombat
