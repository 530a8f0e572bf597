import FlagCombat.Configuration.Basic
import FlagCombat.Proofs.Binary64.Arithmetic

/-!
What makes a configuration valid. A check goes through requirements in their order and answers the
fault of the first one that is not met, so a configuration is accepted exactly if it meets them all.
The main statement names them: a profile that can be played, a probability, and an arena with an
area. Among the numbers that are tested there is none that may be not a number.
-/

namespace FlagCombat

open Binary64

/-- Something that must hold, and the fault that is reported where it does not. -/
structure Requirement (ε : Type) where
  met : Prop
  fault : ε

namespace Requirement

variable {ε δ : Type} {r : Requirement ε} {l rest : List (Requirement ε)}
  {outcome : Except ε Unit} {e : ε}

def mapFault (wrap : ε → δ) (r : Requirement ε) : Requirement δ := ⟨r.met, wrap r.fault⟩

/-- The first requirement that is not met has this fault. -/
def FirstUnmet (l : List (Requirement ε)) (e : ε) : Prop :=
  ∃ before r after, l = before ++ r :: after ∧ (∀ q ∈ before, q.met) ∧ ¬r.met ∧ e = r.fault

theorem not_firstUnmet_nil (e : ε) : ¬FirstUnmet [] e := by
  rintro ⟨before, r, after, hsplit, -⟩
  cases before <;> cases hsplit

theorem firstUnmet_cons_of_not_met (h : ¬r.met) : FirstUnmet (r :: rest) e ↔ e = r.fault := by
  constructor
  · rintro ⟨before, q, after, hsplit, hbefore, -, he⟩
    cases before with
    | nil =>
      cases hsplit
      exact he
    | cons p before =>
      cases hsplit
      exact absurd (hbefore _ List.mem_cons_self) h
  · intro he
    exact ⟨[], r, rest, rfl, fun _ hq => absurd hq List.not_mem_nil, h, he⟩

theorem firstUnmet_cons_of_met (h : r.met) : FirstUnmet (r :: rest) e ↔ FirstUnmet rest e := by
  constructor
  · rintro ⟨before, q, after, hsplit, hbefore, hq, he⟩
    cases before with
    | nil =>
      cases hsplit
      exact absurd h hq
    | cons p before =>
      cases hsplit
      exact ⟨before, q, after, rfl, fun p hp => hbefore p (List.mem_cons_of_mem _ hp), hq, he⟩
  · rintro ⟨before, q, after, rfl, hbefore, hq, he⟩
    exact ⟨r :: before, q, after, rfl, List.forall_mem_cons.2 ⟨h, hbefore⟩, hq, he⟩

/-- An outcome that requirements decide in their order. -/
structure Decides (l : List (Requirement ε)) (outcome : Except ε Unit) : Prop where
  ok_iff : outcome = .ok () ↔ ∀ r ∈ l, r.met
  error_iff : ∀ e, outcome = .error e ↔ FirstUnmet l e

theorem decides_nil : Decides ([] : List (Requirement ε)) (.ok ()) where
  ok_iff := ⟨fun _ _ hr => absurd hr List.not_mem_nil, fun _ => rfl⟩
  error_iff e := by
    constructor
    · intro h
      cases h
    · intro h
      exact absurd h (not_firstUnmet_nil e)

theorem decides_cons_of_not_met (h : ¬r.met) : Decides (r :: rest) (.error r.fault) where
  ok_iff := by
    constructor
    · intro hok
      cases hok
    · intro hall
      exact absurd (hall r List.mem_cons_self) h
  error_iff e := by rw [firstUnmet_cons_of_not_met h, Except.error.injEq, eq_comm]

theorem decides_cons_of_met (h : r.met) (hrest : Decides rest outcome) :
    Decides (r :: rest) outcome where
  ok_iff := by rw [List.forall_mem_cons, hrest.ok_iff, and_iff_right h]
  error_iff e := by rw [firstUnmet_cons_of_met h, hrest.error_iff]

theorem decides_append_of_met (h : ∀ r ∈ l, r.met) (hrest : Decides rest outcome) :
    Decides (l ++ rest) outcome := by
  induction l with
  | nil => exact hrest
  | cons r l ih =>
    obtain ⟨hr, hl⟩ := List.forall_mem_cons.1 h
    exact decides_cons_of_met hr (ih hl)

/-- One test, and what is behind it, which may rely on it. -/
theorem Decides.test {failed : Prop} [Decidable failed] (hfailed : failed ↔ ¬r.met)
    (hrest : r.met → Decides rest outcome) :
    Decides (r :: rest) (if failed then .error r.fault else outcome) := by
  by_cases h : failed
  · rw [if_pos h]
    exact decides_cons_of_not_met (hfailed.1 h)
  · have hmet : r.met := Classical.not_not.1 (mt hfailed.2 h)
    rw [if_neg h]
    exact decides_cons_of_met hmet (hrest hmet)

/-- A check whose faults are passed on, and what is behind it. -/
theorem Decides.chain (h : Decides l outcome) (wrap : ε → δ) {rest : List (Requirement δ)}
    {result : Except δ Unit} (herror : ∀ e, outcome = .error e → result = .error (wrap e))
    (hok : outcome = .ok () → Decides rest result) :
    Decides (l.map (mapFault wrap) ++ rest) result := by
  cases outcome with
  | ok =>
    refine decides_append_of_met (fun r hr => ?_) (hok rfl)
    obtain ⟨q, hq, rfl⟩ := List.mem_map.1 hr
    exact h.ok_iff.1 rfl q hq
  | error e =>
    obtain ⟨before, r, after, rfl, hbefore, hr, rfl⟩ := (h.error_iff e).1 rfl
    rw [herror _ rfl, List.map_append, List.map_cons, List.append_assoc]
    refine decides_append_of_met (fun q hq => ?_) (decides_cons_of_not_met hr)
    obtain ⟨p, hp, rfl⟩ := List.mem_map.1 hq
    exact hbefore p hp

end Requirement

open Requirement

/-- A test for two conditions fails where they do not both hold. -/
theorem not_both_iff {a b : Prop} [Decidable a] [Decidable b] :
    (!(decide a && decide b)) = true ↔ ¬(a ∧ b) := by
  rw [Bool.not_eq_true', Bool.eq_false_iff, Ne, Bool.and_eq_true, decide_eq_true_iff,
    decide_eq_true_iff]

namespace Profile

variable {p : Profile}

/-- The dimension at each index is none of those before it. -/
def unrepeated (before dimensions : List Dimension) : List (Requirement Error) :=
  dimensions.mapIdx fun i d => ⟨d ∉ before ++ dimensions.take i, .repeatedDimension d⟩

theorem unrepeated_cons (before : List Dimension) (d : Dimension) (rest : List Dimension) :
    unrepeated before (d :: rest) =
      ⟨d ∉ before, .repeatedDimension d⟩ :: unrepeated (before ++ [d]) rest := by
  unfold unrepeated
  rw [List.mapIdx_cons, List.take_zero, List.append_nil]
  simp only [List.take_succ_cons, List.append_assoc, List.singleton_append]

/-- The requirement of a finite number above zero. -/
def positive (field : Field) (value : Float) : Requirement Error where
  met := value.isFinite = true ∧ 0.0 < value
  fault := .badValue field value

/-- What is required of a profile, in the order in which it is tested. -/
def requirements (p : Profile) : List (Requirement Error) :=
  let cone := p.targeting.coneHalfAngle
  let penalty := p.targeting.angularPenalty
  ⟨p.dimensions ≠ [], .noDimensions⟩ :: (unrepeated [] p.dimensions ++
    [⟨0.0 < cone ∧ cone ≤ 180.0, .badValue .coneHalfAngle cone⟩,
      ⟨penalty.isFinite = true ∧ 0.0 ≤ penalty, .badValue .angularPenalty penalty⟩,
      ⟨cone * penalty < 90.0, .badValue .angularPenalty penalty⟩,
      positive .maxSpeed p.maxSpeed,
      positive .maxTurn p.maxTurn,
      positive .friendRadius p.friendRadius])

/-- The first repeat is looked for among what stands before each dimension. -/
theorem decides_firstRepeat {seen before dimensions : List Dimension}
    {rest : List (Requirement Error)} {outcome : Except Error Unit}
    (hseen : ∀ d, d ∈ seen ↔ d ∈ before)
    (hsome : ∀ d, firstRepeat seen dimensions = some d → outcome = .error (.repeatedDimension d))
    (hnone : firstRepeat seen dimensions = none → Decides rest outcome) :
    Decides (unrepeated before dimensions ++ rest) outcome := by
  induction dimensions generalizing seen before with
  | nil => exact hnone rfl
  | cons d dimensions ih =>
    rw [unrepeated_cons, List.cons_append]
    unfold firstRepeat at hsome hnone
    by_cases hd : d ∈ seen
    · rw [hsome d (if_pos hd)]
      exact decides_cons_of_not_met fun hnew => hnew ((hseen d).1 hd)
    · rw [if_neg hd] at hsome hnone
      refine decides_cons_of_met (fun hold => hd ((hseen d).2 hold)) (ih (fun d' => ?_) hsome hnone)
      rw [List.mem_cons, List.mem_append, List.mem_singleton, hseen d', or_comm]

theorem decides_requirePositive (field : Field) (value : Float) :
    Decides [positive field value] (requirePositive field value) := by
  have htest : (value.isFinite && decide (value > 0.0)) = true ↔ (positive field value).met := by
    rw [Bool.and_eq_true, decide_eq_true_iff]
    rfl
  unfold requirePositive
  by_cases h : (positive field value).met
  · rw [if_pos (htest.2 h)]
    exact decides_cons_of_met h decides_nil
  · rw [if_neg (mt htest.1 h)]
    exact decides_cons_of_not_met h

/-- A half angle that is accepted is a finite number. -/
theorem isFinite_of_cone {cone : Float} (h : 0.0 < cone ∧ cone ≤ 180.0) : cone.isFinite = true := by
  obtain ⟨hlow, hhigh⟩ := h
  obtain ⟨hzero, hcone⟩ := number_of_lt hlow
  have hmost : placeOf 180.0 < 2047 * 2 ^ 52 := by decide +kernel
  rw [lt_iff hzero hcone, placeOf_zero] at hlow
  rw [le_iff hcone (by decide +kernel)] at hhigh
  exact isFinite_of_place hcone (by omega) (by omega)

theorem penalty_test {penalty : Float} :
    (!penalty.isFinite || decide (penalty < 0.0)) = true ↔
      ¬(penalty.isFinite = true ∧ 0.0 ≤ penalty) := by
  rw [Bool.or_eq_true, Bool.not_eq_true', decide_eq_true_iff, Classical.not_and_iff_not_or_not,
    Bool.not_eq_true]
  by_cases hfinite : penalty.isFinite = true
  · rw [le_iff_not_lt (by decide +kernel) (isNaN_of_isFinite hfinite), Classical.not_not]
  · simp [hfinite]

theorem decides_validate (p : Profile) : Decides p.requirements p.validate := by
  unfold validate requirements
  simp only [bind, Except.bind, throw, throwThe, MonadExceptOf.throw]
  refine Decides.test (by simp) fun _ => ?_
  refine decides_firstRepeat (fun _ => Iff.rfl) (fun d hd => by rw [hd]) fun hnone => ?_
  rw [hnone]
  refine Decides.test not_both_iff fun hcone => ?_
  refine Decides.test penalty_test fun hpenalty => ?_
  -- the sweep of a finite cone and a finite penalty is a number, so it is below or not
  have hsweep := (rounds_mul (isFinite_of_cone hcone) hpenalty.1).number
  refine Decides.test (le_iff_not_lt (by decide +kernel) hsweep) fun _ => ?_
  refine (decides_requirePositive .maxSpeed p.maxSpeed).chain id (fun e he => by rw [he]; rfl)
    fun hspeed => ?_
  rw [hspeed]
  refine (decides_requirePositive .maxTurn p.maxTurn).chain id (fun e he => by rw [he]; rfl)
    fun hturn => ?_
  rw [hturn]
  exact decides_requirePositive .friendRadius p.friendRadius

/-- A profile that can be played. -/
structure Usable (p : Profile) : Prop where
  dimensions_ne_nil : p.dimensions ≠ []
  dimensions_nodup : p.dimensions.Nodup
  cone : 0.0 < p.targeting.coneHalfAngle ∧ p.targeting.coneHalfAngle ≤ 180.0
  penalty : p.targeting.angularPenalty.isFinite = true ∧ 0.0 ≤ p.targeting.angularPenalty
  /-- The widest angle, weighted, in one rounded product. -/
  sweep : p.targeting.coneHalfAngle * p.targeting.angularPenalty < 90.0
  maxSpeed : p.maxSpeed.isFinite = true ∧ 0.0 < p.maxSpeed
  maxTurn : p.maxTurn.isFinite = true ∧ 0.0 < p.maxTurn
  friendRadius : p.friendRadius.isFinite = true ∧ 0.0 < p.friendRadius

theorem unrepeated_met_iff {before dimensions : List Dimension} :
    (∀ r ∈ unrepeated before dimensions, r.met) ↔
      dimensions.Nodup ∧ ∀ d ∈ dimensions, d ∉ before := by
  induction dimensions generalizing before with
  | nil => simp [unrepeated]
  | cons d dimensions ih =>
    rw [unrepeated_cons, List.forall_mem_cons, ih, List.nodup_cons, List.forall_mem_cons]
    simp only [List.mem_append, List.mem_singleton, not_or]
    constructor
    · rintro ⟨hd, hnodup, hrest⟩
      exact ⟨⟨fun hmem => (hrest d hmem).2 rfl, hnodup⟩, hd, fun d' hd' => (hrest d' hd').1⟩
    · rintro ⟨⟨hmem, hnodup⟩, hd, hrest⟩
      refine ⟨hd, hnodup, fun d' hd' => ⟨hrest d' hd', ?_⟩⟩
      rintro rfl
      exact hmem hd'

theorem requirements_met_iff : (∀ r ∈ p.requirements, r.met) ↔ p.Usable := by
  unfold requirements
  simp only [List.forall_mem_cons, List.forall_mem_append, unrepeated_met_iff]
  constructor
  · rintro ⟨hsome, ⟨hnodup, -⟩, hcone, hpenalty, hsweep, hspeed, hturn, hradius, -⟩
    exact ⟨hsome, hnodup, hcone, hpenalty, hsweep, hspeed, hturn, hradius⟩
  · rintro ⟨hsome, hnodup, hcone, hpenalty, hsweep, hspeed, hturn, hradius⟩
    exact ⟨hsome, ⟨hnodup, fun _ _ => List.not_mem_nil⟩, hcone, hpenalty, hsweep, hspeed, hturn,
      hradius, fun _ hr => absurd hr List.not_mem_nil⟩

/-- The numbers that are tested. -/
def tested (p : Profile) : List Float :=
  [p.targeting.coneHalfAngle, p.targeting.angularPenalty, p.maxSpeed, p.maxTurn, p.friendRadius]

theorem Usable.number (h : p.Usable) : ∀ x ∈ p.tested, x.isNaN = false := by
  simp only [tested, List.forall_mem_cons]
  exact ⟨(number_of_lt h.cone.1).2, isNaN_of_isFinite h.penalty.1, isNaN_of_isFinite h.maxSpeed.1,
    isNaN_of_isFinite h.maxTurn.1, isNaN_of_isFinite h.friendRadius.1,
    fun _ hx => absurd hx List.not_mem_nil⟩

end Profile

namespace Configuration

variable {c : Configuration}

/-- What is required of a configuration, in the order in which it is tested. -/
def requirements (c : Configuration) : List (Requirement Invalidity) :=
  let p := c.trainer.exploitProbability
  c.profile.requirements.map (mapFault .profile) ++
    [⟨0.0 ≤ p ∧ p ≤ 1.0, .exploitProbability p⟩,
      ⟨0.0 < c.world.width ∧ 0.0 < c.world.height, .arenaSize c.world.width c.world.height⟩]

theorem decides_validate (c : Configuration) : Decides c.requirements c.validate := by
  unfold validate requirements
  simp only [bind, Except.bind, throw, throwThe, MonadExceptOf.throw]
  refine (Profile.decides_validate c.profile).chain Invalidity.profile (fun e he => by rw [he])
    fun hprofile => ?_
  rw [hprofile]
  refine Decides.test not_both_iff fun _ => ?_
  exact Decides.test not_both_iff fun _ => decides_nil

/-- A configuration that can be run. -/
structure Usable (c : Configuration) : Prop where
  profile : c.profile.Usable
  exploitProbability : 0.0 ≤ c.trainer.exploitProbability ∧ c.trainer.exploitProbability ≤ 1.0
  arena : 0.0 < c.world.width ∧ 0.0 < c.world.height

theorem requirements_met_iff : (∀ r ∈ c.requirements, r.met) ↔ c.Usable := by
  have hprofile : (∀ r ∈ c.profile.requirements.map (mapFault Invalidity.profile), r.met) ↔
      c.profile.Usable := by
    rw [List.forall_mem_map, ← Profile.requirements_met_iff]
    rfl
  unfold requirements
  simp only [List.forall_mem_cons, List.forall_mem_append, hprofile]
  constructor
  · rintro ⟨hprofile, hprobability, harena, -⟩
    exact ⟨hprofile, hprobability, harena⟩
  · rintro ⟨hprofile, hprobability, harena⟩
    exact ⟨hprofile, hprobability, harena, fun _ hr => absurd hr List.not_mem_nil⟩

/-- The numbers that are tested. -/
def tested (c : Configuration) : List Float :=
  c.profile.tested ++ [c.trainer.exploitProbability, c.world.width, c.world.height]

theorem Usable.number (h : c.Usable) : ∀ x ∈ c.tested, x.isNaN = false := by
  simp only [tested, List.forall_mem_append, List.forall_mem_cons]
  exact ⟨h.profile.number, (number_of_le h.exploitProbability.1).2, (number_of_lt h.arena.1).2,
    (number_of_lt h.arena.2).2, fun _ hx => absurd hx List.not_mem_nil⟩

/-- A configuration is accepted exactly if it is usable. Otherwise the fault is that of the first
requirement that it does not meet. One that tests something that is not a number is never
accepted. -/
theorem validate_first_unmet (c : Configuration) :
    (c.validate = .ok () ↔ c.Usable) ∧
      (∀ e, c.validate = .error e ↔ FirstUnmet c.requirements e) ∧
      ∀ x ∈ c.tested, x.isNaN = true → c.validate ≠ .ok () := by
  have hdecides := c.decides_validate
  have hok : c.validate = .ok () ↔ c.Usable := hdecides.ok_iff.trans requirements_met_iff
  refine ⟨hok, hdecides.error_iff, fun x hx hnan hvalid => ?_⟩
  rw [(hok.1 hvalid).number x hx] at hnan
  cases hnan

/-- A repeat is found before the angles are looked at, and the second one before the third. -/
example : validate { profile := {
      dimensions := [.hitTarget, .avoidFire, .avoidFire, .hitTarget]
      targeting := { coneHalfAngle := 0.0 / 0.0 } } } =
    .error (.profile (.repeatedDimension .avoidFire)) := by decide +kernel

end Configuration

end FlagCombat
