import FlagCombat.Campaign.Deployment
import FlagCombat.Proofs.Campaign.Breeding
import FlagCombat.Proofs.Campaign.Conduct
import FlagCombat.Proofs.Campaign.Entry
import FlagCombat.Proofs.Campaign.Turn

/-!
A valid configuration never fails at run time. Its turrets can be placed, and all ticks of its
campaign succeed as long as there are numbers for all turrets and the whole population.
-/

namespace FlagCombat

open ReplacementTrainer (Breeding)

theorem Profile.requirePositive_ok {field : Field} {value : Float}
    (h : requirePositive field value = .ok ()) : value.isFinite = true ∧ 0.0 < value := by
  unfold requirePositive at h
  split at h
  · rename_i hpos
    rw [Bool.and_eq_true, decide_eq_true_iff] at hpos
    exact hpos
  · cases h

theorem Profile.steerable_of_validate {p : Profile} (h : p.validate = .ok ()) : p.Steerable := by
  unfold validate at h
  simp only [bind, Except.bind, throw, throwThe, MonadExceptOf.throw] at h
  -- The check of the turn is the seventh; all checks before it have passed.
  iterate 7
    split at h
    · cases h
  rename_i hturn
  exact requirePositive_ok hturn

/-- What a valid configuration says about its turns and its probability. -/
theorem Configuration.of_validate {c : Configuration} (h : c.validate = .ok ()) :
    c.profile.Steerable ∧ 0.0 ≤ c.trainer.exploitProbability ∧
      c.trainer.exploitProbability ≤ 1.0 := by
  unfold validate at h
  simp only [bind, Except.bind, throw, throwThe, MonadExceptOf.throw] at h
  split at h
  · cases h
  rename_i hprofile
  split at h
  · cases h
  rename_i hprobability
  rw [Bool.not_eq_true', Bool.not_eq_false, Bool.and_eq_true, decide_eq_true_iff,
    decide_eq_true_iff] at hprobability
  exact ⟨Profile.steerable_of_validate hprofile, hprobability⟩

namespace Campaign

/-- Ticks one after the other, each with its number and its spawn point. -/
def tickAll {H T P : Type} [Host H] [Trainer T] [Policy P] :
    List (UInt64 × SpawnPoint) → Action H T P (List TickSummary)
  | [] => pure []
  | (number, point) :: ticks => do
    let summary ← tick number point
    let summaries ← tickAll ticks
    return summary :: summaries

variable {P : Type} [Policy P] {profile : Profile} {settings : TrainerSettings}

/-- What keeps the ticks of a campaign from failing: actions that fit, a probability, and numbers
for the whole population. -/
structure Provided (P : Type) [Policy P] (profile : Profile) (settings : TrainerSettings)
    (turrets : Nat) : Prop where
  fitting : Fitting P profile
  low : 0.0 ≤ settings.exploitProbability
  high : settings.exploitProbability ≤ 1.0
  few : turrets + settings.populationSize.toNat < 2 ^ 32

/-- A campaign with its turrets, that has spawned some of its population. -/
def Manned (profile : Profile) (settings : TrainerSettings) (turrets : Nat)
    (c : Campaign Arena ReplacementTrainer P) : Prop :=
  ∃ roll spawned, Mustered profile (Breeding settings spawned) roll (turrets + spawned) c

section Ticks

variable {turrets : Nat} {c : Campaign Arena ReplacementTrainer P}

theorem Provided.terms (h : Provided P profile settings turrets) (spawned : Nat) :
    Terms P profile (Breeding settings spawned) fun _ => False where
  report _ agent _ ht := report_kept (fun _ => False) (ht.report h.low h.high agent _)
  renew t agent ht := ht.of_eq rfl rfl rfl
  grow t ht hwanted := ht.addAgent hwanted
  start p agent observations v hv := by
    rw [h.fitting.start] at hv
    cases hv
  act p agent observations reward v hv := by
    rw [h.fitting.act] at hv
    cases hv

/-- Whatever is pending can be spawned. -/
theorem Provided.spawnMany (h : Provided P profile settings turrets) {roll : Roll} {spawned : Nat}
    (hc : Mustered profile (Breeding settings spawned) roll (turrets + spawned) c)
    (point : SpawnPoint) :
    let (wanted, trainer) := Trainer.takeSpawnRequests c.battle.trainer
    Ensures (spawnMany point wanted) { c with battle := { c.battle with trainer } }
      (fun _ => Manned profile settings turrets) fun _ _ => False := by
  have htaken := hc.trainer.takeSpawnRequests
  have hfew := h.few
  have hmost := htaken.spawned_le
  have hnewcomers := length_newcomers_le point c.battle.trainer.pending
    { c with battle := { c.battle with
        trainer := (Trainer.takeSpawnRequests c.battle.trainer).2 } }
  obtain ⟨roll', c', hmany, hmustered, -⟩ := (hc.trainer_eq htaken).spawnMany
    (fun t agent ht => ht.of_eq rfl rfl rfl) point c.battle.trainer.pending (by omega)
  rw [Nat.add_assoc] at hmustered
  exact ensures_of_ok hmany ⟨roll', spawned + c.battle.trainer.pending, hmustered⟩

/-- A tick of a manned campaign succeeds. -/
theorem Provided.tick (h : Provided P profile settings turrets)
    (hc : Manned profile settings turrets c) (number : UInt64) (point : SpawnPoint) :
    Ensures (tick number point) c (fun _ => Manned profile settings turrets) fun _ _ => False := by
  obtain ⟨roll, spawned, hmustered⟩ := hc
  have hturns := (hmustered.beginTick number).stepAgents (h.terms spawned) c.roster.keys
  have hturned : Ensures (stepAgents c.roster.keys)
      { c with battle := c.battle.beginTick number }
      (fun _ c' => Mustered profile (Breeding settings spawned) roll (turrets + spawned) c')
      fun _ _ => False := by
    apply hturns.mono
    · intro ended c' hdone
      exact hdone.1
    · intro e c' hfailed
      exact hfailed.1
  exact ensures_tick hturned fun ended c' hc' => h.spawnMany hc' point

theorem Provided.tickAll (h : Provided P profile settings turrets)
    (hc : Manned profile settings turrets c) (ticks : List (UInt64 × SpawnPoint)) :
    Ensures (tickAll ticks) c (fun _ => Manned profile settings turrets) fun _ _ => False := by
  induction ticks generalizing c with
  | nil => exact ensures_pure hc
  | cons next ticks ih =>
    refine (h.tick hc next.1 next.2).bind ?_
    intro summary c₁ hc₁
    refine (ih hc₁).bind ?_
    intro summaries c₂ hc₂
    exact ensures_pure hc₂

end Ticks

end Campaign

namespace Configuration

open Campaign

variable {P : Type} [Policy P]

/-- Turrets are placed as long as there are numbers for them. -/
theorem placeTurrets_ok {profile : Profile} {Q : ReplacementTrainer → Prop} {roll : Roll}
    {last : Nat} {c : Campaign Arena ReplacementTrainer P} (h : Mustered profile Q roll last c)
    (hrenew : ∀ t agent, Q t → Q (Trainer.nextOrganism t agent)) (poses : List Pose)
    (hfew : last + poses.length < 2 ^ 32) :
    Ensures (placeTurrets poses) c
      (fun _ c' => ∃ roll', Mustered profile Q roll' (last + poses.length) c')
      fun _ _ => False := by
  induction poses generalizing roll last c with
  | nil => exact ensures_pure ⟨roll, h⟩
  | cons pose poses ih =>
    rw [List.length_cons] at hfew ⊢
    obtain ⟨c₁, hspawn, h₁⟩ := h.spawn hrenew (by omega) .one .turret pose
    have hspawned : Ensures (spawn .one .turret pose) c (fun _ c' => c' = c₁) fun _ _ => False :=
      ensures_of_ok hspawn rfl
    refine hspawned.bind ?_
    rintro agent _ rfl
    have hrest := ih h₁ (by omega)
    rwa [Nat.add_assoc, Nat.add_comm 1] at hrest

theorem length_turretPoses (p : PopulationSettings) :
    p.turretPoses.length = p.turrets.toNat := by
  simp [PopulationSettings.turretPoses]

/-- A configuration is built, and its turrets are on the roll. -/
theorem exists_build {Q : ReplacementTrainer → Prop} (c : Configuration) (policy : P)
    (hfresh : Q (Trainer.setLifetime (.ofSeed c.trainer c.world.seed) c.profile.lifetime))
    (hrenew : ∀ t agent, Q t → Q (Trainer.nextOrganism t agent)) :
    ∃ built roll, c.build policy = .ok built ∧
      Mustered c.profile Q roll c.population.turrets.toNat built := by
  have hempty : Mustered c.profile Q .empty 0 (c.emptyCampaign policy) :=
    mustered_opening c.profile c.world (ReplacementTrainer.ofSeed c.trainer c.world.seed)
      c.world.seed policy hfresh
  have hlength := length_turretPoses c.population
  have hnumber := c.population.turrets.toNat_lt
  obtain ⟨⟨⟩, built, hplaced, roll, hmustered⟩ :=
    (placeTurrets_ok hempty hrenew c.population.turretPoses (by omega)).exists_ok
  rw [hlength, Nat.zero_add] at hmustered
  refine ⟨built, roll, ?_, hmustered⟩
  unfold build
  rw [hplaced]

/-- With a policy that fits, a valid configuration is built and all its ticks succeed. -/
theorem build_ticks {c : Configuration} (hvalid : c.validate = .ok ())
    (hfew : c.population.turrets.toNat + c.trainer.populationSize.toNat ≤ 2 ^ 32 - 1)
    (hfitting : Fitting P c.profile) (policy : P) (ticks : List (UInt64 × SpawnPoint)) :
    ∃ built summaries left, c.build policy = .ok built ∧
      tickAll ticks built = .ok summaries left := by
  obtain ⟨-, hlow, hhigh⟩ := of_validate hvalid
  have hprovided : Provided P c.profile c.trainer c.population.turrets.toNat :=
    ⟨hfitting, hlow, hhigh, by omega⟩
  obtain ⟨built, roll, hbuilt, hmustered⟩ := c.exists_build policy
    (ReplacementTrainer.breeding_ofSeed _ _ _) fun t agent ht => ht.of_eq rfl rfl rfl
  have hmanned : Manned c.profile c.trainer c.population.turrets.toNat built :=
    ⟨roll, 0, hmustered⟩
  obtain ⟨summaries, left, hticks, -⟩ := (hprovided.tickAll hmanned ticks).exists_ok
  exact ⟨built, summaries, left, hbuilt, hticks⟩

/-- No campaign of a valid configuration ever fails, whether its agents wander or hold still. -/
theorem validate_sufficient (c : Configuration) (hvalid : c.validate = .ok ())
    (hfew : c.population.turrets.toNat + c.trainer.populationSize.toNat ≤ 2 ^ 32 - 1)
    (ticks : List (UInt64 × SpawnPoint)) :
    (∀ seed, ∃ built summaries left,
      c.build (WanderPolicy.ofSeed seed c.profile.sensors.wallRays.length) = .ok built ∧
        tickAll ticks built = .ok summaries left) ∧
    ∃ built summaries left, c.build ({} : HoldPolicy) = .ok built ∧
      tickAll ticks built = .ok summaries left := by
  obtain ⟨hsteerable, -, -⟩ := of_validate hvalid
  constructor
  · intro seed
    exact build_ticks hvalid hfew (fitting_wander hsteerable) _ ticks
  · exact build_ticks hvalid hfew (fitting_hold hsteerable) _ ticks

/-- Turns of any finite size, so that the span of the turns is infinite. -/
def giddy : Configuration := { profile := { maxTurn := Binary64.maxFinite } }

theorem validate_sufficient_giddy :
    giddy.validate = .ok () ∧ ∃ built summaries left, giddy.build giddy.wanderer = .ok built ∧
      tickAll [(0, giddy.spawnPoint), (1, giddy.spawnPoint)] built = .ok summaries left := by
  have hvalid : giddy.validate = .ok () := by decide +kernel
  have hfew : giddy.population.turrets.toNat + giddy.trainer.populationSize.toNat ≤ 2 ^ 32 - 1 := by
    decide
  exact ⟨hvalid, (validate_sufficient giddy hvalid hfew _).1 giddy.world.seed⟩

end Configuration

end FlagCombat
