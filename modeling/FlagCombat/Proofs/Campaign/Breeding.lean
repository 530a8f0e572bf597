import FlagCombat.Battle.Replacement
import FlagCombat.Proofs.Battle.Replacement
import FlagCombat.Proofs.Binary64.Order

/-!
The agents that a replacement trainer has asked for. They are never more than the population, and
all of them have been spawned but for those that are pending. Its reports never fail if the exploit
probability is one.
-/

namespace FlagCombat

/-- An event of a probability can be drawn. -/
theorem Generator.chance_ok {p : Float} (hlow : 0.0 ≤ p) (hhigh : p ≤ 1.0) (g : Generator) :
    ∃ event g', g.chance p = .ok (event, g') := by
  unfold chance
  split
  · exact ⟨true, g, rfl⟩
  · rename_i hone
    have hlt : p < 1.0 := (Binary64.beq_or_lt_of_le hhigh).resolve_left hone
    rw [if_pos ⟨hlow, hlt⟩]
    exact ⟨_, _, rfl⟩

namespace ReplacementTrainer

/-- A trainer of given settings, of whose agents `spawned` have been spawned. -/
structure Breeding (settings : TrainerSettings) (spawned : Nat) (t : ReplacementTrainer) :
    Prop where
  settings_eq : t.settings = settings
  added_eq : t.added = spawned + t.pending
  added_le : t.added ≤ settings.populationSize.toNat

variable {settings : TrainerSettings} {spawned : Nat} {t t' : ReplacementTrainer}

/-- Another trainer of the same settings and counts. -/
theorem Breeding.of_eq (h : Breeding settings spawned t) (hsettings : t'.settings = t.settings)
    (hadded : t'.added = t.added) (hpending : t'.pending = t.pending) :
    Breeding settings spawned t' :=
  ⟨hsettings.trans h.settings_eq, by rw [hadded, hpending, h.added_eq], hadded ▸ h.added_le⟩

theorem breeding_ofSeed (settings : TrainerSettings) (seed lifetime : UInt64) :
    Breeding settings 0 (Trainer.setLifetime (ofSeed settings seed) lifetime) :=
  ⟨rfl, rfl, Nat.zero_le _⟩

theorem Breeding.addAgent (h : Breeding settings spawned t) (hwanted : 0 < Trainer.wanted t) :
    Breeding settings spawned (Trainer.addAgent t) := by
  change 0 < t.settings.populationSize.toNat - t.added at hwanted
  rw [h.settings_eq] at hwanted
  refine ⟨h.settings_eq, ?_, ?_⟩
  · show t.added + 1 = spawned + (t.pending + 1)
    rw [h.added_eq, Nat.add_assoc]
  · show t.added + 1 ≤ _
    omega

/-- What is pending is spawned. -/
theorem Breeding.takeSpawnRequests (h : Breeding settings spawned t) :
    Breeding settings (spawned + t.pending) (Trainer.takeSpawnRequests t).2 :=
  ⟨h.settings_eq, h.added_eq, h.added_le⟩

theorem Breeding.spawned_le (h : Breeding settings spawned t) :
    spawned ≤ settings.populationSize.toNat := by
  have hadded := h.added_eq
  have hmost := h.added_le
  omega

/-- A trainer after `calls` requests to grow: each is an agent more, until none is wanted. -/
structure GrownBy (calls : Nat) (t t' : ReplacementTrainer) : Prop where
  settings_eq : t'.settings = t.settings
  added_eq : t'.added = t.added + min (Trainer.wanted t) calls
  pending_eq : t'.pending = t.pending + min (Trainer.wanted t) calls

theorem wanted_eq (t : ReplacementTrainer) :
    Trainer.wanted t = t.settings.populationSize.toNat - t.added := rfl

theorem grownBy_zero (hsettings : t'.settings = t.settings) (hadded : t'.added = t.added)
    (hpending : t'.pending = t.pending) : GrownBy 0 t t' :=
  ⟨hsettings, by omega, by omega⟩

theorem GrownBy.trans {t'' : ReplacementTrainer} {calls more : Nat} (h : GrownBy calls t t')
    (h' : GrownBy more t' t'') : GrownBy (calls + more) t t'' := by
  have hadded := h.added_eq
  have hadded' := h'.added_eq
  have hpending := h.pending_eq
  have hpending' := h'.pending_eq
  rw [wanted_eq] at hadded hpending
  rw [wanted_eq, h.settings_eq] at hadded' hpending'
  refine ⟨h'.settings_eq.trans h.settings_eq, ?_, ?_⟩
  · rw [wanted_eq]
    omega
  · rw [wanted_eq]
    omega

theorem grownBy_addAgent (hwanted : 0 < Trainer.wanted t) : GrownBy 1 t (Trainer.addAgent t) := by
  refine ⟨rfl, ?_, ?_⟩
  · show t.added + 1 = _
    omega
  · show t.pending + 1 = _
    omega

theorem grownBy_of_sated (calls : Nat) (hwanted : ¬0 < Trainer.wanted t) : GrownBy calls t t :=
  ⟨rfl, by omega, by omega⟩

/-- A trainer that grows has spawned no more than before. -/
theorem Breeding.of_grownBy {calls : Nat} (h : Breeding settings spawned t)
    (hgrown : GrownBy calls t t') : Breeding settings spawned t' := by
  have hwanted := wanted_eq t
  rw [h.settings_eq] at hwanted
  have hadded := h.added_eq
  have hmost := h.added_le
  have hadded' := hgrown.added_eq
  have hpending' := hgrown.pending_eq
  refine ⟨hgrown.settings_eq.trans h.settings_eq, ?_, ?_⟩
  · omega
  · omega

theorem withdrawOne_ok (h : t.withdrawOne = .ok t') : GrownBy 0 t t' := by
  unfold withdrawOne at h
  simp only [bind, Except.bind] at h
  split at h
  · cases h
  · split at h
    · cases h
      exact grownBy_zero rfl rfl rfl
    · cases h
      exact grownBy_zero rfl rfl rfl

/-- A report asks for no agents. -/
theorem report_ok {agent : AgentId} {fitness : List Binary64.Word}
    (h : t.report agent fitness = .ok t') : GrownBy 0 t t' := by
  have hscored (reports : UInt32) :
      GrownBy 0 t { t.keepScore agent (.sum fitness) with reports } := by
    rw [keepScore_eq]
    exact grownBy_zero rfl rfl rfl
  unfold report at h
  dsimp only at h
  split at h
  · exact (hscored 0).trans (withdrawOne_ok h)
  · cases h
    exact hscored _

theorem exists_withdrawOne (hlow : 0.0 ≤ t.settings.exploitProbability)
    (hhigh : t.settings.exploitProbability ≤ 1.0) : ∃ t', t.withdrawOne = .ok t' := by
  obtain ⟨exploit, g, hchance⟩ := Generator.chance_ok hlow hhigh t.generator
  unfold withdrawOne
  rw [hchance]
  simp only [bind, Except.bind]
  split <;> exact ⟨_, rfl⟩

theorem Breeding.report (h : Breeding settings spawned t)
    (hlow : 0.0 ≤ settings.exploitProbability) (hhigh : settings.exploitProbability ≤ 1.0)
    (agent : AgentId) (fitness : List Binary64.Word) :
    ∃ t', t.report agent fitness = .ok t' ∧ Breeding settings spawned t' := by
  have hreported : ∃ t', t.report agent fitness = .ok t' := by
    unfold ReplacementTrainer.report
    dsimp only
    split
    · apply exists_withdrawOne
      all_goals
        show _ ≤ _
        rw [keepScore_eq]
        rwa [h.settings_eq]
    · exact ⟨_, rfl⟩
  obtain ⟨t', ht'⟩ := hreported
  exact ⟨t', ht', h.of_grownBy (report_ok ht')⟩

end ReplacementTrainer

end FlagCombat
