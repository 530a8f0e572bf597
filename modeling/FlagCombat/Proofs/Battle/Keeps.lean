import FlagCombat.Proofs.Battle.Parts

/-!
Operations that leave a part of every record alone. Whatever reads neither poses nor animation reads
the same before and after an agent is placed, shown or told of its surroundings, and as many shots
have landed.
-/

namespace FlagCombat

namespace Battle

variable {H T α : Type} {f : Combatant → α}

/-- The records of the second battle read as those of the first one, with the same trainer and the
same hits. -/
structure Keeps (f : Combatant → α) (b b' : Battle H T) : Prop where
  read : ∀ agent, (b'.combatants.get? agent).map f = (b.combatants.get? agent).map f
  trainer : b'.trainer = b.trainer
  hits : b'.hits = b.hits

theorem Keeps.refl (b : Battle H T) : Keeps f b b := ⟨fun _ => rfl, rfl, rfl⟩

theorem Keeps.trans {b b' b'' : Battle H T} (h : Keeps f b b') (h' : Keeps f b' b'') :
    Keeps f b b'' :=
  ⟨fun agent => (h'.read agent).trans (h.read agent), h'.trainer.trans h.trainer,
    h'.hits.trans h.hits⟩

theorem keeps_modifyAgent (b : Battle H T) (agent : AgentId) {g : Combatant → Combatant}
    (hg : ∀ c, f (g c) = f c) : Keeps f b (b.modifyAgent agent g) := by
  rw [modifyAgent_eq]
  refine ⟨fun other => ?_, rfl, rfl⟩
  rw [IdMap.get?_modify]
  split
  · simp [Function.comp_def, hg]
  · rfl

theorem keeps_insert {b : Battle H T} {agent : AgentId} {c c' : Combatant}
    (h : b.combatants.get? agent = some c) (hc : f c' = f c) :
    Keeps f b { b with combatants := b.combatants.insert agent c' } := by
  refine ⟨fun other => ?_, rfl, rfl⟩
  rw [IdMap.get?_insert]
  split
  · rename_i heq
    rw [heq, h, Option.map_some, Option.map_some, hc]
  · rfl

theorem keeps_freezePose (b : Battle H T) (agent : AgentId) : Keeps f b (b.freezePose agent) := by
  unfold freezePose
  split <;> exact ⟨fun _ => rfl, rfl, rfl⟩

theorem keeps_perceive (b : Battle H T) (agent : AgentId) (observations : List Float) :
    Keeps f b (b.perceive agent observations).2 := by
  rw [perceive_snd, target_snd]
  exact ⟨fun _ => rfl, rfl, rfl⟩

theorem keeps_judge [Trainer T] (hf : ∀ c status, f { c with status } = f c) (b : Battle H T)
    (agent : Handle) : Keeps f b (b.judge agent).2 := by
  unfold judge
  split
  · exact .refl b
  · rename_i c hc
    exact keeps_insert hc (hf c _)

section Host

variable [Host H]

theorem keeps_showPose (b : Battle H T) (agent : AgentId) : Keeps f b (b.showPose agent) := by
  unfold showPose
  split <;> exact ⟨fun _ => rfl, rfl, rfl⟩

variable (hf : ∀ c position heading, f (c.resetPose position heading) = f c)

include hf

theorem keeps_placeAtStart (b : Battle H T) (agent : AgentId) :
    Keeps f b (b.placeAtStart agent) := by
  have hdraw : Keeps f b { b with generator := (b.generator.below32 360).2 } :=
    ⟨fun _ => rfl, rfl, rfl⟩
  have hpose := hdraw.trans (keeps_modifyAgent _ agent fun c =>
    hf c ((Host.transform b.host agent).getD .origin).position
      (Float.ofNat (b.generator.below32 360).1))
  exact (hpose.trans (keeps_showPose _ agent)).trans (keeps_freezePose _ agent)

/-- Once a reset forgot the last episode it only places its agent. -/
theorem keeps_restart (b : Battle H T) (agent : Handle) :
    Keeps f (b.modifyAgent agent.id Combatant.resetEpisode) (b.restart agent) := by
  unfold restart
  generalize b.modifyAgent agent.id Combatant.resetEpisode = r
  dsimp only
  split
  · split
    · exact .refl r
    · rename_i c hc
      have hdraw : Keeps f r { r with
          generator := (c.randomize r.profile.spawn r.profile.spawnJitter r.generator).2 } :=
        ⟨fun _ => rfl, rfl, rfl⟩
      have hrandomize : f (c.randomize r.profile.spawn r.profile.spawnJitter r.generator).1 = f c :=
        hf c _ _
      have hmoved := hdraw.trans (keeps_insert hc hrandomize)
      exact (hmoved.trans (keeps_showPose _ agent.id)).trans (keeps_freezePose _ agent.id)
  · exact .refl r

end Host

end Battle

end FlagCombat
