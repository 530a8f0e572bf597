import FlagCombat.Proofs.Battle.Keeps
import FlagCombat.Proofs.Battle.Shot

/-!
What a call does to others than its agent. It can shoot one of them, which adds to the damage that
waits; nothing else in their records changes, and neither do their frozen poses.
-/

namespace FlagCombat

/-- A record but for the damage that waits. -/
def Combatant.bare (c : Combatant) : Combatant := { c with pendingDamage := 0 }

namespace Battle

variable {H T : Type}

/-- The second battle says the same of all others than an agent. -/
structure Beside (agent : AgentId) (b b' : Battle H T) : Prop where
  record : ∀ other, other ≠ agent →
    (b'.combatants.get? other).map Combatant.bare = (b.combatants.get? other).map Combatant.bare
  frozen : ∀ other, other ≠ agent →
    b'.snapshot.poses.get? other = b.snapshot.poses.get? other

variable {agent : AgentId} {b b' b'' : Battle H T}

theorem Beside.refl (b : Battle H T) : Beside agent b b := ⟨fun _ _ => rfl, fun _ _ => rfl⟩

theorem Beside.trans (h : Beside agent b b') (h' : Beside agent b' b'') : Beside agent b b'' :=
  ⟨fun other hother => (h'.record other hother).trans (h.record other hother),
    fun other hother => (h'.frozen other hother).trans (h.frozen other hother)⟩

/-- What is read off the records of others is the same, if waiting damage does not matter to it. -/
theorem Beside.read {α : Type} (h : Beside agent b b') {f : Combatant → α}
    (hf : ∀ c, f c.bare = f c) {other : AgentId} (hother : other ≠ agent) :
    (b'.combatants.get? other).map f = (b.combatants.get? other).map f := by
  have hbare := congrArg (Option.map f) (h.record other hother)
  simpa [Option.map_map, Function.comp_def, hf] using hbare

theorem Beside.contains (h : Beside agent b b') {other : AgentId} (hother : other ≠ agent) :
    b'.combatants.contains other = b.combatants.contains other := by
  have hsome := congrArg Option.isSome (h.record other hother)
  simpa [Option.isSome_map, IdMap.contains] using hsome

theorem beside_modifyAgent (b : Battle H T) (agent : AgentId) (f : Combatant → Combatant) :
    Beside agent b (b.modifyAgent agent f) := by
  rw [modifyAgent_eq]
  refine ⟨?_, fun _ _ => rfl⟩
  intro other hother
  simp [hother]

theorem beside_insert (b : Battle H T) (agent : AgentId) (c : Combatant) (generator : Generator) :
    Beside agent b { b with generator, combatants := b.combatants.insert agent c } := by
  refine ⟨?_, fun _ _ => rfl⟩
  intro other hother
  simp [hother]

theorem beside_freezePose (b : Battle H T) (agent : AgentId) :
    Beside agent b (b.freezePose agent) := by
  unfold freezePose
  split
  · exact .refl b
  · refine ⟨fun _ _ => rfl, ?_⟩
    intro other hother
    simp [Snapshot.place, Snapshot.capture, hother]

theorem beside_target (b : Battle H T) (agent : AgentId) : Beside agent b (b.target agent).2 := by
  rw [target_snd]
  refine ⟨fun _ _ => rfl, ?_⟩
  intro other hother
  dsimp only
  split
  · rw [Snapshot.poses_target]
  · rfl

theorem beside_judge [Trainer T] (b : Battle H T) (handle : Handle) :
    Beside handle.id b (b.judge handle).2 := by
  unfold judge
  split
  · exact .refl _
  · exact beside_insert b handle.id _ b.generator

section Host

variable [Host H]

theorem beside_showPose (b : Battle H T) (agent : AgentId) : Beside agent b (b.showPose agent) := by
  unfold showPose
  split <;> exact ⟨fun _ _ => rfl, fun _ _ => rfl⟩

theorem beside_enroll {handle : Handle} (h : b.enroll handle = .ok b') :
    Beside handle.id b b' := by
  rcases enroll_cases h with ⟨c, -, -, rfl⟩ | ⟨-, rfl⟩
  · exact .refl _
  · constructor
    · intro other hother
      simp [enlist, hother]
    · intro other hother
      simp [enlist, Snapshot.place, Snapshot.capture, hother]

theorem beside_placeAtStart (b : Battle H T) (agent : AgentId) :
    Beside agent b (b.placeAtStart agent) := by
  have hdraw : Beside agent b { b with generator := (b.generator.below32 360).2 } :=
    ⟨fun _ _ => rfl, fun _ _ => rfl⟩
  have hplaced := hdraw.trans (beside_modifyAgent _ agent fun c =>
    c.resetPose ((Host.transform b.host agent).getD .origin).position
      (Float.ofNat (b.generator.below32 360).1))
  exact (hplaced.trans (beside_showPose _ agent)).trans (beside_freezePose _ agent)

theorem beside_restart (b : Battle H T) (handle : Handle) :
    Beside handle.id b (b.restart handle) := by
  have hforgotten := beside_modifyAgent b handle.id Combatant.resetEpisode
  unfold restart
  generalize b.modifyAgent handle.id Combatant.resetEpisode = r at hforgotten ⊢
  dsimp only
  split
  · split
    · exact hforgotten
    · rename_i c hc
      have hmoved := hforgotten.trans (beside_insert r handle.id
        (c.randomize r.profile.spawn r.profile.spawnJitter r.generator).1
        (c.randomize r.profile.spawn r.profile.spawnJitter r.generator).2)
      exact (hmoved.trans (beside_showPose _ handle.id)).trans (beside_freezePose _ handle.id)
  · exact hforgotten

variable [Trainer T] {handle : Handle}

/-- A step shoots at most one other, and leaves the rest of its record. -/
theorem beside_act (hc : b.combatants.contains handle.id = true) (action : List Float) :
    Beside handle.id b (b.act handle action).2 := by
  by_cases hfirst : handle.step = 0 ∧ handle.group.isMobile
  · unfold act
    rw [if_pos hfirst]
    exact beside_placeAtStart b handle.id
  · constructor
    · intro other hother
      rw [get?_act hfirst hc, Option.map_map]
      congr 1
      funext c
      unfold Function.comp effect
      simp only [if_neg hother]
      split <;> rfl
    · intro other hother
      obtain ⟨r, hr, -, hposes, -, -⟩ := act_rest hfirst hc action
      rw [hr, (beside_showPose r handle.id).frozen other hother, hposes]

theorem beside_respond {call : Call} (hh : call.handle? = some handle)
    (hc : b.combatants.contains handle.id = true) : Beside handle.id b (b.respond call).2 := by
  cases call with
  | register a => exact ⟨fun _ _ => rfl, fun _ _ => rfl⟩
  | reset a =>
    cases hh
    exact beside_restart b handle
  | step a action =>
    cases hh
    exact beside_act hc action
  | sense a values =>
    cases hh
    show Beside handle.id b (b.perceive handle.id values).2
    rw [perceive_snd]
    exact beside_target b handle.id
  | isEpisodeOver a =>
    cases hh
    exact beside_judge b handle
  | beginTick | removeAgent | cleanup => cases hh

/-- A call that succeeds changes nothing beside its agent but waiting damage. -/
theorem beside_attempt {call : Call} {reply : Reply} (hh : call.handle? = some handle)
    (h : b.attempt call = .ok (reply, b')) : Beside handle.id b b' := by
  rw [attempt_of_handle b hh] at h
  cases hrefusal : b.refusal? call with
  | some e =>
    rw [hrefusal] at h
    cases h
  | none =>
    rw [hrefusal] at h
    obtain ⟨e, henroll, heq⟩ := map_ok h
    have hresponse := beside_respond hh (contains_of_enroll henroll)
    rw [heq] at hresponse
    exact (beside_enroll henroll).trans hresponse

end Host

end Battle

end FlagCombat
