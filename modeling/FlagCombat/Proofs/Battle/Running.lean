import FlagCombat.Proofs.Battle.Keeps
import FlagCombat.Proofs.Battle.Shot

/-!
Episodes that run. Only a check ends an episode, only a reset starts the next one, and a check of an
agent that holds its organism ends its episode for the steps or the damage.
-/

namespace FlagCombat

/-- While the organism is held, an episode of a mobile agent ends for the steps or the damage. -/
theorem Episode.check_of_held {p : Episode.Progress} (limits : Episode.Limits)
    (h : p.hasOrganism = true) :
    (Episode.check p limits).isSome = true ↔ p.group.isMobile = true ∧
      (limits.lifetime ≠ 0 ∧ limits.lifetime ≤ p.step ∨
        limits.hitPoints ≠ 0 ∧ limits.hitPoints ≤ p.totalDamage) := by
  unfold Episode.check
  cases p.group with
  | turret => simp [Group.isStationary, Group.isMobile]
  | agent =>
    simp only [Group.isStationary, Group.isMobile, h, Bool.false_eq_true, ↓reduceIte,
      Bool.not_true, true_and]
    by_cases hsteps : limits.lifetime ≠ 0 ∧ limits.lifetime ≤ p.step
    · simp [hsteps]
    · by_cases hdamage : limits.hitPoints ≠ 0 ∧ limits.hitPoints ≤ p.totalDamage
      · simp only [if_neg hsteps, if_pos hdamage]
        simp [hdamage]
      · simp only [if_neg hsteps, if_neg hdamage]
        simp [hsteps, hdamage]

/-- An episode ends for the steps if it is that of a mobile agent and has taken the lifetime. -/
theorem Episode.check_eq_stepBudget_iff (p : Episode.Progress) (limits : Episode.Limits) :
    Episode.check p limits = some .stepBudget ↔ p.group.isMobile = true ∧
      limits.lifetime ≠ 0 ∧ limits.lifetime ≤ p.step := by
  unfold Episode.check
  cases p.group with
  | turret => simp [Group.isStationary, Group.isMobile]
  | agent =>
    simp only [Group.isStationary, Group.isMobile, Bool.false_eq_true, ↓reduceIte, true_and]
    by_cases hsteps : limits.lifetime ≠ 0 ∧ limits.lifetime ≤ p.step
    · simp [hsteps]
    · rw [if_neg hsteps]
      simp only [hsteps, iff_false]
      split
      · simp
      · split <;> simp

theorem Episode.Status.isDone_advance_active (reason : Option Episode.Reason) :
    (Episode.Status.active.advance reason).isDone = reason.isSome := by
  cases reason <;> rfl

namespace Battle

variable {H T : Type}

/-- The episodes of some agents run. -/
def Running (p : AgentId → Prop) (b : Battle H T) : Prop :=
  ∀ agent c, p agent → b.combatants.get? agent = some c → c.status = .active

section Episodes

variable {p : AgentId → Prop} {b b' : Battle H T}

theorem Running.mono {q : AgentId → Prop} (h : Running p b) (hq : ∀ agent, q agent → p agent) :
    Running q b :=
  fun agent c hagent => h agent c (hq agent hagent)

theorem Running.of_keeps (h : Running p b) (hkept : Keeps Combatant.status b b') :
    Running p b' := by
  intro agent c hagent hc
  have hread := hkept.read agent
  rw [hc] at hread
  obtain ⟨d, hd, hstatus⟩ := Option.map_eq_some_iff.1 hread.symm
  rw [← hstatus]
  exact h agent d hagent hd

theorem Running.dismiss (h : Running p b) (gone : AgentId) : Running p (b.dismiss gone) := by
  intro agent c hagent hc
  simp only [Battle.dismiss, IdMap.get?_erase] at hc
  split at hc
  · cases hc
  · exact h agent c hagent hc

variable [Host H] {agent : Handle}

theorem Running.enroll (h : Running p b) (henroll : b.enroll agent = .ok b') : Running p b' := by
  rcases enroll_cases henroll with ⟨c, -, -, rfl⟩ | ⟨-, rfl⟩
  · exact h
  · intro other c hother hc
    simp only [Battle.enlist, IdMap.get?_insert] at hc
    split at hc
    · cases hc
      unfold newcomer
      cases Host.transform b.host agent.id <;> rfl
    · exact h other c hother hc

theorem Running.restart (h : Running (· ≠ agent.id) b) :
    Running (fun _ => True) (b.restart agent) := by
  have hreset : Running (fun _ => True) (b.modifyAgent agent.id Combatant.resetEpisode) := by
    rw [modifyAgent_eq]
    intro other c _ hc
    rw [IdMap.get?_modify] at hc
    split at hc
    · obtain ⟨d, -, rfl⟩ := Option.map_eq_some_iff.1 hc
      rfl
    · rename_i ho
      exact h other c ho hc
  exact hreset.of_keeps (keeps_restart (fun _ _ _ => rfl) b agent)

theorem trainer_enroll (henroll : b.enroll agent = .ok b') : b'.trainer = b.trainer := by
  rcases enroll_cases henroll with ⟨c, -, -, rfl⟩ | ⟨-, rfl⟩ <;> rfl

theorem Running.register {shapes : Interface} (h : Running p b)
    (hregister : b.register agent = .ok (shapes, b')) : Running p b' ∧ b'.trainer = b.trainer := by
  obtain ⟨e, henroll, heq⟩ := map_ok hregister
  cases heq
  have hrunning := h.enroll henroll
  have htrainer := trainer_enroll henroll
  exact ⟨hrunning, htrainer⟩

theorem Running.sense {values observations : List Float} (h : Running p b)
    (hsense : b.sense agent values = .ok (observations, b')) :
    Running p b' ∧ b'.trainer = b.trainer := by
  unfold Battle.sense at hsense
  split at hsense
  · cases hsense
  · obtain ⟨e, henroll, heq⟩ := map_ok hsense
    have hkept : Keeps Combatant.status e b' := by
      have hperceive := keeps_perceive (f := Combatant.status) e agent.id values
      rwa [heq] at hperceive
    exact ⟨(h.enroll henroll).of_keeps hkept, hkept.trainer.trans (trainer_enroll henroll)⟩

omit [Host H] in
theorem Running.removeAgent {gone : AgentId} {last : Combatant} (h : Running p b)
    (hremove : b.removeAgent gone = .ok (last, b')) : Running p b' ∧ b'.trainer = b.trainer := by
  unfold Battle.removeAgent at hremove
  split at hremove
  · cases hremove
  · cases hremove
    exact ⟨h.dismiss gone, rfl⟩

theorem trainer_restart (b : Battle H T) (agent : Handle) :
    (b.restart agent).trainer = b.trainer := by
  have hkept := keeps_restart (f := Combatant.status) (fun _ _ _ => rfl) b agent
  rw [hkept.trainer, modifyAgent_eq]

/-- A reset lets the episode of its agent run. -/
theorem Running.reset (h : Running (· ≠ agent.id) b) (hreset : b.reset agent = .ok b') :
    Running (fun _ => True) b' ∧ b'.trainer = b.trainer := by
  obtain ⟨e, henroll, rfl⟩ := map_ok hreset
  exact ⟨(h.enroll henroll).restart, (trainer_restart e agent).trans (trainer_enroll henroll)⟩

variable [Trainer T]

theorem Running.act (h : Running p b) (hc : b.combatants.contains agent.id = true)
    (action : List Float) : Running p (b.act agent action).2 := by
  by_cases hfirst : agent.step = 0 ∧ agent.group.isMobile
  · unfold Battle.act
    rw [if_pos hfirst]
    exact h.of_keeps (keeps_placeAtStart (fun _ _ _ => rfl) b agent.id)
  · intro other c hother hget
    rw [get?_act hfirst hc] at hget
    obtain ⟨d, hd, rfl⟩ := Option.map_eq_some_iff.1 hget
    rw [(effect_rest _ _ _ _ _).2]
    exact h other d hother hd

/-- All that a step does to the trainer is to ask for growth, unless it only places its agent. -/
theorem trainer_act_eq (hc : b.combatants.contains agent.id = true) (action : List Float) :
    (b.act agent action).2.trainer =
      if agent.step = 0 ∧ agent.group.isMobile then b.trainer else b.requestGrowth.trainer := by
  split
  · rename_i hfirst
    unfold Battle.act
    rw [if_pos hfirst]
    exact (keeps_placeAtStart (f := Combatant.status) (fun _ _ _ => rfl) b agent.id).trainer
  · rename_i hfirst
    obtain ⟨r, hr, -, -, -, htrainer⟩ := act_rest hfirst hc action
    rw [hr, (keeps_showPose (f := Combatant.status) r agent.id).trainer, htrainer]

/-- A step can ask the trainer for one more agent, and no more. -/
theorem trainer_act (hc : b.combatants.contains agent.id = true) (action : List Float) :
    (b.act agent action).2.trainer = b.trainer ∨
      (b.act agent action).2.trainer = Trainer.addAgent b.trainer := by
  rw [trainer_act_eq hc]
  split
  · exact .inl rfl
  · unfold requestGrowth
    split
    · exact .inr rfl
    · exact .inl rfl

/-- Only a step turns to the trainer. -/
theorem trainer_respond (b : Battle H T) {call : Call}
    (hstep : ∀ handle action, call ≠ .step handle action) :
    (b.respond call).2.trainer = b.trainer := by
  cases call with
  | step handle action => exact absurd rfl (hstep handle action)
  | reset handle => exact trainer_restart b handle
  | sense handle values => exact (keeps_perceive (f := Combatant.status) b handle.id values).trainer
  | isEpisodeOver handle =>
    exact (keeps_judge (f := Combatant.team) (fun _ _ => rfl) b handle).trainer
  | beginTick | register | removeAgent | cleanup => rfl

theorem Running.step {action reward : List Float} (h : Running p b)
    (hstep : b.step agent action = .ok (reward, b')) :
    Running p b' ∧ (b'.trainer = b.trainer ∨ b'.trainer = Trainer.addAgent b.trainer) := by
  unfold Battle.step at hstep
  split at hstep
  · cases hstep
  · obtain ⟨e, henroll, heq⟩ := map_ok hstep
    have hc := contains_of_enroll henroll
    have hact : b' = (e.act agent action).2 := by rw [heq]
    subst hact
    rw [← trainer_enroll henroll]
    exact ⟨(h.enroll henroll).act hc action, trainer_act hc action⟩

end Episodes

section Check

variable [Host H] [Trainer T] {p : AgentId → Prop} {b b' : Battle H T} {agent : Handle}
  {isOver : Bool}

/-- A check that finds a record, and what it makes of it. -/
theorem isEpisodeOver_cases (h : b.isEpisodeOver agent = .ok (isOver, b')) :
    ∃ e c, b.enroll agent = .ok e ∧ e.combatants.get? agent.id = some c ∧
      isOver = (e.checkedStatus agent c).isDone ∧
      b' = { e with
        combatants := e.combatants.insert agent.id { c with status := e.checkedStatus agent c } } := by
  obtain ⟨e, henroll, heq⟩ := map_ok h
  obtain ⟨c, hc⟩ := (IdMap.contains_eq_true_iff _).1 (contains_of_enroll henroll)
  simp only [judge, hc, Prod.mk.injEq] at heq
  exact ⟨e, c, henroll, hc, heq.1.symm, heq.2.symm⟩

theorem Running.check (h : Running p b) (hcheck : b.isEpisodeOver agent = .ok (isOver, b')) :
    Running (fun other => p other ∧ (other = agent.id → isOver = false)) b' := by
  obtain ⟨e, c, henroll, -, hover, rfl⟩ := isEpisodeOver_cases hcheck
  intro other d ⟨hother, hverdict⟩ hd
  simp only [IdMap.get?_insert] at hd
  split at hd
  · rename_i heq
    cases hd
    rw [hverdict heq] at hover
    dsimp only
    cases hstatus : e.checkedStatus agent c with
    | active => rfl
    | done reason => simp [hstatus, Episode.Status.isDone] at hover
  · exact (h.enroll henroll) other d hother hd

omit [Trainer T] in
theorem totalDamage_of_enroll {e : Battle H T} {c : Combatant} (henroll : b.enroll agent = .ok e)
    (hc : e.combatants.get? agent.id = some c) :
    c.totalDamage = ((b.combatants.get? agent.id).map Combatant.totalDamage).getD 0 := by
  rcases enroll_cases henroll with ⟨d, hd, -, rfl⟩ | ⟨hnone, rfl⟩
  · rw [hc]
    rfl
  · simp only [Battle.enlist, IdMap.get?_insert, ↓reduceIte, Option.some.injEq] at hc
    subst hc
    rw [hnone]
    unfold newcomer
    cases Host.transform b.host agent.id <;> rfl

/-- The episode of an agent that runs and holds its organism ends for the steps or the damage. -/
theorem Running.verdict (h : Running p b) (hagent : p agent.id)
    (hheld : Trainer.hasOrganism b.trainer agent.id = true)
    (hcheck : b.isEpisodeOver agent = .ok (isOver, b')) :
    isOver = true ↔ agent.group.isMobile = true ∧
      (b.profile.lifetime ≠ 0 ∧ b.profile.lifetime ≤ agent.step ∨
        b.profile.hitPoints ≠ 0 ∧ b.profile.hitPoints ≤
          ((b.combatants.get? agent.id).map Combatant.totalDamage).getD 0) := by
  obtain ⟨e, c, henroll, hc, rfl, rfl⟩ := isEpisodeOver_cases hcheck
  have hactive : c.status = .active := (h.enroll henroll) agent.id c hagent hc
  have hheld : Trainer.hasOrganism e.trainer agent.id = true := by
    rw [trainer_enroll henroll]
    exact hheld
  have hprofile : e.profile = b.profile := (enroll_changes henroll).profile
  rw [← totalDamage_of_enroll henroll hc, ← hprofile]
  unfold checkedStatus
  rw [hactive, Episode.Status.isDone_advance_active]
  exact Episode.check_of_held _ hheld

end Check

end Battle

end FlagCombat
