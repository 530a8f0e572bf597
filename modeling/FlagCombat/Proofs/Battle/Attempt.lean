import FlagCombat.Proofs.Battle.Change

/-!
What a call of a battle does when it succeeds. A call for a handle is refused for its own data, or
else looks for the record of its agent and responds; every call that succeeds is a chain of
elementary changes.
-/

namespace FlagCombat

/-- The handle of a call that needs a record of its agent. -/
def Call.handle? : Call → Option Handle
  | .register agent | .reset agent | .step agent _ | .sense agent _ | .isEpisodeOver agent =>
    some agent
  | .beginTick _ | .removeAgent _ | .cleanup => none

namespace Battle

variable {H T : Type} [Host H] [Trainer T]

omit [Host H] [Trainer T] in
/-- Why a call is refused before the record of its agent is looked at. -/
def refusal? (b : Battle H T) : Call → Option BattleError
  | .step agent action =>
    (b.profile.interface.actions.violation? action).map (.invalidAction agent.id ·)
  | .sense agent values =>
    if values.length < Observation.tailLength then
      some (.observationTooShort agent.id Observation.tailLength values.length)
    else none
  | _ => none

omit [Host H] [Trainer T] in
theorem long_of_refusal {b : Battle H T} {agent : Handle} {values : List Float}
    (hrefusal : b.refusal? (.sense agent values) = none) :
    ¬values.length < Observation.tailLength := by
  intro hshort
  simp [refusal?, hshort] at hrefusal

/-- What a call for a handle does once the agent has a record. -/
def respond (b : Battle H T) : Call → Reply × Battle H T
  | .register agent => (.shapes b.profile.interface, b.equip agent)
  | .reset agent => (.verdict true, b.restart agent)
  | .step agent action => (.vector (b.act agent action).1, (b.act agent action).2)
  | .sense agent values =>
    (.vector (b.perceive agent.id values).1, (b.perceive agent.id values).2)
  | .isEpisodeOver agent => (.verdict (b.judge agent).1, (b.judge agent).2)
  | _ => (.done, b)

/-- A call for a handle is refused, or else it looks for a record and responds. -/
theorem attempt_of_handle (b : Battle H T) {call : Call} {agent : Handle}
    (h : call.handle? = some agent) :
    b.attempt call = match b.refusal? call with
      | some e => .error e
      | none => (b.enroll agent).map (·.respond call) := by
  cases call with
  | register a | reset a | isEpisodeOver a =>
    cases h
    simp only [attempt, register, reset, isEpisodeOver, refusal?]
    cases b.enroll agent <;> rfl
  | step a action =>
    cases h
    simp only [attempt, step, refusal?]
    cases b.profile.interface.actions.violation? action with
    | some violation => rfl
    | none => cases b.enroll agent <;> rfl
  | sense a values =>
    cases h
    simp only [attempt, sense, refusal?]
    split
    · rfl
    · cases b.enroll agent <;> rfl
  | beginTick | removeAgent | cleanup => cases h

/-- What a call that succeeds can have done. -/
inductive Success (b : Battle H T) : Call → Reply → Battle H T → Prop
  | handle {call : Call} {agent : Handle} {b₁ : Battle H T} (h : call.handle? = some agent)
      (hrefusal : b.refusal? call = none) (henroll : b.enroll agent = .ok b₁) :
      Success b call (b₁.respond call).1 (b₁.respond call).2
  | beginTick (tick : UInt64) : Success b (.beginTick tick) .done (b.beginTick tick)
  | removeAgent {agent : AgentId} {c : Combatant} (h : b.combatants.get? agent = some c) :
      Success b (.removeAgent agent) (.removed c) (b.dismiss agent)
  | cleanup : Success b .cleanup (.verdict true) b.cleanup

theorem success_of_handle {b b' : Battle H T} {call : Call} {agent : Handle} {reply : Reply}
    (hh : call.handle? = some agent) (h : b.attempt call = .ok (reply, b')) :
    b.Success call reply b' := by
  rw [attempt_of_handle b hh] at h
  cases hr : b.refusal? call with
  | some e => simp [hr] at h
  | none =>
    rw [hr] at h
    obtain ⟨b₁, he, heq⟩ := map_ok h
    have hs := Success.handle hh hr he
    rwa [heq] at hs

theorem success_of_attempt {b b' : Battle H T} {call : Call} {reply : Reply}
    (h : b.attempt call = .ok (reply, b')) : b.Success call reply b' := by
  cases call with
  | beginTick tick =>
    cases h
    exact .beginTick tick
  | cleanup =>
    cases h
    exact .cleanup
  | removeAgent agent =>
    obtain ⟨⟨last, b₁⟩, hremove, heq⟩ := map_ok h
    cases heq
    unfold removeAgent at hremove
    split at hremove
    · cases hremove
    · rename_i hc
      cases hremove
      exact .removeAgent hc
  | register a | reset a | isEpisodeOver a => exact success_of_handle rfl h
  | step a action => exact success_of_handle rfl h
  | sense a values => exact success_of_handle rfl h

theorem respond_changes (b : Battle H T) (call : Call) : Changes b (b.respond call).2 := by
  cases call with
  | register agent => exact .single (.surroundings b _ b.trainer b.generator b.hits)
  | reset agent => exact restart_changes b agent
  | step agent action => exact act_changes b agent action
  | sense agent values => exact perceive_changes b agent.id values
  | isEpisodeOver agent => exact judge_changes b agent
  | beginTick | removeAgent | cleanup => exact .refl

/-- A call that succeeds is a chain of elementary changes. -/
theorem Success.changes {b b' : Battle H T} {call : Call} {reply : Reply}
    (h : b.Success call reply b') : Changes b b' := by
  cases h with
  | handle hh hrefusal henroll => exact (enroll_changes henroll).trans (respond_changes _ call)
  | beginTick tick => exact .single (.capture b tick)
  | removeAgent hc => exact .single (.dismiss b _ _ hc)
  | cleanup => exact .single (.surroundings b _ b.trainer b.generator b.hits)

/-- A call, whether it succeeds or fails, is a chain of elementary changes. -/
theorem perform_changes (b : Battle H T) (call : Call) : Changes b (b.perform call).2 := by
  unfold perform
  cases h : b.attempt call with
  | error e => exact .refl
  | ok r => exact (success_of_attempt h).changes

end Battle

end FlagCombat
