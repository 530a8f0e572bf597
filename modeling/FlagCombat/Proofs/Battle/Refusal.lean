import FlagCombat.Proofs.Misfit
import FlagCombat.Proofs.Battle.InPlace

/-!
When a call of a battle fails, said of the call and of the battle before it: a vector that does not
fit, a handle on the other team than the record of its agent, or the removal of an agent without a
record. No other call misses a record, and a call that fails has changed nothing.
-/

namespace FlagCombat

namespace Battle

variable {H T : Type}

/-- The vector that a call brings, if any, is one that the battle takes. -/
def Admits (b : Battle H T) : Call → Prop
  | .step _ action => ∀ v, ¬b.profile.interface.actions.Misfit action v
  | .sense _ values => 3 ≤ values.length
  | .beginTick _ | .register _ | .reset _ | .isEpisodeOver _ | .removeAgent _ | .cleanup => True

/-- Why a call fails. -/
inductive Refused (b : Battle H T) : Call → BattleError → Prop
  | invalidAction {agent : Handle} {action : List Float} {v : Violation}
      (h : b.profile.interface.actions.Misfit action v) :
      Refused b (.step agent action) (.invalidAction agent.id v)
  | observationTooShort {agent : Handle} {values : List Float} (h : values.length < 3) :
      Refused b (.sense agent values) (.observationTooShort agent.id 3 values.length)
  | teamMismatch {call : Call} {agent : Handle} {c : Combatant} (hh : call.handle? = some agent)
      (hadmits : b.Admits call) (hc : b.combatants.get? agent.id = some c)
      (hteam : c.team ≠ agent.team) :
      Refused b call (.teamMismatch agent.id c.team agent.team)
  | unknownAgent {agent : AgentId} (h : b.combatants.get? agent = none) :
      Refused b (.removeAgent agent) (.unknownAgent agent)

theorem admits_iff_refusal? (b : Battle H T) (call : Call) :
    b.Admits call ↔ b.refusal? call = none := by
  cases call with
  | step agent action =>
    unfold Admits refusal?
    rw [Option.map_eq_none_iff, Option.eq_none_iff_forall_ne_some]
    simp only [ne_eq, Shape.violation?_eq_some_iff]
  | sense agent values =>
    unfold Admits refusal?
    have htail : Observation.tailLength = 3 := rfl
    by_cases hshort : values.length < 3
    · simp [htail, hshort]
    · simp [htail, hshort]
      omega
  | beginTick | register | reset | isEpisodeOver | removeAgent | cleanup =>
    simp [Admits, refusal?]

theorem refusal?_eq_some_iff {b : Battle H T} {call : Call} {e : BattleError} :
    b.refusal? call = some e ↔
      (∃ agent action v, call = .step agent action ∧
        b.profile.interface.actions.Misfit action v ∧ e = .invalidAction agent.id v) ∨
      ∃ agent values, call = .sense agent values ∧ values.length < 3 ∧
        e = .observationTooShort agent.id 3 values.length := by
  cases call with
  | step agent action =>
    unfold refusal?
    simp only [Option.map_eq_some_iff, Shape.violation?_eq_some_iff]
    constructor
    · rintro ⟨v, hv, rfl⟩
      exact .inl ⟨agent, action, v, rfl, hv, rfl⟩
    · rintro (⟨_, _, v, ⟨⟩, hv, rfl⟩ | ⟨_, _, ⟨⟩, _⟩)
      exact ⟨v, hv, rfl⟩
  | sense agent values =>
    unfold refusal?
    have htail : Observation.tailLength = 3 := rfl
    constructor
    · intro h
      dsimp only at h
      split at h
      · rename_i hshort
        cases h
        exact .inr ⟨agent, values, rfl, hshort, rfl⟩
      · cases h
    · rintro (⟨_, _, _, ⟨⟩, _⟩ | ⟨_, _, ⟨⟩, hshort, rfl⟩)
      exact if_pos hshort
  | beginTick | register | reset | isEpisodeOver | removeAgent | cleanup => simp [refusal?]

/-- The reasons in the order in which a call meets them. -/
theorem refused_iff {b : Battle H T} {call : Call} {e : BattleError} :
    b.Refused call e ↔ b.refusal? call = some e ∨
      (b.refusal? call = none ∧ ∃ agent c, call.handle? = some agent ∧
        b.combatants.get? agent.id = some c ∧ c.team ≠ agent.team ∧
        e = .teamMismatch agent.id c.team agent.team) ∨
      ∃ agent, call = .removeAgent agent ∧ b.combatants.get? agent = none ∧
        e = .unknownAgent agent := by
  constructor
  · intro h
    cases h with
    | invalidAction hv =>
      exact .inl (refusal?_eq_some_iff.2 (.inl ⟨_, _, _, rfl, hv, rfl⟩))
    | observationTooShort hshort =>
      exact .inl (refusal?_eq_some_iff.2 (.inr ⟨_, _, rfl, hshort, rfl⟩))
    | teamMismatch hh hadmits hc hteam =>
      exact .inr (.inl ⟨(b.admits_iff_refusal? call).1 hadmits, _, _, hh, hc, hteam, rfl⟩)
    | unknownAgent hnone => exact .inr (.inr ⟨_, rfl, hnone, rfl⟩)
  · rintro (h | ⟨hnone, agent, c, hh, hc, hteam, rfl⟩ | ⟨agent, rfl, hnone, rfl⟩)
    · obtain ⟨_, _, v, rfl, hv, rfl⟩ | ⟨_, _, rfl, hshort, rfl⟩ := refusal?_eq_some_iff.1 h
      · exact .invalidAction hv
      · exact .observationTooShort hshort
    · exact .teamMismatch hh ((b.admits_iff_refusal? call).2 hnone) hc hteam
    · exact .unknownAgent hnone

variable [Host H]

theorem enroll_eq_error_iff {b : Battle H T} {agent : Handle} {e : BattleError} :
    b.enroll agent = .error e ↔ ∃ c, b.combatants.get? agent.id = some c ∧ c.team ≠ agent.team ∧
      e = .teamMismatch agent.id c.team agent.team := by
  unfold enroll
  cases hc : b.combatants.get? agent.id with
  | none => simp
  | some c =>
    by_cases hteam : c.team = agent.team
    · simp [hteam]
    · simp [hteam]
      exact eq_comm

variable [Trainer T]

theorem attempt_eq_error_of_handle {b : Battle H T} {call : Call} {agent : Handle} {e : BattleError}
    (hh : call.handle? = some agent) : b.attempt call = .error e ↔ b.Refused call e := by
  have hremove : ¬∃ agent, call = .removeAgent agent ∧ b.combatants.get? agent = none ∧
      e = .unknownAgent agent := by
    rintro ⟨_, rfl, -⟩
    cases hh
  rw [attempt_of_handle b hh, refused_iff]
  cases hrefusal : b.refusal? call with
  | some e' => simp [hremove]
  | none =>
    have herror : (b.enroll agent).map (·.respond call) = .error e ↔ b.enroll agent = .error e := by
      cases b.enroll agent <;> simp [Except.map]
    simp only [herror, enroll_eq_error_iff, hh, hremove]
    simp

/-- A call fails exactly when it is refused, for the reason it is refused for. -/
theorem attempt_eq_error_iff {b : Battle H T} {call : Call} {e : BattleError} :
    b.attempt call = .error e ↔ b.Refused call e := by
  cases call with
  | beginTick tick | cleanup => simp [refused_iff, attempt, refusal?, Call.handle?]
  | removeAgent agent =>
    rw [refused_iff]
    unfold attempt removeAgent
    cases hc : b.combatants.get? agent with
    | none => simp [refusal?, Call.handle?, Except.map, hc, eq_comm]
    | some c => simp [refusal?, Call.handle?, Except.map, hc]
  | register agent | reset agent | isEpisodeOver agent => exact attempt_eq_error_of_handle rfl
  | step agent action => exact attempt_eq_error_of_handle rfl
  | sense agent values => exact attempt_eq_error_of_handle rfl

/-- A call carried out where the battle stands fails exactly when it is refused, for that reason, and
then the whole battle is what it was; this is how battles perform calls. Only the removal of an agent
without a record misses a record. -/
theorem failures_exact (b : Battle H T) (call : Call) :
    (∀ e b', Deed.ofCall call b = .error e b' ↔ b.Refused call e ∧ b' = b) ∧
    (b.perform call = match Deed.ofCall call b with
      | .ok reply b' => (.ok reply, b')
      | .error e b' => (.error e, b')) ∧
    ∀ agent, b.Refused call (.unknownAgent agent) ↔
      call = .removeAgent agent ∧ b.combatants.get? agent = none := by
  refine ⟨?exact, ?performed, ?unknown⟩
  case exact =>
    intro e b'
    rw [Deed.ofCall_run, ← attempt_eq_error_iff]
    cases b.attempt call with
    | ok r => simp [Deed.carriedOut]
    | error e' => simp [Deed.carriedOut, eq_comm]
  case performed =>
    rw [Deed.ofCall_run]
    unfold perform
    cases b.attempt call <;> rfl
  case unknown =>
    intro agent
    constructor
    · intro h
      cases h with
      | unknownAgent hnone => exact ⟨rfl, hnone⟩
    · rintro ⟨rfl, hnone⟩
      exact .unknownAgent hnone

end Battle

end FlagCombat
