import FlagCombat.Proofs.Battle.Ledger
import FlagCombat.Proofs.Battle.Membership
import FlagCombat.Proofs.Battle.Running

/-!
How episodes end, along every history of calls and whatever is done to the host and to the trainer
between them. The status of a record is the first finding of the checks of its agent since the record
was made or last reset, and no other call ends an episode.
-/

namespace FlagCombat

theorem Episode.Status.isDone_elim (found : Option Episode.Reason) :
    (found.elim Episode.Status.active .done).isDone = found.isSome := by
  cases found <;> rfl

/-- The first finding decides. -/
theorem Episode.Status.advance_elim (found next : Option Episode.Reason) :
    (found.elim Episode.Status.active .done).advance next =
      (found.or next).elim .active .done := by
  cases found with
  | none => cases next <;> rfl
  | some reason => rfl

theorem Episode.Status.advance_of_isDone {status : Episode.Status} (h : status.isDone = true)
    (next : Option Episode.Reason) : status.advance next = status := by
  cases status with
  | active => cases h
  | done reason => rfl

theorem Episode.Status.advance_none (status : Episode.Status) : status.advance none = status := by
  cases status <;> rfl

namespace Battle

variable {H T : Type}

/-- The reason to end the episode of an agent whose record is `c`, if there is one now. -/
def reason? [Trainer T] (b : Battle H T) (agent : Handle) (c : Combatant) :
    Option Episode.Reason :=
  Episode.check {
    group := agent.group
    step := agent.step
    hasOrganism := Trainer.hasOrganism b.trainer agent.id
    totalDamage := c.totalDamage } b.profile.limits

theorem checkedStatus_eq [Trainer T] (b : Battle H T) (agent : Handle) (c : Combatant) :
    b.checkedStatus agent c = c.status.advance (b.reason? agent c) := rfl

def status? (b : Battle H T) (agent : AgentId) : Option Episode.Status :=
  (b.combatants.get? agent).map Combatant.status

theorem Keeps.status? {b b' : Battle H T} (h : Keeps Combatant.status b b') (agent : AgentId) :
    b'.status? agent = b.status? agent := h.read agent

theorem contains_eq_isSome_status? (b : Battle H T) (agent : AgentId) :
    b.combatants.contains agent = (b.status? agent).isSome := by
  simp [Battle.status?, IdMap.contains]

variable [Host H]

/-- A record that a call looks for is there, or it is a new one, whose episode runs. -/
theorem status?_enroll {b b' : Battle H T} {agent : Handle} (h : b.enroll agent = .ok b')
    (other : AgentId) :
    b'.status? other = b.status? other ∨
      b.status? other = none ∧ b'.status? other = some .active := by
  rcases enroll_cases h with ⟨c, -, -, rfl⟩ | ⟨hnone, rfl⟩
  · exact .inl rfl
  · by_cases hother : other = agent.id
    · subst hother
      have hnew : (b.newcomer agent).status = .active := by
        unfold newcomer
        cases Host.transform b.host agent.id <;> rfl
      refine .inr ⟨by simp [Battle.status?, hnone], ?_⟩
      simp [Battle.status?, Battle.enlist, hnew]
    · exact .inl (by simp [Battle.status?, Battle.enlist, hother])

end Battle

open Battle

namespace Battle

variable {H T : Type} [Host H] [Trainer T]

/-- A response other than a reset or a check leaves every status as it is. -/
theorem status?_respond {b : Battle H T} {call : Call} {agent : Handle}
    (hh : call.handle? = some agent) (hc : b.combatants.contains agent.id = true)
    (hreset : call ≠ .reset agent) (hcheck : call ≠ .isEpisodeOver agent) (other : AgentId) :
    (b.respond call).2.status? other = b.status? other := by
  cases call with
  | register a => rfl
  | reset a =>
    cases hh
    exact absurd rfl hreset
  | isEpisodeOver a =>
    cases hh
    exact absurd rfl hcheck
  | sense a values => exact (keeps_perceive b a.id values).status? other
  | step a action =>
    cases hh
    show (b.act agent action).2.status? other = b.status? other
    by_cases hfirst : agent.step = 0 ∧ agent.group.isMobile
    · rw [act, if_pos hfirst]
      exact (keeps_placeAtStart (fun _ _ _ => rfl) b agent.id).status? other
    · unfold status?
      rw [get?_act hfirst hc, Option.map_map]
      congr 1
      funext c
      exact (effect_rest b agent action other c).2
  | beginTick | removeAgent | cleanup => cases hh

omit [Trainer T] in
/-- A reset lets the episode of its agent run again. -/
theorem status?_restart (b : Battle H T) (agent : Handle) (other : AgentId) :
    (b.restart agent).status? other =
      if other = agent.id then (b.status? other).map fun _ => .active else b.status? other := by
  have hkept := keeps_restart (f := Combatant.status) (fun _ _ _ => rfl) b agent
  rw [hkept.status?, modifyAgent_eq]
  unfold status?
  rw [IdMap.get?_modify]
  split
  · simp [Function.comp_def, Combatant.resetEpisode]
  · rfl

omit [Host H] in
/-- A check takes in the reason to end the episode of its agent. -/
theorem status?_judge (b : Battle H T) (agent : Handle) (other : AgentId) :
    (b.judge agent).2.status? other =
      if other = agent.id then
        (b.combatants.get? other).map fun c => c.status.advance (b.reason? agent c)
      else b.status? other := by
  unfold judge status?
  by_cases hother : other = agent.id
  · subst hother
    cases hc : b.combatants.get? agent.id with
    | none => simp [hc]
    | some c => simp [checkedStatus_eq]
  · cases b.combatants.get? agent.id <;> simp [hother]

end Battle

namespace Moment

variable {H T : Type} [Host H] [Trainer T]

/-- What the call finds if it is a check of an agent: the reason to end the episode now, if there is
one. A check that fails finds nothing. -/
def found? (m : Moment H T) (agent : AgentId) : Option Episode.Reason :=
  match m.call with
  | .isEpisodeOver handle =>
    if handle.id = agent then
      (m.battle.enroll handle).toOption.bind fun b =>
        (b.combatants.get? agent).bind (b.reason? handle)
    else none
  | _ => none

section After

variable {m : Moment H T} {agent : AgentId}

/-- Only a check of the agent finds anything. -/
theorem found?_of_other (h : ∀ handle, m.call = .isEpisodeOver handle → handle.id ≠ agent) :
    m.found? agent = none := by
  unfold found?
  split
  · rename_i handle hcall
    rw [if_neg (h handle hcall)]
  · rfl

/-- What becomes of a status: the agent has no record, or one whose episode started with the call,
or the status took in what the call found. -/
inductive Noted (m : Moment H T) (agent : AgentId) : Prop
  | gone (h : m.after.status? agent = none)
  | renewed (hnew : m.renews agent = true)
      (h : m.after.status? agent = some (Episode.Status.active.advance (m.found? agent)))
  | kept (hkept : m.renews agent = false)
      (h : m.after.status? agent = (m.battle.status? agent).map (·.advance (m.found? agent)))

/-- A call that resets nobody takes what it found into the status that the agent had, or got when it
was given its record. -/
theorem noted_of_read {b : Battle H T}
    (hb : b.status? agent = m.battle.status? agent ∨
      m.battle.status? agent = none ∧ b.status? agent = some .active)
    (hreset : m.resets agent = false)
    (h : m.after.status? agent = (b.status? agent).map (·.advance (m.found? agent))) :
    m.Noted agent := by
  rcases hb with hsame | ⟨hnone, hnew⟩
  · rw [hsame] at h
    cases hbefore : m.battle.status? agent with
    | none => exact .gone (by rw [h, hbefore]; rfl)
    | some status =>
      refine .kept ?_ h
      simp [renews, hreset, contains_eq_isSome_status?, hbefore]
  · rw [hnew, Option.map_some] at h
    refine .renewed ?_ h
    simp [renews, contains_eq_isSome_status?, hnone, h]

theorem map_advance_of_quiet (hfound : m.found? agent = none) (status : Option Episode.Status) :
    status.map (·.advance (m.found? agent)) = status := by
  simp [hfound, Episode.Status.advance_none]

theorem noted_of_error {e : BattleError} (h : m.battle.attempt m.call = .error e)
    (agent : AgentId) : m.Noted agent := by
  have hperform : m.battle.perform m.call = (.error e, m.battle) := by simp [perform, h]
  have hfound : m.found? agent = none := by
    unfold found?
    split
    · rename_i handle hcall
      rw [hcall] at h
      cases henroll : m.battle.enroll handle with
      | error e' => simp [Except.toOption]
      | ok b => simp [attempt, isEpisodeOver, henroll, Except.map] at h
    · rfl
  have hreset : m.resets agent = false := by
    unfold resets reply
    rw [hperform]
    split <;> simp [Except.isOk, Except.toBool]
  refine noted_of_read (.inl rfl) hreset ?_
  rw [map_advance_of_quiet hfound, after, hperform]

section Respond

variable {handle : Handle} {b : Battle H T}

theorem perform_of_enroll (hh : m.call.handle? = some handle)
    (hrefusal : m.battle.refusal? m.call = none) (henroll : m.battle.enroll handle = .ok b) :
    m.battle.perform m.call = (.ok (b.respond m.call).1, (b.respond m.call).2) := by
  unfold perform
  rw [attempt_of_handle m.battle hh, hrefusal, henroll]
  rfl

theorem noted_of_check (hcall : m.call = .isEpisodeOver handle)
    (henroll : m.battle.enroll handle = .ok b) (agent : AgentId) : m.Noted agent := by
  have hperform := perform_of_enroll (m := m) (by rw [hcall]; rfl) (by rw [hcall]; rfl) henroll
  have hfound : m.found? agent =
      if handle.id = agent then (b.combatants.get? agent).bind (b.reason? handle) else none := by
    simp [found?, hcall, henroll, Except.toOption]
  refine noted_of_read (status?_enroll henroll agent) (by simp [resets, hcall]) ?_
  rw [after, hperform, hcall]
  refine (status?_judge b handle agent).trans ?_
  by_cases hagent : agent = handle.id
  · subst hagent
    rw [if_pos rfl, hfound, if_pos rfl]
    unfold status?
    cases b.combatants.get? handle.id <;> rfl
  · rw [if_neg hagent, map_advance_of_quiet (by rw [hfound, if_neg (Ne.symm hagent)])]

theorem noted_of_reset (hcall : m.call = .reset handle)
    (henroll : m.battle.enroll handle = .ok b) (agent : AgentId) : m.Noted agent := by
  have hperform := perform_of_enroll (m := m) (by rw [hcall]; rfl) (by rw [hcall]; rfl) henroll
  have hquiet : m.found? agent = none := by simp [found?, hcall]
  have hafter : m.after.status? agent =
      if agent = handle.id then (b.status? agent).map fun _ => .active else b.status? agent := by
    rw [after, hperform, hcall]
    exact status?_restart b handle agent
  have hresets : m.resets agent = decide (handle.id = agent) := by
    simp only [resets, reply, hperform]
    rw [hcall]
    simp [Except.isOk, Except.toBool]
  by_cases hagent : agent = handle.id
  · subst hagent
    have hrecord := contains_of_enroll henroll
    rw [contains_eq_isSome_status?] at hrecord
    obtain ⟨status, hstatus⟩ := Option.isSome_iff_exists.1 hrecord
    refine .renewed (by simp [renews, hresets]) ?_
    rw [hafter, if_pos rfl, hstatus, hquiet]
    rfl
  · refine noted_of_read (status?_enroll henroll agent) (by simp [hresets, Ne.symm hagent]) ?_
    rw [map_advance_of_quiet hquiet, hafter, if_neg hagent]

theorem noted_of_handle (hh : m.call.handle? = some handle)
    (hrefusal : m.battle.refusal? m.call = none) (henroll : m.battle.enroll handle = .ok b)
    (agent : AgentId) : m.Noted agent := by
  by_cases hcheck : m.call = .isEpisodeOver handle
  · exact noted_of_check hcheck henroll agent
  by_cases hreset : m.call = .reset handle
  · exact noted_of_reset hreset henroll agent
  have hquiet : m.found? agent = none := by
    refine found?_of_other fun other hother hid => hcheck ?_
    rw [hother] at hh ⊢
    cases hh
    rfl
  have hresets : m.resets agent = false := by
    unfold resets
    split
    · rename_i other hother
      rw [hother] at hh hreset
      cases hh
      exact absurd rfl hreset
    · rfl
  refine noted_of_read (status?_enroll henroll agent) hresets ?_
  rw [map_advance_of_quiet hquiet, after, perform_of_enroll hh hrefusal henroll]
  exact status?_respond hh (contains_of_enroll henroll) hreset hcheck agent

end Respond

/-- Every call keeps a status, or takes in what it found, or starts an episode, or leaves none. -/
theorem noted (m : Moment H T) (agent : AgentId) : m.Noted agent := by
  obtain ⟨battle, call⟩ := m
  cases hattempt : battle.attempt call with
  | error e => exact noted_of_error hattempt agent
  | ok result =>
    obtain ⟨reply, b'⟩ := result
    have hafter : (Moment.mk battle call).after = b' := by simp [after, perform, hattempt]
    cases success_of_attempt hattempt with
    | handle hh hrefusal henroll => exact noted_of_handle hh hrefusal henroll agent
    | beginTick tick =>
      exact noted_of_read (.inl rfl) rfl (by rw [map_advance_of_quiet rfl, hafter]; rfl)
    | cleanup => exact noted_of_read (.inl rfl) rfl (by rw [map_advance_of_quiet rfl, hafter]; rfl)
    | @removeAgent gone c hc =>
      by_cases hagent : agent = gone
      · exact .gone (by rw [hafter]; simp [status?, dismiss, hagent])
      · refine noted_of_read (.inl rfl) rfl ?_
        rw [map_advance_of_quiet rfl, hafter]
        simp [status?, dismiss, hagent]

end After

end Moment

namespace Battle

variable {H T : Type} [Host H] [Trainer T]

/-- What happens to a battle: a call, or a new state of the host or the trainer, which answer to
others as well. -/
inductive Occurrence (H T : Type) where
  | call (call : Call)
  | host (host : H)
  | trainer (trainer : T)

def undergo (b : Battle H T) : Occurrence H T → Battle H T
  | .call call => (b.perform call).2
  | .host host => { b with host }
  | .trainer trainer => { b with trainer }

def undergoAll (b : Battle H T) (occurrences : List (Occurrence H T)) : Battle H T :=
  occurrences.foldl undergo b

/-- The calls among the occurrences, each with the battle it is made in. -/
def moments (b : Battle H T) : List (Occurrence H T) → List (Moment H T)
  | [] => []
  | .call call :: rest => ⟨b, call⟩ :: (b.perform call).2.moments rest
  | .host host :: rest => { b with host }.moments rest
  | .trainer trainer :: rest => { b with trainer }.moments rest

/-- The part of a history since the record of an agent was made or last reset, with the call that
did so: a check can make the record it checks. -/
def course (agent : AgentId) (log : List (Moment H T)) : List (Moment H T) :=
  (log.rdropWhile fun m => !m.renews agent).getLast?.toList ++ sinceNew agent log

/-- What the checks of an agent found first since its record was made or last reset. -/
def firstFinding (agent : AgentId) (log : List (Moment H T)) : Option Episode.Reason :=
  (course agent log).findSome? (·.found? agent)

section Course

variable {log : List (Moment H T)} {m : Moment H T} {agent : AgentId}

theorem course_of_renews (h : m.renews agent = true) : course agent (log ++ [m]) = [m] := by
  unfold course
  rw [List.rdropWhile_concat_neg _ _ _ (by simp [h]), sinceNew_of_renews h]
  simp

theorem course_of_kept (h : m.renews agent = false) :
    course agent (log ++ [m]) = course agent log ++ [m] := by
  unfold course
  rw [List.rdropWhile_concat_pos _ _ _ (by simp [h]), sinceNew_of_kept h, List.append_assoc]

/-- The status of every record is what its checks found first. -/
def Told (log : List (Moment H T)) (b : Battle H T) : Prop :=
  ∀ agent status, b.status? agent = some status →
    status = (firstFinding agent log).elim .active .done

/-- One more call keeps the statuses what the checks found. -/
theorem Told.step (h : Told log m.battle) : Told (log ++ [m]) m.after := by
  intro agent status hstatus
  unfold firstFinding
  cases m.noted agent with
  | gone hnone =>
    rw [hnone] at hstatus
    cases hstatus
  | renewed hnew hstarted =>
    rw [hstarted] at hstatus
    cases hstatus
    rw [course_of_renews hnew, List.findSome?_singleton]
    cases m.found? agent <;> rfl
  | kept hkept hadvanced =>
    rw [hadvanced] at hstatus
    obtain ⟨before, hbefore, rfl⟩ := Option.map_eq_some_iff.1 hstatus
    have htold := h agent before hbefore
    rw [course_of_kept hkept, List.findSome?_append, List.findSome?_singleton,
      ← Episode.Status.advance_elim, ← firstFinding, ← htold]

end Course

/-- Along a history the statuses stay what the checks found, from one call to the next. -/
theorem told_moments {past : List (Moment H T)} {b : Battle H T} (h : Told past b)
    (occurrences : List (Occurrence H T)) :
    Told (past ++ b.moments occurrences) (b.undergoAll occurrences) ∧
      ∀ earlier m later, b.moments occurrences = earlier ++ m :: later →
        Told (past ++ earlier ++ [m]) m.after := by
  induction occurrences generalizing past b with
  | nil =>
    refine ⟨by simpa [moments, undergoAll] using h, fun earlier m later hsplit => ?_⟩
    simp [moments] at hsplit
  | cons occurrence rest ih =>
    cases occurrence with
    | host host => exact ih (b := { b with host }) h
    | trainer trainer => exact ih (b := { b with trainer }) h
    | call call =>
      have hstep := Told.step (m := ⟨b, call⟩) h
      obtain ⟨hend, hbetween⟩ := ih hstep
      refine ⟨?_, fun earlier m later hsplit => ?_⟩
      · rw [List.append_assoc] at hend
        exact hend
      cases earlier with
      | nil =>
        simp only [moments, List.nil_append, List.cons.injEq] at hsplit
        obtain ⟨rfl, -⟩ := hsplit
        simpa using hstep
      | cons first earlier =>
        simp only [moments, List.cons_append, List.cons.injEq] at hsplit
        obtain ⟨rfl, hsplit⟩ := hsplit
        simpa using hbetween earlier m later hsplit

/-- A check that succeeds answers whether the episode of its agent is over now. -/
theorem isOver_of_reply {m : Moment H T} {handle : Handle} {isOver : Bool}
    (hcall : m.call = .isEpisodeOver handle) (hreply : m.reply = .ok (.verdict isOver)) :
    ∃ status, m.after.status? handle.id = some status ∧ isOver = status.isDone := by
  obtain ⟨battle, call⟩ := m
  dsimp only at hcall
  subst hcall
  cases hcheck : battle.isEpisodeOver handle with
  | error e => simp [Moment.reply, perform, attempt, hcheck, Except.map] at hreply
  | ok result =>
    obtain ⟨verdict, b'⟩ := result
    simp only [Moment.reply, Moment.after, perform, attempt, hcheck, Except.map] at hreply ⊢
    cases hreply
    obtain ⟨e, c, -, -, hover, rfl⟩ := isEpisodeOver_cases hcheck
    exact ⟨e.checkedStatus handle c, by simp [status?], hover⟩

/-- A status is kept by every call but a reset or a removal of its agent, and a check of its agent
while the episode runs. -/
theorem status_kept {m : Moment H T} {agent : AgentId} {c : Combatant}
    (hc : m.battle.combatants.get? agent = some c) (hreset : m.resets agent = false)
    (hcall : m.call ≠ .removeAgent agent)
    (hkept : c.status.isDone = true ∨
      ∀ handle, m.call = .isEpisodeOver handle → handle.id ≠ agent) :
    ∃ c', m.after.combatants.get? agent = some c' ∧ c'.status = c.status := by
  have hbefore : m.battle.status? agent = some c.status := by simp [status?, hc]
  obtain ⟨c', hc', -⟩ := Option.map_eq_some_iff.1 (identity_perform hc hcall)
  have hafter : m.after.status? agent = some c'.status := congrArg (Option.map _) hc'
  refine ⟨c', hc', ?_⟩
  cases m.noted agent with
  | gone hnone =>
    rw [hnone] at hafter
    cases hafter
  | renewed hnew =>
    have hcontains := contains_eq_isSome_status? m.battle agent
    rw [hbefore] at hcontains
    simp [Moment.renews, hreset, hcontains] at hnew
  | kept _ hadvanced =>
    rw [hadvanced, hbefore, Option.map_some, Option.some.injEq] at hafter
    rw [← hafter]
    rcases hkept with hdone | hother
    · exact Episode.Status.advance_of_isDone hdone _
    · rw [Moment.found?_of_other hother, Episode.Status.advance_none]

/-- Episodes end for good and for what was found, whatever is called and whatever host and trainer
do. A check answers true just if it finds a reason or one before it did, since the record of its
agent was made or last reset; the record keeps the first reason found; and until the agent is reset
or removed a status that is over stays as it is, and another status changes only in a check of the
agent. -/
theorem ending_exact (profile : Profile) (host : H) (trainer : T) (seed : UInt64)
    (occurrences : List (Occurrence H T)) :
    let log := (start profile host trainer seed).moments occurrences
    (∀ earlier m later handle isOver, log = earlier ++ m :: later →
      m.call = .isEpisodeOver handle → m.reply = .ok (.verdict isOver) →
      (isOver = true ↔
        ∃ k ∈ course handle.id (earlier ++ [m]), (k.found? handle.id).isSome = true)) ∧
    (∀ agent c, ((start profile host trainer seed).undergoAll occurrences).combatants.get? agent =
      some c → c.status = (firstFinding agent log).elim .active .done) ∧
    ∀ m ∈ log, ∀ agent c, m.battle.combatants.get? agent = some c → m.resets agent = false →
      m.call ≠ .removeAgent agent →
      (c.status.isDone = true ∨ ∀ handle, m.call = .isEpisodeOver handle → handle.id ≠ agent) →
      ∃ c', m.after.combatants.get? agent = some c' ∧ c'.status = c.status := by
  intro log
  have hempty : Told [] (start profile host trainer seed) := by
    intro agent status hstatus
    simp [status?, start] at hstatus
  obtain ⟨hend, hbetween⟩ := told_moments hempty occurrences
  refine ⟨fun earlier m later handle isOver hlog hcall hreply => ?_, fun agent c hc => ?_,
    fun m _ agent c hc hreset hcall hkept => status_kept hc hreset hcall hkept⟩
  · obtain ⟨status, hstatus, rfl⟩ := isOver_of_reply hcall hreply
    rw [hbetween earlier m later hlog handle.id status hstatus, Episode.Status.isDone_elim]
    exact List.findSome?_isSome_iff
  · exact hend agent c.status (by simp [status?, hc])

/-- An agent whose budget of steps is spent, and then is not: only the reset makes a difference. -/
def relapse : List (Occurrence OpenField FixedTrainer) :=
  let agent (step : UInt64) : Handle := { id := ⟨1⟩, team := .zero, group := .agent, step }
  [.call (.isEpisodeOver (agent 2)), .trainer { lifetime := 9 }, .call (.isEpisodeOver (agent 0)),
    .call (.reset (agent 0)), .call (.isEpisodeOver (agent 0))]

theorem ending_exact_relapse :
    let b : Battle OpenField FixedTrainer := start { lifetime := 2 } {} {} 0
    ∃ first second third last, b.moments relapse = [first, second, third, last] ∧
      second.reply = .ok (.verdict true) ∧ second.found? ⟨1⟩ = none ∧
      (∃ k ∈ course ⟨1⟩ [first, second], (k.found? ⟨1⟩).isSome = true) ∧
      last.reply = .ok (.verdict false) := by
  intro b
  refine ⟨_, _, _, _, rfl, by decide +kernel, by decide +kernel, ?_, by decide +kernel⟩
  obtain ⟨hover, -⟩ := ending_exact { lifetime := 2 } ({} : OpenField) ({} : FixedTrainer) 0 relapse
  exact (hover [_] _ [_, _] _ true rfl rfl (by decide +kernel)).1 rfl

end Battle

end FlagCombat
