import FlagCombat.Proofs.Battle.Account

/-!
One call of a battle and what it does to damage. A step shoots, the shot strikes at most one foe of
the shooter, and the step drains what waited for the shooter; every other call leaves the accounts as
they are, or makes a new one, or clears or drops one.
-/

namespace FlagCombat

open Battle

/-- A call, and the battle it is made in. -/
structure Moment (H T : Type) where
  battle : Battle H T
  call : Call

namespace Moment

variable {H T : Type} [Host H] [Trainer T]

/-- The answer to the call. -/
def reply (m : Moment H T) : Except BattleError Reply := (m.battle.perform m.call).1

/-- The battle after the call. -/
def after (m : Moment H T) : Battle H T := (m.battle.perform m.call).2

/-- Who shoots, and the battle it shoots in. Every step that is not refused shoots, but the first
one of a mobile agent and those of an agent without other friends. -/
def shot? (m : Moment H T) : Option (Battle H T × AgentId) :=
  match m.call with
  | .step agent action =>
    match m.battle.refusal? m.call, m.battle.enroll agent with
    | none, .ok b =>
      if agent.step = 0 ∧ agent.group.isMobile then none
      else if b.teams.hasOtherFriends agent.id then some (b.walking agent action, agent.id)
      else none
    | _, _ => none
  | _ => none

/-- Whether the call fires a shot that lands. -/
def landed (m : Moment H T) : Bool :=
  match m.shot? with
  | some (b, agent) => (b.engage agent).1
  | none => false

/-- The target of the shot, if it lands. -/
def victim? (m : Moment H T) : Option AgentId :=
  m.shot?.bind fun (b, agent) => if (b.engage agent).1 then (b.target agent).1 else none

/-- The damage that the call drains from what waits for an agent: only its own step does. -/
def drained? (m : Moment H T) (agent : AgentId) : Option UInt32 :=
  m.shot?.bind fun (b, shooter) =>
    if shooter = agent then
      ((b.engage agent).2.combatants.get? agent).map fun c => c.drainDamage.1
    else none

/-- Whether the call is a reset of an agent that succeeds. -/
def resets (m : Moment H T) (agent : AgentId) : Bool :=
  match m.call with
  | .reset handle => decide (handle.id = agent) && m.reply.isOk
  | _ => false

/-- Whether the call makes the record of an agent, or resets it. -/
def renews (m : Moment H T) (agent : AgentId) : Bool :=
  m.resets agent || (!m.battle.combatants.contains agent && m.after.combatants.contains agent)

/-- The account of an agent that the call does not renew. -/
def settle (m : Moment H T) (agent : AgentId) (a : Account) : Account :=
  let a := if m.victim? = some agent then a.strike else a
  if (m.drained? agent).isSome then a.drain else a

theorem victim?_eq (m : Moment H T) : m.victim? = m.shot?.bind fun (b, agent) => b.victim? agent := by
  unfold victim?
  congr 1
  funext ⟨b, agent⟩
  dsimp only
  rw [engage_eq]
  cases h : b.victim? agent with
  | none => rfl
  | some foe => exact (target_of_victim h).1

theorem landed_eq (m : Moment H T) : m.landed = m.victim?.isSome := by
  rw [victim?_eq]
  unfold landed
  cases m.shot? with
  | none => rfl
  | some shot =>
    dsimp only
    rw [engage_eq]
    rfl

/-- A call that shoots is a step that succeeds. -/
theorem step_of_shot {m : Moment H T} {w : Battle H T} {shooter : AgentId}
    (h : m.shot? = some (w, shooter)) :
    ∃ agent action b, m.call = .step agent action ∧ m.battle.enroll agent = .ok b ∧
      ¬(agent.step = 0 ∧ agent.group.isMobile) ∧ b.teams.hasOtherFriends agent.id = true ∧
      w = b.walking agent action ∧ shooter = agent.id ∧
      m.battle.perform m.call = (.ok (.vector (b.act agent action).1), (b.act agent action).2) := by
  obtain ⟨battle, call⟩ := m
  unfold shot? at h
  dsimp only at h
  split at h
  · rename_i agent action
    split at h
    · rename_i b hrefusal henroll
      split at h
      · cases h
      · rename_i hfirst
        split at h
        · rename_i hfriends
          cases h
          refine ⟨agent, action, b, rfl, henroll, hfirst, hfriends, rfl, rfl, ?_⟩
          unfold perform
          rw [attempt_of_handle battle rfl, hrefusal, henroll]
          rfl
        · cases h
    · cases h
  · cases h

theorem total_le_settle (m : Moment H T) (agent : AgentId) (a : Account) :
    a.total ≤ (m.settle agent a).total := by
  have hdrain (a : Account) : a.total ≤ a.drain.total := by
    have hsmall := a.total.toNat_lt
    rw [UInt32.le_iff_toNat_le]
    simp only [Account.drain, toNat_addCapped32, UInt32.size]
    omega
  unfold settle
  by_cases hvictim : m.victim? = some agent
  · rw [if_pos hvictim]
    split
    · exact hdrain a.strike
    · exact UInt32.le_refl _
  · rw [if_neg hvictim]
    split
    · exact hdrain a
    · exact UInt32.le_refl _

section After

variable {m : Moment H T} {agent : AgentId}

/-- Three ends of an account: the agent has no record, or a new one, or the account was settled. -/
def Accounted (m : Moment H T) (agent : AgentId) : Prop :=
  m.after.account? agent = none ∨
    (m.renews agent = true ∧ m.after.account? agent = some {}) ∨
    (m.renews agent = false ∧
      m.after.account? agent = (m.battle.account? agent).map (m.settle agent))

theorem accounted_of_settled (hreset : m.resets agent = false)
    (h : m.after.account? agent = (m.battle.account? agent).map (m.settle agent)) :
    m.Accounted agent := by
  cases hb : m.battle.account? agent with
  | none =>
    rw [hb] at h
    exact .inl h
  | some a =>
    have hc : m.battle.combatants.contains agent = true := by rw [← account?_isSome, hb]; rfl
    exact .inr (.inr ⟨by simp [renews, hreset, hc], h⟩)

theorem accounted_of_new (hb : m.battle.account? agent = none)
    (h : m.after.account? agent = some {}) : m.Accounted agent := by
  have hbefore : m.battle.combatants.contains agent = false := by
    rw [← account?_isSome, hb]
    rfl
  have hafter : m.after.combatants.contains agent = true := by
    rw [← account?_isSome, h]
    rfl
  exact .inr (.inl ⟨by simp [renews, hbefore, hafter], h⟩)

theorem settle_of_quiet (h : m.shot? = none) (a : Account) : m.settle agent a = a := by
  simp [settle, victim?, drained?, h]

/-- A call that shoots strikes the victim and drains the account of the shooter. -/
theorem accounted_of_shot (hm : m.battle.Sound) {w : Battle H T} {shooter : AgentId}
    (h : m.shot? = some (w, shooter)) (agent : AgentId) : m.Accounted agent := by
  obtain ⟨handle, action, b, hcall, henroll, hfirst, hfriends, rfl, rfl, hperform⟩ := step_of_shot h
  have hc := contains_of_enroll henroll
  have hafter : m.after.account? agent = (b.account? agent).map (m.settle agent) := by
    have hdrained : (m.drained? agent).isSome = decide (agent = handle.id) := by
      unfold drained?
      rw [h]
      by_cases heq : agent = handle.id
      · subst heq
        have hwalk : (b.walking handle action).combatants.contains handle.id = true := by
          simpa [walking_eq] using hc
        rw [← contains_recordsAfterShot _ handle.id] at hwalk
        obtain ⟨c, hc⟩ := (IdMap.contains_eq_true_iff _).1 hwalk
        simp [engage_eq, hc]
      · simp [heq, Ne.symm heq]
    unfold after
    rw [hperform, account?_act hfirst hc]
    congr 1
    funext a
    simp [settle, hdrained, victim?_eq, h, hfriends]
  have hreset : m.resets agent = false := by simp [resets, hcall]
  rcases account?_enroll henroll agent with hsame | ⟨heq, hnone, hnew⟩
  · rw [hsame] at hafter
    exact accounted_of_settled hreset hafter
  · have hvictim : m.victim? ≠ some agent := by
      rw [victim?_eq, h]
      intro hv
      exact victim_ne ((hm.changes (enroll_changes henroll)).walking handle action).coherent hv heq
    refine accounted_of_new hnone ?_
    simp only [hafter, hnew, Option.map_some, settle, if_neg hvictim]
    split <;> rfl

/-- The second battle has the accounts and the hits of the first one. -/
def SameBooks (b b' : Battle H T) : Prop :=
  (∀ agent, b'.account? agent = b.account? agent) ∧ b'.hits = b.hits

/-- What a call that does not shoot can have done to the accounts. -/
inductive Quiet (m : Moment H T) : Prop
  | same (hreset : ∀ agent, m.resets agent = false) (h : SameBooks m.battle m.after)
  | found {handle : Handle} {b : Battle H T} (henroll : m.battle.enroll handle = .ok b)
      (hreset : ∀ agent, m.resets agent = false) (h : SameBooks b m.after)
  | reset {handle : Handle} {b : Battle H T} (henroll : m.battle.enroll handle = .ok b)
      (hreset : ∀ agent, m.resets agent = decide (handle.id = agent))
      (h : m.after = b.restart handle)
  | remove {gone : AgentId} (hreset : ∀ agent, m.resets agent = false)
      (h : m.after = m.battle.dismiss gone)

theorem quiet_of_handle {battle b : Battle H T} {call : Call} {handle : Handle}
    (hh : call.handle? = some handle) (hrefusal : battle.refusal? call = none)
    (henroll : battle.enroll handle = .ok b) (h : (Moment.mk battle call).shot? = none) :
    (Moment.mk battle call).Quiet := by
  have hperform : battle.perform call = (.ok (b.respond call).1, (b.respond call).2) := by
    unfold perform
    rw [attempt_of_handle battle hh, hrefusal, henroll]
    rfl
  have hafter : (Moment.mk battle call).after = (b.respond call).2 := by rw [after, hperform]
  have hkept (b' : Battle H T) (hk : Keeps Combatant.account b b') : SameBooks b b' :=
    ⟨hk.read, hk.hits⟩
  cases call with
  | register handle =>
    exact .found henroll (fun _ => rfl) (hafter ▸ ⟨fun _ => rfl, rfl⟩)
  | reset handle =>
    cases hh
    have hok : (Moment.mk battle (.reset handle)).reply.isOk = true := by
      rw [reply, hperform]
      rfl
    exact .reset henroll (fun agent => by simp [resets, hok]) hafter
  | step handle action =>
    cases hh
    refine .found henroll (fun _ => rfl) (hafter ▸ ?_)
    simp only [shot?, hrefusal, henroll] at h
    by_cases hfirst : handle.step = 0 ∧ handle.group.isMobile
    · simp only [respond, act, if_pos hfirst]
      exact hkept _ (keeps_placeAtStart (fun _ _ _ => rfl) b handle.id)
    · have hlone : b.teams.hasOtherFriends handle.id = false := by simpa [hfirst] using h
      exact account?_act_of_lone hlone (contains_of_enroll henroll) action
  | sense handle values =>
    exact .found henroll (fun _ => rfl) 
      (hafter ▸ hkept _ (keeps_perceive b handle.id values))
  | isEpisodeOver handle =>
    exact .found henroll (fun _ => rfl) 
      (hafter ▸ hkept _ (keeps_judge (fun _ _ => rfl) b handle))
  | beginTick | removeAgent | cleanup => cases hh

theorem quiet (h : m.shot? = none) : m.Quiet := by
  obtain ⟨battle, call⟩ := m
  cases hattempt : battle.attempt call with
  | error e =>
    have hperform : battle.perform call = (.error e, battle) := by simp [perform, hattempt]
    refine .same (fun agent => ?_) (by rw [after, hperform]; exact ⟨fun _ => rfl, rfl⟩)
    unfold resets reply
    rw [hperform]
    split <;> simp [Except.isOk, Except.toBool]
  | ok result =>
    obtain ⟨reply, b'⟩ := result
    have hafter : (Moment.mk battle call).after = b' := by simp [after, perform, hattempt]
    cases success_of_attempt hattempt with
    | handle hh hrefusal henroll => exact quiet_of_handle hh hrefusal henroll h
    | beginTick tick => exact .same (fun _ => rfl) (hafter ▸ ⟨fun _ => rfl, rfl⟩)
    | removeAgent hc => exact .remove (fun _ => rfl) hafter
    | cleanup => exact .same (fun _ => rfl) (hafter ▸ ⟨fun _ => rfl, rfl⟩)

theorem accounted_of_quiet (h : m.shot? = none) (agent : AgentId) : m.Accounted agent := by
  have hsettle : (m.battle.account? agent).map (m.settle agent) = m.battle.account? agent := by
    rw [show m.settle agent = id from funext fun a => settle_of_quiet h a, Option.map_id]
    rfl
  cases quiet h with
  | same hreset hsame =>
    exact accounted_of_settled (hreset agent) ((hsame.1 agent).trans hsettle.symm)
  | found henroll hreset hsame =>
    have hafter := hsame.1 agent
    rcases account?_enroll henroll agent with hfound | ⟨-, hnone, hnew⟩
    · exact accounted_of_settled (hreset agent) ((hafter.trans hfound).trans hsettle.symm)
    · exact accounted_of_new hnone (hafter.trans hnew)
  | @reset handle b henroll hreset hrestart =>
    have hafter : m.after.account? agent =
        if agent = handle.id then (b.account? agent).map fun _ => {} else b.account? agent := by
      have hkept := (keeps_restart (f := Combatant.account) (fun _ _ _ => rfl) b handle).read agent
      rw [hrestart]
      refine hkept.trans ((account?_modifyAgent b handle.id agent _).trans ?_)
      simp [account?, Function.comp_def]
    by_cases heq : agent = handle.id
    · subst heq
      have hsome : (b.account? handle.id).isSome = true := by
        rw [account?_isSome]
        exact contains_of_enroll henroll
      obtain ⟨a, ha⟩ := Option.isSome_iff_exists.1 hsome
      exact .inr (.inl ⟨by simp [renews, hreset], by rw [hafter, if_pos rfl, ha]; rfl⟩)
    · rw [if_neg heq] at hafter
      have hkept : m.resets agent = false := by simp [hreset, Ne.symm heq]
      rcases account?_enroll henroll agent with hfound | ⟨hself, -, -⟩
      · exact accounted_of_settled hkept ((hafter.trans hfound).trans hsettle.symm)
      · exact absurd hself heq
  | @remove gone hreset hdismiss =>
    by_cases heq : agent = gone
    · exact .inl (by rw [hdismiss, account?_dismiss, if_pos heq])
    · refine accounted_of_settled (hreset agent) ?_
      rw [hdismiss, account?_dismiss, if_neg heq, hsettle]

theorem accounted (hm : m.battle.Sound) (agent : AgentId) : m.Accounted agent := by
  cases h : m.shot? with
  | none => exact accounted_of_quiet h agent
  | some shot => exact accounted_of_shot hm h agent

/-- An agent that keeps its record, and is not reset, has its account settled. -/
theorem account?_after_of_known (hm : m.battle.Sound) (hreset : m.resets agent = false)
    {a : Account} (ha : m.battle.account? agent = some a)
    (hafter : (m.after.account? agent).isSome = true) :
    m.after.account? agent = some (m.settle agent a) := by
  have hc : m.battle.combatants.contains agent = true := by rw [← account?_isSome, ha]; rfl
  have hkept : m.renews agent = false := by simp [renews, hreset, hc]
  rcases accounted hm agent with hnone | ⟨hnew, -⟩ | ⟨-, hsettle⟩
  · rw [hnone] at hafter
    cases hafter
  · rw [hkept] at hnew
    cases hnew
  · rw [hsettle, ha, Option.map_some]

/-- What a step drains is what waited before the call, for nobody shoots itself. -/
theorem drained_eq_pending (hm : m.battle.Sound) {d : UInt32} (h : m.drained? agent = some d)
    {a : Account} (ha : m.battle.account? agent = some a) :
    d = a.pending ∧ m.victim? ≠ some agent := by
  unfold drained? at h
  obtain ⟨⟨w, shooter⟩, hshot, h⟩ := Option.bind_eq_some_iff.1 h
  dsimp only at h
  split at h
  · rename_i heq
    subst heq
    obtain ⟨handle, action, b, -, henroll, -, -, rfl, rfl, -⟩ := step_of_shot hshot
    have hw := (hm.changes (enroll_changes henroll)).walking handle action
    have hvictim : (b.walking handle action).victim? handle.id ≠ some handle.id :=
      fun hv => victim_ne hw.coherent hv rfl
    have hfound : b.account? handle.id = some a := by
      rcases account?_enroll henroll handle.id with hsame | ⟨-, hnone, -⟩
      · rw [hsame, ha]
      · rw [hnone] at ha
        cases ha
    unfold account? at hfound
    obtain ⟨c, hc, rfl⟩ := Option.map_eq_some_iff.1 hfound
    refine ⟨?_, ?_⟩
    · have hwalk : (b.walking handle action).combatants.get? handle.id =
          some { c with animation := some Host.runAnimation } := by simp [walking_eq, hc]
      simp only [engage_eq, get?_recordsAfterShot, hwalk, Option.map_some, if_neg hvictim,
        Option.some.injEq] at h
      rw [← h]
      rfl
    · rw [victim?_eq, hshot]
      exact hvictim
  · cases h

/-- The call brings no counter of an account to its limit. -/
def Exact (m : Moment H T) (agent : AgentId) (a : Account) : Prop :=
  (m.victim? = some agent → a.pending.toNat + 1 < UInt32.size) ∧
    ((m.drained? agent).isSome → a.total.toNat + a.pending.toNat < UInt32.size)

/-- A settled account has the damage of the shot, and what was drained from one counter is in the
other. -/
theorem settle_exact (hm : m.battle.Sound) {a : Account} (ha : m.battle.account? agent = some a)
    (hexact : m.Exact agent a) :
    (m.settle agent a).total.toNat + (m.settle agent a).pending.toNat =
        a.total.toNat + a.pending.toNat + (if m.victim? = some agent then 1 else 0) ∧
      (m.settle agent a).total.toNat =
        a.total.toNat + ((m.drained? agent).map UInt32.toNat).getD 0 := by
  obtain ⟨hstrike, hdrain⟩ := hexact
  unfold settle
  cases hdrained : m.drained? agent with
  | none =>
    by_cases hvictim : m.victim? = some agent
    · have hpending := Account.toNat_pending_strike (hstrike hvictim)
      have htotal : a.strike.total.toNat = a.total.toNat := rfl
      simp only [if_pos hvictim, Option.isSome_none, Bool.false_eq_true, ↓reduceIte,
        Option.map_none, Option.getD_none]
      omega
    · simp [hvictim]
  | some d =>
    obtain ⟨rfl, hvictim⟩ := drained_eq_pending hm hdrained ha
    have htotal := Account.toNat_total_drain (hdrain (by simp [hdrained]))
    have hpending : a.drain.pending.toNat = 0 := rfl
    simp only [if_neg hvictim, Option.isSome_some, ↓reduceIte, Option.map_some, Option.getD_some]
    omega

/-- A shot that lands is counted, and nothing else is. -/
theorem hits_after (m : Moment H T) :
    m.after.hits = m.battle.hits + if m.landed then 1 else 0 := by
  cases hshot : m.shot? with
  | some shot =>
    obtain ⟨w, shooter⟩ := shot
    obtain ⟨handle, action, b, -, henroll, hfirst, -, rfl, rfl, hperform⟩ := step_of_shot hshot
    have hlanded : m.landed = ((b.walking handle action).victim? handle.id).isSome := by
      rw [landed_eq, victim?_eq, hshot]
      rfl
    rw [after, hperform, hits_act hfirst (contains_of_enroll henroll), hits_enroll henroll, hlanded]
  | none =>
    have hlanded : m.landed = false := by simp [landed, hshot]
    rw [hlanded]
    cases quiet hshot with
    | same _ hsame => exact hsame.2
    | found henroll _ hsame => exact hsame.2.trans (hits_enroll henroll)
    | @reset handle b henroll _ hrestart =>
      rw [hrestart, (keeps_restart (f := Combatant.account) (fun _ _ _ => rfl) b handle).hits,
        modifyAgent_eq]
      exact (hits_enroll henroll : b.hits = m.battle.hits)
    | remove _ hdismiss =>
      rw [hdismiss]
      rfl

/-- The score for avoiding fire is what the step drained, as a loss. -/
theorem reply_of_drained {d : UInt32} (h : m.drained? agent = some d) :
    ∃ handle action rewards, m.call = .step handle action ∧ handle.id = agent ∧
      m.reply = .ok (.vector rewards) ∧
      ∀ k : Nat, m.battle.profile.dimensions[k]? = some .avoidFire →
        rewards[k]? = some (-d.toFloat) := by
  unfold drained? at h
  obtain ⟨⟨w, shooter⟩, hshot, h⟩ := Option.bind_eq_some_iff.1 h
  dsimp only at h
  split at h
  · rename_i heq
    subst heq
    obtain ⟨handle, action, b, hcall, henroll, hfirst, hfriends, rfl, rfl, hperform⟩ :=
      step_of_shot hshot
    have hprofile : (b.walking handle action).profile = m.battle.profile := by
      rw [walking_eq, ← (enroll_changes henroll).profile]
    rw [engage_eq] at h
    obtain ⟨c, hc, rfl⟩ := Option.map_eq_some_iff.1 h
    have hreward := reward_eq (by rw [walking_eq]; exact hfriends) hc (Motion.ofAction action)
    refine ⟨handle, action, _, hcall, rfl, by rw [reply, hperform], fun k hk => ?_⟩
    rw [act_snd hfirst, hreward, hprofile]
    simp only [Outcome.reward, List.getElem?_map, hk, Option.map_some]
    rfl
  · cases h

/-- The victim of a shot that lands has a record and is on the other team than the shooter, and no
account but the shooter's and the victim's changes. -/
theorem victim_of_landed (hm : m.battle.Sound) (h : m.landed = true) :
    ∃ shooter action foe c d, m.call = .step shooter action ∧ m.victim? = some foe ∧
      m.after.combatants.get? shooter.id = some c ∧ m.battle.combatants.get? foe = some d ∧
      d.team = c.team.opponent ∧
      ∀ other, other ≠ shooter.id → m.after.account? other =
        (m.battle.account? other).map fun a => if other = foe then a.strike else a := by
  rw [landed_eq] at h
  obtain ⟨foe, hfoe⟩ := Option.isSome_iff_exists.1 h
  have hvictim := hfoe
  rw [victim?_eq] at hvictim
  obtain ⟨⟨w, id⟩, hshot, hvictim⟩ := Option.bind_eq_some_iff.1 hvictim
  obtain ⟨shooter, action, b, hcall, henroll, hfirst, -, rfl, rfl, hperform⟩ := step_of_shot hshot
  dsimp only at hvictim
  have hb := hm.changes (enroll_changes henroll)
  have hw := hb.walking shooter action
  have hne : foe ≠ shooter.id := victim_ne hw.coherent hvictim
  have hc := contains_of_enroll henroll
  obtain ⟨c, hget⟩ := (IdMap.contains_eq_true_iff _).1 hc
  have hwalk : (b.walking shooter action).combatants.get? shooter.id =
      some { c with animation := some Host.runAnimation } := by simp [walking_eq, hget]
  have hafter : m.after.combatants.get? shooter.id =
      some (b.effect shooter action shooter.id c) := by
    rw [after, hperform, get?_act hfirst hc, hget]
    rfl
  obtain ⟨d, hd, hteam⟩ := hw.team_of_victim hwalk hvictim
  have hbefore : m.battle.combatants.get? foe = some d := by
    rw [← get?_of_enroll henroll hne, ← hd, walking_eq]
    simp [hne]
  refine ⟨shooter, action, foe, _, d, hcall, hfoe, hafter, hbefore, ?_, fun other hother => ?_⟩
  · rw [hteam, (effect_rest _ _ _ _ _).1]
  · have hsame : b.account? other = m.battle.account? other := by
      unfold account?
      rw [get?_of_enroll henroll hother]
    rw [after, hperform, account?_act hfirst hc, hsame]
    congr 1
    funext a
    simp [hvictim, hother, @eq_comm _ foe other]

end After

end Moment

end FlagCombat
