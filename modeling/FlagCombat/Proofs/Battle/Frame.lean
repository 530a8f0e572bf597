import FlagCombat.Proofs.Battle.Anew
import FlagCombat.Proofs.Battle.Beside
import FlagCombat.Proofs.Battle.Ledger
import FlagCombat.Proofs.Battle.Running

/-!
What a call for an agent leaves alone. Others are struck at most, one of them by one step; the
generator only moves where an agent is placed by chance, and the trainer only where an agent acts.
A look at the surroundings of an agent with a record leaves no trace: a history answers alike with
and without such looks.
-/

namespace FlagCombat

theorem Combatant.eq_of_bare {c d : Combatant} (hbare : c.bare = d.bare)
    (hpending : c.pendingDamage = d.pendingDamage) : c = d := by
  have hc : { c.bare with pendingDamage := d.pendingDamage } = c := by rw [← hpending]; rfl
  rw [← hc, hbare]
  rfl

namespace Battle

variable {H T : Type} [Host H] {b b' : Battle H T} {agent : Handle}

/-- An agent that a call looks for has a record on the team of its handle. -/
theorem team_of_enroll (h : b.enroll agent = .ok b') :
    ∃ c, b'.combatants.get? agent.id = some c ∧ c.team = agent.team := by
  rcases enroll_cases h with ⟨c, hc, hteam, rfl⟩ | ⟨-, rfl⟩
  · exact ⟨c, hc, hteam⟩
  · exact ⟨b.newcomer agent, by simp [enlist], (newcomer_identity b agent).2.1⟩

end Battle

open Battle

namespace Moment

variable {H T : Type} [Host H] [Trainer T] {m : Moment H T} {agent : Handle} {other : AgentId}

theorem resets_of_other (hcall : m.call.handle? = some agent) (hother : other ≠ agent.id) :
    m.resets other = false := by
  unfold resets
  split
  · rename_i handle hreset
    rw [hreset] at hcall
    cases hcall
    simp [Ne.symm hother]
  · rfl

theorem drained?_of_other (hcall : m.call.handle? = some agent) (hother : other ≠ agent.id) :
    m.drained? other = none := by
  unfold drained?
  cases hshot : m.shot? with
  | none => rfl
  | some shot =>
    obtain ⟨w, shooter⟩ := shot
    obtain ⟨handle, action, b, hstep, -, -, -, -, rfl, -⟩ := step_of_shot hshot
    rw [hstep] at hcall
    cases hcall
    simp [Ne.symm hother]

theorem settle_of_other (hcall : m.call.handle? = some agent) (hother : other ≠ agent.id)
    (a : Account) : m.settle other a = if m.victim? = some other then a.strike else a := by
  simp [settle, drained?_of_other hcall hother]

theorem beside_after (hcall : m.call.handle? = some agent) : Beside agent.id m.battle m.after := by
  unfold after perform
  cases hattempt : m.battle.attempt m.call with
  | error e => exact .refl m.battle
  | ok result => exact beside_attempt hcall hattempt

/-- A call does nothing to the record of another agent unless it strikes it. -/
theorem get?_after_of_other (hm : m.battle.Sound) (hcall : m.call.handle? = some agent)
    (hother : other ≠ agent.id) :
    m.after.combatants.get? other = (m.battle.combatants.get? other).map fun c =>
      if m.victim? = some other then c.takeHit damagePerHit else c := by
  have hbare := (beside_after hcall).record other hother
  cases hc : m.battle.combatants.get? other with
  | none => simpa [hc] using hbare
  | some c =>
    rw [hc] at hbare
    obtain ⟨d, hd, hbare⟩ := Option.map_eq_some_iff.1 hbare
    -- the account settles the waiting damage, which the bare record leaves open
    have haccount := account?_after_of_known hm (resets_of_other hcall hother)
      (a := c.account) (by rw [account?, hc]; rfl) (by rw [account?, hd]; rfl)
    have hpending : d.pendingDamage =
        (if m.victim? = some other then c.takeHit damagePerHit else c).pendingDamage := by
      rw [account?, hd, Option.map_some, Option.some.injEq] at haccount
      have hsettled : d.pendingDamage = (m.settle other c.account).pending :=
        congrArg Account.pending haccount
      rw [hsettled, settle_of_other hcall hother]
      split <;> rfl
    rw [hd, Option.map_some, Option.some.injEq]
    refine Combatant.eq_of_bare ?_ hpending
    rw [hbare]
    split <;> rfl

/-- The victim of a call is a foe of its agent, and the call is a step. -/
theorem foe_of_victim (hm : m.battle.Sound) (hcall : m.call.handle? = some agent) {foe : AgentId}
    (h : m.victim? = some foe) :
    (∃ action, m.call = .step agent action) ∧
      ∃ c, m.battle.combatants.get? foe = some c ∧ c.team = agent.team.opponent := by
  rw [victim?_eq] at h
  obtain ⟨⟨w, id⟩, hshot, hvictim⟩ := Option.bind_eq_some_iff.1 h
  obtain ⟨shooter, action, b, hstep, henroll, -, -, rfl, rfl, -⟩ := step_of_shot hshot
  rw [hstep] at hcall
  cases hcall
  have hb := hm.changes (enroll_changes henroll)
  have hw := hb.walking agent action
  obtain ⟨c, hc, hteam⟩ := team_of_enroll henroll
  have hwalk : (b.walking agent action).combatants.get? agent.id =
      some { c with animation := some Host.runAnimation } := by simp [walking_eq, hc]
  obtain ⟨d, hd, hdteam⟩ := hw.team_of_victim hwalk hvictim
  have hne : foe ≠ agent.id := victim_ne hw.coherent hvictim
  refine ⟨⟨action, hstep⟩, d, ?_, hdteam.trans (congrArg Team.opponent hteam)⟩
  rw [← get?_of_enroll henroll hne, ← hd, walking_eq]
  simp [hne]

end Moment

namespace Battle

variable {H T : Type} [Host H] {b b' : Battle H T} {agent : Handle}

section Draws

theorem generator_enroll (h : b.enroll agent = .ok b') : b'.generator = b.generator := by
  rcases enroll_cases h with ⟨c, -, -, rfl⟩ | ⟨-, rfl⟩ <;> rfl

theorem generator_showPose (b : Battle H T) (agent : AgentId) :
    (b.showPose agent).generator = b.generator := by
  unfold showPose
  split <;> rfl

omit [Host H] in
theorem generator_freezePose (b : Battle H T) (agent : AgentId) :
    (b.freezePose agent).generator = b.generator := by
  unfold freezePose
  split <;> rfl

/-- A reset draws the place of a mobile agent if there is jitter. -/
theorem generator_restart (b : Battle H T) (agent : Handle)
    (h : ¬(agent.group.isMobile = true ∧ 0 < b.profile.spawnJitter)) :
    (b.restart agent).generator = b.generator := by
  unfold restart
  rw [modifyAgent_eq]
  dsimp only
  split
  · rename_i hmobile
    have hzero : b.profile.spawnJitter = 0 := by
      have hnot : ¬0 < b.profile.spawnJitter := fun hpos => h ⟨hmobile, hpos⟩
      exact UInt32.le_zero_iff.1 (UInt32.not_lt.1 hnot)
    split
    · rfl
    · rw [generator_freezePose, generator_showPose, hzero]
      rfl
  · rfl

/-- A step draws the heading of a mobile agent at its first step. -/
theorem generator_act [Trainer T] (hc : b.combatants.contains agent.id = true)
    (hfirst : ¬(agent.step = 0 ∧ agent.group.isMobile)) (action : List Float) :
    (b.act agent action).2.generator = b.generator := by
  have hwalk : (b.walking agent action).combatants.contains agent.id = true := by
    simpa [walking_eq] using hc
  rw [act_snd hfirst, generator_showPose, modifyAgent_eq, reward_snd hwalk, walking_eq]

end Draws

/-- What a call for `agent` that succeeds leaves alone between the battles `b` and `b'`. -/
structure Framed (agent : Handle) (call : Call) (b b' : Battle H T) : Prop where
  /-- A step strikes at most one other, a foe; nothing else happens to the records of others. -/
  others : ∃ victim : Option AgentId,
    (∀ foe, victim = some foe → (∃ action, call = .step agent action) ∧
      ∃ c, b.agent? foe = some c ∧ c.team = agent.team.opponent) ∧
    ∀ other, other ≠ agent.id → b'.agent? other = (b.agent? other).map fun c =>
      if victim = some other then { c with pendingDamage := addCapped32 c.pendingDamage 1 } else c
  /-- A look changes nothing but the answers that the snapshot keeps. -/
  sense : ∀ values, call = .sense agent values → b.combatants.contains agent.id = true →
    b'.forget = b.forget
  /-- A registration only adds the sensors of the agent to the host. -/
  register : call = .register agent → b.combatants.contains agent.id = true →
    b' = { b with
      host := (b.profile.sensors.sensors agent).foldl
        (fun host sensor => Host.addSensor host agent.id sensor) b.host }
  /-- A check only sets the status of the agent. -/
  check : call = .isEpisodeOver agent → b.combatants.contains agent.id = true →
    ∃ status, b' = { b with
      combatants := b.combatants.modify agent.id fun c => { c with status } }
  generator : b'.generator ≠ b.generator →
    call = .reset agent ∧ agent.group.isMobile = true ∧ 0 < b.profile.spawnJitter ∨
      (∃ action, call = .step agent action) ∧ agent.group.isMobile = true ∧ agent.step = 0
  trainer : b'.trainer ≠ b.trainer →
    (∃ action, call = .step agent action) ∧ ¬(agent.step = 0 ∧ agent.group.isMobile = true)

variable [Trainer T]

/-- A call for a handle that succeeds has responded for an agent with a record. -/
theorem respond_of_attempt {call : Call} {reply : Reply} (hh : call.handle? = some agent)
    (h : b.attempt call = .ok (reply, b')) :
    ∃ e, b.enroll agent = .ok e ∧ b' = (e.respond call).2 := by
  rw [attempt_of_handle b hh] at h
  cases hrefusal : b.refusal? call with
  | some e => simp [hrefusal] at h
  | none =>
    rw [hrefusal] at h
    obtain ⟨e, henroll, heq⟩ := map_ok h
    exact ⟨e, henroll, by rw [heq]⟩

theorem generator_respond {call : Call} (hh : call.handle? = some agent)
    (hc : b.combatants.contains agent.id = true)
    (h : (b.respond call).2.generator ≠ b.generator) :
    call = .reset agent ∧ agent.group.isMobile = true ∧ 0 < b.profile.spawnJitter ∨
      (∃ action, call = .step agent action) ∧ agent.group.isMobile = true ∧ agent.step = 0 := by
  cases call with
  | reset a =>
    cases hh
    by_cases hdraws : agent.group.isMobile = true ∧ 0 < b.profile.spawnJitter
    · exact .inl ⟨rfl, hdraws⟩
    · exact absurd (generator_restart b agent hdraws) h
  | step a action =>
    cases hh
    by_cases hfirst : agent.step = 0 ∧ agent.group.isMobile
    · exact .inr ⟨⟨action, rfl⟩, hfirst.2, hfirst.1⟩
    · exact absurd (generator_act hc hfirst action) h
  | register a => exact absurd rfl h
  | sense a values =>
    refine absurd ?_ h
    show (b.perceive a.id values).2.generator = b.generator
    rw [perceive_snd, target_snd]
  | isEpisodeOver a =>
    refine absurd ?_ h
    show (b.judge a).2.generator = b.generator
    unfold judge
    split <;> rfl
  | beginTick | removeAgent | cleanup => cases hh

theorem trainer_of_respond {call : Call} (hh : call.handle? = some agent)
    (hc : b.combatants.contains agent.id = true)
    (h : (b.respond call).2.trainer ≠ b.trainer) :
    (∃ action, call = .step agent action) ∧ ¬(agent.step = 0 ∧ agent.group.isMobile = true) := by
  by_cases hstep : ∃ handle action, call = .step handle action
  · obtain ⟨handle, action, rfl⟩ := hstep
    cases hh
    refine ⟨⟨action, rfl⟩, fun hfirst => h ?_⟩
    exact (trainer_act_eq hc action).trans (if_pos hfirst)
  · refine absurd (trainer_respond b ?_) h
    exact fun handle action heq => hstep ⟨handle, action, heq⟩

/-- Every call for a handle keeps its frame. -/
theorem framed_of_attempt (hb : b.Sound) {call : Call} {reply : Reply}
    (hh : call.handle? = some agent) (h : b.attempt call = .ok (reply, b')) :
    Framed agent call b b' := by
  obtain ⟨e, henroll, rfl⟩ := respond_of_attempt hh h
  have hc := contains_of_enroll henroll
  have hafter : (Moment.mk b call).after = (e.respond call).2 := by
    simp only [Moment.after, perform, h]
  constructor
  · refine ⟨(Moment.mk b call).victim?, fun foe hfoe => Moment.foe_of_victim hb hh hfoe, ?_⟩
    intro other hother
    have hother := Moment.get?_after_of_other (m := ⟨b, call⟩) hb hh hother
    rw [hafter] at hother
    exact hother
  · rintro values rfl hknown
    cases hh
    rw [eq_of_enroll henroll hknown]
    exact (congrArg forget (perceive_snd b agent.id values)).trans (target_snd_forget b agent.id)
  · rintro rfl hknown
    rw [eq_of_enroll henroll hknown]
    rfl
  · rintro rfl hknown
    obtain ⟨c, hget⟩ := (IdMap.contains_eq_true_iff _).1 hknown
    rw [eq_of_enroll henroll hknown]
    refine ⟨b.checkedStatus agent c, ?_⟩
    simp [respond, judge, hget, IdMap.modify]
  · intro hdrawn
    have hprofile := (enroll_changes henroll).profile
    rw [← hprofile]
    exact generator_respond hh hc (by rwa [generator_enroll henroll])
  · intro hturned
    exact trainer_of_respond hh hc (by rwa [trainer_enroll henroll])

section Looks

/-- A call of a history, which may be spare. -/
structure Entry where
  call : Call
  spare : Bool

/-- The entries of a history that are not spare. -/
def needed (entries : List Entry) : List Entry := entries.filter fun e => !e.spare

/-- The replies to the calls of a history that are not spare. -/
def answers (b : Battle H T) : List Entry → List (Except BattleError Reply)
  | [] => []
  | e :: entries =>
    let (reply, b) := b.perform e.call
    if e.spare then b.answers entries else reply :: b.answers entries

/-- The spare calls of a history are looks of agents that have a record when they are made. -/
def SpareLooks (b : Battle H T) : List Entry → Prop
  | [] => True
  | e :: entries =>
    (e.spare = true → ∃ agent values, e.call = .sense agent values ∧
      b.combatants.contains agent.id = true) ∧ (b.perform e.call).2.SpareLooks entries

/-- A look of an agent with a record leaves no trace, whether it succeeds or fails. -/
theorem forget_perform_sense (hb : b.Sound) (hknown : b.combatants.contains agent.id = true)
    (values : List Float) : (b.perform (.sense agent values)).2.forget = b.forget := by
  unfold perform
  cases h : b.attempt (.sense agent values) with
  | error e => rfl
  | ok result => exact (framed_of_attempt hb rfl h).sense values rfl hknown

/-- Battles that differ in kept answers only reply alike and stay so. -/
theorem perform_of_forget (hb : b.Sound) (hb' : b'.Sound) (h : b.forget = b'.forget)
    (call : Call) : (b.perform call).1 = (b'.perform call).1 ∧
      (b.perform call).2.forget = (b'.perform call).2.forget := by
  have hanew := perform_forget hb call
  rw [h, perform_forget hb' call] at hanew
  exact ⟨(congrArg Prod.fst hanew).symm, (congrArg Prod.snd hanew).symm⟩

/-- Spare looks change no answer, along a history and the same one without them. -/
theorem answers_of_forget {entries : List Entry} (hb : b.Sound) (hb' : b'.Sound)
    (h : b.forget = b'.forget) (hspare : b.SpareLooks entries) :
    b.answers entries = b'.answers (needed entries) ∧
      (b.performAll (entries.map Entry.call)).forget =
        (b'.performAll ((needed entries).map Entry.call)).forget := by
  induction entries generalizing b b' with
  | nil => exact ⟨rfl, h⟩
  | cons e entries ih =>
    obtain ⟨call, spare⟩ := e
    obtain ⟨hlook, hspare⟩ := hspare
    have hnext := hb.perform call
    cases spare with
    | true =>
      obtain ⟨agent, values, rfl, hknown⟩ := hlook rfl
      -- the battle looked around in is the one that the rest goes on from
      exact ih hnext hb' ((forget_perform_sense hb hknown values).trans h) hspare
    | false =>
      obtain ⟨hreply, hafter⟩ := perform_of_forget hb hb' h call
      obtain ⟨hanswers, hend⟩ := ih hnext (hb'.perform call) hafter hspare
      exact ⟨congrArg₂ List.cons hreply hanswers, hend⟩

end Looks

/-- Every call for a handle keeps its frame, and looks of agents with a record can be put into a
history or left out of it without changing any other answer. -/
theorem calls_framed (hb : Reachable b) :
    (∀ (agent : Handle) (call : Call) (reply : Reply) (after : Battle H T),
      call.handle? = some agent → b.attempt call = .ok (reply, after) →
        Framed agent call b after) ∧
    ∀ entries : List Entry, b.SpareLooks entries →
      b.answers entries = b.answers (needed entries) ∧
        (b.performAll (entries.map Entry.call)).forget =
          (b.performAll ((needed entries).map Entry.call)).forget :=
  ⟨fun _ _ _ _ hh h => framed_of_attempt hb.sound hh h,
    fun _ hspare => answers_of_forget hb.sound hb.sound rfl hspare⟩

/-- The shooter of the skirmish. -/
def shooter : Handle := { id := ⟨1⟩, team := .zero, group := .agent, step := 1 }

/-- A shot between two looks. -/
def watchedShot : List Entry :=
  [⟨.sense shooter [0.0, 0.0, 0.0], true⟩, ⟨.step shooter [0.0, 0.0], false⟩,
    ⟨.sense { shooter with id := ⟨2⟩ } [0.0, 0.0, 0.0], true⟩]

theorem calls_framed_skirmish :
    let b := (start {} ({} : OpenField) ({} : FixedTrainer) 0).performAll (skirmish.take 3)
    (∃ reply after, b.attempt (.step shooter [0.0, 0.0]) = .ok (reply, after) ∧
      Framed shooter (.step shooter [0.0, 0.0]) b after) ∧
    (b.answers watchedShot).length = 1 ∧ b.SpareLooks watchedShot ∧
    b.answers watchedShot = b.answers (needed watchedShot) := by
  intro b
  have hb : Reachable b := (Reachable.start _ _ _ _).performAll _
  have hok : (b.attempt (.step shooter [0.0, 0.0])).isOk = true := by decide +kernel
  have hspare : b.SpareLooks watchedShot := by
    refine ⟨fun _ => ⟨_, _, rfl, ?_⟩, ⟨fun h => absurd h (by decide), ⟨fun _ => ?_, trivial⟩⟩⟩
    · decide +kernel
    · exact ⟨_, _, rfl, by decide +kernel⟩
  obtain ⟨hframed, hlooks⟩ := calls_framed hb
  obtain ⟨⟨reply, after⟩, h⟩ := exists_of_isOk hok
  exact ⟨⟨reply, after, h, hframed _ _ _ _ rfl h⟩, by decide +kernel, hspare, (hlooks _ hspare).1⟩

end Battle

end FlagCombat
