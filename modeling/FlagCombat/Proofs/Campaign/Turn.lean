import FlagCombat.Proofs.Campaign.Mustered

/-!
The turns of a tick in a mustered campaign. A turn can only fail for a draw without a probability or
for an action that does not fit; what the trainer and the policy owe for a turn not to fail is said
once, as its terms.
-/

namespace FlagCombat

theorem Arena.length_overwriteHead (values rest : List Float) :
    (overwriteHead values rest).length = rest.length := by
  induction values generalizing rest with
  | nil => cases rest <;> rfl
  | cons value values ih =>
    cases rest with
    | nil => rfl
    | cons first rest => exact congrArg Nat.succ (ih rest)

theorem Arena.length_senseChannels (a : Arena) (agent : AgentId) (observations : List Float) :
    (a.senseChannels agent observations).length = observations.length := by
  unfold senseChannels
  split
  · rfl
  · exact length_overwriteHead _ _

namespace Campaign

variable {T P : Type} [Trainer T] [Policy P] {profile : Profile} {Q : T → Prop}
  {allowed : CampaignError → Prop} {roll : Roll} {last : Nat} {c : Campaign Arena T P}

/-- What a trainer of condition `Q` and a policy owe in a tick: reports keep the condition, as do
new organisms and requests for growth, and actions fit the declared shape, or else the failure is
one that is allowed. -/
structure Terms (P : Type) [Policy P] (profile : Profile) (Q : T → Prop)
    (allowed : CampaignError → Prop) : Prop where
  report : ∀ t agent fitness, Q t → match Trainer.reportFitness t agent fitness with
    | .ok t' => Q t'
    | .error e => allowed (.probability e)
  renew : ∀ t agent, Q t → Q (Trainer.nextOrganism t agent)
  grow : ∀ t, Q t → 0 < Trainer.wanted t → Q (Trainer.addAgent t)
  start : ∀ (p : P) (agent : Handle) (observations : List Float) (v : Violation),
    profile.interface.actions.violation?
      (Policy.start p agent profile.interface observations).1 = some v →
    allowed (.battle (.invalidAction agent.id v))
  act : ∀ (p : P) (agent : Handle) (observations reward : List Float) (v : Violation),
    profile.interface.actions.violation?
      (Policy.act p agent profile.interface observations reward).1 = some v →
    allowed (.battle (.invalidAction agent.id v))

omit [Policy P] in
/-- A report that does not fail is on any terms. -/
theorem report_kept (allowed : CampaignError → Prop) {t : T} {agent : AgentId}
    {fitness : List Float}
    (h : ∃ t', Trainer.reportFitness t agent fitness = .ok t' ∧ Q t') :
    match Trainer.reportFitness t agent fitness with
    | .ok t' => Q t'
    | .error e => allowed (.probability e) := by
  obtain ⟨t', hreport, ht'⟩ := h
  rw [hreport]
  exact ht'

/-- Mustered before a turn, at its end and wherever it fails. -/
abbrev Stays (profile : Profile) (Q : T → Prop) (allowed : CampaignError → Prop) (roll : Roll)
    (last : Nat) {α : Type} (x : Action Arena T P α) (c : Campaign Arena T P)
    (done : α → Prop) : Prop :=
  Ensures x c (fun a c' => Mustered profile Q roll last c' ∧ done a)
    fun e c' => allowed e ∧ Mustered profile Q roll last c'

omit [Trainer T] [Policy P] in
theorem Mustered.beginTick (h : Mustered profile Q roll last c) (number : UInt64) :
    Mustered profile Q roll last { c with battle := c.battle.beginTick number } :=
  ⟨h.sound.change (.capture c.battle number), h.profile_eq, h.trainer, h.handle_id, h.roster,
    h.battle, h.arena, h.last_eq, h.numbered⟩

omit [Policy P] in
/-- What a call other than a step does for an agent on the roll leaves everyone mustered. -/
theorem Mustered.respond_still (h : Mustered profile Q roll last c) {agent : Handle}
    (hlisted : Listed roll agent) (call : Call) (hh : call.handle? = some agent)
    (hstep : ∀ handle action, call ≠ .step handle action) :
    Mustered profile Q roll last { c with battle := (c.battle.respond call).2 } := by
  apply h.respond hlisted call hh
  rw [Battle.trainer_respond c.battle hstep]
  exact h.trainer

omit [Policy P] in
theorem Mustered.check (h : Mustered profile Q roll last c) {agent : Handle}
    (hlisted : Listed roll agent) :
    Stays profile Q allowed roll last (call fun b => b.isEpisodeOver agent) c fun _ => True := by
  have hcall : c.battle.isEpisodeOver agent = .ok (c.battle.judge agent) := by
    unfold Battle.isEpisodeOver
    rw [h.enroll hlisted]
    rfl
  have hjudged := h.respond_still hlisted (.isEpisodeOver agent) rfl (by rintro _ _ ⟨⟩)
  exact ensures_call hcall ⟨hjudged, trivial⟩

omit [Policy P] in
theorem Mustered.reset (h : Mustered profile Q roll last c) {agent : Handle}
    (hlisted : Listed roll agent) :
    Stays profile Q allowed roll last (call fun b => (b.reset agent).map ((), ·)) c
      fun _ => True := by
  have hcall : (c.battle.reset agent).map ((), ·) = .ok ((), c.battle.restart agent) := by
    unfold Battle.reset
    rw [h.enroll hlisted]
    rfl
  have hrestarted := h.respond_still hlisted (.reset agent) rfl (by rintro _ _ ⟨⟩)
  exact ensures_call hcall ⟨hrestarted, trivial⟩

theorem Mustered.turnOver (h : Mustered profile Q roll last c)
    (terms : Terms P profile Q allowed) {slot : Slot} (hlisted : Listed roll slot.handle) :
    Stays profile Q allowed roll last (turnOver slot) c fun next => Listed roll next.handle := by
  have hreport := terms.report c.battle.trainer slot.handle.id slot.episodeFitness h.trainer
  have hfinished := h.policy_eq (Policy.finish c.policy slot.handle slot.lastReward)
  unfold Campaign.turnOver
  apply ensures_modify
  apply ensures_get
  dsimp only
  cases htrainer : Trainer.reportFitness c.battle.trainer slot.handle.id slot.episodeFitness with
  | error e =>
    rw [htrainer] at hreport
    exact ⟨hreport, hfinished⟩
  | ok trainer =>
    rw [htrainer] at hreport
    apply ensures_modify
    refine ((hfinished.trainer_eq hreport).reset hlisted).bind ?_
    rintro ⟨⟩ c₁ ⟨h₁, -⟩
    apply ensures_modify
    apply ensures_modify
    have hrenewed := h₁.trainer_eq (terms.renew c₁.battle.trainer slot.handle.id h₁.trainer)
    exact ensures_pure ⟨hrenewed.putSlot slot.renewed hlisted, hlisted⟩

omit [Policy P] in
theorem Mustered.observe (h : Mustered profile Q roll last c) {agent : Handle}
    (hlisted : Listed roll agent) :
    Stays profile Q allowed roll last (observe agent) c fun _ => True := by
  let zeros := c.battle.profile.interface.sensors.zeros
  let readings := c.battle.host.senseChannels agent.id zeros
  have hlong : ¬readings.length < Observation.tailLength := by
    rw [Arena.length_senseChannels]
    simp only [zeros, Shape.zeros, Shape.length, Profile.interface, List.length_replicate,
      Profile.observationLength, Observation.tailLength]
    omega
  have hcall : c.battle.sense agent readings = .ok (c.battle.perceive agent.id readings) := by
    unfold Battle.sense
    rw [if_neg hlong, h.enroll hlisted]
    rfl
  have hperceived := h.respond_still hlisted (.sense agent readings) rfl (by rintro _ _ ⟨⟩)
  unfold Campaign.observe
  apply ensures_get
  apply ensures_modify
  exact ensures_call hcall ⟨hperceived, trivial⟩

/-- Whatever an agent decides fits, or may be refused. -/
theorem Mustered.decide (h : Mustered profile Q roll last c) (terms : Terms P profile Q allowed)
    (slot : Slot) (observations : List Float) :
    Stays profile Q allowed roll last (Campaign.decide slot observations) c fun action =>
      ∀ v, profile.interface.actions.violation? action = some v →
        allowed (.battle (.invalidAction slot.handle.id v)) := by
  unfold Campaign.decide
  apply ensures_get
  rw [h.profile_eq]
  dsimp only
  by_cases hfirst : slot.handle.step = 0
  · rw [if_pos hfirst]
    exact ⟨h.policy_eq _, terms.start c.policy slot.handle observations⟩
  · rw [if_neg hfirst]
    exact ⟨h.policy_eq _, terms.act c.policy slot.handle observations slot.lastReward⟩

theorem Mustered.act (h : Mustered profile Q roll last c) (terms : Terms P profile Q allowed)
    {agent : Handle} (hlisted : Listed roll agent) {action : List Float}
    (hfits : ∀ v, profile.interface.actions.violation? action = some v →
      allowed (.battle (.invalidAction agent.id v))) :
    Stays profile Q allowed roll last (call fun b => b.step agent action) c fun _ => True := by
  cases hviolation : profile.interface.actions.violation? action with
  | some v =>
    have hcall : c.battle.step agent action = .error (.invalidAction agent.id v) := by
      unfold Battle.step
      rw [h.profile_eq, hviolation]
    exact ensures_call_error hcall ⟨hfits v hviolation, h⟩
  | none =>
    have hcall : c.battle.step agent action = .ok (c.battle.act agent action) := by
      unfold Battle.step
      rw [h.profile_eq, hviolation, h.enroll hlisted]
      rfl
    have hgrown : Q c.battle.requestGrowth.trainer := by
      unfold Battle.requestGrowth
      split
      · rename_i hready
        exact terms.grow _ h.trainer (of_decide_eq_true (Bool.and_eq_true_iff.1 hready).2)
      · exact h.trainer
    have hacted := h.respond hlisted (.step agent action) rfl (by
      show Q (c.battle.act agent action).2.trainer
      rw [Battle.trainer_act_eq (h.contains hlisted) action]
      split
      · exact h.trainer
      · exact hgrown)
    exact ensures_call hcall ⟨hacted, trivial⟩

theorem Mustered.play (h : Mustered profile Q roll last c) (terms : Terms P profile Q allowed)
    {slot : Slot} (hlisted : Listed roll slot.handle) :
    Stays profile Q allowed roll last (play slot) c fun _ => True := by
  unfold Campaign.play
  refine (h.observe hlisted).bind ?_
  rintro observations c₁ ⟨h₁, -⟩
  refine (h₁.decide terms slot observations).bind ?_
  rintro action c₂ ⟨h₂, hfits⟩
  refine (h₂.act terms hlisted hfits).bind ?_
  rintro reward c₃ ⟨h₃, -⟩
  exact ⟨h₃.putSlot (slot.stepped reward) hlisted, trivial⟩

theorem Mustered.stepAgent (h : Mustered profile Q roll last c) (terms : Terms P profile Q allowed)
    (agent : AgentId) : Stays profile Q allowed roll last (stepAgent agent) c fun _ => True := by
  unfold Campaign.stepAgent
  apply ensures_get
  cases hslot : c.roster.get? agent with
  | none => exact ensures_pure ⟨h, trivial⟩
  | some slot =>
    have hlisted := h.listed hslot
    refine (h.check hlisted).bind ?_
    rintro ended c₁ ⟨h₁, -⟩
    have hplay (next : Slot) (c₂ : Campaign Arena T P)
        (hturned : Mustered profile Q roll last c₂ ∧ Listed roll next.handle) :
        Stays profile Q allowed roll last (do Campaign.play next; pure ended) c₂ fun _ => True := by
      refine (hturned.1.play terms hturned.2).bind ?_
      rintro ⟨⟩ c₃ ⟨h₃, -⟩
      exact ensures_pure ⟨h₃, trivial⟩
    cases ended with
    | false => exact hplay slot c₁ ⟨h₁, hlisted⟩
    | true => exact (h₁.turnOver terms hlisted).bind hplay

/-- The turns of a tick keep the roll, and fail only as is allowed. -/
theorem Mustered.stepAgents (h : Mustered profile Q roll last c)
    (terms : Terms P profile Q allowed) (agents : List AgentId) :
    Stays profile Q allowed roll last (stepAgents agents) c fun _ => True := by
  induction agents generalizing c with
  | nil => exact ensures_pure ⟨h, trivial⟩
  | cons agent rest ih =>
    refine (h.stepAgent terms agent).bind ?_
    rintro ended c₁ ⟨h₁, -⟩
    refine (ih h₁).bind ?_
    rintro others c₂ ⟨h₂, -⟩
    exact ensures_pure ⟨h₂, trivial⟩

end Campaign

end FlagCombat
