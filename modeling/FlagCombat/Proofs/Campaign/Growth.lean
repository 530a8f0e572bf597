import FlagCombat.Proofs.Campaign.Apart
import FlagCombat.Proofs.Campaign.Breeding
import FlagCombat.Proofs.Campaign.Mirror

/-!
What a tick asks of a replacement trainer. Every step that does not only place its agent asks for one
agent more; nothing else in a turn does, and where a turn fails, all that was asked for before still
stands.
-/

namespace FlagCombat

open ReplacementTrainer (GrownBy grownBy_zero grownBy_addAgent grownBy_of_sated)

theorem Handle.walks_iff (handle : Handle) :
    handle.walks = true ↔ ¬(handle.step = 0 ∧ handle.group.isMobile = true) := by
  unfold walks
  rw [Bool.not_eq_true', decide_eq_false_iff_not]

namespace Battle

variable {H T : Type}

theorem trainer_requestGrowth [Trainer T] {b b' : Battle H T} (h : b'.trainer = b.trainer) :
    b'.requestGrowth.trainer = b.requestGrowth.trainer := by
  unfold requestGrowth
  rw [h]
  split
  · rfl
  · exact h

theorem grownBy_requestGrowth (b : Battle H ReplacementTrainer) :
    GrownBy 1 b.trainer b.requestGrowth.trainer := by
  unfold requestGrowth
  split
  · rename_i hready
    exact grownBy_addAgent (of_decide_eq_true (Bool.and_eq_true_iff.1 hready).2)
  · rename_i hready
    refine grownBy_of_sated 1 fun hwanted => hready ?_
    exact Bool.and_eq_true_iff.2 ⟨rfl, decide_eq_true hwanted⟩

end Battle

namespace Campaign

variable {H P α β : Type}

/-- The agents that a request steps: one, or none. -/
def Request.steps : Request → List AgentId
  | .step handle _ => [handle.id]
  | _ => []

section Counts

variable {T : Type}

/-- The agents that are stepped, in order. -/
def stepping (events : List (Event H T)) : List AgentId := events.flatMap (·.request.steps)

/-- The number of steps that do not only place their agent. -/
def walking (events : List (Event H T)) : Nat := events.countP (·.request.moves)

theorem stepping_append (events more : List (Event H T)) :
    stepping (events ++ more) = stepping events ++ stepping more := List.flatMap_append

theorem walking_append (events more : List (Event H T)) :
    walking (events ++ more) = walking events + walking more := List.countP_append

/-- The trainer after a request that makes a call. -/
theorem Request.trainer_attempt [Host H] [Trainer T] {request : Request} {call : Call}
    {reply : Reply} {b b' : Battle H T} (hcall : request.call? = some call)
    (hattempt : b.attempt call = .ok (reply, b')) :
    b'.trainer = if request.moves then b.requestGrowth.trainer else b.trainer := by
  obtain ⟨agent, hh, -⟩ := Request.handle_of_call hcall
  cases Battle.success_of_handle hh hattempt with
  | @handle _ agent _ hh' hrefusal henroll =>
    have htrainer := Battle.trainer_enroll henroll
    cases request with
    | step handle action =>
      cases hcall
      cases hh'
      show (Battle.act _ agent action).2.trainer = _
      rw [Battle.trainer_act_eq (Battle.contains_of_enroll henroll) action, htrainer,
        Battle.trainer_requestGrowth htrainer]
      have hmoves : (Request.step agent action).moves = true ↔
          ¬(agent.step = 0 ∧ agent.group.isMobile = true) := agent.walks_iff
      by_cases hfirst : agent.step = 0 ∧ agent.group.isMobile = true
      · rw [if_pos hfirst, if_neg fun hwalks => hmoves.1 hwalks hfirst]
      · rw [if_neg hfirst, if_pos (hmoves.2 hfirst)]
    | check | reset | sense =>
      cases hcall
      exact (Battle.trainer_respond _ (by rintro _ _ ⟨⟩)).trans htrainer
    | finish | report | start | act => cases hcall
  | beginTick | removeAgent | cleanup => cases hh

end Counts

variable [Host H] [Policy P] {c c' : Campaign H ReplacementTrainer P}

/-- A request lets the trainer grow by one if it moves its agent, and else not at all. -/
theorem Told.ensures_serve_grown (request : Request) (c : Campaign H ReplacementTrainer P) :
    Campaign.Ensures (Told.serve request) c
      (fun _ c' => GrownBy (if request.moves then 1 else 0) c.battle.trainer c'.battle.trainer)
      fun _ c' => c' = c := by
  have hserve := Told.ensures_serve request c
  cases hserved : Told.serve request c with
  | error e c' => exact ensures_of_error hserved (hserve.after_error hserved)
  | ok answer c' =>
    apply ensures_of_ok hserved
    cases hasked : request.call? with
    | some call =>
      cases hserve.after_ok hserved with
      | @called call reply battle hcall hattempt =>
        show GrownBy _ c.battle.trainer battle.trainer
        rw [Request.trainer_attempt hcall hattempt]
        split
        · exact c.battle.grownBy_requestGrowth
        · exact grownBy_zero rfl rfl rfl
      | aside hcall trainer policy =>
        rw [hcall] at hasked
        cases hasked
    | none =>
      cases request with
      | report agent fitness =>
        obtain ⟨trainer, hreport, rfl⟩ := Told.report_ok hserved
        exact ReplacementTrainer.report_ok hreport
      | finish | start | act =>
        cases hserved
        exact grownBy_zero rfl rfl rfl
      | check | reset | sense | step => cases hasked

/-- An action that steps some agents in their order, and with whose steps the trainer has grown at
every request and at the end. It fails at its last request, with the trainer as it is there. -/
structure Told.Tallied (x : Told H ReplacementTrainer P α) (c : Campaign H ReplacementTrainer P)
    (agents : List AgentId) : Prop where
  asked : ∀ events e more, x.asks c = events ++ e :: more →
    GrownBy (walking events) c.battle.trainer e.battle.trainer
  ended : ∀ a c', x.run c = .ok a c' → stepping (x.asks c) = agents ∧
    GrownBy (walking (x.asks c)) c.battle.trainer c'.battle.trainer
  failed : ∀ err c', x.run c = .error err c' → stepping (x.asks c) <+: agents ∧
    ∃ events e, x.asks c = events ++ [e] ∧ c'.battle.trainer = e.battle.trainer

namespace Told

variable {x : Told H ReplacementTrainer P α} {f : α → Told H ReplacementTrainer P β}
  {agents more : List AgentId}

section Sequence

omit [Host H] [Policy P]

theorem Tallied.bind (hx : x.Tallied c agents)
    (hf : ∀ a c', x.run c = .ok a c' → (f a).Tallied c' more) :
    (x >>= f).Tallied c (agents ++ more) := by
  constructor
  · intro events e later hasks
    cases hrun : x.run c with
    | error err c' =>
      rw [asks_bind_of_error hrun] at hasks
      exact hx.asked events e later hasks
    | ok a c₁ =>
      rw [asks_bind_of_ok hrun] at hasks
      -- The request is one of the second action, or one of the first.
      rcases List.append_eq_append_iff.1 hasks with
        ⟨between, rfl, hlater⟩ | ⟨between, hfirst, hlater⟩
      · rw [walking_append]
        exact (hx.ended a c₁ hrun).2.trans ((hf a c₁ hrun).asked between e later hlater)
      · cases between with
        | nil =>
          have hgrown := (hf a c₁ hrun).asked [] e later hlater.symm
          have hall : x.asks c = events := by simpa using hfirst
          rw [← hall]
          exact (hx.ended a c₁ hrun).2.trans hgrown
        | cons first between =>
          obtain ⟨rfl, -⟩ := List.cons.inj hlater
          exact hx.asked events e between hfirst
  · intro b c' hrun
    obtain ⟨a, c₁, hfirst, hnext, hasks⟩ := bind_ok hrun
    obtain ⟨hagents, hgrown⟩ := hx.ended a c₁ hfirst
    obtain ⟨hmore, hgrown'⟩ := (hf a c₁ hfirst).ended b c' hnext
    rw [hasks, stepping_append, walking_append, hagents, hmore]
    exact ⟨rfl, hgrown.trans hgrown'⟩
  · intro err c' hrun
    rcases bind_error hrun with hfirst | ⟨a, c₁, hfirst, hnext⟩
    · obtain ⟨hagents, hlast⟩ := hx.failed err c' hfirst
      rw [asks_bind_of_error hfirst]
      exact ⟨hagents.trans (List.prefix_append agents more), hlast⟩
    · obtain ⟨hmore, events, e, hlast, hsame⟩ := (hf a c₁ hfirst).failed err c' hnext
      rw [hlast] at hmore
      rw [asks_bind_of_ok hfirst, stepping_append, (hx.ended a c₁ hfirst).1, hlast]
      exact ⟨(List.prefix_append_right_inj agents).2 hmore, x.asks c ++ events, e,
        (List.append_assoc ..).symm, hsame⟩

/-- What neither asks for anything nor fails steps nobody. -/
theorem tallied_quietly {y : Action H ReplacementTrainer P α}
    (h : Campaign.Ensures y c (fun _ c' => GrownBy 0 c.battle.trainer c'.battle.trainer)
      fun _ _ => False) : (quietly y).Tallied c [] where
  asked events e later hasks := absurd hasks.symm (by simp [quietly])
  ended a c' hrun := ⟨rfl, h.after_ok hrun⟩
  failed err c' hrun := (h.after_error hrun).elim

theorem tallied_pure (a : α) : (pure a : Told H ReplacementTrainer P α).Tallied c [] :=
  tallied_quietly (grownBy_zero rfl rfl rfl)

end Sequence

theorem tallied_ask (request : Request) : (ask request).Tallied c request.steps := by
  have hserve := ensures_serve_grown request c
  have hasks : (ask request).asks c = [⟨request, c.battle⟩] := rfl
  have hsteps : stepping ((ask request).asks c) = request.steps := by
    simp [hasks, stepping]
  constructor
  · intro events e later hsplit
    rw [hasks] at hsplit
    obtain ⟨rfl, heq⟩ | ⟨-, hnil⟩ := List.singleton_eq_append_iff.1 hsplit
    · obtain ⟨rfl, -⟩ := List.cons.inj heq
      exact grownBy_zero rfl rfl rfl
    · cases hnil
  · intro answer c' hrun
    have hgrown := hserve.after_ok hrun
    refine ⟨hsteps, ?_⟩
    rw [hasks]
    simpa [walking, List.countP_singleton] using hgrown
  · intro err c' hrun
    have hsame := hserve.after_error hrun
    rw [hsteps]
    exact ⟨List.prefix_refl _, [], ⟨request, c.battle⟩, rfl, by rw [hsame]⟩

theorem tallied_turnOver (slot : Slot) (c : Campaign H ReplacementTrainer P) :
    (turnOver slot).Tallied c [] := by
  unfold turnOver
  refine (tallied_ask (.finish slot.handle slot.lastReward)).bind fun _ c₁ _ => ?_
  refine (tallied_ask (.report slot.handle.id slot.episodeFitness)).bind fun _ c₂ _ => ?_
  refine (tallied_ask (.reset slot.handle)).bind fun _ c₃ _ => ?_
  have hput : (quietly do
      modifyTrainer (Trainer.nextOrganism · slot.handle.id)
      putSlot slot.renewed : Told H ReplacementTrainer P Unit).Tallied c₃ [] :=
    tallied_quietly (grownBy_zero rfl rfl rfl)
  exact hput.bind fun _ c₄ _ => tallied_pure slot.renewed

theorem tallied_play (slot : Slot) (c : Campaign H ReplacementTrainer P) :
    (play slot).Tallied c [slot.handle.id] := by
  unfold play
  have hread : (quietly (read slot.handle.id) : Told H ReplacementTrainer P _).Tallied c [] :=
    tallied_quietly (grownBy_zero rfl rfl rfl)
  refine hread.bind fun readings c₁ _ => ?_
  refine (tallied_ask (.sense slot.handle readings)).bind fun observations c₂ _ => ?_
  have hdecide : (Told.decide slot observations).Tallied c₂ [] := by
    unfold Told.decide
    split
    · exact tallied_ask (.start slot.handle observations)
    · exact tallied_ask (.act slot.handle observations slot.lastReward)
  refine hdecide.bind fun action c₃ _ => ?_
  refine (tallied_ask (.step slot.handle action)).bind fun reward c₄ _ => ?_
  exact tallied_quietly (grownBy_zero rfl rfl rfl)

/-- The turn of an agent steps it, and nobody else. -/
theorem tallied_turn (slot : Slot) (c : Campaign H ReplacementTrainer P) :
    (turn slot).Tallied c [slot.handle.id] := by
  unfold turn
  refine (tallied_ask (.check slot.handle)).bind fun ended c₁ _ => ?_
  have hnext : (if ended then turnOver slot else pure slot).Tallied c₁ [] := by
    cases ended with
    | false => exact tallied_pure slot
    | true => exact tallied_turnOver slot c₁
  refine hnext.bind fun next c₂ hrun => ?_
  have hid : next.handle.id = slot.handle.id := by
    cases ended with
    | false =>
      cases hrun
      rfl
    | true => rw [(turnOver_ok hrun).1, Slot.renewed]
  rw [← hid]
  exact (tallied_play next c₂).bind fun _ c₃ _ => tallied_pure ended

/-- The turns of agents that are all on the roster step every one of them. -/
theorem tallied_stepAgents (hregistered : Registered c) (hnodup : agents.Nodup)
    (hrunning : ∀ agent ∈ agents, c.roster.contains agent = true) :
    (stepAgents agents).Tallied c agents := by
  induction agents generalizing c with
  | nil => exact tallied_pure 0
  | cons agent rest ih =>
    obtain ⟨hnotin, hnodup⟩ := List.nodup_cons.1 hnodup
    obtain ⟨slot, hslot⟩ := (IdMap.contains_eq_true_iff _).1 (hrunning agent List.mem_cons_self)
    obtain ⟨hrun, hasks⟩ := stepAgent_of_some hslot
    have hfirst : (stepAgent agent).Tallied c [agent] := by
      have hturn := tallied_turn slot c
      rw [hregistered agent slot hslot] at hturn
      exact ⟨hasks ▸ hturn.asked, hasks ▸ hrun ▸ hturn.ended, hasks ▸ hrun ▸ hturn.failed⟩
    unfold stepAgents
    refine hfirst.bind fun ended c₁ hturn => ?_
    rw [hrun] at hturn
    obtain ⟨hregistered₁, hroster⟩ := hregistered.turn hslot hturn
    have hrest : (stepAgents rest).Tallied c₁ rest := by
      refine ih hregistered₁ hnodup fun other hother => ?_
      have hne : other ≠ agent := fun heq => hnotin (heq ▸ hother)
      rw [← hrunning other (List.mem_cons_of_mem _ hother)]
      exact congrArg Option.isSome (hroster other hne)
    have hsummed := hrest.bind fun others c₂ _ =>
      (tallied_pure ((if ended then 1 else 0) + others) : Tallied _ c₂ [])
    rwa [List.append_nil] at hsummed

end Told

section Tick

variable {number : UInt64} {point : SpawnPoint}

theorem Registered.tallied (h : Registered c) (number : UInt64) :
    (Told.stepAgents c.roster.keys).Tallied (c.begun number) c.roster.keys :=
  Told.tallied_stepAgents (c := c.begun number) h c.roster.nodup_keys
    fun _ hagent => c.roster.mem_keys_iff.1 hagent

/-- At a request of a tick the trainer has grown by the steps before it. -/
theorem Registered.asked_grown (h : Registered c) {events more : List (Event H ReplacementTrainer)}
    {e : Event H ReplacementTrainer} (hasked : asked (.tick number point) c = events ++ e :: more) :
    GrownBy (walking events) c.battle.trainer e.battle.trainer := by
  rw [asked_tick] at hasked
  exact (h.tallied number).asked events e more hasked

/-- The turns of a tick step everybody on the roster, if they succeed. -/
theorem Registered.turns_grown (h : Registered c) (point : SpawnPoint) {ended : Nat}
    (hturns : stepAgents c.roster.keys (c.begun number) = .ok ended c') :
    stepping (asked (.tick number point) c) = c.roster.keys ∧
      GrownBy (walking (asked (.tick number point) c)) c.battle.trainer c'.battle.trainer := by
  rw [← Told.run_stepAgents] at hturns
  rw [asked_tick]
  exact (h.tallied number).ended ended c' hturns

/-- Turns that fail have stepped the first of the roster, and keep what they asked for. -/
theorem Registered.turns_stalled (h : Registered c) (point : SpawnPoint) {err : CampaignError}
    (hturns : stepAgents c.roster.keys (c.begun number) = .error err c') :
    stepping (asked (.tick number point) c) <+: c.roster.keys ∧
      ∃ events failing, asked (.tick number point) c = events ++ [failing] ∧
        GrownBy (walking events) c.battle.trainer c'.battle.trainer := by
  rw [← Told.run_stepAgents] at hturns
  obtain ⟨hstepping, events, failing, hasked, hsame⟩ := (h.tallied number).failed err c' hturns
  rw [← asked_tick number point c] at hstepping hasked
  refine ⟨hstepping, events, failing, hasked, ?_⟩
  rw [hsame]
  exact h.asked_grown hasked

/-- A tick that succeeds steps everybody on the roster. -/
theorem Registered.stepping_eq (h : Registered c) {summary : TickSummary}
    (htick : tick number point c = .ok summary c') :
    stepping (asked (.tick number point) c) = c.roster.keys := by
  obtain ⟨ended, turned, hturns, -⟩ := tick_stages htick
  rw [Told.run_stepAgents] at hturns
  exact (h.turns_grown point hturns).1

/-- Whether or not a tick succeeds, it steps nobody who is not on the roster. -/
theorem Registered.mem_of_stepping (h : Registered c) {agent : AgentId}
    (hagent : agent ∈ stepping (asked (.tick number point) c)) : agent ∈ c.roster.keys := by
  cases hturns : stepAgents c.roster.keys (c.begun number) with
  | ok ended c' => rwa [(h.turns_grown point hturns).1] at hagent
  | error err c' => exact (h.turns_stalled point hturns).1.subset hagent

end Tick

end Campaign

end FlagCombat
