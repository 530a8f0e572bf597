import FlagCombat.Proofs.Battle.Perception
import FlagCombat.Proofs.Battle.Queries
import FlagCombat.Proofs.Campaign.Unbroken
import Mathlib.Data.List.Nodup

/-!
What an agent is shown of its target, and whom it shoots. The last slot of an observation says
whether the battle has a target for the agent; between the observation and the step that follows on
it nothing of the battle changes, so a shot that lands was announced.
-/

namespace FlagCombat

namespace Battle

variable {H T : Type} {b b' : Battle H T}

/-- Whatever an observation ends in, its last slot tells whether there is a target. -/
theorem perceive_last (b : Battle H T) (agent : AgentId) (readings : List Float)
    (distance bearing target : Float) :
    (b.perceive agent (readings ++ [distance, bearing, target])).1.getLast? =
      some (if (b.target agent).1.isSome then 1.0 else 0.0) := by
  unfold perceive
  generalize b.target agent = asked
  obtain ⟨found, b⟩ := asked
  dsimp only
  rw [Observation.writeHasTarget_append]
  split
  · split
    · rw [Observation.writeCentroid_append]
      split <;> simp
    · simp
  · simp

variable [Host H]

/-- An agent that was told of its surroundings has a record, and knows whether it has a target. -/
theorem Sound.told (hb : b.Sound) {agent : Handle} {readings observations : List Float}
    (h : b.sense agent readings = .ok (observations, b')) :
    b'.combatants.contains agent.id = true ∧
      observations.getLast? = some (if (b'.target agent.id).1.isSome then 1.0 else 0.0) := by
  unfold sense at h
  split at h
  · cases h
  · rename_i hlong
    obtain ⟨e, henroll, hperceive⟩ := map_ok h
    obtain ⟨rest, distance, bearing, target, rfl⟩ := Observation.exists_tail hlong
    have he : e.Sound := hb.changes (enroll_changes henroll)
    have hlast := e.perceive_last agent.id rest distance bearing target
    have hafter : b' = (e.target agent.id).2 := by rw [← perceive_snd, hperceive]
    rw [hperceive] at hlast
    have hknown := contains_of_enroll henroll
    rw [hafter, he.target_again, hlast]
    refine ⟨?_, rfl⟩
    rw [target_snd]
    exact hknown

variable [Trainer T]

theorem Moment.step_of_landed {m : Moment H T} (h : m.landed = true) :
    ∃ handle action, m.call = .step handle action := by
  unfold Moment.landed at h
  split at h
  · rename_i hshot
    obtain ⟨handle, action, _, hcall, -⟩ := Moment.step_of_shot hshot
    exact ⟨handle, action, hcall⟩
  · cases h

/-- A shot that lands was fired at a target. -/
theorem Sound.target_of_landed (hb : b.Sound) {agent : Handle} {action : List Float}
    (hrecord : b.combatants.contains agent.id = true)
    (h : (Moment.mk b (.step agent action)).landed = true) :
    (b.target agent.id).1.isSome = true := by
  rw [Moment.landed_eq, Moment.victim?_eq] at h
  obtain ⟨foe, hfoe⟩ := Option.isSome_iff_exists.1 h
  obtain ⟨⟨w, shooter⟩, hshot, hvictim⟩ := Option.bind_eq_some_iff.1 hfoe
  obtain ⟨handle, act, e, hcall, henroll, -, -, rfl, rfl, -⟩ := Moment.step_of_shot hshot
  cases hcall
  obtain rfl : e = b := eq_of_enroll henroll hrecord
  have hw := hb.walking agent action
  have htarget := (aim?_eq hb.coherent hw.coherent (by rw [walking_eq]) (by rw [walking_eq])
    (by rw [walking_eq]) agent.id).1
  dsimp only at hvictim
  rw [← htarget, (target_of_victim hvictim).1]
  rfl

end Battle

namespace Campaign

variable {H T P α β : Type}

/-- A request that shows the policy an observation shows it whether there is a target. -/
def Event.Sighted (e : Event H T) : Prop :=
  ∀ handle observations, e.request.shown? = some (handle, observations) →
    e.battle.Sound ∧ e.battle.combatants.contains handle.id = true ∧
      observations.getLast? = some (if (e.battle.target handle.id).1.isSome then 1.0 else 0.0)

/-- Every step comes right after the request that shows the policy the observation for it, and in
the same battle. -/
def Paired (events : List (Event H T)) : Prop :=
  ∀ earlier e later handle action, events = earlier ++ e :: later →
    e.request = .step handle action →
    ∃ before shown observations, earlier = before ++ [shown] ∧
      shown.request.shown? = some (handle, observations) ∧ shown.battle = e.battle

/-- The agents of whom the policy is shown an observation, in order. -/
def looking (events : List (Event H T)) : List AgentId :=
  (events.filter (·.request.shown?.isSome)).map (·.request.agent)

theorem looking_append (events more : List (Event H T)) :
    looking (events ++ more) = looking events ++ looking more := by
  simp [looking]

theorem Paired.append {events more : List (Event H T)} (h : Paired events) (h' : Paired more) :
    Paired (events ++ more) := by
  intro earlier e later handle action hsplit hstep
  rcases List.append_eq_append_iff.1 hsplit with ⟨between, rfl, hlater⟩ | ⟨between, hfirst, hlater⟩
  · obtain ⟨before, shown, observations, rfl, hshown⟩ :=
      h' between e later handle action hlater hstep
    exact ⟨events ++ before, shown, observations, (List.append_assoc ..).symm, hshown⟩
  · cases between with
    | nil =>
      obtain ⟨before, shown, observations, hnil, -⟩ := h' [] e later handle action hlater.symm hstep
      exact absurd hnil.symm (by simp)
    | cons first between =>
      obtain ⟨rfl, -⟩ := List.cons.inj hlater
      exact h earlier e between handle action hfirst hstep

theorem paired_of_no_step {events : List (Event H T)}
    (h : ∀ e ∈ events, ∀ handle action, e.request ≠ .step handle action) : Paired events := by
  rintro earlier e later handle action rfl hstep
  exact absurd hstep (h e (by simp) handle action)

/-- An action whose steps come right after their observations, which are of some agents in order, of
each at most once. -/
structure Told.Aligned (x : Told H T P α) (c : Campaign H T P) (agents : List AgentId) : Prop where
  paired : Paired (x.asks c)
  looking : (looking (x.asks c)).Sublist agents

namespace Told

variable {c c' : Campaign H T P} {agents more : List AgentId}

theorem Aligned.bind {x : Told H T P α} {f : α → Told H T P β} (hx : x.Aligned c agents)
    (hf : ∀ a c', x.run c = .ok a c' → (f a).Aligned c' more) :
    (x >>= f).Aligned c (agents ++ more) := by
  cases hrun : x.run c with
  | ok a c' =>
    obtain ⟨hpaired, hlooking⟩ := hf a c' hrun
    constructor
    · rw [asks_bind_of_ok hrun]
      exact hx.paired.append hpaired
    · rw [asks_bind_of_ok hrun, looking_append]
      exact hx.looking.append hlooking
  | error e c' =>
    constructor
    · rw [asks_bind_of_error hrun]
      exact hx.paired
    · rw [asks_bind_of_error hrun]
      exact hx.looking.trans (List.sublist_append_left agents more)

theorem aligned_quietly (x : Action H T P α) : (quietly x).Aligned c [] :=
  ⟨paired_of_no_step fun _ he => absurd he List.not_mem_nil, .refl []⟩

theorem aligned_pure (a : α) : (pure a : Told H T P α).Aligned c [] := aligned_quietly _

variable [Host H] [Trainer T] [Policy P]

theorem aligned_ask {request : Request} (hshown : request.shown? = none)
    (hstep : ∀ handle action, request ≠ .step handle action) :
    (ask request : Told H T P _).Aligned c [] := by
  constructor
  · refine paired_of_no_step fun e he => ?_
    rw [List.mem_singleton.1 he]
    exact hstep
  · simp [ask, Campaign.looking, hshown]

theorem aligned_turnOver (slot : Slot) (c : Campaign H T P) : (turnOver slot).Aligned c [] := by
  unfold turnOver
  refine (aligned_ask rfl (by rintro _ _ ⟨⟩)).bind fun _ c₁ _ => ?_
  refine (aligned_ask rfl (by rintro _ _ ⟨⟩)).bind fun _ c₂ _ => ?_
  refine (aligned_ask rfl (by rintro _ _ ⟨⟩)).bind fun _ c₃ _ => ?_
  exact (aligned_quietly _).bind fun _ c₄ _ => aligned_pure slot.renewed

theorem shown_decision (slot : Slot) (observations : List Float) :
    (decision slot observations).shown? = some (slot.handle, observations) := by
  unfold decision
  split <;> rfl

/-- A decision is a request that cannot fail and leaves the battle alone. -/
theorem exists_decide (slot : Slot) (observations : List Float) (c : Campaign H T P) :
    ∃ action c', (Told.decide slot observations).run c = .ok action c' := by
  unfold Told.decide
  split <;> exact ⟨_, _, rfl⟩

/-- The decision of an agent and its step. -/
theorem aligned_act (slot : Slot) (observations : List Float) (c : Campaign H T P) :
    (do
      let action ← Told.decide slot observations
      let reward ← ask (.step slot.handle action)
      quietly (putSlot (slot.stepped reward)) : Told H T P Unit).Aligned c [slot.handle.id] := by
  obtain ⟨action, c', hrun⟩ := exists_decide slot observations c
  obtain ⟨hasks, -, hbattle⟩ := decide_ok hrun
  have hevents : (do
      let action ← Told.decide slot observations
      let reward ← ask (.step slot.handle action)
      quietly (putSlot (slot.stepped reward)) : Told H T P Unit).asks c =
      [⟨decision slot observations, c.battle⟩, ⟨.step slot.handle action, c.battle⟩] := by
    rw [asks_bind_of_ok hrun, asks_bind_quietly, hasks, ← hbattle]
    rfl
  have hshown := shown_decision slot observations
  have hquiet : (Request.step slot.handle action).shown? = none := rfl
  constructor
  · rw [hevents]
    rintro (_ | ⟨first, earlier⟩) e later handle other hsplit hstep
    · obtain ⟨rfl, -⟩ := List.cons.inj hsplit
      have hstep : decision slot observations = .step handle other := hstep
      rw [hstep] at hshown
      cases hshown
    · obtain ⟨rfl, hrest⟩ := List.cons.inj hsplit
      obtain ⟨rfl, heq⟩ | ⟨-, hnil⟩ := List.singleton_eq_append_iff.1 hrest
      · obtain ⟨rfl, -⟩ := List.cons.inj heq
        cases hstep
        exact ⟨[], _, observations, rfl, hshown, rfl⟩
      · cases hnil
  · rw [hevents]
    simp [Campaign.looking, hshown, hquiet, agent_decision]

theorem aligned_play (slot : Slot) (c : Campaign H T P) :
    (play slot).Aligned c [slot.handle.id] := by
  unfold play
  refine (aligned_quietly (read slot.handle.id)).bind fun readings c₁ _ => ?_
  refine (aligned_ask rfl (by rintro _ _ ⟨⟩)).bind fun observations c₂ _ => ?_
  exact aligned_act slot observations c₂

/-- In the turn of an agent the policy is shown an observation of it once at most. -/
theorem aligned_turn (slot : Slot) (c : Campaign H T P) :
    (turn slot).Aligned c [slot.handle.id] := by
  unfold turn
  refine (aligned_ask rfl (by rintro _ _ ⟨⟩)).bind fun ended c₁ _ => ?_
  have hnext : (if ended then turnOver slot else pure slot).Aligned c₁ [] := by
    cases ended with
    | false => exact aligned_pure slot
    | true => exact aligned_turnOver slot c₁
  refine hnext.bind fun next c₂ hrun => ?_
  have hid : next.handle.id = slot.handle.id := by
    cases ended with
    | false =>
      cases hrun
      rfl
    | true => rw [(turnOver_ok hrun).1, Slot.renewed]
  rw [← hid]
  exact (aligned_play next c₂).bind fun _ c₃ _ => aligned_pure ended

/-- So it is in the turns of a tick. -/
theorem aligned_stepAgents (hregistered : Registered c) :
    (stepAgents agents).Aligned c agents := by
  induction agents generalizing c with
  | nil => exact aligned_pure 0
  | cons agent rest ih =>
    have hfirst : (stepAgent agent).Aligned c [agent] := by
      cases hslot : c.roster.get? agent with
      | none =>
        obtain ⟨-, hasks⟩ := stepAgent_of_none hslot
        refine ⟨?_, ?_⟩
        · rw [hasks]
          exact paired_of_no_step fun _ he => absurd he List.not_mem_nil
        · rw [hasks]
          exact List.nil_sublist _
      | some slot =>
        obtain ⟨-, hasks⟩ := stepAgent_of_some hslot
        have hturn := aligned_turn slot c
        rw [hregistered agent slot hslot] at hturn
        exact ⟨hasks ▸ hturn.paired, hasks ▸ hturn.looking⟩
    unfold stepAgents
    refine hfirst.bind fun ended c₁ hturn => ?_
    have hregistered₁ : Registered c₁ := by
      rcases stepAgent_cases hturn with ⟨-, rfl, -⟩ | ⟨slot, hslot, hrun, -⟩
      · exact hregistered
      · exact (hregistered.turn hslot hrun).1
    have hsummed := (ih hregistered₁).bind fun others c₂ _ =>
      (aligned_pure ((if ended then 1 else 0) + others) : Aligned _ c₂ [])
    rwa [List.append_nil] at hsummed

end Told

variable [Host H] [Trainer T] [Policy P] {c c' : Campaign H T P}

section Sighted

omit [Host H] [Trainer T] [Policy P] in
theorem sighted_of_quiet {request : Request} (hshown : request.shown? = none) (b : Battle H T) :
    Event.Sighted ⟨request, b⟩ := by
  intro handle observations hsome
  rw [hshown] at hsome
  cases hsome

omit [Policy P] in
theorem upheld_sound (agent : Handle) : Upheld agent fun c : Campaign H T P => c.battle.Sound :=
  (kept_sound agent.id).upheld

/-- The turns of a tick show the policy for every agent whether it has a target. -/
theorem sighted_stepAgents (agents : List AgentId) (h : c.battle.Sound) :
    Told.Ensures (Told.stepAgents agents) c Event.Sighted (fun _ c' => c'.battle.Sound)
      fun _ c' => c'.battle.Sound := by
  refine Told.ensures_stepAgents (I := fun c => c.battle.Sound)
    (fun c agent slot hc _ => ?_) agents h
  have hquiet (c : Campaign H T P) (request : Request) (_ : c.battle.Sound)
      (hshown : request.shown? = none) : Event.Sighted ⟨request, c.battle⟩ :=
    sighted_of_quiet hshown c.battle
  refine (upheld_sound slot.handle).turn hquiet (fun c next hc _ => ?_) hc
  refine (upheld_sound next.handle).play_shows hquiet ?_ hc
  intro c observations b request hc read hsensed hkept hshown handle values hsome
  rw [hshown] at hsome
  cases hsome
  have hlistened := (upheld_sound next.handle).host c
    c.battle.profile.interface.sensors.zeros hc
  exact ⟨hkept, Battle.Sound.told hlistened hsensed⟩

end Sighted

section Relations

variable {events before after : List (Event H T)} {e : Event H T} {handle : Handle}
  {action : List Float}

omit [Host H] [Trainer T] [Policy P] in
/-- An agent that is looked at once at most is shown only what it was shown before its step. -/
theorem shown_once (hnodup : (looking events).Nodup) {shown other : Event H T}
    (hshown : shown ∈ events) (hother : other ∈ events) {observations values : List Float}
    {who : Handle}
    (hlook : shown.request.shown? = some (handle, observations))
    (hlook' : other.request.shown? = some (who, values)) (hwho : who.id = handle.id) :
    values = observations := by
  have hagent {f : Event H T} {who : Handle} {values : List Float}
      (h : f.request.shown? = some (who, values)) : f.request.agent = who.id := by
    cases hrequest : f.request <;> rw [hrequest] at h <;> cases h <;> rfl
  have hsame : other = shown := by
    refine List.inj_on_of_nodup_map hnodup ?_ ?_ ?_
    · exact List.mem_filter.2 ⟨hother, by simp [hlook']⟩
    · exact List.mem_filter.2 ⟨hshown, by simp [hlook]⟩
    · rw [hagent hlook', hagent hlook, hwho]
  rw [hsame, hlook] at hlook'
  cases hlook'
  rfl

/-- In a tick of a composed campaign a shot that lands was announced: right before the step the
policy was shown that the agent has a target, and it was shown nothing else of the agent. -/
theorem Composed.announced (hc : c.Composed) (number : UInt64) (point : SpawnPoint)
    (hsplit : asked (.tick number point) c = before ++ e :: after)
    (hstep : e.request = .step handle action)
    (hlanded : (Moment.mk e.battle (.step handle action)).landed = true) :
    ∃ shown observations, before.getLast? = some shown ∧
      shown.request.shown? = some (handle, observations) ∧ observations.getLast? = some 1.0 ∧
      ∀ other ∈ asked (.tick number point) c, ∀ who values,
        other.request.shown? = some (who, values) → who.id = handle.id → values = observations := by
  have hsighted := (sighted_stepAgents c.roster.keys (hc.begun number).sound).asks
  obtain ⟨hpaired, hlooking⟩ : (Told.stepAgents c.roster.keys).Aligned _ c.roster.keys :=
    Told.aligned_stepAgents (hc.begun number).registered
  rw [← asked_tick number point] at hsighted hpaired hlooking
  have hnodup := hlooking.nodup c.roster.nodup_keys
  obtain ⟨earlier, shown, observations, rfl, hshown, hbattle⟩ :=
    hpaired before e after handle action hsplit hstep
  have hmem : shown ∈ asked (.tick number point) c := by simp [hsplit]
  obtain ⟨hsound, hrecord, hlast⟩ := hsighted shown hmem handle observations hshown
  rw [hbattle] at hsound hrecord hlast
  rw [hsound.target_of_landed hrecord hlanded, if_pos rfl] at hlast
  refine ⟨shown, observations, by simp, hshown, hlast, fun other hother who values hlook hwho => ?_⟩
  exact shown_once hnodup hmem hother hshown hlook hwho

/-- Whatever calls and hosts have led to a battle, it answers what an agent with a record asks of
it, before a call for the agent, for the observation and for the shot. And in the ticks of a
campaign, whatever it was ordered before, a shot lands only if the one observation that the policy
was shown of the agent in the tick ends in one. -/
theorem relations_sound :
    (∀ b : Battle H T, Battle.Reachable b →
      (∀ agent, b.combatants.contains agent = true → b.Candid agent) ∧
      ∀ handle e, b.enroll handle = .ok e → e.Candid handle.id ∧
        ∀ action, (e.walking handle action).Candid handle.id) ∧
    ∀ (profile : Profile) (host : H) (trainer : T) (seed : UInt64) (policy : P)
      (orders : List Order) (number : UInt64) (point : SpawnPoint),
      let events := asked (.tick number point)
        (followAll orders (outset profile host trainer seed policy))
      ∀ before e after handle action, events = before ++ e :: after →
        e.request = .step handle action → (Moment.mk e.battle (.step handle action)).landed = true →
        ∃ shown observations, before.getLast? = some shown ∧
          shown.request.shown? = some (handle, observations) ∧ observations.getLast? = some 1.0 ∧
          ∀ other ∈ events, ∀ who values,
            other.request.shown? = some (who, values) → who.id = handle.id →
              values = observations := by
  refine ⟨fun b hb => ⟨fun agent hrecord => hb.sound.candid hrecord, ?_⟩, ?_⟩
  · intro handle e henroll
    have he : e.Sound := hb.sound.changes (Battle.enroll_changes henroll)
    have hrecord := Battle.contains_of_enroll henroll
    refine ⟨he.candid hrecord, fun action => (he.walking handle action).candid ?_⟩
    rwa [Battle.walking_eq, IdMap.contains_modify]
  · intro profile host trainer seed policy orders number point events before e after handle action
    exact (composed_followAll profile host trainer seed policy orders).announced number point

theorem request_of_call {request : Request} {handle : Handle} {action : List Float}
    (h : request.call? = some (.step handle action)) : request = .step handle action := by
  cases request <;> cases h
  rfl

/-- Two of a team that stand apart, and a foe where the first of them stands. -/
def ambush : List Order :=
  [.spawn .zero .turret ⟨400.0, 200.0, 90.0⟩, .spawn .zero .turret ⟨420.0, 230.0, 180.0⟩,
    .spawn .one .turret ⟨400.0, 200.0, 270.0⟩]

/-- Everybody in the volley is answered, and in the first tick a shot of the ambush lands, and was
announced. -/
theorem relations_sound_ambush :
    let start : Campaign OpenField FixedTrainer HoldPolicy := outset {} {} {} 0 {}
    let events := asked (.tick 0 ⟨.zero, ⟨400.0, 200.0, 90.0⟩⟩) (followAll ambush start)
    (∀ n ∈ [1, 2, 3], (Battle.volleyField.beginTick 1).Candid ⟨n⟩) ∧
      ∃ shown ∈ events, ∃ handle observations,
        shown.request.shown? = some (handle, observations) ∧ observations.getLast? = some 1.0 := by
  intro start events
  obtain ⟨hcandid, hticks⟩ := relations_sound (H := OpenField) (T := FixedTrainer) (P := HoldPolicy)
  have hlanded : (events[3]?.any fun e =>
      e.request.call?.any fun call => (Moment.mk e.battle call).landed) = true := by
    decide +kernel
  have hreach : Battle.Reachable (Battle.volleyField.beginTick 1) :=
    ((Battle.Reachable.start _ _ _ _).performAll _).perform (.beginTick 1)
  have hknown : [1, 2, 3].all
      (fun n => (Battle.volleyField.beginTick 1).combatants.contains ⟨n⟩) = true := by
    decide +kernel
  refine ⟨fun n hn => (hcandid _ hreach).1 ⟨n⟩ (List.all_eq_true.1 hknown n hn), ?_⟩
  obtain ⟨e, he, hcall⟩ := (Option.any_eq_true _ _).1 hlanded
  obtain ⟨call, hcall, hlanded⟩ := (Option.any_eq_true _ _).1 hcall
  obtain ⟨handle, action, hstep⟩ := Battle.Moment.step_of_landed hlanded
  obtain rfl : call = .step handle action := hstep
  obtain ⟨before, after, hsplit⟩ := List.append_of_mem (List.mem_of_getElem? he)
  obtain ⟨shown, observations, hlast, hshown, hone, -⟩ :=
    hticks {} {} {} 0 {} ambush 0 _ before e after handle action hsplit
      (request_of_call hcall) hlanded
  have hmem : shown ∈ events := by simp [hsplit, List.mem_of_getLast? hlast]
  exact ⟨shown, hmem, handle, observations, hshown, hone⟩

end Relations

end Campaign

end FlagCombat
