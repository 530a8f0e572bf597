import FlagCombat.Campaign.Wander
import FlagCombat.Proofs.Battle.Exchange
import FlagCombat.Proofs.Campaign.Journal

/-!
Neither team is favoured. A campaign whose orders are given with the teams exchanged goes as the
campaign does, with the teams exchanged: the same agents join, see the same, decide the same, earn
the same and are struck alike, and where an order fails, the other one fails.
-/

namespace FlagCombat

open Arena (exchange)

def Slot.exchanged (s : Slot) : Slot := { s with handle := exchange.handle s.handle }

def CampaignError.exchanged : CampaignError → CampaignError
  | .battle e => .battle (exchange.error e)
  | .probability e => .probability e

def SpawnPoint.exchanged (p : SpawnPoint) : SpawnPoint := { p with team := p.team.opponent }

/-- A policy that does not look at the team of an agent. -/
structure TeamBlind (P : Type) [Policy P] : Prop where
  start (p : P) (agent : Handle) (shapes : Interface) (observations : List Float) :
    Policy.start p (exchange.handle agent) shapes observations =
      Policy.start p agent shapes observations
  act (p : P) (agent : Handle) (shapes : Interface) (observations reward : List Float) :
    Policy.act p (exchange.handle agent) shapes observations reward =
      Policy.act p agent shapes observations reward
  finish (p : P) (agent : Handle) (reward : List Float) :
    Policy.finish p (exchange.handle agent) reward = Policy.finish p agent reward

theorem teamBlind_hold : TeamBlind HoldPolicy :=
  ⟨fun _ _ _ _ => rfl, fun _ _ _ _ _ => rfl, fun _ _ _ => rfl⟩

theorem teamBlind_wander : TeamBlind WanderPolicy :=
  ⟨fun _ _ _ _ => rfl, fun _ _ _ _ _ => rfl, fun _ _ _ => rfl⟩

namespace Campaign

variable {T P α β : Type}

/-- The campaign with its teams exchanged. -/
def exchanged (c : Campaign Arena T P) : Campaign Arena T P where
  battle := exchange.battle c.battle
  roster := c.roster.mapValues fun _ => Slot.exchanged
  policy := c.policy

def Order.exchanged : Order → Order
  | .spawn team group pose => .spawn team.opponent group pose
  | .despawn agent => .despawn agent
  | .tick number point => .tick number point.exchanged

def Request.exchanged : Request → Request
  | .check agent => .check (exchange.handle agent)
  | .finish agent reward => .finish (exchange.handle agent) reward
  | .report agent fitness => .report agent fitness
  | .reset agent => .reset (exchange.handle agent)
  | .sense agent readings => .sense (exchange.handle agent) readings
  | .start agent observations => .start (exchange.handle agent) observations
  | .act agent observations reward => .act (exchange.handle agent) observations reward
  | .step agent action => .step (exchange.handle agent) action

def Event.exchanged (e : Event Arena T) : Event Arena T where
  request := e.request.exchanged
  battle := exchange.battle e.battle

section Actions

/-- The end of an operation with the teams exchanged. -/
def exchangedEnd (f : α → α) : EStateM.Result CampaignError (Campaign Arena T P) α →
    EStateM.Result CampaignError (Campaign Arena T P) α
  | .ok a c => .ok (f a) c.exchanged
  | .error e c => .error e.exchanged c.exchanged

/-- The second operation does in the exchanged campaign what the first one does. -/
def Swaps (f : α → α) (x x' : Action Arena T P α) (c : Campaign Arena T P) : Prop :=
  x' c.exchanged = exchangedEnd f (x c)

variable {c : Campaign Arena T P}

theorem Swaps.bind {f : α → α} {g : β → β} {x x' : Action Arena T P α}
    {k k' : α → Action Arena T P β} (hx : Swaps f x x' c)
    (hk : ∀ a c₁, Swaps g (k a) (k' (f a)) c₁) : Swaps g (x >>= k) (x' >>= k') c := by
  show EStateM.bind x' k' c.exchanged = exchangedEnd g (EStateM.bind x k c)
  unfold EStateM.bind
  rw [hx]
  cases x c with
  | ok a c₁ => exact hk a c₁
  | error e c₁ => rfl

theorem swaps_pure (f : α → α) (a : α) : Swaps f (pure a) (pure (f a)) c := rfl

theorem swaps_get : Swaps exchanged get get c := rfl

theorem swaps_modify {f f' : Campaign Arena T P → Campaign Arena T P}
    (h : f' c.exchanged = (f c).exchanged) : Swaps id (modify f) (modify f') c :=
  congrArg (EStateM.Result.ok ()) h

theorem swaps_modifyBattle {f f' : Battle Arena T → Battle Arena T}
    (h : f' (exchange.battle c.battle) = exchange.battle (f c.battle)) :
    Swaps id (modifyBattle f) (modifyBattle f') c :=
  swaps_modify (congrArg (fun battle => { c.exchanged with battle }) h)

theorem swaps_modifyTrainer (f : T → T) : Swaps id (modifyTrainer f) (modifyTrainer f) c :=
  swaps_modifyBattle rfl

theorem swaps_putSlot (slot : Slot) : Swaps id (putSlot slot) (putSlot slot.exchanged) c :=
  swaps_modify (by simp only [exchanged, IdMap.mapValues_insert]; rfl)

theorem swaps_call {f f' : Battle Arena T → Except BattleError (α × Battle Arena T)} {g : α → α}
    (h : f' (exchange.battle c.battle) = exchange.outcome g (f c.battle)) :
    Swaps g (call f) (call f') c := by
  unfold Swaps call
  have hbattle : c.exchanged.battle = exchange.battle c.battle := rfl
  rw [hbattle, h]
  cases f c.battle <;> rfl

end Actions

section Roster

variable {c : Campaign Arena T P}

theorem swaps_spawn [Trainer T] (team : Team) (group : Group) (pose : Pose) :
    Swaps id (spawn team group pose) (spawn team.opponent group pose) c := by
  unfold spawn
  refine swaps_get.bind fun a c₁ => ?_
  have hspawned : Host.spawnAgent a.exchanged.battle.host team.opponent group pose = _ :=
    exchange.spawnAgent a.battle.host team group pose
  rw [hspawned]
  generalize Host.spawnAgent a.battle.host team group pose = r
  obtain ⟨id, host⟩ := r
  dsimp only
  refine Swaps.bind (swaps_modifyBattle ?_) fun _ c₂ => ?_
  · rfl
  refine (swaps_call (exchange.register_battle c₂.battle { id, team, group })).bind fun _ c₃ => ?_
  refine (swaps_modifyTrainer _).bind fun _ c₄ => ?_
  exact (swaps_putSlot { handle := { id, team, group } }).bind fun _ c₅ => rfl

theorem swaps_despawn (agent : AgentId) : Swaps id (despawn agent) (despawn agent) c := by
  unfold despawn
  have herase : { c.exchanged with roster := c.exchanged.roster.erase agent } =
      ({ c with roster := c.roster.erase agent } : Campaign Arena T P).exchanged := by
    simp only [exchanged, IdMap.mapValues_erase]
  refine (swaps_modify herase).bind fun _ c₁ => ?_
  refine (swaps_call (exchange.removeAgent_battle c₁.battle agent)).bind fun _ c₂ => ?_
  apply swaps_modifyBattle
  simp only [Relabelling.battle, exchange.despawnAgent]

theorem swaps_spawnMany [Trainer T] (point : SpawnPoint) (count : Nat) :
    Swaps id (spawnMany point count) (spawnMany point.exchanged count) c := by
  induction count generalizing c with
  | zero => exact swaps_pure id ()
  | succ count ih =>
    unfold spawnMany
    exact (swaps_spawn point.team .agent point.pose).bind fun _ _ => ih

end Roster

section Turns

/-- The second action does and asks for in the exchanged campaign what the first one does and asks
for. -/
structure Exchanges (f : α → α) (x x' : Told Arena T P α) (c : Campaign Arena T P) : Prop where
  run : Swaps f x.run x'.run c
  asks : x'.asks c.exchanged = (x.asks c).map Event.exchanged

variable {c : Campaign Arena T P}

theorem Exchanges.bind {f : α → α} {g : β → β} {x x' : Told Arena T P α}
    {k k' : α → Told Arena T P β} (hx : Exchanges f x x' c)
    (hk : ∀ a c₁, Exchanges g (k a) (k' (f a)) c₁) : Exchanges g (x >>= k) (x' >>= k') c := by
  refine ⟨hx.run.bind fun a c₁ => (hk a c₁).run, ?_⟩
  have hrun := hx.run
  unfold Swaps at hrun
  cases h : x.run c with
  | ok a c₁ =>
    rw [h] at hrun
    rw [Told.asks_bind_of_ok h, Told.asks_bind_of_ok hrun, hx.asks, (hk a c₁).asks, List.map_append]
  | error e c₁ =>
    rw [h] at hrun
    rw [Told.asks_bind_of_error h, Told.asks_bind_of_error hrun, hx.asks]

theorem exchanges_quietly {f : α → α} {x x' : Action Arena T P α} (h : Swaps f x x' c) :
    Exchanges f (Told.quietly x) (Told.quietly x') c := ⟨h, rfl⟩

theorem exchanges_pure (f : α → α) (a : α) :
    Exchanges f (pure a : Told Arena T P α) (pure (f a)) c := ⟨rfl, rfl⟩

theorem swaps_read (agent : AgentId) :
    Swaps id (Told.read agent) (Told.read agent) c := by
  unfold Told.read
  refine swaps_get.bind fun a c₁ => ?_
  dsimp only
  have hread : Host.senseChannels a.exchanged.battle.host agent
      a.exchanged.battle.profile.interface.sensors.zeros = _ :=
    exchange.senseChannels a.battle.host agent a.battle.profile.interface.sensors.zeros
  rw [hread]
  refine Swaps.bind (swaps_modifyBattle ?_) fun _ c₂ => rfl
  rfl

variable [Trainer T] [Policy P]

open Told (ask)

theorem exchanges_check (agent : Handle) :
    Exchanges id (ask (.check agent)) (ask (.check (exchange.handle agent))) c := by
  refine ⟨?_, rfl⟩
  show Swaps id (call fun b => b.isEpisodeOver agent)
    (call fun b => b.isEpisodeOver (exchange.handle agent)) c
  exact swaps_call (exchange.isEpisodeOver_battle c.battle agent)

theorem exchanges_reset (agent : Handle) :
    Exchanges id (ask (.reset agent)) (ask (.reset (exchange.handle agent))) c := by
  refine ⟨?_, rfl⟩
  show Swaps id (call fun b => (b.reset agent).map ((), ·))
    (call fun b => (b.reset (exchange.handle agent)).map ((), ·)) c
  exact swaps_call (Arena.reset_exchange c.battle agent)

theorem exchanges_sense (agent : Handle) (readings : List Float) :
    Exchanges id (ask (.sense agent readings))
      (ask (.sense (exchange.handle agent) readings)) c := by
  refine ⟨?_, rfl⟩
  show Swaps id (call fun b => b.sense agent readings)
    (call fun b => b.sense (exchange.handle agent) readings) c
  exact swaps_call (exchange.sense_battle c.battle agent readings)

theorem exchanges_step (agent : Handle) (action : List Float) :
    Exchanges id (ask (.step agent action)) (ask (.step (exchange.handle agent) action)) c := by
  refine ⟨?_, rfl⟩
  show Swaps id (call fun b => b.step agent action)
    (call fun b => b.step (exchange.handle agent) action) c
  exact swaps_call (Arena.step_exchange c.battle agent action)

theorem exchanges_report (agent : AgentId) (fitness : List Float) :
    Exchanges id (ask (.report agent fitness)) (ask (.report agent fitness)) c := by
  refine ⟨?_, rfl⟩
  show Told.serve (.report agent fitness) c.exchanged =
    exchangedEnd id (Told.serve (.report agent fitness) c)
  rw [Told.serve_report, Told.serve_report]
  have htrainer : c.exchanged.battle.trainer = c.battle.trainer := rfl
  rw [htrainer]
  cases Trainer.reportFitness c.battle.trainer agent fitness <;> rfl

variable (hblind : TeamBlind P)

include hblind

theorem exchanges_finish (agent : Handle) (reward : List Float) :
    Exchanges id (ask (.finish agent reward)) (ask (.finish (exchange.handle agent) reward)) c := by
  refine ⟨swaps_modify ?_, rfl⟩
  exact congrArg (fun policy => { c.exchanged with policy }) (hblind.finish c.policy agent reward)

theorem exchanges_turnOver (slot : Slot) :
    Exchanges Slot.exchanged (Told.turnOver slot) (Told.turnOver slot.exchanged) c := by
  unfold Told.turnOver
  refine (exchanges_finish hblind slot.handle slot.lastReward).bind fun _ c₁ => ?_
  refine (exchanges_report slot.handle.id slot.episodeFitness).bind fun _ c₂ => ?_
  refine (exchanges_reset slot.handle).bind fun _ c₃ => ?_
  refine Exchanges.bind (f := id) (exchanges_quietly ?_) fun _ c₄ => exchanges_pure _ slot.renewed
  exact (swaps_modifyTrainer _).bind fun _ c₅ => swaps_putSlot slot.renewed

theorem exchanges_start (agent : Handle) (observations : List Float) :
    Exchanges id (ask (.start agent observations))
      (ask (.start (exchange.handle agent) observations)) c := by
  refine ⟨?_, rfl⟩
  have hstart := hblind.start c.policy agent c.battle.profile.interface observations
  exact congrArg
    (fun r : List Float × P => EStateM.Result.ok r.1 { c.exchanged with policy := r.2 }) hstart

theorem exchanges_act (agent : Handle) (observations reward : List Float) :
    Exchanges id (ask (.act agent observations reward))
      (ask (.act (exchange.handle agent) observations reward)) c := by
  refine ⟨?_, rfl⟩
  have hact := hblind.act c.policy agent c.battle.profile.interface observations reward
  exact congrArg
    (fun r : List Float × P => EStateM.Result.ok r.1 { c.exchanged with policy := r.2 }) hact

theorem exchanges_decide (slot : Slot) (observations : List Float) :
    Exchanges id (Told.decide slot observations) (Told.decide slot.exchanged observations) c := by
  unfold Told.decide
  have hstep : slot.exchanged.handle.step = slot.handle.step := rfl
  rw [hstep]
  split
  · exact exchanges_start hblind slot.handle observations
  · exact exchanges_act hblind slot.handle observations slot.lastReward

theorem exchanges_play (slot : Slot) :
    Exchanges id (Told.play slot) (Told.play slot.exchanged) c := by
  unfold Told.play
  refine (exchanges_quietly (swaps_read slot.handle.id)).bind fun readings c₁ => ?_
  refine (exchanges_sense slot.handle readings).bind fun observations c₂ => ?_
  refine (exchanges_decide hblind slot observations).bind fun action c₃ => ?_
  refine (exchanges_step slot.handle action).bind fun reward c₄ => ?_
  exact exchanges_quietly (swaps_putSlot (slot.stepped reward))

theorem exchanges_turn (slot : Slot) :
    Exchanges id (Told.turn slot) (Told.turn slot.exchanged) c := by
  unfold Told.turn
  refine (exchanges_check slot.handle).bind fun ended c₁ => ?_
  refine Exchanges.bind (f := Slot.exchanged) ?_ fun next c₂ => ?_
  · cases ended with
    | false => exact exchanges_pure _ slot
    | true => exact exchanges_turnOver hblind slot
  · exact (exchanges_play hblind next).bind fun _ c₃ => exchanges_pure id ended

theorem exchanges_stepAgent (agent : AgentId) :
    Exchanges id (Told.stepAgent agent) (Told.stepAgent agent) c := by
  have hslot : c.exchanged.roster.get? agent = (c.roster.get? agent).map Slot.exchanged :=
    IdMap.get?_mapValues _ _ _
  cases h : c.roster.get? agent with
  | none =>
    rw [h] at hslot
    obtain ⟨hrun, hasks⟩ := Told.stepAgent_of_none h
    obtain ⟨hrun', hasks'⟩ := Told.stepAgent_of_none hslot
    exact ⟨by rw [Swaps, hrun, hrun']; rfl, by rw [hasks, hasks']; rfl⟩
  | some slot =>
    rw [h] at hslot
    obtain ⟨hrun, hasks⟩ := Told.stepAgent_of_some h
    obtain ⟨hrun', hasks'⟩ := Told.stepAgent_of_some hslot
    have hturn := exchanges_turn (c := c) hblind slot
    exact ⟨by rw [Swaps, hrun, hrun']; exact hturn.run, by rw [hasks, hasks']; exact hturn.asks⟩

theorem exchanges_stepAgents (agents : List AgentId) :
    Exchanges id (Told.stepAgents agents) (Told.stepAgents agents) c := by
  induction agents generalizing c with
  | nil => exact exchanges_pure id 0
  | cons agent rest ih =>
    unfold Told.stepAgents
    refine (exchanges_stepAgent hblind agent).bind fun ended c₁ => ?_
    exact ih.bind fun others c₂ => exchanges_pure id _

/-- A tick takes the turns of the exchanged agents, and brings in what the trainer asks for on the
other team. -/
theorem exchanges_tick (number : UInt64) (point : SpawnPoint) :
    Exchanges id (Told.tick number point) (Told.tick number point.exchanged) c := by
  unfold Told.tick
  refine Exchanges.bind (exchanges_quietly (swaps_modifyBattle ?_)) fun _ c₁ => ?_
  · exact exchange.beginTick_battle c.battle number
  refine (exchanges_quietly swaps_get).bind fun now c₂ => ?_
  have hkeys : now.exchanged.roster.keys = now.roster.keys :=
    IdMap.keys_eq fun _ => IdMap.contains_mapValues _ _ _
  rw [hkeys]
  refine (exchanges_stepAgents hblind now.roster.keys).bind fun ended c₃ => exchanges_quietly ?_
  refine swaps_get.bind fun taken c₄ => ?_
  have htrainer : taken.exchanged.battle.trainer = taken.battle.trainer := rfl
  rw [htrainer]
  refine Swaps.bind (swaps_modifyBattle ?_) fun _ c₅ => ?_
  · rfl
  exact (swaps_spawnMany point _).bind fun _ c₆ => swaps_get.bind fun left c₇ => rfl

end Turns

/-- What an order that succeeds answers. -/
inductive Response where
  | joined (agent : AgentId)
  | left
  | ran (summary : TickSummary)
deriving DecidableEq

section Orders

variable [Trainer T] [Policy P] {c : Campaign Arena T P}

/-- What an order answers, or why it fails. -/
def respond (order : Order) (c : Campaign Arena T P) : Except CampaignError Response :=
  match order with
  | .spawn team group pose =>
    match spawn team group pose c with
    | .ok agent _ => .ok (.joined agent)
    | .error e _ => .error e
  | .despawn agent =>
    match despawn agent c with
    | .ok _ _ => .ok .left
    | .error e _ => .error e
  | .tick number point =>
    match tick number point c with
    | .ok summary _ => .ok (.ran summary)
    | .error e _ => .error e

/-- What the orders of a list answer, each in the campaign that the ones before it leave. -/
def responses : List Order → Campaign Arena T P → List (Except CampaignError Response)
  | [], _ => []
  | order :: orders, c => respond order c :: responses orders (follow order c)

/-- The orders with the teams exchanged lead the campaign to the same end, with the teams
exchanged: they answer the same, and the agents are asked and answered the same on the way. -/
structure Exchangeable (orders : List Order) (c : Campaign Arena T P) : Prop where
  campaign : followAll (orders.map Order.exchanged) c = (followAll orders c).exchanged
  responses : responses (orders.map Order.exchanged) c =
    (responses orders c).map fun answer => answer.mapError CampaignError.exchanged
  journal : journal (orders.map Order.exchanged) c = (journal orders c).map Event.exchanged

variable (hblind : TeamBlind P)

include hblind

theorem swaps_tick (number : UInt64) (point : SpawnPoint) :
    Swaps id (tick number point) (tick number point.exchanged) c := by
  rw [← Told.run_tick, ← Told.run_tick]
  exact (exchanges_tick hblind number point).run

theorem follow_exchanged (order : Order) :
    follow order.exchanged c.exchanged = (follow order c).exchanged := by
  have hobey : Swaps id (obey order) (obey order.exchanged) c := by
    cases order with
    | spawn team group pose => exact (swaps_spawn team group pose).bind fun _ _ => rfl
    | despawn agent => exact swaps_despawn agent
    | tick number point => exact (swaps_tick hblind number point).bind fun _ _ => rfl
  unfold follow
  rw [hobey]
  cases obey order c <;> rfl

theorem respond_exchanged (order : Order) :
    respond order.exchanged c.exchanged =
      (respond order c).mapError CampaignError.exchanged := by
  cases order with
  | spawn team group pose =>
    have hspawn : spawn team.opponent group pose c.exchanged = _ := swaps_spawn team group pose
    simp only [Order.exchanged, respond, hspawn]
    cases spawn team group pose c <;> rfl
  | despawn agent =>
    have hdespawn : despawn agent c.exchanged = _ := swaps_despawn agent
    simp only [Order.exchanged, respond, hdespawn]
    cases despawn agent c <;> rfl
  | tick number point =>
    have htick : tick number point.exchanged c.exchanged = _ := swaps_tick hblind number point
    simp only [Order.exchanged, respond, htick]
    cases tick number point c <;> rfl

theorem asked_exchanged (order : Order) :
    asked order.exchanged c.exchanged = (asked order c).map Event.exchanged := by
  cases order with
  | spawn team group pose => rfl
  | despawn agent => rfl
  | tick number point => exact (exchanges_tick hblind number point).asks

/-- One order after the other, the exchanged campaign goes as the campaign does. -/
theorem exchangeable_of_same (hsame : c.exchanged = c) (orders : List Order) :
    Exchangeable orders c := by
  have hrun (c : Campaign Arena T P) :
      followAll (orders.map Order.exchanged) c.exchanged = (followAll orders c).exchanged ∧
      Campaign.responses (orders.map Order.exchanged) c.exchanged =
        (Campaign.responses orders c).map (fun answer => answer.mapError CampaignError.exchanged) ∧
      Campaign.journal (orders.map Order.exchanged) c.exchanged =
        (Campaign.journal orders c).map Event.exchanged := by
    induction orders generalizing c with
    | nil => exact ⟨rfl, rfl, rfl⟩
    | cons order orders ih =>
      obtain ⟨hend, hresponses, hjournal⟩ := ih (follow order c)
      rw [← follow_exchanged hblind] at hend hresponses hjournal
      refine ⟨hend, ?_, ?_⟩
      · exact congrArg₂ List.cons (respond_exchanged hblind order) hresponses
      · simp only [List.map_cons, Campaign.journal, List.map_append, asked_exchanged hblind,
          hjournal]
  have hfrom := hrun c
  rw [hsame] at hfrom
  exact ⟨hfrom.1, hfrom.2.1, hfrom.2.2⟩

end Orders

/-- There are no teams yet to exchange in an opening. -/
theorem exchanged_opening [Trainer T] (profile : Profile) (world : WorldSettings) (trainer : T)
    (seed : UInt64) (policy : P) :
    (opening profile world trainer seed policy).exchanged =
      opening profile world trainer seed policy := by
  have hteams : exchange.teams Teams.empty = Teams.empty := Teams.ext_teamOf fun _ => rfl
  unfold opening Battle.start
  simp only [exchanged, Relabelling.battle, hteams]
  rfl

/-- Neither team is favoured: whatever is ordered, and also where orders fail, exchanging the teams
in the orders exchanges them in what comes of it and changes nothing else, whether the agents wander
or hold still. -/
theorem teams_exchangeable [Trainer T] (profile : Profile) (world : WorldSettings) (trainer : T)
    (seed : UInt64) (orders : List Order) :
    (∀ policy : WanderPolicy, Exchangeable orders (opening profile world trainer seed policy)) ∧
    ∀ policy : HoldPolicy, Exchangeable orders (opening profile world trainer seed policy) :=
  ⟨fun _ => exchangeable_of_same teamBlind_wander (exchanged_opening _ _ _ _ _) orders,
    fun _ => exchangeable_of_same teamBlind_hold (exchanged_opening _ _ _ _ _) orders⟩

end Campaign

end FlagCombat
