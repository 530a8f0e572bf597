import FlagCombat.Proofs.Campaign.Agreement

/-!
The journal of a campaign: what the turns of its ticks ask of the battle, the trainer and the policy,
in order, each request with the battle in which it is made. The turns are told once more as actions
that note their requests, and telling them changes nothing.
-/

namespace FlagCombat

namespace Campaign

/-- What the turn of an agent asks for. -/
inductive Request where
  | check (agent : Handle)
  | finish (agent : Handle) (reward : List Float)
  | report (agent : AgentId) (fitness : List Float)
  | reset (agent : Handle)
  | sense (agent : Handle) (readings : List Float)
  | start (agent : Handle) (observations : List Float)
  | act (agent : Handle) (observations reward : List Float)
  | step (agent : Handle) (action : List Float)
deriving DecidableEq

namespace Request

def agent : Request → AgentId
  | .check agent | .finish agent _ | .reset agent | .sense agent _ | .start agent _
  | .act agent _ _ | .step agent _ => agent.id
  | .report agent _ => agent

/-- What a request is answered with. -/
abbrev Answer : Request → Type
  | .check _ => Bool
  | .finish _ _ | .report _ _ | .reset _ => Unit
  | .sense _ _ | .start _ _ | .act _ _ _ | .step _ _ => List Float

end Request

/-- A request, and the battle in which it is made. -/
structure Event (H T : Type) where
  request : Request
  battle : Battle H T

variable {H T P α β : Type}

/-- An action with what it asks for in the campaigns where it is taken. -/
structure Told (H T P α : Type) where
  run : Action H T P α
  asks : Campaign H T P → List (Event H T)

namespace Told

/-- An action that asks for nothing. -/
def quietly (x : Action H T P α) : Told H T P α := ⟨x, fun _ => []⟩

instance : Monad (Told H T P) where
  pure a := quietly (pure a)
  bind x f := ⟨x.run >>= fun a => (f a).run, fun c => x.asks c ++
    match x.run c with
    | .ok a c' => (f a).asks c'
    | .error _ _ => []⟩

section Sequence

variable {c c' : Campaign H T P} {x : Told H T P α} {f : α → Told H T P β}

theorem asks_bind_of_ok {a : α} (h : x.run c = .ok a c') :
    (x >>= f).asks c = x.asks c ++ (f a).asks c' := by
  show x.asks c ++ _ = _
  rw [h]

theorem asks_bind_of_error {e : CampaignError} (h : x.run c = .error e c') :
    (x >>= f).asks c = x.asks c := by
  show x.asks c ++ _ = _
  rw [h]
  exact List.append_nil _

theorem asks_bind_quietly (x : Told H T P α) (f : α → Action H T P β) (c : Campaign H T P) :
    (x >>= fun a => quietly (f a)).asks c = x.asks c := by
  show x.asks c ++ (match x.run c with
    | .ok _ _ => ([] : List (Event H T))
    | .error _ _ => []) = _
  split <;> exact List.append_nil _

theorem bind_ok {b : β} (h : (x >>= f).run c = .ok b c') :
    ∃ a c₁, x.run c = .ok a c₁ ∧ (f a).run c₁ = .ok b c' ∧
      (x >>= f).asks c = x.asks c ++ (f a).asks c₁ := by
  obtain ⟨a, c₁, hx, hf⟩ := Campaign.bind_ok h
  exact ⟨a, c₁, hx, hf, asks_bind_of_ok hx⟩

/-- A sequence fails in its first action, or after it. -/
theorem bind_error {e : CampaignError} (h : (x >>= f).run c = .error e c') :
    x.run c = .error e c' ∨ ∃ a c₁, x.run c = .ok a c₁ ∧ (f a).run c₁ = .error e c' := by
  change EStateM.bind x.run (fun a => (f a).run) c = .error e c' at h
  unfold EStateM.bind at h
  cases hx : x.run c with
  | error e' c₁ =>
    rw [hx] at h
    cases h
    exact .inl rfl
  | ok a c₁ =>
    rw [hx] at h
    exact .inr ⟨a, c₁, rfl, h⟩

end Sequence

variable [Host H] [Trainer T] [Policy P]

/-- Does what a request asks for. -/
def serve : (request : Request) → Action H T P request.Answer
  | .check agent => call fun b => b.isEpisodeOver agent
  | .finish agent reward =>
    modify fun c => { c with policy := Policy.finish c.policy agent reward }
  | .report agent fitness => do
    match Trainer.reportFitness (← get).battle.trainer agent fitness with
    | .error e => throw (.probability e)
    | .ok trainer => modifyBattle fun b => { b with trainer }
  | .reset agent => call fun b => (b.reset agent).map ((), ·)
  | .sense agent readings => call fun b => b.sense agent readings
  | .start agent observations => do
    let c ← get
    let (action, policy) := Policy.start c.policy agent c.battle.profile.interface observations
    set { c with policy }
    return action
  | .act agent observations reward => do
    let c ← get
    let (action, policy) := Policy.act c.policy agent c.battle.profile.interface observations reward
    set { c with policy }
    return action
  | .step agent action => call fun b => b.step agent action

def ask (request : Request) : Told H T P request.Answer :=
  ⟨serve request, fun c => [⟨request, c.battle⟩]⟩

/-- The readings that the host takes for an agent. -/
def read (agent : AgentId) : Action H T P (List Float) := do
  let battle := (← get).battle
  let zeros := battle.profile.interface.sensors.zeros
  let (readings, host) := Host.senseChannels battle.host agent zeros
  modifyBattle fun b => { b with host }
  return readings

def turnOver (slot : Slot) : Told H T P Slot := do
  ask (.finish slot.handle slot.lastReward)
  ask (.report slot.handle.id slot.episodeFitness)
  ask (.reset slot.handle)
  quietly do
    modifyTrainer (Trainer.nextOrganism · slot.handle.id)
    putSlot slot.renewed
  return slot.renewed

def decide (slot : Slot) (observations : List Float) : Told H T P (List Float) :=
  if slot.handle.step = 0 then ask (.start slot.handle observations)
  else ask (.act slot.handle observations slot.lastReward)

def play (slot : Slot) : Told H T P Unit := do
  let readings ← quietly (read slot.handle.id)
  let observations ← ask (.sense slot.handle readings)
  let action ← Told.decide slot observations
  let reward ← ask (.step slot.handle action)
  quietly (putSlot (slot.stepped reward))

/-- The turn of an agent with a slot. -/
def turn (slot : Slot) : Told H T P Bool := do
  let ended ← ask (.check slot.handle)
  let next ← (if ended then turnOver slot else pure slot : Told H T P Slot)
  play next
  return ended

def stepAgent (agent : AgentId) : Told H T P Bool := do
  match (← quietly get).roster.get? agent with
  | some slot => turn slot
  | none => return false

def stepAgents : List AgentId → Told H T P Nat
  | [] => pure 0
  | agent :: rest => do
    let ended ← stepAgent agent
    let others ← stepAgents rest
    return (if ended then 1 else 0) + others

theorem serve_report (agent : AgentId) (fitness : List Float) (c : Campaign H T P) :
    serve (.report agent fitness) c =
      match Trainer.reportFitness c.battle.trainer agent fitness with
      | .error e => .error (.probability e) c
      | .ok trainer => .ok () { c with battle := { c.battle with trainer } } := by
  show (match Trainer.reportFitness c.battle.trainer agent fitness with
    | .error e => throw (.probability e)
    | .ok trainer => modifyBattle fun b => { b with trainer } : Action H T P Unit) c = _
  cases Trainer.reportFitness c.battle.trainer agent fitness <;> rfl

theorem report_ok {agent : AgentId} {fitness : List Float} {c c' : Campaign H T P}
    (h : (ask (.report agent fitness)).run c = .ok () c') :
    ∃ trainer, Trainer.reportFitness c.battle.trainer agent fitness = .ok trainer ∧
      c' = { c with battle := { c.battle with trainer } } := by
  have hserved : serve (.report agent fitness) c = .ok () c' := h
  rw [serve_report] at hserved
  split at hserved
  · cases hserved
  · rename_i trainer htrainer
    cases hserved
    exact ⟨trainer, htrainer, rfl⟩

theorem run_turnOver (slot : Slot) :
    (turnOver slot : Told H T P Slot).run = Campaign.turnOver slot := by
  funext c
  have hget (g : Campaign H T P → Campaign H T P) (f : Unit → Campaign H T P → Action H T P Slot) :
      (modify g >>= fun u => get >>= f u) c = f () (g c) (g c) := rfl
  unfold Campaign.turnOver
  rw [hget]
  show EStateM.bind (serve (.report slot.handle.id slot.episodeFitness)) _
    { c with policy := Policy.finish c.policy slot.handle slot.lastReward } = _
  unfold EStateM.bind
  rw [serve_report]
  cases Trainer.reportFitness c.battle.trainer slot.handle.id slot.episodeFitness <;> rfl

theorem run_play (slot : Slot) : (play slot : Told H T P Unit).run = Campaign.play slot := by
  funext c
  unfold play Campaign.play Told.decide Campaign.decide
  split
  · rfl
  · rfl

section Slot

variable {agent : AgentId} {c : Campaign H T P}

theorem stepAgent_of_some {slot : Slot} (h : c.roster.get? agent = some slot) :
    (stepAgent agent).run c = (turn slot).run c ∧
      (stepAgent agent).asks c = (turn slot).asks c := by
  let told : Told H T P Bool := match c.roster.get? agent with
    | some slot => turn slot
    | none => pure false
  have htold : told = turn slot := by
    simp only [told, h]
  show told.run c = _ ∧ told.asks c = _
  rw [htold]
  exact ⟨rfl, rfl⟩

theorem stepAgent_of_none (h : c.roster.get? agent = none) :
    (stepAgent agent).run c = .ok false c ∧ (stepAgent agent).asks c = [] := by
  let told : Told H T P Bool := match c.roster.get? agent with
    | some slot => turn slot
    | none => pure false
  have htold : told = pure false := by
    simp only [told, h]
  show told.run c = _ ∧ told.asks c = _
  rw [htold]
  exact ⟨rfl, rfl⟩

end Slot

/-- A turn that is told is the turn. -/
theorem run_stepAgent (agent : AgentId) :
    (stepAgent agent : Told H T P Bool).run = Campaign.stepAgent agent := by
  funext c
  have hget (f : Campaign H T P → Action H T P Bool) : (get >>= f) c = f c c := rfl
  unfold Campaign.stepAgent
  rw [hget]
  cases hslot : c.roster.get? agent with
  | none =>
    rw [(stepAgent_of_none hslot).1]
    rfl
  | some slot =>
    rw [(stepAgent_of_some hslot).1]
    show EStateM.bind (call fun b => b.isEpisodeOver slot.handle) _ c =
      EStateM.bind (call fun b => b.isEpisodeOver slot.handle) _ c
    unfold EStateM.bind
    cases call (fun b => b.isEpisodeOver slot.handle) c with
    | error e c' => rfl
    | ok ended c' =>
      cases ended <;> simp only [← run_play, ← run_turnOver] <;> rfl

theorem run_stepAgents (agents : List AgentId) :
    (stepAgents agents : Told H T P Nat).run = Campaign.stepAgents agents := by
  induction agents with
  | nil => rfl
  | cons agent rest ih =>
    unfold Campaign.stepAgents
    rw [← run_stepAgent, ← ih]
    rfl

def tick (number : UInt64) (point : SpawnPoint) : Told H T P TickSummary := do
  quietly (modifyBattle (·.beginTick number))
  let running := (← quietly get).roster.keys
  let episodesEnded ← stepAgents running
  quietly do
    let (spawned, trainer) := Trainer.takeSpawnRequests (← get).battle.trainer
    modifyBattle fun b => { b with trainer }
    spawnMany point spawned
    return {
      tick := number
      agents := running.length
      episodesEnded
      spawned
      totalHits := (← get).battle.hits }

theorem run_tick (number : UInt64) (point : SpawnPoint) :
    (tick number point : Told H T P TickSummary).run = Campaign.tick number point := by
  unfold Campaign.tick
  simp only [← run_stepAgents]
  rfl

end Told

/-- The part of a journal that is about an agent. -/
def own (agent : AgentId) (events : List (Event H T)) : List (Event H T) :=
  events.filter fun e => e.request.agent = agent

theorem own_append (agent : AgentId) (events more : List (Event H T)) :
    own agent (events ++ more) = own agent events ++ own agent more := List.filter_append ..

variable [Host H] [Trainer T] [Policy P]

/-- What an order asks for: only a tick lets agents take turns. -/
def asked : Order → Campaign H T P → List (Event H T)
  | .tick number point, c => (Told.tick number point).asks c
  | _, _ => []

/-- What a list of orders asks for, failed orders included. -/
def journal : List Order → Campaign H T P → List (Event H T)
  | [], _ => []
  | order :: orders, c => asked order c ++ journal orders (follow order c)

end Campaign

end FlagCombat
