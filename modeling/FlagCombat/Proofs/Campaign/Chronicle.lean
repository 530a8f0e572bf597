import FlagCombat.Proofs.Campaign.Journal

/-!
Runs of orders that succeed, step by step: a tick begins, an agent takes its turn, the trainer's
requests are taken, an agent joins or leaves. What every step keeps holds after every run, as long as
the host hands out no id twice.
-/

namespace FlagCombat

namespace Campaign

variable {H T P : Type} [Host H] [Trainer T]

/-- The campaign at the start of a tick. -/
def begun (c : Campaign H T P) (number : UInt64) : Campaign H T P :=
  { c with battle := c.battle.beginTick number }

/-- The campaign when the agents that the trainer asked for are about to join. -/
def granted (c : Campaign H T P) : Campaign H T P :=
  { c with battle := { c.battle with
    trainer := (Trainer.takeSpawnRequests c.battle.trainer).2 } }

/-- A campaign at its outset, which nobody has joined. -/
def outset (profile : Profile) (host : H) (trainer : T) (seed : UInt64) (policy : P) :
    Campaign H T P where
  battle := .start profile host trainer seed
  roster := .empty
  policy := policy

/-- The answers of spawns that succeed. -/
def answers (agents : List AgentId) : List (Except CampaignError AgentId) := agents.map .ok

theorem answers_recruits (last count : Nat) :
    answers (recruits last count) = inSequence last count := List.map_map ..

theorem not_mem_of_nodup_answers {known : List AgentId} {agent : AgentId}
    {more : List (Except CampaignError AgentId)} (h : (answers known ++ .ok agent :: more).Nodup) :
    agent ∉ known := by
  intro hmem
  exact (List.nodup_append.1 h).2.2 _ (List.mem_map_of_mem hmem) _ List.mem_cons_self rfl

section Membership

variable {c c' : Campaign H T P}

/-- What a spawn that succeeds does. -/
theorem spawn_ok {team : Team} {group : Group} {pose : Pose} {agent : AgentId}
    (h : spawn team group pose c = .ok agent c') :
    let handle : Handle := { id := agent, team, group }
    ∃ host b, Host.spawnAgent c.battle.host team group pose = (agent, host) ∧
      Battle.enroll { c.battle with host } handle = .ok b ∧
      c' = {
        battle := { b.equip handle with trainer := Trainer.nextOrganism b.trainer agent }
        roster := c.roster.insert agent { handle }
        policy := c.policy } := by
  unfold spawn at h
  obtain ⟨_, c₁, hget, h⟩ := bind_ok h
  cases hget
  obtain ⟨_, c₂, hhost, h⟩ := bind_ok h
  cases hhost
  obtain ⟨shapes, c₃, hcall, h⟩ := bind_ok h
  obtain ⟨b, hb, rfl⟩ := call_ok hcall
  obtain ⟨b, henroll, heq⟩ := map_ok hb
  cases heq
  obtain ⟨_, c₄, hnext, h⟩ := bind_ok h
  cases hnext
  obtain ⟨_, c₅, hput, h⟩ := bind_ok h
  cases hput
  cases h
  exact ⟨_, b, rfl, henroll, rfl⟩

omit [Trainer T] in
/-- What a removal that succeeds does. -/
theorem despawn_ok {agent : AgentId} (h : despawn agent c = .ok () c') :
    ∃ last, c.battle.combatants.get? agent = some last ∧ c' = {
      battle := { c.battle.dismiss agent with host := Host.despawnAgent c.battle.host agent }
      roster := c.roster.erase agent
      policy := c.policy } := by
  have hdespawned : Ensures (despawn agent) c (fun _ c' =>
      ∃ last, c.battle.combatants.get? agent = some last ∧ c' = {
        battle := { c.battle.dismiss agent with host := Host.despawnAgent c.battle.host agent }
        roster := c.roster.erase agent
        policy := c.policy }) fun _ _ => True :=
    ensures_despawn (fun last hlast => ⟨last, hlast, rfl⟩) fun _ => trivial
  exact hdespawned.after_ok h

end Membership

variable [Policy P]

/-- What a run of steps from `c₀` has led to: the ids that the host handed out, the journal, and the
campaign. -/
inductive Chronicle (c₀ : Campaign H T P) :
    List AgentId → List (Event H T) → Campaign H T P → Prop
  | start : Chronicle c₀ [] [] c₀
  | begun {known : List AgentId} {past : List (Event H T)} {c : Campaign H T P}
      (h : Chronicle c₀ known past c) (number : UInt64) :
      Chronicle c₀ known past (c.begun number)
  | turned {known : List AgentId} {past : List (Event H T)} {c c' : Campaign H T P}
      {agent : AgentId} {slot : Slot} {ended : Bool} (h : Chronicle c₀ known past c)
      (hslot : c.roster.get? agent = some slot) (hturn : (Told.turn slot).run c = .ok ended c') :
      Chronicle c₀ known (past ++ (Told.turn slot).asks c) c'
  | granted {known : List AgentId} {past : List (Event H T)} {c : Campaign H T P}
      (h : Chronicle c₀ known past c) : Chronicle c₀ known past c.granted
  | joined {known : List AgentId} {past : List (Event H T)} {c c' : Campaign H T P}
      {agent : AgentId} {team : Team} {group : Group} {pose : Pose} (h : Chronicle c₀ known past c)
      (hspawn : spawn team group pose c = .ok agent c') (hnew : agent ∉ known) :
      Chronicle c₀ (known ++ [agent]) past c'
  | left {known : List AgentId} {past : List (Event H T)} {c c' : Campaign H T P}
      {agent : AgentId} (h : Chronicle c₀ known past c) (hdespawn : despawn agent c = .ok () c') :
      Chronicle c₀ known past c'

section Steps

variable {c c' : Campaign H T P}

/-- A turn is that of an agent with a slot, or none at all. -/
theorem Told.stepAgent_cases {agent : AgentId} {ended : Bool}
    (h : (Told.stepAgent agent).run c = .ok ended c') :
    (c.roster.get? agent = none ∧ c' = c ∧ (Told.stepAgent agent).asks c = []) ∨
      ∃ slot, c.roster.get? agent = some slot ∧ (Told.turn slot).run c = .ok ended c' ∧
        (Told.stepAgent agent).asks c = (Told.turn slot).asks c := by
  cases hslot : c.roster.get? agent with
  | none =>
    obtain ⟨hrun, hasks⟩ := Told.stepAgent_of_none hslot
    rw [hrun] at h
    cases h
    exact .inl ⟨rfl, rfl, hasks⟩
  | some slot =>
    obtain ⟨hrun, hasks⟩ := Told.stepAgent_of_some hslot
    exact .inr ⟨slot, rfl, hrun ▸ h, hasks⟩

/-- A tick asks for what its turns ask for. -/
theorem asked_tick (number : UInt64) (point : SpawnPoint) (c : Campaign H T P) :
    asked (.tick number point) c = (Told.stepAgents c.roster.keys).asks (c.begun number) :=
  Told.asks_bind_quietly (Told.stepAgents c.roster.keys) _ (c.begun number)

/-- The stages of a tick that succeeds. -/
theorem tick_stages {number : UInt64} {point : SpawnPoint} {summary : TickSummary}
    (h : tick number point c = .ok summary c') :
    ∃ ended c₁, (Told.stepAgents c.roster.keys).run (c.begun number) = .ok ended c₁ ∧
      spawnMany point (Trainer.takeSpawnRequests c₁.battle.trainer).1 c₁.granted = .ok () c' ∧
      asked (.tick number point) c = (Told.stepAgents c.roster.keys).asks (c.begun number) ∧
      arrivals (.tick number point) c =
        newcomers point (Trainer.takeSpawnRequests c₁.battle.trainer).1 c₁.granted := by
  rw [← Told.run_tick] at h
  obtain ⟨⟨⟩, c₁, hbegin, hrest, -⟩ := Told.bind_ok h
  obtain ⟨_, c₂, hget, hturns, -⟩ := Told.bind_ok hrest
  obtain ⟨ended, c₃, hsteps, hend, -⟩ := Told.bind_ok hturns
  cases hbegin
  cases hget
  obtain ⟨_, c₄, hget, htake⟩ := bind_ok (x := get) hend
  cases hget
  obtain ⟨_, c₅, hset, hspawn⟩ := bind_ok htake
  cases hset
  obtain ⟨⟨⟩, c₆, hmany, hdone⟩ := bind_ok hspawn
  cases hdone
  refine ⟨ended, c₃, hsteps, hmany, asked_tick number point c, ?_⟩
  rw [Told.run_stepAgents] at hsteps
  simp only [arrivals]
  rw [show stepAgents c.roster.keys { c with battle := c.battle.beginTick number } =
    .ok ended c₃ from hsteps]
  rfl

variable {c₀ : Campaign H T P} {known : List AgentId} {past : List (Event H T)}

theorem Chronicle.stepAgents {agents : List AgentId} {ended : Nat} (h : Chronicle c₀ known past c)
    (hsteps : (Told.stepAgents agents).run c = .ok ended c') :
    Chronicle c₀ known (past ++ (Told.stepAgents agents).asks c) c' := by
  induction agents generalizing past c ended with
  | nil =>
    have hquiet : (Told.stepAgents [] : Told H T P Nat).asks c = [] := rfl
    rw [hquiet, List.append_nil]
    cases hsteps
    exact h
  | cons agent rest ih =>
    obtain ⟨isOver, c₁, hfirst, hsteps, hasks⟩ := Told.bind_ok hsteps
    obtain ⟨others, c₂, hrest, hsteps, hasks₁⟩ := Told.bind_ok hsteps
    cases hsteps
    have hevents : (Told.stepAgents (agent :: rest)).asks c =
        (Told.stepAgent agent).asks c ++ (Told.stepAgents rest).asks c₁ :=
      hasks.trans (congrArg _ (hasks₁.trans (List.append_nil _)))
    rw [hevents, ← List.append_assoc]
    refine ih ?_ hrest
    rcases Told.stepAgent_cases hfirst with ⟨-, rfl, hnone⟩ | ⟨slot, hslot, hturn, hsome⟩
    · rwa [hnone, List.append_nil]
    · rw [hsome]
      exact h.turned hslot hturn

theorem Chronicle.spawnMany {point : SpawnPoint} {count : Nat} (h : Chronicle c₀ known past c)
    (hspawn : spawnMany point count c = .ok () c')
    (hnew : (answers known ++ newcomers point count c).Nodup) :
    ∃ new : List AgentId, newcomers point count c = answers new ∧
      Chronicle c₀ (known ++ new) past c' := by
  induction count generalizing known c with
  | zero =>
    cases hspawn
    exact ⟨[], rfl, by simpa using h⟩
  | succ count ih =>
    obtain ⟨agent, c₁, hfirst, hrest⟩ := bind_ok hspawn
    have hanswers : newcomers point (count + 1) c = .ok agent :: newcomers point count c₁ := by
      rw [newcomers, hfirst]
    rw [hanswers] at hnew ⊢
    have hfresh := not_mem_of_nodup_answers hnew
    obtain ⟨new, hmany, hleft⟩ := ih (h.joined hfirst hfresh) hrest (by simpa [answers] using hnew)
    exact ⟨agent :: new, by rw [hmany]; rfl, by simpa using hleft⟩

theorem Chronicle.obey {order : Order} (h : Chronicle c₀ known past c)
    (hobey : obey order c = .ok () c') (hnew : (answers known ++ arrivals order c).Nodup) :
    ∃ new : List AgentId, arrivals order c = answers new ∧
      Chronicle c₀ (known ++ new) (past ++ asked order c) c' := by
  cases order with
  | spawn team group pose =>
    obtain ⟨agent, c₁, hspawn, hdone⟩ := bind_ok hobey
    cases hdone
    have hanswers : arrivals (.spawn team group pose) c = [.ok agent] := by
      simp only [arrivals, hspawn]
    rw [hanswers] at hnew
    have hfresh := not_mem_of_nodup_answers hnew
    exact ⟨[agent], hanswers, by simpa [asked] using h.joined hspawn hfresh⟩
  | despawn agent => exact ⟨[], rfl, by simpa [asked] using h.left hobey⟩
  | tick number point =>
    obtain ⟨summary, c₁, htick, hdone⟩ := bind_ok hobey
    cases hdone
    obtain ⟨ended, c₂, hsteps, hspawn, hasked, harrivals⟩ := tick_stages htick
    rw [harrivals] at hnew ⊢
    rw [hasked]
    exact ((h.begun number).stepAgents hsteps).granted.spawnMany hspawn hnew

/-- Orders that all succeed lead to what the chronicle of their steps says. -/
theorem Chronicle.obeyAll {orders : List Order} (h : Chronicle c₀ known past c)
    (hrun : obeyAll orders c = .ok () c') (hnew : (answers known ++ allArrivals orders c).Nodup) :
    ∃ known', Chronicle c₀ known' (past ++ journal orders c) c' := by
  induction orders generalizing known past c with
  | nil =>
    cases hrun
    exact ⟨known, by simpa [journal] using h⟩
  | cons order orders ih =>
    obtain ⟨⟨⟩, c₁, hobey, hrun⟩ := bind_ok hrun
    simp only [allArrivals, journal, follow_of_ok hobey, ← List.append_assoc] at hnew ⊢
    obtain ⟨new, hanswers, hleft⟩ := h.obey hobey (List.nodup_append.1 hnew).1
    refine ih hleft hrun ?_
    rwa [answers, List.map_append, ← answers, ← answers, ← hanswers]

def succeeds (orders : List Order) (c : Campaign H T P) : Bool :=
  match Campaign.obeyAll orders c with
  | .ok _ _ => true
  | .error _ _ => false

theorem ok_of_succeeds {orders : List Order} (h : succeeds orders c = true) :
    ∃ c', Campaign.obeyAll orders c = .ok () c' := by
  unfold succeeds at h
  split at h
  · rename_i c' hc'
    exact ⟨c', hc'⟩
  · cases h

/-- A run of orders that succeed, from the outset. -/
theorem chronicle_of_obeyAll {profile : Profile} {host : H} {trainer : T} {seed : UInt64}
    {policy : P} {orders : List Order}
    (hrun : Campaign.obeyAll orders (outset profile host trainer seed policy) = .ok () c)
    (hnew : (allArrivals orders (outset profile host trainer seed policy)).Nodup) :
    ∃ known, Chronicle (outset profile host trainer seed policy) known
      (journal orders (outset profile host trainer seed policy)) c := by
  have hstart : Chronicle (outset profile host trainer seed policy) [] [] _ := .start
  simpa using hstart.obeyAll hrun (by simpa [answers] using hnew)

end Steps

end Campaign

end FlagCombat
