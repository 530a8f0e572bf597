import FlagCombat.Campaign.Tick
import FlagCombat.Proofs.Battle.Replacement
import FlagCombat.Proofs.Battle.Running

/-!
A campaign between two turns. Every running agent was issued an organism, nobody's organism is
withdrawn or has a score, and every episode runs. A turn breaks this only for its own agent and only
until the agent is given its next organism.
-/

namespace FlagCombat

namespace Campaign

variable {H P : Type}

section Actions

variable {T α β : Type} {c c' : Campaign H T P}

theorem bind_ok {x : Action H T P α} {f : α → Action H T P β} {b : β}
    (h : (x >>= f) c = .ok b c') : ∃ a c₁, x c = .ok a c₁ ∧ f a c₁ = .ok b c' := by
  change EStateM.bind x f c = _ at h
  unfold EStateM.bind at h
  split at h
  · rename_i a c₁ hx
    exact ⟨a, c₁, hx, h⟩
  · cases h

theorem call_ok {f : Battle H T → Except BattleError (α × Battle H T)} {a : α}
    (h : call f c = .ok a c') :
    ∃ battle, f c.battle = .ok (a, battle) ∧ c' = { c with battle } := by
  unfold call at h
  split at h
  · rename_i a' battle hf
    cases h
    exact ⟨battle, hf, rfl⟩
  · cases h

end Actions

/-- A campaign in which the organisms of some agents and the episodes of others are as they are
between two turns. -/
structure Settled (p q : AgentId → Prop) (c : Campaign H ReplacementTrainer P) : Prop where
  handle_id : ∀ agent slot, c.roster.get? agent = some slot → slot.handle.id = agent
  issued : ∀ agent, c.roster.contains agent = true →
    c.battle.trainer.organisms.contains agent = true
  idle : ReplacementTrainer.Idle p c.battle.trainer
  running : Battle.Running q c.battle

/-- A campaign between two turns. -/
abbrev Rest (c : Campaign H ReplacementTrainer P) : Prop :=
  Settled (fun _ => True) (fun _ => True) c

section Settled

variable {p q : AgentId → Prop} {c c' : Campaign H ReplacementTrainer P}

theorem Settled.putSlot (h : Settled p q c) {slot : Slot}
    (hissued : c.battle.trainer.organisms.contains slot.handle.id = true)
    (hput : putSlot slot c = .ok () c') :
    Settled p q c' ∧ c'.roster.contains slot.handle.id = true := by
  cases hput
  refine ⟨⟨fun agent s hs => ?_, fun agent hagent => ?_, h.idle, h.running⟩, ?_⟩
  · simp only [IdMap.get?_insert] at hs
    split at hs
    · rename_i heq
      cases hs
      exact heq.symm
    · exact h.handle_id agent s hs
  · simp only [IdMap.contains_insert, Bool.or_eq_true, decide_eq_true_eq] at hagent
    rcases hagent with rfl | hagent
    · exact hissued
    · exact h.issued agent hagent
  · simp [IdMap.contains_insert]

theorem Settled.mono {p' q' : AgentId → Prop} (h : Settled p q c)
    (hp : ∀ agent, p' agent → p agent) (hq : ∀ agent, q' agent → q agent) : Settled p' q' c :=
  ⟨h.handle_id, h.issued, h.idle.mono hp, h.running.mono hq⟩

/-- A call may change the battle by whatever leaves organisms alone and keeps episodes running. -/
theorem Settled.battle {q' : AgentId → Prop} {b : Battle H ReplacementTrainer}
    (h : Settled p q c) (hrunning : Battle.Running q' b)
    (horganisms : b.trainer.organisms = c.battle.trainer.organisms)
    (hwithdrawn : b.trainer.withdrawn = c.battle.trainer.withdrawn) :
    Settled p q' { c with battle := b } := by
  refine ⟨h.handle_id, fun agent hagent => ?_, ⟨fun agent hagent => ?_,
    fun agent organism hagent ho => ?_⟩, hrunning⟩
  · rw [horganisms]
    exact h.issued agent hagent
  · rw [hwithdrawn]
    exact h.idle.held agent hagent
  · rw [horganisms] at ho
    exact h.idle.unscored agent organism hagent ho

theorem Settled.host (h : Settled p q c) (host : H) :
    Settled p q { c with battle := { c.battle with host } } :=
  ⟨h.handle_id, h.issued, h.idle, h.running⟩

theorem Settled.nextOrganism {agent : AgentId} (h : Settled (· ≠ agent) q c)
    (hnext : modifyTrainer (Trainer.nextOrganism · agent) c = .ok () c') :
    Settled (fun _ => True) q c' ∧ c'.battle.trainer.organisms.contains agent = true := by
  cases hnext
  refine ⟨⟨h.handle_id, fun other hother => ?_, h.idle.nextOrganism, h.running⟩, ?_⟩
  · simp only [Trainer.nextOrganism, IdMap.contains_insert, h.issued other hother, Bool.or_true]
  · simp [Trainer.nextOrganism, IdMap.contains_insert]

variable [Host H]

theorem Settled.check {handle : Handle} {isOver : Bool} (h : Rest c)
    (hcheck : call (fun b => b.isEpisodeOver handle) c = .ok isOver c') :
    Settled (fun _ => True) (fun other => other = handle.id → isOver = false) c' ∧
      c'.roster = c.roster := by
  obtain ⟨b, hb, rfl⟩ := call_ok hcheck
  obtain ⟨e, record, henroll, -, -, hafter⟩ := Battle.isEpisodeOver_cases hb
  have henrolled : e.trainer = c.battle.trainer := Battle.trainer_enroll henroll
  have htrainer : b.trainer = c.battle.trainer := by
    rw [hafter]
    exact henrolled
  have hrunning := (h.running.check hb).mono fun other hother => ⟨trivial, hother⟩
  exact ⟨h.battle hrunning (by rw [htrainer]) (by rw [htrainer]), rfl⟩

theorem Settled.observe {handle : Handle} {observations : List Float} (h : Rest c)
    (hobserve : observe handle c = .ok observations c') : Rest c' ∧ c'.roster = c.roster := by
  unfold Campaign.observe at hobserve
  obtain ⟨_, c₁, hget, hobserve⟩ := bind_ok hobserve
  cases hget
  obtain ⟨_, c₂, hhost, hsense⟩ := bind_ok hobserve
  cases hhost
  obtain ⟨b, hb, rfl⟩ := call_ok hsense
  obtain ⟨hrunning, htrainer⟩ := (h.host _).running.sense hb
  exact ⟨(h.host _).battle hrunning (by rw [htrainer]) (by rw [htrainer]), rfl⟩

theorem Settled.act {handle : Handle} {action reward : List Float} (h : Rest c)
    (hact : call (fun b => b.step handle action) c = .ok reward c') :
    Rest c' ∧ c'.roster = c.roster := by
  obtain ⟨b, hb, rfl⟩ := call_ok hact
  obtain ⟨hrunning, htrainer⟩ := h.running.step hb
  refine ⟨h.battle hrunning ?_ ?_, rfl⟩
  · rcases htrainer with htrainer | htrainer
    · rw [htrainer]
    · rw [htrainer]
      rfl
  · rcases htrainer with htrainer | htrainer
    · rw [htrainer]
    · rw [htrainer]
      rfl

theorem Settled.spawn {team : Team} {group : Group} {pose : Pose} {agent : AgentId} (h : Rest c)
    (hspawn : spawn team group pose c = .ok agent c') : Rest c' := by
  unfold Campaign.spawn at hspawn
  obtain ⟨_, c₁, hget, hspawn⟩ := bind_ok hspawn
  cases hget
  obtain ⟨_, c₂, hhost, hspawn⟩ := bind_ok hspawn
  cases hhost
  obtain ⟨_, c₃, hcall, hspawn⟩ := bind_ok hspawn
  obtain ⟨b, hb, rfl⟩ := call_ok hcall
  obtain ⟨_, c₄, hnext, hspawn⟩ := bind_ok hspawn
  obtain ⟨_, c₅, hput, hspawn⟩ := bind_ok hspawn
  cases hspawn
  obtain ⟨hrunning, htrainer⟩ := (h.host _).running.register hb
  have hregistered := (h.host _).battle hrunning (by rw [htrainer]) (by rw [htrainer])
  obtain ⟨hsettled, hissued⟩ :=
    (hregistered.mono (fun _ _ => trivial) fun _ => id).nextOrganism hnext
  exact (hsettled.putSlot hissued hput).1

theorem Settled.despawn {agent : AgentId} (h : Rest c) (hdespawn : despawn agent c = .ok () c') :
    Rest c' := by
  unfold Campaign.despawn at hdespawn
  obtain ⟨_, c₁, herase, hdespawn⟩ := bind_ok hdespawn
  cases herase
  obtain ⟨_, c₂, hcall, hdespawn⟩ := bind_ok hdespawn
  obtain ⟨b, hb, rfl⟩ := call_ok hcall
  cases hdespawn
  have herased : Rest { c with roster := c.roster.erase agent } := by
    refine ⟨fun other slot hslot => ?_, fun other hother => ?_, h.idle, h.running⟩
    · simp only [IdMap.get?_erase] at hslot
      split at hslot
      · cases hslot
      · exact h.handle_id other slot hslot
    · simp only [IdMap.contains_erase, Bool.and_eq_true] at hother
      exact h.issued other hother.2
  obtain ⟨hrunning, htrainer⟩ := h.running.removeAgent hb
  exact (herased.battle hrunning (by rw [htrainer]) (by rw [htrainer])).host _

variable [Policy P]

omit [Host H] in
theorem Settled.decide {slot : Slot} {observations action : List Float} (h : Rest c)
    (hdecide : Campaign.decide slot observations c = .ok action c') :
    Rest c' ∧ c'.roster = c.roster := by
  unfold Campaign.decide at hdecide
  obtain ⟨_, c₁, hget, hdecide⟩ := bind_ok hdecide
  cases hget
  obtain ⟨_, c₂, hset, hdecide⟩ := bind_ok hdecide
  cases hset
  cases hdecide
  exact ⟨⟨h.handle_id, h.issued, h.idle, h.running⟩, rfl⟩

/-- The end of an episode settles its agent again. -/
theorem Settled.turnOver {slot slot' : Slot} (h : Settled (fun _ => True) (· ≠ slot.handle.id) c)
    (hturn : turnOver slot c = .ok slot' c') :
    Rest c' ∧ c'.roster.contains slot'.handle.id = true := by
  unfold Campaign.turnOver at hturn
  obtain ⟨_, c₁, hfinish, hturn⟩ := bind_ok hturn
  cases hfinish
  obtain ⟨_, c₂, hget, hturn⟩ := bind_ok hturn
  cases hget
  dsimp only at hturn
  cases hreport : Trainer.reportFitness c.battle.trainer slot.handle.id slot.episodeFitness with
  | error e =>
    rw [hreport] at hturn
    obtain ⟨_, c₃, hthrow, -⟩ := bind_ok hturn
    cases hthrow
  | ok trainer =>
    rw [hreport] at hturn
    obtain ⟨_, c₃, hset, hturn⟩ := bind_ok hturn
    cases hset
    obtain ⟨_, c₄, hcall, hturn⟩ := bind_ok hturn
    obtain ⟨b, hmap, rfl⟩ := call_ok hcall
    obtain ⟨b', hreset, heq⟩ := map_ok hmap
    cases heq
    obtain ⟨_, c₅, hnext, hturn⟩ := bind_ok hturn
    obtain ⟨_, c₆, hput, hturn⟩ := bind_ok hturn
    cases hturn
    -- The report may have withdrawn the agent, whose next organism is not there yet.
    obtain ⟨hsame, hidle⟩ := h.idle.report hreport
    obtain ⟨hrunning, htrainer⟩ := Battle.Running.reset
      (b := { c.battle with trainer }) h.running hreset
    have hsettled : Settled (· ≠ slot.handle.id) (fun _ => True)
        { c with battle := b, policy := Policy.finish c.policy slot.handle slot.lastReward } := by
      refine ⟨h.handle_id, fun agent hagent => ?_, ?_, hrunning⟩
      · rw [htrainer, hsame]
        exact h.issued agent hagent
      · rw [htrainer]
        exact hidle
    obtain ⟨hnext, hissued⟩ := hsettled.nextOrganism hnext
    exact Settled.putSlot hnext (by exact hissued) hput

theorem Settled.play {slot : Slot} (h : Rest c)
    (hpresent : c.roster.contains slot.handle.id = true) (hplay : play slot c = .ok () c') :
    Rest c' := by
  unfold Campaign.play at hplay
  obtain ⟨observations, c₁, hobserve, hplay⟩ := bind_ok hplay
  obtain ⟨hobserved, hroster₁⟩ := h.observe hobserve
  obtain ⟨action, c₂, hdecide, hplay⟩ := bind_ok hplay
  obtain ⟨hdecided, hroster₂⟩ := hobserved.decide hdecide
  obtain ⟨reward, c₃, hact, hput⟩ := bind_ok hplay
  obtain ⟨hacted, hroster₃⟩ := hdecided.act hact
  have hissued : c₃.battle.trainer.organisms.contains (slot.stepped reward).handle.id = true := by
    refine hacted.issued _ ?_
    rw [hroster₃, hroster₂, hroster₁]
    exact hpresent
  exact (hacted.putSlot hissued hput).1

/-- An agent is settled again after its turn. -/
theorem Settled.stepAgent {agent : AgentId} {ended : Bool} (h : Rest c)
    (hstep : stepAgent agent c = .ok ended c') : Rest c' := by
  unfold Campaign.stepAgent at hstep
  obtain ⟨_, c₁, hget, hstep⟩ := bind_ok hstep
  cases hget
  cases hslot : c.roster.get? agent with
  | none =>
    simp only [hslot] at hstep
    cases hstep
    exact h
  | some slot =>
    simp only [hslot] at hstep
    obtain ⟨isOver, c₂, hcheck, hstep⟩ := bind_ok hstep
    obtain ⟨hsettled, hroster⟩ := h.check hcheck
    -- Only a check that ends the episode leaves something to settle.
    cases isOver with
    | false =>
      obtain ⟨_, c₃, hsame, hstep⟩ := bind_ok hstep
      cases hsame
      obtain ⟨_, c₄, hplay, hstep⟩ := bind_ok hstep
      cases hstep
      have hpresent : c₂.roster.contains slot.handle.id = true := by
        rw [hroster, h.handle_id agent slot hslot]
        simp [IdMap.contains, hslot]
      exact (hsettled.mono (fun _ => id) fun _ _ _ => rfl).play hpresent hplay
    | true =>
      obtain ⟨next, c₃, hturn, hstep⟩ := bind_ok hstep
      obtain ⟨_, c₄, hplay, hstep⟩ := bind_ok hstep
      cases hstep
      have hothers := hsettled.mono (fun _ => id) fun other hother heq => absurd heq hother
      obtain ⟨hrest, hpresent⟩ := hothers.turnOver hturn
      exact hrest.play hpresent hplay

theorem Settled.stepAgents {agents : List AgentId} {ended : Nat} (h : Rest c)
    (hsteps : stepAgents agents c = .ok ended c') : Rest c' := by
  induction agents generalizing c ended with
  | nil =>
    cases hsteps
    exact h
  | cons agent rest ih =>
    obtain ⟨_, c₁, hfirst, hsteps⟩ := bind_ok hsteps
    obtain ⟨_, c₂, hrest, hsteps⟩ := bind_ok hsteps
    cases hsteps
    exact ih (h.stepAgent hfirst) hrest

omit [Policy P] in
theorem Settled.spawnMany {point : SpawnPoint} {count : Nat} (h : Rest c)
    (hspawn : spawnMany point count c = .ok () c') : Rest c' := by
  induction count generalizing c with
  | zero =>
    cases hspawn
    exact h
  | succ count ih =>
    obtain ⟨agent, c₁, hfirst, hrest⟩ := bind_ok hspawn
    exact ih (h.spawn hfirst) hrest

omit [Host H] [Policy P] in
theorem Settled.beginTick (h : Rest c) (number : UInt64) :
    Rest { c with battle := c.battle.beginTick number } :=
  ⟨h.handle_id, h.issued, h.idle, h.running⟩

/-- The turns of a tick, from its start to the newcomers. -/
theorem tick_ok {number : UInt64} {point : SpawnPoint} {summary : TickSummary}
    (htick : tick number point c = .ok summary c') :
    ∃ ended c₁, stepAgents c.roster.keys { c with battle := c.battle.beginTick number } =
        .ok ended c₁ ∧
      spawnMany point c₁.battle.trainer.pending
        { c₁ with battle := { c₁.battle with trainer := { c₁.battle.trainer with pending := 0 } } } =
        .ok () c' := by
  unfold Campaign.tick at htick
  obtain ⟨_, c₁, hbegin, htick⟩ := bind_ok htick
  cases hbegin
  obtain ⟨_, c₂, hget, htick⟩ := bind_ok htick
  cases hget
  obtain ⟨ended, c₃, hsteps, htick⟩ := bind_ok htick
  obtain ⟨_, c₄, hget, htick⟩ := bind_ok htick
  cases hget
  obtain ⟨_, c₅, htake, htick⟩ := bind_ok htick
  cases htake
  obtain ⟨_, c₆, hspawn, htick⟩ := bind_ok htick
  cases htick
  exact ⟨ended, c₃, hsteps, hspawn⟩

theorem Settled.tick {number : UInt64} {point : SpawnPoint} {summary : TickSummary} (h : Rest c)
    (htick : tick number point c = .ok summary c') : Rest c' := by
  obtain ⟨ended, c₁, hsteps, hspawn⟩ := tick_ok htick
  have hstepped := (h.beginTick number).stepAgents hsteps
  have hasked : Rest { c₁ with
      battle := { c₁.battle with trainer := { c₁.battle.trainer with pending := 0 } } } :=
    hstepped.battle hstepped.running rfl rfl
  exact hasked.spawnMany hspawn

end Settled

end Campaign

end FlagCombat
