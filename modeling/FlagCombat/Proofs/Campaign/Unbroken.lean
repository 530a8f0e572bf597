import FlagCombat.Proofs.Campaign.Agreement
import FlagCombat.Proofs.Campaign.Apart

/-!
What holds of a campaign whatever its host does. An order is made of calls to the battle, of what
the host, the trainer and the policy make of themselves, and of slots that are written down and
struck out; what none of these breaks holds after every list of orders, failed ones included.
-/

namespace FlagCombat

namespace Campaign

variable {H T P α : Type} [Host H] [Trainer T]

/-- What a call leaves as it found it, or keeps if it succeeds. -/
theorem ensures_attempt {I : Campaign H T P → Prop} {c : Campaign H T P} (call : Call)
    {f : Battle H T → Except BattleError (α × Battle H T)}
    (hf : ∀ a b, f c.battle = .ok (a, b) → ∃ reply, c.battle.attempt call = .ok (reply, b))
    (hc : I c)
    (hcall : ∀ reply battle, c.battle.attempt call = .ok (reply, battle) → I { c with battle }) :
    Ensures (Campaign.call f) c (fun _ => I) fun _ => I := by
  unfold Ensures Campaign.call
  cases hcalled : f c.battle with
  | error e => exact hc
  | ok result =>
    obtain ⟨reply, hattempt⟩ := hf result.1 result.2 hcalled
    exact hcall reply result.2 hattempt

theorem ensures_spawnMany {I : Campaign H T P → Prop} {point : SpawnPoint}
    (hspawn : ∀ c, I c →
      Ensures (Campaign.spawn point.team .agent point.pose) c (fun _ => I) fun _ => I)
    {c : Campaign H T P} (hc : I c) (count : Nat) :
    Ensures (Campaign.spawnMany point count) c (fun _ => I) fun _ => I := by
  induction count generalizing c with
  | zero => exact ensures_pure hc
  | succ count ih => exact (hspawn c hc).bind fun _ _ h₁ => ih h₁

/-- What the orders of each kind ensure, failing or not, holds after an order. -/
theorem follow_of_ensures [Policy P] {I : Campaign H T P → Prop} {c : Campaign H T P}
    (hspawn : ∀ team group pose,
      Ensures (Campaign.spawn team group pose) c (fun _ => I) fun _ => I)
    (hdespawn : ∀ agent, Ensures (Campaign.despawn agent) c (fun _ => I) fun _ => I)
    (htick : ∀ number point, Ensures (Campaign.tick number point) c (fun _ => I) fun _ => I)
    (order : Order) : I (c.follow order) := by
  have hobeyed : Ensures (obey order) c (fun _ => I) fun _ => I := by
    cases order with
    | spawn team group pose => exact (hspawn team group pose).bind fun _ _ h₁ => ensures_pure h₁
    | despawn agent => exact hdespawn agent
    | tick number point => exact (htick number point).bind fun _ _ h₁ => ensures_pure h₁
  unfold Campaign.follow
  split
  · rename_i hok
    exact hobeyed.after_ok hok
  · rename_i herror
    exact hobeyed.after_error herror

/-- Once the host has its body, an agent joins by what a turn of it may do as well: by a call, by
what the trainer makes of itself, and by a slot that is written down. -/
theorem Kept.spawn {I : Campaign H T P → Prop} {c : Campaign H T P} {team : Team} {group : Group}
    {pose : Pose} (h : Kept (Host.spawnAgent c.battle.host team group pose).1 I)
    (hc : I { c with battle := { c.battle with
      host := (Host.spawnAgent c.battle.host team group pose).2 } }) :
    Ensures (Campaign.spawn team group pose) c (fun _ => I) fun _ => I := by
  unfold Campaign.spawn
  apply ensures_get
  generalize Host.spawnAgent c.battle.host team group pose = spawned at h hc
  obtain ⟨agent, host⟩ := spawned
  apply ensures_modify
  refine (ensures_attempt (.register { id := agent, team, group }) ?_ hc ?_).bind ?_
  · intro shapes b hb
    exact ⟨.shapes shapes, by simp [Battle.attempt, hb, Except.map]⟩
  · intro reply battle hattempt
    exact h.call _ _ _ reply battle hc rfl rfl hattempt
  · intro _ c₁ h₁
    have hissued := h.trainer c₁ (Trainer.nextOrganism c₁.battle.trainer agent) h₁
    exact h.slot _ { handle := { id := agent, team, group } } hissued rfl

/-- What is kept by all that an order is made of. -/
structure Unbroken (I : Campaign H T P → Prop) : Prop where
  call : ∀ c (call : Call) reply battle, I c → c.battle.attempt call = .ok (reply, battle) →
    I { c with battle }
  host : ∀ c host, I c → I { c with battle := { c.battle with host } }
  trainer : ∀ c trainer, I c → I { c with battle := { c.battle with trainer } }
  policy : ∀ c policy, I c → I { c with policy }
  entry : ∀ c slot, I c → I { c with roster := c.roster.insert slot.handle.id slot }
  exit : ∀ c agent, I c → I { c with roster := c.roster.erase agent }

variable {I : Campaign H T P → Prop} {c : Campaign H T P}

theorem Unbroken.kept (h : Unbroken I) (agent : AgentId) : Kept agent I where
  call c call _ reply battle hc _ _ hattempt := h.call c call reply battle hc hattempt
  host c _ hc := h.host c _ hc
  trainer := h.trainer
  policy := h.policy
  slot c slot hc _ := h.entry c slot hc

theorem Unbroken.spawn (h : Unbroken I) (hc : I c) (team : Team) (group : Group) (pose : Pose) :
    Ensures (Campaign.spawn team group pose) c (fun _ => I) fun _ => I :=
  (h.kept _).spawn (h.host c _ hc)

theorem Unbroken.despawn (h : Unbroken I) (hc : I c) (agent : AgentId) :
    Ensures (Campaign.despawn agent) c (fun _ => I) fun _ => I := by
  unfold Campaign.despawn
  apply ensures_modify
  have hexit := h.exit c agent hc
  refine (ensures_attempt (.removeAgent agent) ?_ hexit fun reply battle =>
    h.call _ _ reply battle hexit).bind ?_
  · intro record b hb
    exact ⟨.removed record, by simp [Battle.attempt, hb, Except.map]⟩
  · intro _ c₁ h₁
    exact h.host c₁ (Host.despawnAgent c₁.battle.host agent) h₁

theorem Unbroken.spawnMany (h : Unbroken I) (hc : I c) (point : SpawnPoint) (count : Nat) :
    Ensures (Campaign.spawnMany point count) c (fun _ => I) fun _ => I :=
  ensures_spawnMany (fun _ hc => h.spawn hc point.team .agent point.pose) hc count

variable [Policy P]

theorem Unbroken.tick (h : Unbroken I) (hc : I c) (number : UInt64) (point : SpawnPoint) :
    Ensures (Campaign.tick number point) c (fun _ => I) fun _ => I := by
  have hbegun : I (c.begun number) := h.call c (.beginTick number) .done _ hc rfl
  have hturns := (Kept.stepAgents h.kept c.roster.keys hbegun).run
  rw [Told.run_stepAgents] at hturns
  exact ensures_tick hturns fun _ c₁ h₁ => h.spawnMany (h.trainer c₁ _ h₁) point _

/-- Every order keeps it, also one that fails. -/
theorem Unbroken.follow (h : Unbroken I) (hc : I c) (order : Order) : I (c.follow order) :=
  follow_of_ensures (h.spawn hc) (h.despawn hc) (h.tick hc) order

theorem Unbroken.followAll (h : Unbroken I) (hc : I c) (orders : List Order) :
    I (followAll orders c) := by
  induction orders generalizing c with
  | nil => exact hc
  | cons order orders ih => exact ih (h.follow hc order)

/-- A sound battle, and a roster that holds every agent's own handle. -/
structure Composed (c : Campaign H T P) : Prop where
  sound : c.battle.Sound
  registered : Registered c

omit [Policy P] in
theorem unbroken_composed : Unbroken fun c : Campaign H T P => Composed c where
  call c call reply battle hc hattempt :=
    ⟨hc.sound.changes (Battle.success_of_attempt hattempt).changes, hc.registered⟩
  host c host hc :=
    ⟨⟨hc.sound.record_id, hc.sound.teamOf, hc.sound.posed, hc.sound.coherent⟩, hc.registered⟩
  trainer c trainer hc :=
    ⟨⟨hc.sound.record_id, hc.sound.teamOf, hc.sound.posed, hc.sound.coherent⟩, hc.registered⟩
  policy c policy hc := ⟨hc.sound, hc.registered⟩
  entry c slot hc :=
    ⟨hc.sound, (kept_registered slot.handle.id).slot c slot hc.registered rfl⟩
  exit c agent hc := by
    refine ⟨hc.sound, fun other slot hslot => ?_⟩
    rw [IdMap.get?_erase] at hslot
    split at hslot
    · cases hslot
    · exact hc.registered other slot hslot

omit [Policy P] in
theorem Composed.begun (h : Composed c) (number : UInt64) : Composed (c.begun number) :=
  unbroken_composed.call c (.beginTick number) .done _ h rfl

/-- Whatever a fresh campaign is ordered, it is composed afterwards. -/
theorem composed_followAll (profile : Profile) (host : H) (trainer : T) (seed : UInt64) (policy : P)
    (orders : List Order) :
    Composed (followAll orders (outset profile host trainer seed policy)) := by
  refine unbroken_composed.followAll ⟨Battle.sound_start profile host trainer seed, ?_⟩ orders
  intro agent slot hslot
  cases hslot

end Campaign

end FlagCombat
