import FlagCombat.Arena.Basic
import FlagCombat.Proofs.Battle.Membership
import FlagCombat.Proofs.Battle.Running
import FlagCombat.Proofs.Battle.Touch
import FlagCombat.Campaign.Tick

/-!
A campaign in an arena, mustered: the roster, the records and the bodies are those of one roll,
which says for every agent its team and its group. The turns of a tick keep the roll, also when one
of them fails; a spawn adds the next number to it, and a removal takes one off.
-/

namespace FlagCombat

/-- The team and the group of every agent of a campaign. -/
abbrev Roll := IdMap (Team × Group)

namespace Arena

def roll (a : Arena) : Roll := a.bodies.mapValues fun _ body => (body.team, body.group)

theorem roll_modifyBody (a : Arena) (agent : AgentId) {f : Body → Body}
    (hf : ∀ body, (f body).team = body.team ∧ (f body).group = body.group) :
    (a.modifyBody agent f).roll = a.roll ∧ (a.modifyBody agent f).lastId = a.lastId := by
  unfold modifyBody
  cases hbody : a.bodies.get? agent with
  | none => exact ⟨rfl, rfl⟩
  | some body =>
    refine ⟨?_, rfl⟩
    apply IdMap.ext_get?
    intro other
    simp only [roll, IdMap.get?_mapValues, IdMap.get?_insert]
    by_cases hother : other = agent
    · rw [if_pos hother, hother, hbody, Option.map_some, Option.map_some, (hf body).1, (hf body).2]
    · rw [if_neg hother]

/-- A battle leaves all bodies in the arena, on their teams and of their groups. -/
theorem roll_touched {a a' : Arena} (h : Touched a a') :
    a'.roll = a.roll ∧ a'.lastId = a.lastId := by
  induction h with
  | refl => exact ⟨rfl, rfl⟩
  | rayCast start finish mask _ ih => exact ih
  | @setTransform moved agent pose _ ih =>
    have hmoved := moved.roll_modifyBody agent (f := fun body => { body with pose })
      fun body => ⟨rfl, rfl⟩
    exact ⟨hmoved.1.trans ih.1, hmoved.2.trans ih.2⟩
  | setAnimation agent name _ ih => exact ih
  | setAnimationSpeed agent speed _ ih => exact ih
  | @addSensor fitted agent sensor _ ih =>
    have hfitted := fitted.roll_modifyBody agent
      (f := fun body => { body with sensors := body.sensors ++ [sensor] }) fun body => ⟨rfl, rfl⟩
    exact ⟨hfitted.1.trans ih.1, hfitted.2.trans ih.2⟩

end Arena

namespace Battle

variable {H T : Type}

def roll (b : Battle H T) : Roll := b.combatants.mapValues fun _ c => (c.team, c.group)

end Battle

def Roster.roll (r : Roster) : Roll :=
  r.mapValues fun _ slot => (slot.handle.team, slot.handle.group)

namespace Campaign

section Outcomes

variable {H T P α β : Type} {c : Campaign H T P}

/-- What an operation leaves when it succeeds, and what when it fails. -/
def Ensures (x : Action H T P α) (c : Campaign H T P) (done : α → Campaign H T P → Prop)
    (failed : CampaignError → Campaign H T P → Prop) : Prop :=
  match x c with
  | .ok a c' => done a c'
  | .error e c' => failed e c'

variable {failed failed' : CampaignError → Campaign H T P → Prop}

theorem Ensures.bind {x : Action H T P α} {f : α → Action H T P β}
    {mid : α → Campaign H T P → Prop} {done : β → Campaign H T P → Prop}
    (hx : Ensures x c mid failed) (hf : ∀ a c', mid a c' → Ensures (f a) c' done failed) :
    Ensures (x >>= f) c done failed := by
  unfold Ensures at hx ⊢
  change match EStateM.bind x f c with
    | .ok b c' => done b c'
    | .error e c' => failed e c'
  unfold EStateM.bind
  cases h : x c with
  | ok a c' =>
    rw [h] at hx
    exact hf a c' hx
  | error e c' =>
    rw [h] at hx
    exact hx

theorem Ensures.mono {x : Action H T P α} {done done' : α → Campaign H T P → Prop}
    (hx : Ensures x c done failed) (hd : ∀ a c', done a c' → done' a c')
    (hf : ∀ e c', failed e c' → failed' e c') : Ensures x c done' failed' := by
  unfold Ensures at hx ⊢
  cases h : x c with
  | ok a c' =>
    rw [h] at hx
    exact hd a c' hx
  | error e c' =>
    rw [h] at hx
    exact hf e c' hx

theorem Ensures.and {x : Action H T P α} {done done' : α → Campaign H T P → Prop}
    (hx : Ensures x c done failed) (hx' : Ensures x c done' failed') :
    Ensures x c (fun a c' => done a c' ∧ done' a c') fun e c' => failed e c' ∧ failed' e c' := by
  unfold Ensures at hx hx' ⊢
  cases h : x c with
  | ok a c' =>
    rw [h] at hx hx'
    exact ⟨hx, hx'⟩
  | error e c' =>
    rw [h] at hx hx'
    exact ⟨hx, hx'⟩

theorem ensures_get {f : Campaign H T P → Action H T P α} {done : α → Campaign H T P → Prop}
    (h : Ensures (f c) c done failed) : Ensures (get >>= f) c done failed := h

theorem ensures_modify {g : Campaign H T P → Campaign H T P} {f : Unit → Action H T P α}
    {done : α → Campaign H T P → Prop} (h : Ensures (f ()) (g c) done failed) :
    Ensures (modify g >>= f) c done failed := h

theorem ensures_pure {a : α} {done : α → Campaign H T P → Prop} (h : done a c) :
    Ensures (pure a) c done failed := h

theorem ensures_call {f : Battle H T → Except BattleError (α × Battle H T)} {a : α}
    {battle : Battle H T} {done : α → Campaign H T P → Prop} (h : f c.battle = .ok (a, battle))
    (hdone : done a { c with battle }) : Ensures (call f) c done failed := by
  unfold Ensures call
  rw [h]
  exact hdone

theorem ensures_call_bind {f : Battle H T → Except BattleError (α × Battle H T)} {a : α}
    {battle : Battle H T} {g : α → Action H T P β} {done : β → Campaign H T P → Prop}
    (h : f c.battle = .ok (a, battle)) (hdone : Ensures (g a) { c with battle } done failed) :
    Ensures (call f >>= g) c done failed := by
  have hcall : Ensures (call f) c (fun a' c' => a' = a ∧ c' = { c with battle }) failed :=
    ensures_call h ⟨rfl, rfl⟩
  apply hcall.bind
  rintro _ _ ⟨rfl, rfl⟩
  exact hdone

theorem ensures_call_error {f : Battle H T → Except BattleError (α × Battle H T)} {e : BattleError}
    {done : α → Campaign H T P → Prop} (h : f c.battle = .error e)
    (hfailed : failed (.battle e) c) : Ensures (call f) c done failed := by
  unfold Ensures call
  rw [h]
  exact hfailed

theorem Ensures.after_ok {x : Action H T P α} {done : α → Campaign H T P → Prop} {a : α}
    {c' : Campaign H T P} (h : Ensures x c done failed) (hx : x c = .ok a c') : done a c' := by
  unfold Ensures at h
  rwa [hx] at h

theorem Ensures.after_error {x : Action H T P α} {done : α → Campaign H T P → Prop}
    {e : CampaignError} {c' : Campaign H T P} (h : Ensures x c done failed)
    (hx : x c = .error e c') : failed e c' := by
  unfold Ensures at h
  rwa [hx] at h

theorem Ensures.exists_ok {x : Action H T P α} {done : α → Campaign H T P → Prop}
    (h : Ensures x c done fun _ _ => False) : ∃ a c', x c = .ok a c' ∧ done a c' := by
  unfold Ensures at h
  cases hx : x c with
  | ok a c' =>
    rw [hx] at h
    exact ⟨a, c', rfl, h⟩
  | error e c' =>
    rw [hx] at h
    cases h

theorem ensures_trivial (x : Action H T P α) (c : Campaign H T P) :
    Ensures x c (fun _ _ => True) fun _ _ => True := by
  unfold Ensures
  split <;> trivial

theorem ensures_of_ok {x : Action H T P α} {a : α} {c' : Campaign H T P}
    {done : α → Campaign H T P → Prop} (h : x c = .ok a c') (hdone : done a c') :
    Ensures x c done failed := by
  unfold Ensures
  rw [h]
  exact hdone

theorem ensures_of_error {x : Action H T P α} {e : CampaignError} {c' : Campaign H T P}
    {done : α → Campaign H T P → Prop} (h : x c = .error e c') (hfailed : failed e c') :
    Ensures x c done failed := by
  unfold Ensures
  rw [h]
  exact hfailed

theorem Ensures.eq_error {x : Action H T P α} {e : CampaignError} {c' : Campaign H T P}
    (h : Ensures x c (fun _ _ => False) fun e' c'' => e' = e ∧ c'' = c') : x c = .error e c' := by
  unfold Ensures at h
  cases hx : x c with
  | ok a c'' =>
    rw [hx] at h
    cases h
  | error e' c'' =>
    rw [hx] at h
    rw [h.1, h.2]

end Outcomes

/-- A tick takes the turns and then the spawns, and whatever fails in them fails in the tick. -/
theorem ensures_tick {H T P : Type} [Host H] [Trainer T] [Policy P] {c : Campaign H T P}
    {turned : Nat → Campaign H T P → Prop} {left : Campaign H T P → Prop}
    {failed : CampaignError → Campaign H T P → Prop} {number : UInt64} {point : SpawnPoint}
    (hturns : Ensures (stepAgents c.roster.keys) { c with battle := c.battle.beginTick number }
      turned failed)
    (hspawns : ∀ ended c', turned ended c' →
      let (spawned, trainer) := Trainer.takeSpawnRequests c'.battle.trainer
      Ensures (spawnMany point spawned) { c' with battle := { c'.battle with trainer } }
        (fun _ => left) failed) :
    Ensures (tick number point) c (fun _ => left) failed := by
  unfold tick
  apply ensures_modify
  apply ensures_get
  refine hturns.bind ?_
  intro ended c' hturned
  apply ensures_get
  apply ensures_modify
  refine (hspawns ended c' hturned).bind ?_
  intro _ c'' hleft
  apply ensures_get
  exact ensures_pure hleft

/-- A removal strikes the agent off the roster. If the agent has a record, that and its body go as
well, and otherwise the removal fails. -/
theorem ensures_despawn {H T P : Type} [Host H] {c : Campaign H T P} {agent : AgentId}
    {left : Campaign H T P → Prop} {failed : CampaignError → Campaign H T P → Prop}
    (hgone : ∀ last, c.battle.combatants.get? agent = some last → left {
      battle := { c.battle.dismiss agent with host := Host.despawnAgent c.battle.host agent }
      roster := c.roster.erase agent
      policy := c.policy })
    (hunknown : c.battle.combatants.get? agent = none →
      failed (.battle (.unknownAgent agent)) { c with roster := c.roster.erase agent }) :
    Ensures (despawn agent) c (fun _ => left) failed := by
  unfold despawn
  apply ensures_modify
  cases hrecord : c.battle.combatants.get? agent with
  | none =>
    have hremove : c.battle.removeAgent agent = .error (.unknownAgent agent) := by
      unfold Battle.removeAgent
      rw [hrecord]
    have hcall : Ensures (call fun b => b.removeAgent agent)
        { c with roster := c.roster.erase agent } (fun _ _ => False) failed :=
      ensures_call_error hremove (hunknown hrecord)
    exact hcall.bind fun _ _ hfalse => hfalse.elim
  | some last =>
    have hremove : c.battle.removeAgent agent = .ok (last, c.battle.dismiss agent) := by
      unfold Battle.removeAgent
      rw [hrecord]
      rfl
    exact ensures_call_bind hremove (hgone last hrecord)

/-- A campaign in which an arena of `last` numbered agents, the battle and the roster agree on who
is there. -/
structure Mustered {T P : Type} (profile : Profile) (Q : T → Prop) (roll : Roll) (last : Nat)
    (c : Campaign Arena T P) : Prop where
  sound : c.battle.Sound
  profile_eq : c.battle.profile = profile
  trainer : Q c.battle.trainer
  handle_id : ∀ agent slot, c.roster.get? agent = some slot → slot.handle.id = agent
  roster : c.roster.roll = roll
  battle : c.battle.roll = roll
  arena : c.battle.host.roll = roll
  last_eq : c.battle.host.lastId.toNat = last
  numbered : ∀ agent, roll.contains agent = true → agent.value.toNat ≤ last

/-- A campaign in an arena that nobody has entered. -/
def opening {T P : Type} [Trainer T] (profile : Profile) (world : WorldSettings) (trainer : T)
    (seed : UInt64) (policy : P) : Campaign Arena T P where
  battle := .start profile (.ofWorld world profile.flag) trainer seed
  roster := .empty
  policy := policy

/-- Nobody is mustered in an arena that is empty. -/
theorem mustered_empty {T P : Type} [Trainer T] {Q : T → Prop} (profile : Profile) {arena : Arena}
    (hbodies : arena.bodies = .empty) (hlast : arena.lastId = 0) (trainer : T) (seed : UInt64)
    (policy : P) (htrainer : Q (Trainer.setLifetime trainer profile.lifetime)) :
    Mustered profile Q .empty 0 {
      battle := .start profile arena trainer seed
      roster := .empty
      policy : Campaign Arena T P } := by
  refine ⟨Battle.sound_start _ _ _ _, rfl, htrainer, ?_, rfl, rfl, ?_, ?_, ?_⟩
  · intro agent slot hslot
    cases hslot
  · show arena.bodies.mapValues _ = _
    rw [hbodies]
    rfl
  · show arena.lastId.toNat = 0
    rw [hlast]
    rfl
  · intro agent hagent
    cases hagent

theorem mustered_opening {T P : Type} [Trainer T] {Q : T → Prop} (profile : Profile)
    (world : WorldSettings) (trainer : T) (seed : UInt64) (policy : P)
    (htrainer : Q (Trainer.setLifetime trainer profile.lifetime)) :
    Mustered profile Q .empty 0 (opening profile world trainer seed policy) :=
  mustered_empty profile rfl rfl trainer seed policy htrainer

/-- A handle that a roll has. -/
def Listed (roll : Roll) (agent : Handle) : Prop :=
  roll.get? agent.id = some (agent.team, agent.group)

section Mustered

variable {T P : Type} {profile : Profile} {Q : T → Prop} {roll : Roll} {last : Nat}
  {c : Campaign Arena T P} {agent : Handle}

theorem Mustered.listed (h : Mustered profile Q roll last c) {id : AgentId} {slot : Slot}
    (hslot : c.roster.get? id = some slot) : Listed roll slot.handle := by
  unfold Listed
  rw [h.handle_id id slot hslot, ← h.roster]
  simp [Roster.roll, hslot]

theorem Listed.exists_get? {α : Type} {m : IdMap α} {f : AgentId → α → Team × Group}
    (hlisted : Listed (m.mapValues f) agent) :
    ∃ a, m.get? agent.id = some a ∧ (f agent.id a).1 = agent.team ∧
      (f agent.id a).2 = agent.group := by
  unfold Listed at hlisted
  rw [IdMap.get?_mapValues, Option.map_eq_some_iff] at hlisted
  obtain ⟨a, ha, heq⟩ := hlisted
  exact ⟨a, ha, congrArg Prod.fst heq, congrArg Prod.snd heq⟩

theorem Mustered.record (h : Mustered profile Q roll last c) (hlisted : Listed roll agent) :
    ∃ r, c.battle.combatants.get? agent.id = some r ∧ r.team = agent.team ∧
      r.group = agent.group := by
  rw [← h.battle] at hlisted
  exact hlisted.exists_get?

theorem Mustered.body (h : Mustered profile Q roll last c) (hlisted : Listed roll agent) :
    ∃ body, c.battle.host.bodies.get? agent.id = some body ∧ body.team = agent.team ∧
      body.group = agent.group := by
  rw [← h.arena] at hlisted
  exact hlisted.exists_get?

theorem Mustered.enroll (h : Mustered profile Q roll last c) (hlisted : Listed roll agent) :
    c.battle.enroll agent = .ok c.battle := by
  obtain ⟨r, hr, hteam, -⟩ := h.record hlisted
  unfold Battle.enroll
  simp [hr, hteam]

theorem Mustered.contains (h : Mustered profile Q roll last c) (hlisted : Listed roll agent) :
    c.battle.combatants.contains agent.id = true := by
  obtain ⟨r, hr, -, -⟩ := h.record hlisted
  exact (IdMap.contains_eq_true_iff _).2 ⟨r, hr⟩

theorem Mustered.putSlot (h : Mustered profile Q roll last c) (slot : Slot)
    (hlisted : Listed roll slot.handle) :
    Mustered profile Q roll last { c with roster := c.roster.insert slot.handle.id slot } := by
  refine ⟨h.sound, h.profile_eq, h.trainer, ?_, ?_, h.battle, h.arena, h.last_eq, h.numbered⟩
  · intro id other hother
    simp only [IdMap.get?_insert] at hother
    split at hother
    · rename_i heq
      cases hother
      exact heq.symm
    · exact h.handle_id id other hother
  · apply IdMap.ext_get?
    intro id
    unfold Listed at hlisted
    simp only [Roster.roll, IdMap.get?_mapValues, IdMap.get?_insert]
    split
    · rename_i heq
      rw [heq, hlisted, Option.map_some]
    · rw [← h.roster, Roster.roll, IdMap.get?_mapValues]

/-- The terms of the trainer may change with the trainer. -/
theorem Mustered.trainer_eq {Q' : T → Prop} {trainer : T} (h : Mustered profile Q roll last c)
    (hQ : Q' trainer) :
    Mustered profile Q' roll last { c with battle := { c.battle with trainer } } :=
  ⟨⟨h.sound.record_id, h.sound.teamOf, h.sound.posed, h.sound.coherent⟩, h.profile_eq, hQ,
    h.handle_id, h.roster, h.battle, h.arena, h.last_eq, h.numbered⟩

theorem Mustered.policy_eq (h : Mustered profile Q roll last c) (policy : P) :
    Mustered profile Q roll last { c with policy } :=
  ⟨h.sound, h.profile_eq, h.trainer, h.handle_id, h.roster, h.battle, h.arena, h.last_eq,
    h.numbered⟩

variable [Trainer T]

/-- The battle may do what a call does for an agent on the roll, if the trainer keeps its terms. -/
theorem Mustered.respond (h : Mustered profile Q roll last c) (hlisted : Listed roll agent)
    (call : Call) (hh : call.handle? = some agent)
    (hQ : Q (c.battle.respond call).2.trainer) :
    Mustered profile Q roll last { c with battle := (c.battle.respond call).2 } := by
  have hchanges := Battle.respond_changes c.battle call
  have hhost := Arena.roll_touched (Battle.touched_respond hh (h.contains hlisted))
  refine ⟨h.sound.changes hchanges, hchanges.profile.trans h.profile_eq, hQ, h.handle_id, h.roster,
    ?_, hhost.1.trans h.arena, ?_, h.numbered⟩
  · rw [← h.battle]
    apply IdMap.ext_get?
    intro id
    have hidentity := Battle.identity_respond hh (h.contains hlisted) id
    have hread := congrArg (Option.map Prod.snd) hidentity
    simpa [Battle.roll, Combatant.identity, Option.map_map, Function.comp_def] using hread
  · rw [← h.last_eq]
    exact congrArg UInt32.toNat hhost.2

end Mustered

end Campaign

end FlagCombat
