import FlagCombat.Proofs.Battle.Keeps
import FlagCombat.Proofs.Battle.Shot

/-!
Damage accounts. The account of an agent is the damage it took and the damage that waits for its own
step; shots and steps are the only things that change it while the agent keeps its record.
-/

namespace FlagCombat

/-- The damage that was taken, and the damage that waits. -/
structure Account where
  total : UInt32 := 0
  pending : UInt32 := 0
deriving DecidableEq

namespace Account

/-- The account after a shot that landed. -/
def strike (a : Account) : Account :=
  { a with pending := addCapped32 a.pending Battle.damagePerHit }

/-- The account after the own step. -/
def drain (a : Account) : Account := { total := addCapped32 a.total a.pending }

theorem toNat_pending_strike {a : Account} (h : a.pending.toNat + 1 < UInt32.size) :
    a.strike.pending.toNat = a.pending.toNat + 1 := by
  simp only [strike, toNat_addCapped32, Battle.damagePerHit, UInt32.reduceToNat]
  omega

theorem toNat_total_drain {a : Account} (h : a.total.toNat + a.pending.toNat < UInt32.size) :
    a.drain.total.toNat = a.total.toNat + a.pending.toNat := by
  simp only [drain, toNat_addCapped32]
  omega

end Account

namespace Combatant

def account (c : Combatant) : Account := ⟨c.totalDamage, c.pendingDamage⟩

@[simp] theorem account_takeHit (c : Combatant) :
    (c.takeHit Battle.damagePerHit).account = c.account.strike := rfl

@[simp] theorem account_drainDamage (c : Combatant) :
    c.drainDamage.2.account = c.account.drain := rfl

@[simp] theorem account_move (c : Combatant) (motion : Motion) (maxSpeed : Float) :
    (c.move motion maxSpeed).account = c.account := rfl

@[simp] theorem account_resetEpisode (c : Combatant) : c.resetEpisode.account = {} := rfl

@[simp] theorem account_animation (c : Combatant) (animation : Option String) :
    { c with animation }.account = c.account := rfl

end Combatant

namespace Battle

variable {H T : Type}

/-- The account of an agent with a record. -/
def account? (b : Battle H T) (agent : AgentId) : Option Account :=
  (b.combatants.get? agent).map Combatant.account

theorem account?_isSome (b : Battle H T) (agent : AgentId) :
    (b.account? agent).isSome = b.combatants.contains agent := by
  simp [account?, IdMap.contains]

theorem account?_modifyAgent (b : Battle H T) (agent other : AgentId) (f : Combatant → Combatant) :
    (b.modifyAgent agent f).account? other =
      if other = agent then (b.combatants.get? other).map fun c => (f c).account
      else b.account? other := by
  rw [modifyAgent_eq]
  unfold account?
  rw [IdMap.get?_modify]
  split
  · rw [Option.map_map]
    rfl
  · rfl

theorem account?_dismiss (b : Battle H T) (agent other : AgentId) :
    (b.dismiss agent).account? other = if other = agent then none else b.account? other := by
  unfold account? dismiss
  rw [IdMap.get?_erase]
  split <;> rfl

section Host

variable [Host H]

theorem account?_enlist (b : Battle H T) (agent : Handle) (other : AgentId) :
    (b.enlist agent).account? other = if other = agent.id then some {} else b.account? other := by
  have hnew : (b.newcomer agent).account = {} := by
    unfold newcomer
    cases Host.transform b.host agent.id <;> rfl
  unfold account? enlist
  rw [IdMap.get?_insert]
  split
  · rw [Option.map_some, hnew]
  · rfl

/-- A record that a call looks for is there, or it is a new one of the agent of the call. -/
theorem account?_enroll {b b' : Battle H T} {agent : Handle} (h : b.enroll agent = .ok b')
    (other : AgentId) :
    b'.account? other = b.account? other ∨
      other = agent.id ∧ b.account? other = none ∧ b'.account? other = some {} := by
  rcases enroll_cases h with ⟨c, -, -, rfl⟩ | ⟨hnone, rfl⟩
  · exact .inl rfl
  · rw [account?_enlist]
    split
    · rename_i heq
      exact .inr ⟨heq, by simp [account?, heq, hnone], rfl⟩
    · exact .inl rfl

theorem hits_enroll {b b' : Battle H T} {agent : Handle} (h : b.enroll agent = .ok b') :
    b'.hits = b.hits := by
  rcases enroll_cases h with ⟨c, -, -, rfl⟩ | ⟨-, rfl⟩ <;> rfl

section Act

variable [Trainer T] {b : Battle H T} {agent : Handle}

/-- A shot strikes its victim, and a step of an agent with other friends drains what waited. -/
theorem account?_act (h : ¬(agent.step = 0 ∧ agent.group.isMobile))
    (hc : b.combatants.contains agent.id = true) (action : List Float) (other : AgentId) :
    (b.act agent action).2.account? other = (b.account? other).map fun a =>
      let a := if (b.walking agent action).victim? agent.id = some other then a.strike else a
      if other = agent.id ∧ b.teams.hasOtherFriends agent.id then a.drain else a := by
  unfold account?
  rw [get?_act h hc, Option.map_map, Option.map_map]
  congr 1
  funext c
  unfold effect
  by_cases ho : other = agent.id
  · cases b.teams.hasOtherFriends agent.id <;>
      by_cases hv : (b.walking agent action).victim? agent.id = some agent.id <;> simp [ho, hv]
  · by_cases hv : (b.walking agent action).victim? agent.id = some other <;> simp [ho, hv]

theorem hits_act (h : ¬(agent.step = 0 ∧ agent.group.isMobile))
    (hc : b.combatants.contains agent.id = true) (action : List Float) :
    (b.act agent action).2.hits =
      b.hits + if ((b.walking agent action).victim? agent.id).isSome then 1 else 0 := by
  have hwalk : (b.walking agent action).combatants.contains agent.id = true := by
    simpa [walking_eq] using hc
  rw [act_snd h, (keeps_showPose (f := id) _ _).hits, modifyAgent_eq, reward_snd hwalk]
  dsimp only
  rw [show (b.walking agent action).hits = b.hits by rw [walking_eq]]

/-- A step of an agent without other friends strikes nobody and drains nothing. -/
theorem account?_act_of_lone (h : b.teams.hasOtherFriends agent.id = false)
    (hc : b.combatants.contains agent.id = true) (action : List Float) :
    (∀ other, (b.act agent action).2.account? other = b.account? other) ∧
      (b.act agent action).2.hits = b.hits := by
  by_cases hfirst : agent.step = 0 ∧ agent.group.isMobile
  · unfold act
    rw [if_pos hfirst]
    have hplaced := keeps_placeAtStart (f := Combatant.account) (fun _ _ _ => rfl) b agent.id
    exact ⟨hplaced.read, hplaced.hits⟩
  · have hvictim : (b.walking agent action).victim? agent.id = none :=
      victim?_of_lone (by rw [walking_eq]; exact h)
    constructor
    · intro other
      rw [account?_act hfirst hc, hvictim, h]
      simp
    · rw [hits_act hfirst hc, hvictim]
      rfl

end Act

end Host

end Battle

end FlagCombat
