import FlagCombat.Proofs.Campaign.Mustered
import Mathlib.Algebra.GroupWithZero.Nat

/-!
Who comes and who goes in a mustered campaign. A spawn puts the next number on the roll. A removal
takes an agent off it, and fails for an agent that is not on it, which changes nothing.
-/

namespace FlagCombat

/-- The agent of a number. -/
def AgentId.ofNumber (n : Nat) : AgentId := ⟨.ofNat n⟩

theorem AgentId.toNat_ofNumber {n : Nat} (h : n < 2 ^ 32) : (ofNumber n).value.toNat = n :=
  UInt32.toNat_ofNat_of_lt' h

namespace Campaign

variable {T P : Type} {profile : Profile} {Q : T → Prop} {roll : Roll} {last : Nat}
  {c : Campaign Arena T P}

theorem Mustered.not_contains (h : Mustered profile Q roll last c) {n : Nat} (hn : last < n)
    (hfew : n < 2 ^ 32) : roll.contains (.ofNumber n) = false := by
  cases hcontains : roll.contains (.ofNumber n) with
  | false => rfl
  | true =>
    have hle := h.numbered _ hcontains
    rw [AgentId.toNat_ofNumber hfew] at hle
    omega

theorem Mustered.contains_eq (h : Mustered profile Q roll last c) (agent : AgentId) :
    c.roster.contains agent = roll.contains agent ∧
      c.battle.combatants.contains agent = roll.contains agent ∧
      c.battle.host.bodies.contains agent = roll.contains agent := by
  refine ⟨?_, ?_, ?_⟩
  · rw [← h.roster, Roster.roll, IdMap.contains_mapValues]
  · rw [← h.battle, Battle.roll, IdMap.contains_mapValues]
  · rw [← h.arena, Arena.roll, IdMap.contains_mapValues]

theorem Mustered.keys_eq (h : Mustered profile Q roll last c) : c.roster.keys = roll.keys :=
  IdMap.keys_eq fun agent => (h.contains_eq agent).1

/-- The next number is listed last. -/
theorem Mustered.keys_insert (h : Mustered profile Q roll last c) (hfew : last + 1 < 2 ^ 32)
    (identity : Team × Group) :
    (roll.insert (.ofNumber (last + 1)) identity).keys = roll.keys ++ [.ofNumber (last + 1)] := by
  refine IdMap.keys_insert_of_lt (fun agent hagent => ?_) identity
  have hle := h.numbered agent (roll.mem_keys_iff.1 hagent)
  rw [AgentId.lt_iff, AgentId.toNat_ofNumber hfew]
  omega

/-- There is a record of just those who are on the roster. -/
theorem Mustered.recorded (h : Mustered profile Q roll last c) (agent : AgentId) :
    c.battle.combatants.contains agent = c.roster.contains agent :=
  (h.contains_eq agent).2.1.trans (h.contains_eq agent).1.symm

/-- The next body of an arena has the next number. -/
theorem Mustered.nextBody (h : Mustered profile Q roll last c) (hfew : last + 1 < 2 ^ 32)
    (team : Team) (group : Group) (pose : Pose) :
    ∃ host, c.battle.host.spawn team group pose = (.ofNumber (last + 1), host) ∧
      host.roll = roll.insert (.ofNumber (last + 1)) (team, group) ∧
      host.lastId.toNat = last + 1 := by
  have hlast : (addCapped32 c.battle.host.lastId 1).toNat = last + 1 := by
    have hone : (1 : UInt32).toNat = 1 := rfl
    rw [toNat_addCapped32, h.last_eq, hone, UInt32.size]
    omega
  have hnumber : (⟨addCapped32 c.battle.host.lastId 1⟩ : AgentId) = .ofNumber (last + 1) :=
    AgentId.ext_toNat (hlast.trans (AgentId.toNat_ofNumber hfew).symm)
  refine ⟨(c.battle.host.spawn team group pose).2, Prod.ext hnumber rfl, ?_, hlast⟩
  rw [← hnumber, ← h.arena]
  exact IdMap.mapValues_insert _ _ _ _

/-- A newcomer is entered into the battle and the roster under the number of its body. -/
theorem Mustered.enter (h : Mustered profile Q roll last c) (hfew : last + 1 < 2 ^ 32)
    {host : Arena} (handle : Handle) (hid : handle.id = .ofNumber (last + 1))
    (hroll : host.roll = roll.insert handle.id (handle.team, handle.group))
    (hlast : host.lastId.toNat = last + 1) :
    let shown : Battle Arena T := { c.battle with host }
    shown.enroll handle = .ok (shown.enlist handle) ∧
    Mustered profile Q (roll.insert handle.id (handle.team, handle.group)) (last + 1)
      { c with battle := shown.enlist handle, roster := c.roster.insert handle.id { handle } } := by
  intro shown
  have hnew : roll.contains handle.id = false := by
    rw [hid]
    exact h.not_contains (by omega) hfew
  have hnone : shown.combatants.get? handle.id = none := by
    exact (IdMap.contains_eq_false_iff _).1 ((h.contains_eq handle.id).2.1.trans hnew)
  obtain ⟨-, hteam, hgroup⟩ := Battle.newcomer_identity shown handle
  have hshown : shown.Sound := ⟨h.sound.record_id, h.sound.teamOf, h.sound.posed, h.sound.coherent⟩
  refine ⟨?_, hshown.enlist hnone, h.profile_eq, h.trainer, ?_, ?_, ?_, hroll, hlast, ?_⟩
  · unfold Battle.enroll
    rw [hnone]
    rfl
  · intro agent slot hslot
    simp only [IdMap.get?_insert] at hslot
    split at hslot
    · rename_i heq
      cases hslot
      exact heq.symm
    · exact h.handle_id agent slot hslot
  · rw [Roster.roll, IdMap.mapValues_insert, ← Roster.roll, h.roster]
  · rw [Battle.roll, Battle.enlist, IdMap.mapValues_insert, hteam, hgroup, ← h.battle]
    rfl
  · intro agent hagent
    rw [IdMap.contains_insert, Bool.or_eq_true, decide_eq_true_iff] at hagent
    rcases hagent with rfl | hagent
    · have hnumber := congrArg (·.value.toNat) hid
      exact Nat.le_of_eq (hnumber.trans (AgentId.toNat_ofNumber hfew))
    · have := h.numbered agent hagent
      omega

variable [Trainer T]

/-- A spawn succeeds, and puts the next number on the roll. -/
theorem Mustered.spawn (h : Mustered profile Q roll last c)
    (hrenew : ∀ t agent, Q t → Q (Trainer.nextOrganism t agent)) (hfew : last + 1 < 2 ^ 32)
    (team : Team) (group : Group) (pose : Pose) :
    ∃ c', Campaign.spawn team group pose c = .ok (.ofNumber (last + 1)) c' ∧
      Mustered profile Q (roll.insert (.ofNumber (last + 1)) (team, group)) (last + 1) c' := by
  obtain ⟨host, hspawn, hroll, hlast⟩ := h.nextBody hfew team group pose
  let handle : Handle := { id := .ofNumber (last + 1), team, group }
  obtain ⟨henroll, hentered⟩ := h.enter hfew handle rfl hroll hlast
  have hlisted : Listed (roll.insert handle.id (team, group)) handle := by simp [Listed, handle]
  have hregistered := hentered.respond hlisted (.register handle) rfl hentered.trainer
  have hrenewed := hregistered.trainer_eq (hrenew _ handle.id hregistered.trainer)
  have hspawned : Ensures (Campaign.spawn team group pose) c
      (fun agent c' => agent = handle.id ∧
        Mustered profile Q (roll.insert handle.id (team, group)) (last + 1) c')
      fun _ _ => False := by
    unfold Campaign.spawn
    apply ensures_get
    rw [show Host.spawnAgent c.battle.host team group pose = (handle.id, host) from hspawn]
    apply ensures_modify
    apply ensures_call_bind (a := c.battle.profile.interface)
    · show Battle.register _ handle = .ok _
      unfold Battle.register
      rw [henroll]
      rfl
    · apply ensures_modify
      apply ensures_modify
      exact ensures_pure ⟨rfl, hrenewed⟩
  obtain ⟨_, c', hc', rfl, hmustered⟩ := hspawned.exists_ok
  exact ⟨c', hc', hmustered⟩

/-- What the spawns at the end of a tick answer, up to the first that fails. -/
def newcomers {H : Type} [Host H] (point : SpawnPoint) :
    Nat → Campaign H T P → List (Except CampaignError AgentId)
  | 0, _ => []
  | count + 1, c =>
    match spawn point.team .agent point.pose c with
    | .ok agent c' => .ok agent :: newcomers point count c'
    | .error e _ => [.error e]

/-- The answers of `count` spawns that succeed after `last` others. -/
def inSequence (last count : Nat) : List (Except CampaignError AgentId) :=
  (List.range' (last + 1) count).map fun n => .ok (.ofNumber n)

theorem length_inSequence (last count : Nat) : (inSequence last count).length = count := by
  simp [inSequence]

theorem inSequence_append (last first second : Nat) :
    inSequence last first ++ inSequence (last + first) second =
      inSequence last (first + second) := by
  unfold inSequence
  rw [← List.map_append, ← List.range'_append_1]
  congr 3
  omega

theorem length_newcomers_le {H : Type} [Host H] (point : SpawnPoint) (count : Nat)
    (c : Campaign H T P) : (newcomers point count c).length ≤ count := by
  induction count generalizing c with
  | zero => exact Nat.le_refl 0
  | succ count ih =>
    unfold newcomers
    split
    · exact Nat.succ_le_succ (ih _)
    · simp

/-- The agents that join after `last` others. -/
def recruits (last count : Nat) : List AgentId :=
  (List.range' (last + 1) count).map AgentId.ofNumber

theorem length_recruits (last count : Nat) : (recruits last count).length = count := by
  simp [recruits]

/-- As long as there are numbers, all spawns of a tick succeed. -/
theorem Mustered.spawnMany (h : Mustered profile Q roll last c)
    (hrenew : ∀ t agent, Q t → Q (Trainer.nextOrganism t agent)) (point : SpawnPoint) (count : Nat)
    (hfew : last + (newcomers point count c).length < 2 ^ 32) :
    ∃ (roll' : Roll) (c' : Campaign Arena T P), Campaign.spawnMany point count c = .ok () c' ∧
      Mustered profile Q roll' (last + count) c' ∧
      newcomers point count c = inSequence last count ∧
      roll'.keys = roll.keys ++ recruits last count := by
  induction count generalizing roll last c with
  | zero => exact ⟨roll, c, rfl, h, rfl, (List.append_nil _).symm⟩
  | succ count ih =>
    have hone : last + 1 < 2 ^ 32 := by
      unfold newcomers at hfew
      split at hfew <;> simp only [List.length_cons] at hfew <;> omega
    obtain ⟨c₁, hspawn, h₁⟩ := h.spawn hrenew hone point.team .agent point.pose
    have hnewcomers : newcomers point (count + 1) c =
        .ok (.ofNumber (last + 1)) :: newcomers point count c₁ := by
      rw [newcomers, hspawn]
    rw [hnewcomers, List.length_cons] at hfew
    obtain ⟨roll', c', hmany, hmustered, hrest, hkeys⟩ := ih h₁ (by omega)
    refine ⟨roll', c', ?_, ?_, ?_, ?_⟩
    · show EStateM.bind _ _ _ = _
      unfold EStateM.bind
      rw [hspawn]
      exact hmany
    · rwa [Nat.add_assoc, Nat.add_comm 1 count] at hmustered
    · rw [hnewcomers, hrest]
      rfl
    · rw [hkeys, h.keys_insert hone, List.append_assoc]
      rfl

omit [Trainer T] in
theorem Mustered.dismiss (h : Mustered profile Q roll last c) {agent : AgentId} {r : Combatant}
    (hr : c.battle.combatants.get? agent = some r) :
    Mustered profile Q (roll.erase agent) last
      { c with
        roster := c.roster.erase agent
        battle := { c.battle.dismiss agent with
          host := Host.despawnAgent c.battle.host agent } } := by
  have hsound := h.sound.change (.dismiss c.battle agent r hr)
  refine ⟨⟨hsound.record_id, hsound.teamOf, hsound.posed, hsound.coherent⟩, h.profile_eq, h.trainer,
    ?_, ?_, ?_, ?_, h.last_eq, ?_⟩
  · intro other slot hslot
    simp only [IdMap.get?_erase] at hslot
    split at hslot
    · cases hslot
    · exact h.handle_id other slot hslot
  · rw [← h.roster]
    exact IdMap.mapValues_erase _ _ _
  · rw [← h.battle]
    exact IdMap.mapValues_erase _ _ _
  · rw [← h.arena]
    exact IdMap.mapValues_erase _ _ _
  · intro other hother
    rw [IdMap.contains_erase, Bool.and_eq_true] at hother
    exact h.numbered other hother.2

omit [Trainer T] in
theorem Mustered.despawn (h : Mustered profile Q roll last c) {agent : AgentId}
    (hcontains : c.roster.contains agent = true) :
    ∃ c', Campaign.despawn agent c = .ok () c' ∧ Mustered profile Q (roll.erase agent) last c' := by
  have hrecord : c.battle.combatants.contains agent = true := (h.recorded agent).trans hcontains
  obtain ⟨r, hr⟩ := (IdMap.contains_eq_true_iff _).1 hrecord
  have hdespawned : Ensures (Campaign.despawn agent) c
      (fun _ c' => Mustered profile Q (roll.erase agent) last c') fun _ _ => False := by
    refine ensures_despawn (fun last hlast => h.dismiss hlast) fun hnone => ?_
    rw [hr] at hnone
    cases hnone
  obtain ⟨⟨⟩, c', hc', hmustered⟩ := hdespawned.exists_ok
  exact ⟨c', hc', hmustered⟩

omit [Trainer T] in
/-- The removal of an agent that is not on the roster fails and changes nothing. -/
theorem Mustered.despawn_unknown (h : Mustered profile Q roll last c) {agent : AgentId}
    (hcontains : c.roster.contains agent = false) :
    Campaign.despawn agent c = .error (.battle (.unknownAgent agent)) c := by
  have hnone : c.battle.combatants.get? agent = none :=
    (IdMap.contains_eq_false_iff _).1 ((h.recorded agent).trans hcontains)
  have hdespawned : Ensures (Campaign.despawn agent) c (fun _ _ => False)
      fun e c' => e = .battle (.unknownAgent agent) ∧ c' = c := by
    refine ensures_despawn (fun last hlast => ?_) fun _ => ⟨rfl, ?_⟩
    · rw [hnone] at hlast
      cases hlast
    · rw [IdMap.erase_of_not_contains hcontains]
  exact hdespawned.eq_error

end Campaign

end FlagCombat
