import FlagCombat.Proofs.Battle.Relabel
import FlagCombat.Proofs.Campaign.Chronicle

/-!
An arena whose numbers run out. Whoever comes and goes again leaves nothing behind but a used
number. So the numbers can run out while hardly anybody is there, and such a run comes to what its
last few orders come to in an arena where so many numbers are used already.
-/

namespace FlagCombat

/-- To leave a team undoes having joined it. -/
theorem Teams.remove_register {t : Teams} {agent : AgentId} (h : t.teamOf agent = none)
    (team : Team) : ((t.register agent team).2.remove agent).2 = t := by
  apply ext_teamOf
  intro other
  rw [teamOf_remove, teamOf_register h]
  split
  · rename_i hother
    rw [hother, h]
  · rfl

/-- The body of one who goes again leaves its number behind. -/
theorem Arena.despawn_spawn {a a' : Arena} {agent : AgentId} {team : Team} {group : Group}
    {pose : Pose} (h : Host.spawnAgent a team group pose = (agent, a'))
    (hbody : a.bodies.contains agent = false) :
    Host.despawnAgent a' agent = { a with lastId := agent.value } := by
  obtain ⟨rfl, rfl⟩ := Prod.mk.inj (show a.spawn team group pose = _ from h)
  have hbodies := (IdMap.erase_insert a.bodies _ { team, group, pose }).trans
    (IdMap.erase_of_not_contains hbody)
  exact congrArg (fun bodies : IdMap Body =>
    ({ a with bodies, lastId := addCapped32 a.lastId 1 } : Arena)) hbodies

namespace Battle

variable {T : Type} {b : Battle Arena T}

/-- A body that is taken away takes its sensors along. -/
theorem despawn_equip (b : Battle Arena T) (handle : Handle) :
    Host.despawnAgent (b.equip handle).host handle.id = Host.despawnAgent b.host handle.id := by
  have hmodified (a : Arena) (f : Body → Body) :
      Host.despawnAgent (a.modifyBody handle.id f) handle.id = Host.despawnAgent a handle.id := by
    unfold Arena.modifyBody
    cases a.bodies.get? handle.id with
    | none => rfl
    | some body =>
      show { a with bodies := (a.bodies.insert handle.id (f body)).erase handle.id } = _
      rw [IdMap.erase_insert]
      rfl
  show Host.despawnAgent ((b.profile.sensors.sensors handle).foldl _ b.host) handle.id = _
  generalize b.host = a
  induction b.profile.sensors.sensors handle generalizing a with
  | nil => rfl
  | cons sensor sensors ih =>
    rw [List.foldl_cons, ih]
    exact hmodified a _

/-- Whoever leaves right after joining leaves the battle as it was, but for the answers that the
snapshot has kept. -/
theorem Sound.leave (hb : b.Sound) (handle : Handle)
    (hnone : b.combatants.get? handle.id = none) (trainer : T) :
    let entered : Battle Arena T := { (b.enlist handle).equip handle with trainer }
    ({ entered.dismiss handle.id with host := Host.despawnAgent entered.host handle.id } :
        Battle Arena T) =
      { b with
        host := Host.despawnAgent b.host handle.id
        trainer := trainer
        snapshot := .capture b.snapshot.tick b.snapshot.poses } := by
  intro entered
  have hrecord := (IdMap.contains_eq_false_iff _).2 hnone
  have hteam : b.teams.teamOf handle.id = none := by
    rw [hb.teamOf, hnone]
    rfl
  have hhost : Host.despawnAgent entered.host handle.id = Host.despawnAgent b.host handle.id :=
    despawn_equip (b.enlist handle) handle
  have hcombatants : entered.combatants.erase handle.id = b.combatants :=
    (IdMap.erase_insert ..).trans (IdMap.erase_of_not_contains hrecord)
  have hposes : entered.snapshot.poses.erase handle.id = b.snapshot.poses :=
    (IdMap.erase_insert ..).trans (IdMap.erase_of_not_contains ((hb.posed _).trans hrecord))
  have hteams : (entered.teams.remove handle.id).2 = b.teams := Teams.remove_register hteam _
  show Battle.mk b.profile (Host.despawnAgent entered.host handle.id) trainer
    (entered.combatants.erase handle.id) (entered.teams.remove handle.id).2
    (.capture b.snapshot.tick (entered.snapshot.poses.erase handle.id)) b.generator b.hits = _
  rw [hhost, hcombatants, hteams, hposes]

end Battle

namespace Campaign

variable {T P : Type} [Trainer T] {c : Campaign Arena T P} {team : Team} {group : Group}
  {pose : Pose} {agent : AgentId}

/-- What somebody leaves behind who came and went: a number is used, an organism is given out, and
the snapshot has forgotten its answers. -/
def passed (c : Campaign Arena T P) (agent : AgentId) : Campaign Arena T P :=
  { c with battle := { c.battle with
      host := { c.battle.host with lastId := agent.value }
      trainer := Trainer.nextOrganism c.battle.trainer agent
      snapshot := .capture c.battle.snapshot.tick c.battle.snapshot.poses } }

theorem eq_passed {c₁ c₂ : Campaign Arena T P} (hspawn : spawn team group pose c = .ok agent c₁)
    (hdespawn : despawn agent c₁ = .ok () c₂) (hsound : c.battle.Sound)
    (hrunning : c.roster.contains agent = false)
    (hrecord : c.battle.combatants.contains agent = false)
    (hbody : c.battle.host.bodies.contains agent = false) : c₂ = c.passed agent := by
  obtain ⟨_, -, rfl⟩ := despawn_ok hdespawn
  obtain ⟨host, b, hhost, henroll, rfl⟩ := spawn_ok hspawn
  have hnone := (IdMap.contains_eq_false_iff _).1 hrecord
  have hshown : Battle.Sound { c.battle with host } :=
    ⟨hsound.record_id, hsound.teamOf, hsound.posed, hsound.coherent⟩
  rcases Battle.enroll_cases henroll with ⟨record, hfound, -, -⟩ | ⟨-, rfl⟩
  · cases hnone.symm.trans hfound
  · have hleft := hshown.leave { id := agent, team, group } hnone
      (Trainer.nextOrganism c.battle.trainer agent)
    dsimp only at hleft
    rw [Arena.despawn_spawn hhost hbody] at hleft
    have hroster : (c.roster.insert agent { handle := { id := agent, team, group } }).erase agent =
        c.roster := (IdMap.erase_insert ..).trans (IdMap.erase_of_not_contains hrunning)
    exact congrArg₂ (Campaign.mk · · c.policy) hleft hroster

theorem Agreed.passed {profile : Profile} {roll : Roll} {last : Nat} (h : Agreed profile roll last c)
    {number : Nat} (hle : last ≤ number) (hfew : number < 2 ^ 32) :
    Agreed profile roll number (c.passed (.ofNumber number)) :=
  ⟨⟨h.sound.record_id, h.sound.teamOf, h.sound.posed, Snapshot.coherent_capture _ _ _ _⟩,
    h.profile_eq, trivial, h.handle_id, h.roster, h.battle, h.arena, AgentId.toNat_ofNumber hfew,
    fun agent hagent => Nat.le_trans (h.numbered agent hagent) hle⟩

variable [Policy P]

/-- As long as there are new numbers, whoever comes may go again and leave no more behind. -/
theorem Agreed.followAll_passer {profile : Profile} {roll : Roll} {last : Nat}
    (h : Agreed profile roll last c) (hone : last + 1 < 2 ^ 32) (team : Team) (group : Group)
    (pose : Pose) : followAll [.spawn team group pose, .despawn (.ofNumber (last + 1))] c =
      c.passed (.ofNumber (last + 1)) := by
  have hnew := h.not_contains (Nat.lt_succ_self last) hone
  obtain ⟨hrunning, hrecord, hbody⟩ := h.contains_eq (.ofNumber (last + 1))
  obtain ⟨c₁, hspawn, hentered⟩ := h.spawn (fun _ _ _ => trivial) hone team group pose
  have hcame : c₁.roster.contains (.ofNumber (last + 1)) = true := by
    rw [(hentered.contains_eq _).1, IdMap.contains_insert, decide_eq_true rfl, Bool.true_or]
  obtain ⟨c₂, hdespawn, -⟩ := hentered.despawn hcame
  have hleft : follow (.despawn (.ofNumber (last + 1))) c₁ = c₂ := follow_of_ok hdespawn
  rw [followAll, follow_spawn hspawn, followAll, followAll, hleft]
  exact eq_passed hspawn hdespawn h.sound (hrunning.trans hnew) (hrecord.trans hnew)
    (hbody.trans hnew)

/-- Orders that let so many come and go again, one after the other. -/
def passers (team : Team) (group : Group) (pose : Pose) : Nat → List Order
  | 0 => []
  | count + 1 => passers team group pose count ++
      [.spawn team group pose, .despawn (.ofNumber (count + 1))]

omit [Trainer T] in
/-- Passers use up the numbers of an empty arena, and change nothing else. -/
theorem followAll_passers (profile : Profile) (world : WorldSettings) (trainer : FixedTrainer)
    (seed : UInt64) (policy : P) (team : Team) (group : Group) (pose : Pose) {count : Nat}
    (hfew : count < 2 ^ 32) :
    let start := opening profile world trainer seed policy
    followAll (passers team group pose count) start = start.passed (.ofNumber count) := by
  intro start
  have hopening : Agreed profile .empty 0 start :=
    mustered_opening profile world trainer seed policy trivial
  induction count with
  | zero => rfl
  | succ count ih =>
    have hpassed := hopening.passed (Nat.zero_le count) (by omega)
    rw [passers, followAll_append, ih (by omega), hpassed.followAll_passer hfew]
    rfl

end Campaign

end FlagCombat
