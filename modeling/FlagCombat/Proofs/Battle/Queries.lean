import FlagCombat.Proofs.Battle.LineOfFire
import FlagCombat.Proofs.Nearest

/-!
What a battle tells an agent of the others: whom it may shoot, who of its team is nearest, which foe
is. The answers are put together from the teams, the frozen poses and the records, which are about
the same agents; so an answer is missing only if there is nobody to name, and a shot never finds a
pose or a record missing.
-/

namespace FlagCombat

namespace Battle

variable {H T : Type}

/-- Another agent on the same team, by their records. -/
def Fellow (b : Battle H T) (agent other : AgentId) : Prop :=
  ∃ c d, b.combatants.get? agent = some c ∧ b.combatants.get? other = some d ∧
    d.team = c.team ∧ other ≠ agent

/-- An agent on the opposing team, by their records. -/
def Foe (b : Battle H T) (agent other : AgentId) : Prop :=
  ∃ c d, b.combatants.get? agent = some c ∧ b.combatants.get? other = some d ∧
    d.team = c.team.opponent

section Records

variable {b : Battle H T} {agent other : AgentId}

theorem Fellow.contains (h : b.Fellow agent other) : b.combatants.contains other = true := by
  obtain ⟨-, d, -, hd, -, -⟩ := h
  exact (IdMap.contains_eq_true_iff _).2 ⟨d, hd⟩

theorem Foe.contains (h : b.Foe agent other) : b.combatants.contains other = true := by
  obtain ⟨-, d, -, hd, -⟩ := h
  exact (IdMap.contains_eq_true_iff _).2 ⟨d, hd⟩

theorem Foe.ne (h : b.Foe agent other) : other ≠ agent := by
  rintro rfl
  obtain ⟨c, d, hc, hd, hteam⟩ := h
  rw [hc] at hd
  cases hd
  exact c.team.opponent_ne hteam.symm

theorem Sound.mem_friendsOf_iff (hb : b.Sound) :
    other ∈ b.teams.friendsOf agent ∧ other ≠ agent ↔ b.Fellow agent other := by
  rw [Teams.mem_friendsOf_iff]
  simp only [hb.teamOf, Option.map_eq_some_iff]
  constructor
  · rintro ⟨⟨_, ⟨c, hc, rfl⟩, d, hd, hteam⟩, hne⟩
    exact ⟨c, d, hc, hd, hteam, hne⟩
  · rintro ⟨c, d, hc, hd, hteam, hne⟩
    exact ⟨⟨c.team, ⟨c, hc, rfl⟩, d, hd, hteam⟩, hne⟩

theorem Sound.mem_foesOf_iff (hb : b.Sound) : other ∈ b.teams.foesOf agent ↔ b.Foe agent other := by
  rw [Teams.mem_foesOf_iff]
  simp only [hb.teamOf, Option.map_eq_some_iff]
  constructor
  · rintro ⟨_, ⟨c, hc, rfl⟩, d, hd, hteam⟩
    exact ⟨c, d, hc, hd, hteam⟩
  · rintro ⟨c, d, hc, hd, hteam⟩
    exact ⟨c.team, ⟨c, hc, rfl⟩, d, hd, hteam⟩

/-- An agent has other friends if somebody else has a record on its team. -/
theorem Sound.hasOtherFriends_iff (hb : b.Sound) :
    b.teams.hasOtherFriends agent = true ↔ ∃ other, b.Fellow agent other := by
  unfold Teams.hasOtherFriends
  rw [List.any_eq_true]
  simp only [decide_eq_true_eq, hb.mem_friendsOf_iff]

theorem Sound.hasOtherFriends_eq_false_iff (hb : b.Sound) :
    b.teams.hasOtherFriends agent = false ↔ ∀ other, ¬b.Fellow agent other := by
  rw [Bool.eq_false_iff, ne_eq, hb.hasOtherFriends_iff, not_exists]

theorem Sound.contains_pose (hb : b.Sound) (h : b.combatants.contains agent = true) :
    b.snapshot.poses.contains agent = true := (hb.posed agent).trans h

/-- There is a nearest friend as soon as there is a friend, and it is one. -/
theorem Sound.exists_nearestFriend (hb : b.Sound) (h : ∃ other, b.Fellow agent other) :
    ∃ found, b.snapshot.poses.nearestFriend b.teams agent = some found ∧
      b.snapshot.poses.Nearest agent (b.Fellow agent) found := by
  obtain ⟨other, hother⟩ := h
  obtain ⟨c, -, hc, -⟩ := id hother
  have hagent := hb.contains_pose ((IdMap.contains_eq_true_iff _).2 ⟨c, hc⟩)
  obtain ⟨hlisted, hne⟩ := hb.mem_friendsOf_iff.2 hother
  have hsome : (b.snapshot.poses.nearestFriend b.teams agent).isSome = true :=
    (Poses.isSome_nearestOf hagent).2 ⟨other, hlisted, hne, hb.contains_pose hother.contains⟩
  obtain ⟨found, hfound⟩ := Option.isSome_iff_exists.1 hsome
  obtain ⟨hone, hne, hapart, hleast⟩ := Poses.nearestOf_spec hfound
  refine ⟨found, hfound, hb.mem_friendsOf_iff.1 ⟨hone, hne⟩, hne, hapart, ?_⟩
  exact fun third distance hthird => hleast third distance (hb.mem_friendsOf_iff.2 hthird).1

theorem Sound.nearestFoe_spec (hb : b.Sound) {found : AgentId × Float}
    (h : b.snapshot.poses.nearestFoe b.teams agent = some found) :
    b.snapshot.poses.Nearest agent (b.Foe agent) found := by
  obtain ⟨hone, hne, hapart, hleast⟩ := Poses.nearestOf_spec h
  refine ⟨hb.mem_foesOf_iff.1 hone, hne, hapart, ?_⟩
  exact fun third distance hthird => hleast third distance (hb.mem_foesOf_iff.2 hthird)

theorem Sound.isSome_nearestFoe (hb : b.Sound) (h : b.combatants.contains agent = true) :
    (b.snapshot.poses.nearestFoe b.teams agent).isSome = true ↔ ∃ other, b.Foe agent other := by
  refine (Poses.isSome_nearestOf (hb.contains_pose h)).trans ?_
  constructor
  · rintro ⟨other, hlisted, -⟩
    exact ⟨other, hb.mem_foesOf_iff.1 hlisted⟩
  · rintro ⟨other, hother⟩
    exact ⟨other, hb.mem_foesOf_iff.2 hother, hother.ne, hb.contains_pose hother.contains⟩

/-- A foe that was frozen in the cone of an agent: its bearing is, to either side, not beyond the
half angle of the cone. -/
def InSight (b : Battle H T) (agent foe : AgentId) : Prop :=
  b.Foe agent foe ∧ ∃ pose place, b.snapshot.poses.get? agent = some pose ∧
    b.snapshot.poses.get? foe = some place ∧
    ¬(pose.bearing place.position).abs > b.profile.targeting.coneHalfAngle

/-- A target is a foe that stands inside the cone. -/
theorem Sound.target_spec (hb : b.Sound) {foe : AgentId} (h : (b.target agent).1 = some foe) :
    (∃ other, b.Fellow agent other) ∧ b.InSight agent foe := by
  rw [target_forget hb.coherent] at h
  unfold targetAnew at h
  split at h
  · rename_i hfriends
    obtain ⟨pose, place, hpose, hplace, hinside⟩ := Poses.target_inside h
    exact ⟨hb.hasOtherFriends_iff.1 hfriends, hb.mem_foesOf_iff.1 (Poses.target_mem h).1, pose,
      place, hpose, hplace, of_decide_eq_false hinside⟩
  · cases h

end Records

variable [Host H]

/-- What a battle answers an agent that asks about the others: its target is a foe in the cone, its
nearest friend and foe are as near as any, and its shots are up to the ray. -/
structure Candid (b : Battle H T) (agent : AgentId) : Prop where
  lone : (∀ other, ¬b.Fellow agent other) → (b.target agent).1 = none
  target : ∀ foe, (b.target agent).1 = some foe → b.InSight agent foe
  /-- The answers that a reward asks for, once the shot is done. -/
  friend : (∃ other, b.Fellow agent other) → ∃ found,
    ((b.engage agent).2.snapshot.nearestFriend b.teams agent).1 = some found ∧
      b.snapshot.poses.Nearest agent (b.Fellow agent) found
  foe : (((b.engage agent).2.snapshot.nearestFriend b.teams agent).2.nearestFoe
    b.teams agent).1.isSome = true ↔ ∃ other, b.Foe agent other
  nearest_foe : ∀ found, (((b.engage agent).2.snapshot.nearestFriend b.teams agent).2.nearestFoe
    b.teams agent).1 = some found → b.snapshot.poses.Nearest agent (b.Foe agent) found
  /-- A shot at a target finds both poses and the record, and is up to the ray alone. -/
  shot : ∀ foe, (b.target agent).1 = some foe → ∃ start finish,
    (b.target agent).2.snapshot.poses.get? agent = some start ∧
      (b.target agent).2.snapshot.poses.get? foe = some finish ∧
      (b.target agent).2.combatants.contains foe = true ∧
      (b.engage agent).1 = lineOfSightClear
        (Host.rayCast b.host start.position finish.position .shotBlockers).1 foe

/-- The invariant of a battle answers every question for an agent with a record. -/
theorem Sound.candid {b : Battle H T} (hb : b.Sound) {agent : AgentId}
    (h : b.combatants.contains agent = true) : b.Candid agent := by
  have hasked : (b.engage agent).2.snapshot = (b.target agent).2.snapshot := by rw [engage_eq]
  have hposes : (b.target agent).2.snapshot.poses = b.snapshot.poses := by
    rw [target_snd]
    dsimp only
    split
    · exact Snapshot.poses_target ..
    · rfl
  have hrecords : (b.target agent).2.combatants = b.combatants := by rw [target_snd]
  refine ⟨fun hlone => ?lone, fun foe hfoe => (hb.target_spec hfoe).2, fun hfriends => ?friend,
    ?foe, fun found hfound => ?nearest_foe, fun foe hfoe => ?shot⟩
  case lone =>
    cases htarget : (b.target agent).1 with
    | none => rfl
    | some foe =>
      obtain ⟨other, hother⟩ := (hb.target_spec htarget).1
      exact absurd hother (hlone other)
  case friend =>
    rw [hasked, nearestFriend_eq hb.coherent]
    exact hb.exists_nearestFriend hfriends
  case foe =>
    rw [hasked, nearestFoe_eq hb.coherent]
    exact hb.isSome_nearestFoe h
  case nearest_foe =>
    rw [hasked, nearestFoe_eq hb.coherent] at hfound
    exact hb.nearestFoe_spec hfound
  case shot =>
    obtain ⟨-, hisFoe, start, finish, hstart, hfinish, -⟩ := hb.target_spec hfoe
    have haim : b.aim? agent = some (foe, start.position, finish.position) := by
      simp only [aim?, hfoe, Option.bind_some, hstart, hfinish]
    have hknown := hisFoe.contains
    refine ⟨start, finish, by rw [hposes, hstart], by rw [hposes, hfinish], hrecords ▸ hknown, ?_⟩
    rw [engage_eq]
    simp only [victim?, haim, Option.bind_some, hknown, Bool.and_true]
    split <;> simp [*]

end Battle

end FlagCombat
