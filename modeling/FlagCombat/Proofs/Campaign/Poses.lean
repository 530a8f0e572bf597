import FlagCombat.Proofs.Campaign.Mirror

/-!
The poses of a campaign in an arena, after any orders, failed ones included. Everybody on the roster is
shown where the record says; in a tick everybody looks from one point; and a tick that succeeds
leaves as the previous pose where an agent was before it, if the agent walked, or else where it is.
-/

namespace FlagCombat

namespace Battle

variable {H T : Type} {b : Battle H T} {agent : AgentId} {pose : Pose}

/-- All that the snapshot of a battle answers an agent is seen from a pose. -/
structure SeenFrom (b : Battle H T) (agent : AgentId) (pose : Pose) : Prop where
  frozen : b.snapshot.poses.get? agent = some pose
  target : (b.snapshot.target b.teams b.profile.targeting agent).1 =
    b.profile.targeting.select pose (b.snapshot.poses.ofMembers (b.teams.foesOf agent))
  nearestFriend : (b.snapshot.nearestFriend b.teams agent).1 =
    nearest pose.position agent
      ((b.snapshot.poses.ofMembers (b.teams.friendsOf agent)).map fun m => (m.1, m.2.position))
  nearestFoe : (b.snapshot.nearestFoe b.teams agent).1 =
    nearest pose.position agent
      ((b.snapshot.poses.ofMembers (b.teams.foesOf agent)).map fun m => (m.1, m.2.position))

/-- An agent sees from where it is frozen, whether its questions are answered now or were before. -/
theorem Sound.seenFrom (hb : b.Sound) (hfrozen : b.snapshot.poses.get? agent = some pose) :
    b.SeenFrom agent pose := by
  refine ⟨hfrozen, ?_, ?_, ?_⟩
  · rw [hb.coherent.target_fst, Poses.target, hfrozen]
    rfl
  · rw [hb.coherent.nearestFriend_fst, Poses.nearestFriend, Poses.nearestOf, hfrozen]
    rfl
  · rw [hb.coherent.nearestFoe_fst, Poses.nearestFoe, Poses.nearestOf, hfrozen]
    rfl

end Battle

namespace Campaign

section Moves

variable {H T : Type} [Host H] [Trainer T] {slot slot' : Slot} {events : List (Event H T)}

theorem Played.any_moves (h : Played slot events slot') :
    events.any (·.request.moves) = slot.handle.walks := by
  obtain @⟨readings, observations, action, reward, b₁, b₂, b₃, b₄, hstep⟩ := h
  have hdecision : (decision slot observations).moves = false := by
    unfold decision
    split <;> rfl
  simp only [List.any_cons, List.any_nil, hdecision]
  simp [Request.moves]

/-- The only move of a turn is the step at its end. -/
theorem Turned.any_moves {ended : Bool} (h : Turned slot ended events slot') :
    events.any (·.request.moves) = (if ended then slot.renewed else slot).handle.walks := by
  cases h with
  | goesOn hcheck hplay => simpa [Request.moves] using hplay.any_moves
  | renews hcheck hplay => simpa [Request.moves] using hplay.any_moves

end Moves

variable {T P : Type} [Trainer T] {profile : Profile} {roll : Roll} {last : Nat}
  {c c' : Campaign Arena T P}

/-- An agent that senses or steps measures from a place: there is its record, from which it measures
the centroid of its team and the flag, and from there its target and the nearest others are seen. -/
def Event.MeasuresFrom (place : Pose) (e : Event Arena T) : Prop :=
  e.request.looks = true → ∃ record, e.battle.combatants.get? e.request.agent = some record ∧
    record.pose = place ∧ e.battle.SeenFrom e.request.agent place

omit [Trainer T] in
theorem Event.LooksFrom.measures {e : Event Arena T} {place : Pose} (h : e.LooksFrom place)
    (hsound : e.battle.Sound) : e.MeasuresFrom place := by
  intro hlooks
  obtain ⟨hlive, hfrozen, -⟩ := h hlooks
  obtain ⟨record, hrecord, hpose⟩ := Option.map_eq_some_iff.1 hlive
  exact ⟨record, hrecord, hpose, hsound.seenFrom hfrozen⟩

/-- Every agent on the roster is shown exactly where its record says. -/
def Displayed (c : Campaign Arena T P) : Prop :=
  ∀ agent, c.roster.contains agent = true →
    ∃ record, c.battle.combatants.get? agent = some record ∧
      Host.transform c.battle.host agent = some record.pose

section Entry

/-- Whoever is spawned is still at its spawn pose, and nobody else moves. -/
theorem whereabouts_spawn {team : Team} {group : Group} {pose : Pose} {agent : AgentId}
    (hspawn : spawn team group pose c = .ok agent c')
    (hnone : c.battle.combatants.get? agent = none) (other : AgentId) :
    c'.battle.whereabouts other =
      if other = agent then .still pose else c.battle.whereabouts other := by
  obtain ⟨host, b, hhost, henroll, rfl⟩ := spawn_ok hspawn
  have hshown := Arena.transform_spawn hhost
  have hown : Host.transform host agent = some pose := (hshown agent).trans (if_pos rfl)
  have hentered := Battle.whereabouts_enroll hnone hown henroll other
  show (b.equip _).whereabouts other = _
  rw [hentered]
  split
  · rfl
  · rename_i hother
    unfold Battle.whereabouts
    rw [hshown, if_neg hother]

theorem Agreed.entered (h : Agreed profile roll last c) (hone : last + 1 < 2 ^ 32) (team : Team)
    (group : Group) (pose : Pose) :
    ∃ c', Campaign.spawn team group pose c = .ok (.ofNumber (last + 1)) c' ∧
      Agreed profile (roll.insert (.ofNumber (last + 1)) (team, group)) (last + 1) c' ∧
      ∀ other, c'.battle.whereabouts other =
        if other = .ofNumber (last + 1) then .still pose else c.battle.whereabouts other := by
  obtain ⟨c', hspawn, hagreed⟩ := h.spawn (fun _ _ _ => trivial) hone team group pose
  have hnew : c.battle.combatants.contains (.ofNumber (last + 1)) = false :=
    (h.contains_eq _).2.1.trans (h.not_contains (Nat.lt_succ_self last) hone)
  have hnone : c.battle.combatants.get? (.ofNumber (last + 1)) = none :=
    (IdMap.contains_eq_false_iff _).1 hnew
  exact ⟨c', hspawn, hagreed, whereabouts_spawn hspawn hnone⟩

/-- The spawns of a tick move nobody, and whoever they bring is still. -/
theorem Agreed.enteredMany (h : Agreed profile roll last c) {point : SpawnPoint} {count : Nat}
    (hfew : last + (newcomers point count c).length < 2 ^ 32)
    (hmany : Campaign.spawnMany point count c = .ok () c') (agent : AgentId) :
    c'.battle.whereabouts agent = c.battle.whereabouts agent ∨
      roll.contains agent = false ∧ c'.battle.whereabouts agent = .still point.pose := by
  induction count generalizing roll last c with
  | zero =>
    cases hmany
    exact .inl rfl
  | succ count ih =>
    obtain ⟨new, c₁, hfirst, hrest⟩ := bind_ok hmany
    have hnewcomers : newcomers point (count + 1) c = .ok new :: newcomers point count c₁ := by
      rw [newcomers, hfirst]
    rw [hnewcomers, List.length_cons] at hfew
    obtain ⟨c₂, hspawn, hagreed, hmoved⟩ := h.entered (by omega) point.team .agent point.pose
    rw [hfirst] at hspawn
    cases hspawn
    have hnew : roll.contains (.ofNumber (last + 1)) = false :=
      h.not_contains (Nat.lt_succ_self last) (by omega)
    rcases ih hagreed (by omega) hrest with hsame | ⟨hlater, hstill⟩
    · rw [hsame, hmoved agent]
      split
      · rename_i hagent
        rw [hagent]
        exact .inr ⟨hnew, rfl⟩
      · exact .inl rfl
    · rw [IdMap.contains_insert, Bool.or_eq_false_iff] at hlater
      exact .inr ⟨hlater.2, hstill⟩

end Entry

section Orders

variable [Policy P] {number : UInt64} {point : SpawnPoint} {agent : AgentId}

/-- In a tick each agent that senses or steps does so from one place. -/
def Measured (number : UInt64) (point : SpawnPoint) (c : Campaign Arena T P) : Prop :=
  ∃ places : AgentId → Pose, ∀ e ∈ asked (.tick number point) c,
    e.MeasuresFrom (places e.request.agent)

/-- A tick leaves as the previous pose of an agent the one before the tick, if its step moved it, and
else the pose where it is. -/
def Recalled (number : UInt64) (point : SpawnPoint) (c : Campaign Arena T P) : Prop :=
  ∀ agent record, (follow (.tick number point) c).battle.combatants.get? agent = some record →
    if (own agent (asked (.tick number point) c)).any (·.request.moves) then
      (c.battle.combatants.get? agent).map Combatant.pose = some record.previousPose
    else record.previousPose = record.pose

omit [Trainer T] [Policy P] in
/-- At the start of a tick every running agent is frozen where its record says. -/
theorem Agreed.at_begun (h : Agreed profile roll last c) (hmirrored : c.Mirrored) (number : UInt64)
    (hrunning : c.roster.contains agent = true) :
    ∃ pose, (c.battle.whereabouts agent).live = some pose ∧
      ((c.begun number).battle.whereabouts agent).At pose := by
  obtain ⟨record, hrecord⟩ :=
    (IdMap.contains_eq_true_iff _).1 ((h.recorded agent).trans hrunning)
  have hlive : (c.battle.whereabouts agent).live = some record.pose :=
    congrArg (Option.map Combatant.pose) hrecord
  have hshown : (c.battle.whereabouts agent).shown = (c.battle.whereabouts agent).live :=
    hmirrored agent
  have hbegun := Battle.whereabouts_beginTick h.sound number agent
  refine ⟨record.pose, hlive, ?_⟩
  show ((c.battle.beginTick number).whereabouts agent).At record.pose
  rw [hbegun]
  exact ⟨hlive, hlive, hshown.trans hlive⟩

theorem Agreed.ensures_turns (h : Agreed profile roll last c) (hmirrored : c.Mirrored)
    (number : UInt64) :
    ∃ places : AgentId → Pose, Told.Ensures (Told.stepAgents c.roster.keys) (c.begun number)
      (fun e => e.request.agent ∈ c.roster.keys ∧ e.LooksFrom (places e.request.agent))
      (fun _ c' => c'.Mirrored) fun _ c' => c'.Mirrored := by
  refine ensures_stepAgents_mirrored c.roster.nodup_keys h.handle_id ?_ ?_
  · intro agent
    show ((c.battle.beginTick number).whereabouts agent).Mirrored
    rw [Battle.whereabouts_beginTick h.sound]
    exact hmirrored agent
  · intro agent _ hrunning
    obtain ⟨pose, -, hat⟩ := h.at_begun hmirrored number hrunning
    exact ⟨pose, hat⟩

theorem Agreed.measured (h : Agreed profile roll last c) (hmirrored : c.Mirrored) (number : UInt64)
    (point : SpawnPoint) : Measured number point c := by
  obtain ⟨places, hturns⟩ := h.ensures_turns hmirrored number
  refine ⟨places, fun e he => ?_⟩
  rw [asked_tick] at he
  have hkept := Kept.stepAgents kept_sound c.roster.keys (h.beginTick number).sound
  obtain ⟨c₁, hsound, hbattle⟩ := hkept.asks e he
  rw [hbattle] at hsound
  exact (hturns.asks e he).2.measures hsound

/-- Everybody stays shown where the record says. -/
theorem lasting_mirrored : Lasting profile fun c : Campaign Arena T P => c.Mirrored where
  spawn c team group pose agent c' hc hnone hspawn other := by
    rw [whereabouts_spawn hspawn hnone other]
    split
    · rfl
    · exact hc other
  despawn c agent c' hc hdespawn other := by
    obtain ⟨record, -, rfl⟩ := despawn_ok hdespawn
    rw [Battle.whereabouts_dismiss]
    split
    · rfl
    · exact hc other
  trainer c trainer hc := hc
  turns roll last c number h hc := by
    obtain ⟨places, hturns⟩ := h.ensures_turns hc number
    have hrun := hturns.run
    rwa [Told.run_stepAgents] at hrun

theorem Agreed.mirroredAll (h : Agreed profile roll last c) (hmirrored : c.Mirrored)
    (orders : List Order) (hfew : last + (allArrivals orders c).length < 2 ^ 32) :
    (followAll orders c).Mirrored :=
  lasting_mirrored.followAll h hmirrored orders hfew

/-- A tick asks nothing for who is not on the roster. -/
theorem Agreed.own_asked (h : Agreed profile roll last c) {ended : Nat}
    (hsteps : (Told.stepAgents c.roster.keys).run (c.begun number) = .ok ended c')
    (habsent : c.roster.contains agent = false) :
    own agent (asked (.tick number point) c) = [] ∧
      c'.battle.whereabouts agent = (c.begun number).battle.whereabouts agent := by
  have hnone : (c.begun number).roster.get? agent = none :=
    c.roster.contains_eq_false_iff.1 habsent
  rw [asked_tick]
  obtain ⟨hown, hsame, -⟩ :=
    alone_of_stepAgents (apart_whereabouts agent) hsteps h.handle_id (.inr hnone)
  exact ⟨hown, hsame⟩

/-- The turns of a tick leave as the previous pose of an agent where it was before, if it walked, and
else where it is. -/
theorem Agreed.previous_turns (h : Agreed profile roll last c) (hmirrored : c.Mirrored) {ended : Nat}
    (hsteps : (Told.stepAgents c.roster.keys).run (c.begun number) = .ok ended c')
    (agent : AgentId) :
    (c'.battle.whereabouts agent).previous =
      if (own agent (asked (.tick number point) c)).any (·.request.moves)
      then (c.battle.whereabouts agent).live else (c'.battle.whereabouts agent).live := by
  cases hrunning : c.roster.contains agent with
  | false =>
    obtain ⟨hown, hsame⟩ := h.own_asked hsteps hrunning
    have hrecord : (c.begun number).battle.combatants.get? agent = none :=
      (IdMap.contains_eq_false_iff _).1 ((h.recorded agent).trans hrunning)
    rw [hown, hsame]
    simp [Battle.whereabouts, hrecord]
  | true =>
    obtain ⟨slot, hslot⟩ := (IdMap.contains_eq_true_iff _).1 hrunning
    obtain ⟨pose, hlive, hat⟩ := h.at_begun hmirrored number hrunning
    have hmem : agent ∈ c.roster.keys := (IdMap.mem_keys_iff _).2 hrunning
    obtain ⟨c₁, c₂, isOver, hturn, hown, hbefore, hafter, -⟩ :=
      turn_of_stepAgents (apart_whereabouts agent) hsteps h.handle_id c.roster.nodup_keys hmem hslot
    have hid : slot.handle.id = agent := h.handle_id agent slot hslot
    subst hid
    obtain ⟨slot', hturned, -⟩ := turned_of_ok hturn
    obtain ⟨place, hleads⟩ := ensures_turn_leads hbefore hat
    rw [asked_tick, hown, hturned.any_moves, hafter, hlive]
    exact (hleads.run.after_ok hturn).2

/-- A tick that succeeds does so too, and whoever it brings is still. -/
theorem Agreed.previous_tick (h : Agreed profile roll last c) (hmirrored : c.Mirrored)
    (hfew : last + (arrivals (.tick number point) c).length < 2 ^ 32)
    (hsuccess : fails (.tick number point) c = false) (agent : AgentId) :
    let w' := (follow (.tick number point) c).battle.whereabouts agent
    w'.previous = if (own agent (asked (.tick number point) c)).any (·.request.moves)
      then (c.battle.whereabouts agent).live else w'.live := by
  cases h.tickEnd hfew with
  | failed hsteps hagreed hobey =>
    rw [fails_of_error hobey] at hsuccess
    cases hsuccess
  | @ended ended c₁ taken c' hsteps htaken hagreed hfew hmany hobey =>
    rw [← Told.run_stepAgents] at hsteps
    rw [follow_of_ok hobey]
    dsimp only
    rcases hagreed.enteredMany hfew hmany agent with hsame | ⟨hnew, hstill⟩
    · rw [hsame, htaken]
      exact h.previous_turns hmirrored hsteps agent
    · have habsent : c.roster.contains agent = false := (h.contains_eq agent).1.trans hnew
      rw [(h.own_asked hsteps habsent).1, hstill]
      rfl

theorem Agreed.recalled (h : Agreed profile roll last c) (hmirrored : c.Mirrored)
    (hfew : last + (arrivals (.tick number point) c).length < 2 ^ 32)
    (hsuccess : fails (.tick number point) c = false) : Recalled number point c := by
  intro agent record hrecord
  have hprevious := h.previous_tick hmirrored hfew hsuccess agent
  simp only [Battle.whereabouts, hrecord, Option.map_some] at hprevious
  split
  · rename_i hmoved
    rw [if_pos hmoved] at hprevious
    exact hprevious.symm
  · rename_i hplaced
    rw [if_neg hplaced] at hprevious
    exact Option.some.inj hprevious

/-- Whatever a campaign in an arena is ordered, and also where an order fails, every agent on the
roster is shown exactly where its record says; in every tick each agent senses and steps from one
place, where its record and the snapshot have it; and a tick that succeeds leaves as previous poses
those before the tick, for whoever its step moved, and the poses themselves for all others. -/
theorem poses_mirrored (profile : Profile) (world : WorldSettings) (trainer : T) (seed : UInt64)
    (policy : P) (orders : List Order)
    (hfew : (allArrivals orders (opening profile world trainer seed policy)).length < 2 ^ 32) :
    let start := opening profile world trainer seed policy
    Displayed (followAll orders start) ∧
    ∀ earlier number point later, orders = earlier ++ .tick number point :: later →
      let before := followAll earlier start
      Measured number point before ∧
      (fails (.tick number point) before = false → Recalled number point before) := by
  intro start
  have hopening : Agreed profile .empty 0 start :=
    mustered_opening profile world trainer seed policy trivial
  have hempty : start.Mirrored := fun agent => rfl
  constructor
  · intro agent hrunning
    obtain ⟨roll, hleft⟩ := agreed_followAll profile world trainer seed policy orders hfew
    have hmirrored := hopening.mirroredAll hempty orders (by rwa [Nat.zero_add])
    obtain ⟨pose, hlive, -⟩ := hleft.at_begun hmirrored 0 hrunning
    obtain ⟨record, hrecord, hpose⟩ := Option.map_eq_some_iff.1 hlive
    refine ⟨record, hrecord, ?_⟩
    rw [hpose]
    exact Eq.trans (hmirrored agent) hlive
  · rintro earlier number point later rfl before
    have htick := few_before hfew
    have hearlier := Nat.lt_of_add_right_lt htick
    obtain ⟨roll, hbefore⟩ := agreed_followAll profile world trainer seed policy earlier hearlier
    have hmirrored := hopening.mirroredAll hempty earlier (by rwa [Nat.zero_add])
    exact ⟨hbefore.measured hmirrored number point, hbefore.recalled hmirrored htick⟩

end Orders

/-- The first tick of the brawl places the agent and lets the turret walk; the second one fails. -/
theorem poses_mirrored_brawl :
    let point : SpawnPoint := ⟨.zero, ⟨400.0, 200.0, 90.0⟩⟩
    let before := followAll (brawl.take 5) rash
    let events := asked (.tick 0 point) before
    (allArrivals brawl rash).length < 2 ^ 32 ∧ fails (.tick 0 point) before = false ∧
      fails (.tick 1 point) (follow (.tick 0 point) before) = true ∧
      (own ⟨1⟩ events).any (·.request.looks) = true ∧
      (own ⟨1⟩ events).any (·.request.moves) = false ∧
      (own ⟨3⟩ events).any (·.request.moves) = true ∧
      Displayed (followAll brawl rash) ∧ Measured 0 point before ∧ Recalled 0 point before := by
  intro point before events
  have hfew : (allArrivals brawl rash).length < 2 ^ 32 := by decide +kernel
  have hsuccess : fails (.tick 0 point) before = false := by decide +kernel
  obtain ⟨hdisplayed, hticks⟩ := poses_mirrored _ _ _ _ _ brawl hfew
  obtain ⟨hmeasured, hrecalled⟩ := hticks (brawl.take 5) 0 point [.tick 1 point] rfl
  exact ⟨hfew, hsuccess, by decide +kernel, by decide +kernel, by decide +kernel,
    by decide +kernel, hdisplayed, hmeasured, hrecalled hsuccess⟩

end Campaign

end FlagCombat
