import FlagCombat.Proofs.Arena.Entering
import FlagCombat.Proofs.Campaign.Aiming
import FlagCombat.Proofs.Campaign.Crossfire
import FlagCombat.Proofs.Campaign.Exhausted
import FlagCombat.Proofs.Campaign.Unbroken

/-!
Nobody stands in its own line of fire. An arena hands out its numbers one after the other, and only
the last of them more than once; whoever has another number has one body, which is where the record
says whenever a tick begins. In the tick its shot starts at the center of that body, and a ray does
not strike what it starts in. Who comes under the last number when somebody has it already moves that
one's body away from its record, and perhaps into its line of fire.
-/

namespace FlagCombat

open Binary64

namespace Battle

variable {T : Type} [Trainer T] {b b' : Battle Arena T} {call : Call} {reply : Reply}
  {handle : Handle}

/-- A call for an agent leaves everybody's record. -/
theorem contains_attempt {agent : AgentId} (hh : call.handle? = some handle)
    (h : b.attempt call = .ok (reply, b')) (hc : b.combatants.contains agent = true) :
    b'.combatants.contains agent = true := by
  obtain ⟨c, hc⟩ := (IdMap.contains_eq_true_iff _).1 hc
  have hcall : call ≠ .removeAgent agent := by
    rintro rfl
    cases hh
  have hkept := identity_perform hc hcall
  unfold perform at hkept
  rw [h] at hkept
  obtain ⟨d, hd, -⟩ := Option.map_eq_some_iff.1 hkept
  exact (IdMap.contains_eq_true_iff _).2 ⟨d, hd⟩

/-- A call for an agent hands out no number. -/
theorem lastId_attempt (hh : call.handle? = some handle) (h : b.attempt call = .ok (reply, b')) :
    b'.host.lastId = b.host.lastId := by
  cases success_of_attempt h with
  | @handle call agent e hh' hrefusal henroll =>
    have hhost : e.host = b.host := by
      rcases enroll_cases henroll with ⟨_, -, -, rfl⟩ | ⟨-, rfl⟩
      · rfl
      · rfl
    have htouched := touched_respond hh' (contains_of_enroll henroll)
    exact (Arena.roll_touched htouched).2.trans (congrArg Arena.lastId hhost)
  | beginTick | removeAgent | cleanup => cases hh

/-- An agent that is at a place shoots from there, so that its ray does not strike its body. -/
theorem not_mem_strikes {action : List Float} {place : Pose}
    (hat : (b.whereabouts handle.id).At place) {w : Battle Arena T} {shooter : AgentId}
    (hshot : (Moment.mk b (.step handle action)).shot? = some (w, shooter)) {foe : AgentId}
    {start finish : Point} (haim : w.aim? shooter = some (foe, start, finish)) :
    .agent shooter ∉ (Host.rayCast w.host start finish .shotBlockers).1 := by
  obtain ⟨agent, act, e, hcall, henroll, -, -, rfl, rfl, -⟩ := Moment.step_of_shot hshot
  cases hcall
  obtain ⟨hlive, hfrozen, hshown⟩ := hat
  obtain ⟨c, hc, -⟩ := Option.map_eq_some_iff.1 hlive
  obtain rfl : e = b := eq_of_enroll henroll ((IdMap.contains_eq_true_iff _).2 ⟨c, hc⟩)
  have hhost : (e.walking handle action).host = e.host := by
    rw [walking_eq]
    exact animatedHost_eq e handle.id _
  have hposes : (e.walking handle action).snapshot.poses.get? handle.id = some place := by
    rw [walking_eq]
    exact hfrozen
  have hstart : start = place.position := by
    obtain ⟨found, -, hends⟩ := Option.bind_eq_some_iff.1 haim
    rw [hposes] at hends
    split at hends
    · rename_i from? _ hfrom _
      cases hends
      cases hfrom
      rfl
    · cases hends
  rw [hhost, hstart]
  exact Arena.not_mem_rayCast hshown finish _

/-- Nobody is the victim of its own shot. -/
theorem Sound.victim?_ne (hb : b.Sound) (action : List Float) :
    (Moment.mk b (.step handle action)).victim? ≠ some handle.id := by
  intro hvictim
  rw [Moment.victim?_eq] at hvictim
  obtain ⟨⟨w, shooter⟩, hshot, hvictim⟩ := Option.bind_eq_some_iff.1 hvictim
  obtain ⟨agent, act, e, hcall, henroll, -, -, rfl, rfl, -⟩ := Moment.step_of_shot hshot
  cases hcall
  have he : e.Sound := hb.changes (enroll_changes henroll)
  exact victim_ne (he.walking handle action).coherent hvictim rfl

end Battle

namespace Campaign

variable {T P : Type}

/-- A running agent has a record, and a record has a number that was handed out. -/
structure Entered (agent : AgentId) (c : Campaign Arena T P) : Prop where
  recorded : c.roster.contains agent = true → c.battle.combatants.contains agent = true
  numbered : c.battle.combatants.contains agent = true →
    agent.value.toNat ≤ c.battle.host.lastId.toNat

/-- Entered, and shown where the record says. -/
structure Lodged (agent : AgentId) (c : Campaign Arena T P) : Prop extends Entered agent c where
  mirrored : (c.battle.whereabouts agent).Mirrored

variable [Trainer T] {agent other : AgentId} {c c' : Campaign Arena T P}

section Turns

theorem kept_entered (hother : other ≠ agent) :
    Kept other fun c : Campaign Arena T P => Entered agent c where
  call c call handle reply battle hc hh hid hattempt := by
    have hsame := (Battle.beside_attempt hh hattempt).contains (hid ▸ hother.symm)
    refine ⟨fun hrunning => ?_, fun hrecord => ?_⟩
    · rw [hsame]
      exact hc.recorded hrunning
    · rw [Battle.lastId_attempt hh hattempt]
      exact hc.numbered (hsame ▸ hrecord)
  host _ _ hc := ⟨hc.recorded, hc.numbered⟩
  trainer _ _ hc := ⟨hc.recorded, hc.numbered⟩
  policy _ _ hc := ⟨hc.recorded, hc.numbered⟩
  slot c slot hc hid := by
    refine ⟨fun hrunning => hc.recorded ?_, hc.numbered⟩
    have hne : agent ≠ slot.handle.id := fun heq => hother (hid.symm.trans heq.symm)
    simpa [IdMap.contains_insert, hne] using hrunning

/-- A record with a number that was handed out. -/
theorem kept_record (agent other : AgentId) : Kept other fun c : Campaign Arena T P =>
    c.battle.combatants.contains agent = true ∧
      agent.value.toNat ≤ c.battle.host.lastId.toNat where
  call c call handle reply battle hc hh _ hattempt := by
    refine ⟨Battle.contains_attempt hh hattempt hc.1, ?_⟩
    rw [Battle.lastId_attempt hh hattempt]
    exact hc.2
  host _ _ hc := hc
  trainer _ _ hc := hc
  policy _ _ hc := hc
  slot _ _ hc _ := hc

variable [Policy P]

theorem Entered.turn (h : Entered agent c) {slot : Slot}
    (hslot : c.roster.get? slot.handle.id = some slot) :
    Ensures (Told.turn slot).run c (fun _ => Entered agent) fun _ => Entered agent := by
  by_cases hown : slot.handle.id = agent
  · have hrecord := h.recorded ((IdMap.contains_eq_true_iff _).2 ⟨slot, hown ▸ hslot⟩)
    have hkept := ((kept_record agent slot.handle.id).turn ⟨hrecord, h.numbered hrecord⟩).run
    exact hkept.mono (fun _ _ h => ⟨fun _ => h.1, fun _ => h.2⟩)
      fun _ _ h => ⟨fun _ => h.1, fun _ => h.2⟩
  · exact ((kept_entered hown).turn h).run

theorem Entered.stepAgents (h : Entered agent c) (hregistered : Registered c)
    (agents : List AgentId) :
    Ensures (Told.stepAgents agents).run c (fun _ => Entered agent) fun _ => Entered agent := by
  let I (c' : Campaign Arena T P) : Prop := Registered c' ∧ Entered agent c'
  have hturns : Told.Ensures (Told.stepAgents agents) c (fun _ => True) (fun _ => I)
      fun _ => I := by
    refine Told.ensures_stepAgents (fun c first slot hc hslot => ⟨fun _ _ => trivial, ?_⟩) agents
      ⟨hregistered, h⟩
    have hid : slot.handle.id = first := hc.1 first slot hslot
    exact ((kept_registered slot.handle.id).turn hc.1).run.and (hc.2.turn (hid ▸ hslot))
  exact hturns.run.mono (fun _ _ h => h.2) fun _ _ h => h.2

/-- In a tick an agent that is lodged looks from one place, and stays lodged. -/
theorem Lodged.ensures_turns (h : Lodged agent c) (hc : Composed c) (number : UInt64) :
    ∃ place, Told.Ensures (Told.stepAgents c.roster.keys) (c.begun number)
      (fun e => e.request.agent = agent → e.LooksFrom place) (fun _ => Lodged agent)
      fun _ => Lodged agent := by
  have hbegun : Entered agent (c.begun number) := ⟨h.recorded, h.numbered⟩
  have hwhere := Battle.whereabouts_beginTick hc.sound number agent
  have hmirrored : ((c.begun number).battle.whereabouts agent).Mirrored := by
    show ((c.battle.beginTick number).whereabouts agent).Mirrored
    rw [hwhere]
    exact h.mirrored
  have hready (hrunning : c.roster.contains agent = true) :
      ∃ pose, ((c.begun number).battle.whereabouts agent).At pose := by
    obtain ⟨record, hrecord⟩ := (IdMap.contains_eq_true_iff _).1 (h.recorded hrunning)
    have hlive : (c.battle.whereabouts agent).live = some record.pose :=
      congrArg (Option.map Combatant.pose) hrecord
    refine ⟨record.pose, ?_⟩
    show ((c.battle.beginTick number).whereabouts agent).At record.pose
    rw [hwhere]
    exact ⟨hlive, hlive, h.mirrored.trans hlive⟩
  obtain ⟨place, hturns⟩ := ensures_stepAgents_own c.roster.nodup_keys
    (hc.begun number).registered hmirrored fun _ => hready
  have hentered := hbegun.stepAgents (hc.begun number).registered c.roster.keys
  refine ⟨place, fun e he => (hturns.asks e he).2, ?_⟩
  exact (hentered.and hturns.run).mono (fun _ _ h => ⟨h.1, h.2⟩) fun _ _ h => ⟨h.1, h.2⟩

end Turns

section Orders

omit [Trainer T] in
/-- The number that an arena hands out next is new, unless it is the last one. -/
theorem Entered.fresh (h : Entered agent c) (hnumber : agent ≠ ⟨0xffffffff⟩)
    (hnext : agent = ⟨addCapped32 c.battle.host.lastId 1⟩) :
    c.battle.combatants.get? agent = none := by
  have hvalue := congrArg (·.value.toNat) hnext
  dsimp only at hvalue
  have hone : (1 : UInt32).toNat = 1 := rfl
  rw [toNat_addCapped32, hone, UInt32.size] at hvalue
  refine (IdMap.contains_eq_false_iff _).1 (Bool.eq_false_iff.2 fun hrecord => hnumber ?_)
  have hle := h.numbered hrecord
  refine AgentId.ext_toNat ?_
  show agent.value.toNat = 4294967295
  omega

theorem kept_lodged (hother : other ≠ agent) :
    Kept other fun c : Campaign Arena T P => Lodged agent c where
  call c call handle reply battle hc hh hid hattempt := by
    have hentered :=
      (kept_entered hother).call c call handle reply battle hc.toEntered hh hid hattempt
    have hwhere := Battle.whereabouts_attempt_of_ne hh hattempt (hid ▸ hother.symm)
    refine ⟨hentered, ?_⟩
    rw [hwhere]
    exact hc.mirrored
  host _ _ hc := ⟨⟨hc.recorded, hc.numbered⟩, hc.mirrored⟩
  trainer _ _ hc := ⟨⟨hc.recorded, hc.numbered⟩, hc.mirrored⟩
  policy _ _ hc := ⟨⟨hc.recorded, hc.numbered⟩, hc.mirrored⟩
  slot c slot hc hid := ⟨(kept_entered hother).slot c slot hc.toEntered hid, hc.mirrored⟩

omit [Trainer T] in
/-- A body under another number leaves an agent lodged. -/
theorem Lodged.shown (h : Lodged agent c) (hother : other ≠ agent) {team : Team} {group : Group}
    {pose : Pose} {host : Arena}
    (hspawn : Host.spawnAgent c.battle.host team group pose = (other, host)) :
    Lodged agent { c with battle := { c.battle with host } } := by
  obtain ⟨rfl, rfl⟩ := Prod.mk.inj (show c.battle.host.spawn team group pose = _ from hspawn)
  refine ⟨⟨h.recorded, fun hrecord => ?_⟩, ?_⟩
  · have hle := h.numbered hrecord
    show _ ≤ (addCapped32 c.battle.host.lastId 1).toNat
    rw [toNat_addCapped32, UInt32.size]
    have hsmall := agent.value.toNat_lt
    omega
  · exact (Arena.transform_spawn hspawn agent).trans
      ((if_neg hother.symm).trans h.mirrored)

/-- Whoever joins under a new number is lodged. -/
theorem lodged_of_fresh (hnone : c.battle.combatants.get? agent = none) {team : Team}
    {group : Group} {pose : Pose} {host : Arena}
    (hspawn : Host.spawnAgent c.battle.host team group pose = (agent, host)) :
    Ensures (Campaign.spawn team group pose) c (fun _ => Lodged agent) fun _ => Lodged agent := by
  let shown : Battle Arena T := { c.battle with host }
  let handle : Handle := { id := agent, team, group }
  have henroll : shown.enroll handle = .ok (shown.enlist handle) := by
    unfold Battle.enroll
    rw [show shown.combatants.get? handle.id = none from hnone]
    rfl
  have hbody : Host.transform shown.host agent = some pose :=
    (Arena.transform_spawn hspawn agent).trans (if_pos rfl)
  have hwhere := Battle.whereabouts_enroll hnone hbody henroll agent
  have hlast : shown.host.lastId = agent.value := by
    obtain ⟨rfl, rfl⟩ := Prod.mk.inj (show c.battle.host.spawn team group pose = _ from hspawn)
    rfl
  unfold Campaign.spawn
  apply ensures_get
  rw [hspawn]
  apply ensures_modify
  have hregister : shown.register handle =
      .ok (c.battle.profile.interface, (shown.enlist handle).equip handle) := by
    unfold Battle.register
    rw [henroll]
    rfl
  apply ensures_call_bind hregister
  · apply ensures_modify
    apply ensures_modify
    refine ensures_pure ⟨⟨fun _ => ?_, fun _ => ?_⟩, ?_⟩
    · show ((shown.enlist handle).equip handle).combatants.contains agent = true
      exact Battle.contains_of_enroll henroll
    · show agent.value.toNat ≤ ((shown.enlist handle).equip handle).host.lastId.toNat
      have hequipped : Touched shown.host ((shown.enlist handle).equip handle).host :=
        Battle.touched_equip .refl handle
      rw [(Arena.roll_touched hequipped).2, hlast]
    · show (((shown.enlist handle).equip handle).whereabouts agent).Mirrored
      rw [hwhere, if_pos rfl]
      rfl

/-- A spawn leaves an agent lodged whose number is not the last one. -/
theorem Lodged.spawn (h : Lodged agent c) (hnumber : agent ≠ ⟨0xffffffff⟩) (team : Team)
    (group : Group) (pose : Pose) :
    Ensures (Campaign.spawn team group pose) c (fun _ => Lodged agent) fun _ => Lodged agent := by
  by_cases hnew : agent = (Host.spawnAgent c.battle.host team group pose).1
  · exact lodged_of_fresh (h.toEntered.fresh hnumber hnew) (Prod.ext hnew.symm rfl)
  · exact (kept_lodged (Ne.symm hnew)).spawn (h.shown (Ne.symm hnew) rfl)

theorem Lodged.spawnMany (h : Lodged agent c) (hnumber : agent ≠ ⟨0xffffffff⟩) (point : SpawnPoint)
    (count : Nat) :
    Ensures (Campaign.spawnMany point count) c (fun _ => Lodged agent) fun _ => Lodged agent :=
  ensures_spawnMany (fun _ h => h.spawn hnumber point.team .agent point.pose) h count

omit [Trainer T] in
theorem Lodged.despawn (h : Lodged agent c) (other : AgentId) :
    Ensures (Campaign.despawn other) c (fun _ => Lodged agent) fun _ => Lodged agent := by
  refine ensures_despawn (fun last _ => ⟨⟨fun hrunning => ?_, fun hrecord => ?_⟩, ?_⟩) fun _ =>
    ⟨⟨fun hrunning => h.recorded ?_, h.numbered⟩, h.mirrored⟩
  · rw [IdMap.contains_erase, Bool.and_eq_true] at hrunning
    show (c.battle.combatants.erase other).contains agent = true
    rw [IdMap.contains_erase, hrunning.1, h.recorded hrunning.2]
    rfl
  · have hrecord : (c.battle.combatants.erase other).contains agent = true := hrecord
    rw [IdMap.contains_erase, Bool.and_eq_true] at hrecord
    exact h.numbered hrecord.2
  · show Whereabouts.Mirrored _
    rw [Battle.whereabouts_dismiss]
    split
    · rfl
    · exact h.mirrored
  · rw [IdMap.contains_erase, Bool.and_eq_true] at hrunning
    exact hrunning.2

variable [Policy P]

theorem Lodged.tick (h : Lodged agent c) (hc : Composed c) (hnumber : agent ≠ ⟨0xffffffff⟩)
    (number : UInt64) (point : SpawnPoint) :
    Ensures (Campaign.tick number point) c (fun _ => Lodged agent) fun _ => Lodged agent := by
  obtain ⟨place, hturns⟩ := h.ensures_turns hc number
  have hrun := hturns.run
  rw [Told.run_stepAgents] at hrun
  refine ensures_tick hrun fun ended c₁ h₁ => ?_
  have htaken : Lodged agent c₁.granted := ⟨⟨h₁.recorded, h₁.numbered⟩, h₁.mirrored⟩
  exact htaken.spawnMany hnumber point _

/-- An order leaves an agent lodged, also one that fails. -/
theorem Lodged.follow (h : Lodged agent c) (hc : Composed c) (hnumber : agent ≠ ⟨0xffffffff⟩)
    (order : Order) : Lodged agent (c.follow order) :=
  follow_of_ensures (h.spawn hnumber) h.despawn (h.tick hc hnumber) order

theorem Lodged.followAll (h : Lodged agent c) (hc : Composed c) (hnumber : agent ≠ ⟨0xffffffff⟩)
    (orders : List Order) : Lodged agent (followAll orders c) := by
  induction orders generalizing c with
  | nil => exact h
  | cons order orders ih => exact ih (h.follow hc hnumber order) (unbroken_composed.follow hc order)

omit [Trainer T] [Policy P] in
/-- As long as there are numbers left, everybody is lodged, also under the last one. -/
theorem Agreed.lodged {profile : Profile} {roll : Roll} {last : Nat}
    (h : Agreed profile roll last c) (hmirrored : c.Mirrored) (agent : AgentId) :
    Lodged agent c := by
  refine ⟨⟨fun hrunning => (h.recorded agent).trans hrunning, fun hrecord => ?_⟩, hmirrored agent⟩
  rw [h.last_eq]
  exact h.numbered agent ((h.contains_eq agent).2.1.symm.trans hrecord)

/-- After whatever orders to a campaign in an arena, an agent is lodged unless its number is the
last one and the numbers have run out. -/
theorem lodged_followAll (profile : Profile) (world : WorldSettings) (trainer : T) (seed : UInt64)
    (policy : P) (orders : List Order) (agent : AgentId)
    (hnumber : agent ≠ ⟨0xffffffff⟩ ∨
      (allArrivals orders (opening profile world trainer seed policy)).length < 2 ^ 32) :
    Lodged agent (followAll orders (opening profile world trainer seed policy)) := by
  rcases hnumber with hnumber | hfew
  · have hopened : Lodged agent (opening profile world trainer seed policy) := by
      refine ⟨⟨fun hrunning => ?_, fun hrecord => ?_⟩, rfl⟩
      · cases hrunning
      · cases hrecord
    exact hopened.followAll (composed_followAll profile _ trainer seed policy []) hnumber orders
  · have hopening : Agreed profile .empty 0 (opening profile world trainer seed policy) :=
      mustered_opening profile world trainer seed policy trivial
    obtain ⟨roll, hleft⟩ := agreed_followAll profile world trainer seed policy orders hfew
    have hmirrored := hopening.mirroredAll (fun _ => rfl) orders (by rwa [Nat.zero_add])
    exact hleft.lodged hmirrored agent

/-- Whatever is asked for in a tick is asked for in a sound battle. -/
theorem sound_asked (profile : Profile) (world : WorldSettings) (trainer : T) (seed : UInt64)
    (policy : P) (orders : List Order) (number : UInt64) (point : SpawnPoint) :
    ∀ e ∈ asked (.tick number point) (followAll orders (opening profile world trainer seed policy)),
      e.battle.Sound := by
  intro e he
  have hcomposed : Composed (followAll orders (opening profile world trainer seed policy)) :=
    composed_followAll profile (Arena.ofWorld world profile.flag) trainer seed policy orders
  rw [asked_tick] at he
  have hkept := Kept.stepAgents kept_sound
    (followAll orders (opening profile world trainer seed policy)).roster.keys
    (hcomposed.begun number).sound
  obtain ⟨c, hsound, hbattle⟩ := hkept.asks e he
  rwa [hbattle] at hsound

/-- A cast returns all that a ray meets, each once, sorted by fraction, and in the order of wall,
obstacles, flag and bodies where fractions are equal; every fraction is between 0 and 1, and nothing
that the ray starts in is met, as far as the rounded distance tells. What it meets are the roots of a
rounded equation, and on the grid the entries of the real points. And in the ticks of a campaign in
an arena, whatever it was ordered before, no step makes its agent the victim of its own shot; nor
does the ray of the shot strike the body of the agent, unless it has the last number of the arena and
the numbers have run out. -/
theorem casts_spare_the_shooter :
    (∀ (a : Arena) (start finish : Point) (mask : Mask),
      a.Casts start finish mask (a.cast start finish mask)) ∧
    (∀ (d : Disc) (start finish : Point), d.EntryLaw start finish) ∧
    ∀ (profile : Profile) (world : WorldSettings) (trainer : T) (seed : UInt64) (policy : P)
      (orders : List Order) (number : UInt64) (point : SpawnPoint),
      let start := opening profile world trainer seed policy
      ∀ e ∈ asked (.tick number point) (followAll orders start), ∀ handle action,
        e.request = .step handle action →
        let shot : Moment Arena T := ⟨e.battle, .step handle action⟩
        shot.victim? ≠ some handle.id ∧
        (handle.id ≠ ⟨0xffffffff⟩ ∨ (allArrivals orders start).length < 2 ^ 32 →
          ∀ w shooter, shot.shot? = some (w, shooter) → ∀ foe near far,
            w.aim? shooter = some (foe, near, far) →
            .agent shooter ∉ (Host.rayCast w.host near far .shotBlockers).1) := by
  refine ⟨Arena.casts_cast, Disc.entryLaw, ?_⟩
  intro profile world trainer seed policy orders number point start e he handle action hstep shot
  refine ⟨(sound_asked profile world trainer seed policy orders number point e he).victim?_ne action,
    fun hnumber w shooter hshot foe near far haim => ?_⟩
  have hcomposed : Composed (followAll orders start) :=
    composed_followAll profile (Arena.ofWorld world profile.flag) trainer seed policy orders
  rw [asked_tick] at he
  obtain ⟨place, hturns⟩ := (lodged_followAll profile world trainer seed policy orders handle.id
    hnumber).ensures_turns hcomposed number
  have hagent : e.request.agent = handle.id := by rw [hstep]; rfl
  have hlooks : e.request.looks = true := by rw [hstep]; rfl
  have hat := hturns.asks e he hagent hlooks
  rw [hagent] at hat
  exact Battle.not_mem_strikes hat hshot haim

end Orders

/-- In the first tick the one behind aims at the foe. Its ray enters the body in front, where it does
so first, and does not strike itself. -/
theorem casts_spare_the_shooter_sightLine :
    let events := asked (.tick 0 ⟨.zero, ⟨400.0, 200.0, 90.0⟩⟩) (followAll sightLine fastGround)
    let front : Disc := ⟨⟨150.0, 100.0⟩, Body.radius⟩
    (∃ t s, front.entry? ⟨100.0, 100.0⟩ ⟨200.0, 100.0⟩ = some t ∧
      IsLeast (front.fractions ⟨100.0, 100.0⟩ ⟨200.0, 100.0⟩) s ∧ |value t - s| ≤ 1 / 2 ^ 25) ∧
    ∃ e ∈ events, ∃ handle action w foe near far, e.request = .step handle action ∧
      (Moment.mk e.battle (.step handle action)).shot? = some (w, handle.id) ∧
      w.aim? handle.id = some (foe, near, far) ∧
      w.host.Casts near far .shotBlockers (w.host.cast near far .shotBlockers) ∧
      .agent handle.id ∉ (Host.rayCast w.host near far .shotBlockers).1 := by
  intro events front
  obtain ⟨hcasts, hentries, hticks⟩ := casts_spare_the_shooter (T := FixedTrainer) (P := HoldPolicy)
  constructor
  · have hside : IsWhole 1024 100.0 100 := (isWhole_of_unpack (k := 46) rfl).mono (by norm_num)
    have hmiddle : IsWhole 1024 150.0 150 := (isWhole_of_unpack (k := 45) rfl).mono (by norm_num)
    have hend : IsWhole 1024 200.0 200 := (isWhole_of_unpack (k := 45) rfl).mono (by norm_num)
    have hradius : IsWhole 1024 Body.radius 3 :=
      (isWhole_of_unpack (k := 51) rfl).mono (by norm_num)
    have hmet : (front.entry? ⟨100.0, 100.0⟩ ⟨200.0, 100.0⟩).isSome = true := by decide +kernel
    obtain ⟨t, ht⟩ := Option.isSome_iff_exists.1 hmet
    obtain ⟨s, hleast, hnear⟩ := ((hentries front ⟨100.0, 100.0⟩ ⟨200.0, 100.0⟩).isEntry
      ⟨⟨⟨_, hmiddle⟩, _, hside⟩, _, by norm_num, hradius⟩ ⟨⟨_, hside⟩, _, hside⟩
      ⟨⟨_, hend⟩, _, hside⟩).first t ht
    exact ⟨t, s, ht, hleast, hnear⟩
  · have hshown : (events[3]?.any fun e => Decidable.decide (e.request = .step (gun 1) [0.0, 0.0] ∧
        e.battle.teams.hasOtherFriends ⟨1⟩ = true ∧ e.battle.teams.foesOf ⟨1⟩ = [⟨3⟩] ∧
        e.battle.snapshot.poses.get? ⟨1⟩ = some ⟨100.0, 100.0, 0.0 / 0.0⟩ ∧
        e.battle.snapshot.poses.get? ⟨3⟩ = some ⟨200.0, 100.0, 180.0⟩ ∧
        0.0 ≤ e.battle.profile.targeting.coneHalfAngle ∧
        (Moment.mk e.battle (.step (gun 1) [0.0, 0.0])).shot?.isSome = true)) = true := by
      decide +kernel
    obtain ⟨e, he, hshown⟩ := (Option.any_eq_true _ _).1 hshown
    obtain ⟨hstep, hfriends, hfoes, hpose, hplace, hcone, hshot⟩ := of_decide_eq_true hshown
    have hmem := List.mem_of_getElem? he
    have hsound : e.battle.Sound := sound_asked _ _ _ _ _ sightLine 0 _ e hmem
    obtain ⟨w, hshot, haim, -, -⟩ :=
      hsound.shot_of_lost hfriends hfoes hpose hplace (by decide +kernel) hcone hshot
    have hspared := (hticks _ _ _ _ _ sightLine 0 _ e hmem (gun 1) [0.0, 0.0] hstep).2
      (.inr (by decide +kernel)) _ _ hshot _ _ _ haim
    exact ⟨e, hmem, gun 1, _, _, _, _, _, hstep, hshot, haim, hcasts _ _ _ _, hspared⟩

/-- A friend, a foe and a shooter that has lost its heading, and one that comes after them to stand
between shooter and foe. -/
def latecomers : List Order :=
  [.spawn .zero .agent ⟨100.0, 300.0, 90.0⟩, .spawn .one .agent ⟨200.0, 100.0, 180.0⟩,
    .spawn .zero .turret ⟨100.0, 100.0, 0.0 / 0.0⟩, .spawn .zero .turret ⟨150.0, 100.0, 0.0⟩]

/-- Behind so many passers they come to an arena whose numbers are nearly used up. -/
theorem followAll_latecomers :
    followAll (passers .zero .agent .origin 0xfffffffc ++ latecomers) fastGround =
      followAll latecomers (fastGround.passed ⟨0xfffffffc⟩) := by
  have hpassed : followAll (passers .zero .agent .origin 0xfffffffc) fastGround =
      fastGround.passed (.ofNumber 0xfffffffc) := followAll_passers _ _ _ _ _ _ _ _ (by norm_num)
  rw [followAll_append, hpassed]
  rfl

/-- The last of them has the number of the shooter, and the shooter's body was moved for it. So when
the shooter takes its step, the line from where it was frozen to the foe meets its body first. -/
theorem asked_latecomers :
    ∃ e place, (asked (.tick 0 ⟨.zero, ⟨400.0, 200.0, 90.0⟩⟩)
        (followAll latecomers (fastGround.passed ⟨0xfffffffc⟩)))[11]? = some e ∧
      e.request = .step (gun 0xffffffff) [0.0, 0.0] ∧
      e.battle.teams.hasOtherFriends ⟨0xffffffff⟩ = true ∧
      e.battle.teams.foesOf ⟨0xffffffff⟩ = [⟨0xfffffffe⟩] ∧
      e.battle.snapshot.poses.get? ⟨0xffffffff⟩ = some ⟨100.0, 100.0, 0.0 / 0.0⟩ ∧
      e.battle.snapshot.poses.get? ⟨0xfffffffe⟩ = some place ∧
      0.0 ≤ e.battle.profile.targeting.coneHalfAngle ∧
      (Moment.mk e.battle (.step (gun 0xffffffff) [0.0, 0.0])).shot?.isSome = true ∧
      (Host.rayCast e.battle.host ⟨100.0, 100.0⟩ place.position .shotBlockers).1 =
        [.agent ⟨0xffffffff⟩, .agent ⟨0xfffffffe⟩] := by
  let met (a : Arena) := a.crossings ⟨100.0, 100.0⟩ ⟨200.0, 100.0⟩ .shotBlockers
  have hshown : ((asked (.tick 0 ⟨.zero, ⟨400.0, 200.0, 90.0⟩⟩)
      (followAll latecomers (fastGround.passed ⟨0xfffffffc⟩)))[11]?.any fun e =>
        Decidable.decide (e.request = .step (gun 0xffffffff) [0.0, 0.0] ∧
        e.battle.teams.hasOtherFriends ⟨0xffffffff⟩ = true ∧
        e.battle.teams.foesOf ⟨0xffffffff⟩ = [⟨0xfffffffe⟩] ∧
        e.battle.snapshot.poses.get? ⟨0xffffffff⟩ = some ⟨100.0, 100.0, 0.0 / 0.0⟩ ∧
        (e.battle.snapshot.poses.get? ⟨0xfffffffe⟩).map Pose.position = some ⟨200.0, 100.0⟩ ∧
        0.0 ≤ e.battle.profile.targeting.coneHalfAngle ∧
        (Moment.mk e.battle (.step (gun 0xffffffff) [0.0, 0.0])).shot?.isSome = true ∧
        (met e.battle.host).reverse.Pairwise (fun c d => rank c.fraction < rank d.fraction) ∧
        (met e.battle.host).reverse.map Arena.Crossing.strike =
          [.agent ⟨0xffffffff⟩, .agent ⟨0xfffffffe⟩])) = true := by
    decide +kernel
  obtain ⟨e, he, hshown⟩ := (Option.any_eq_true _ _).1 hshown
  obtain ⟨hstep, hfriends, hfoes, hpose, hplace, hcone, hshot, hsorted, hstrikes⟩ :=
    of_decide_eq_true hshown
  obtain ⟨place, hplace, hat⟩ := Option.map_eq_some_iff.1 hplace
  refine ⟨e, place, he, hstep, hfriends, hfoes, hpose, hplace, hcone, hshot, ?_⟩
  rw [hat, ← hstrikes]
  exact Arena.rayCast_of_perm (List.reverse_perm _) hsorted

/-- A ray can strike a body that covers its start, as far from it as the radius but for the rounding.
And a shot can be stopped by the shooter's own body: passers leave three numbers, so that the last of
the latecomers gets the shooter's, and with it moves the shooter's body into the line of fire. -/
theorem not_always_spared :
    (let d : Disc := ⟨⟨2.031082579756007, 0.6055599024485112⟩, Body.radius⟩
      let a := (Host.spawnAgent (Arena.ofWorld {} ⟨400.0, 600.0⟩) .zero .agent
        ⟨2.031082579756007, 0.6055599024485112, 0.0⟩).2
      d.Covers (value (-0.2)) (value (-1.4)) ∧
        .agent ⟨1⟩ ∈ (Host.rayCast a ⟨-0.2, -1.4⟩ ⟨2.0, 0.5⟩ (.team .zero)).1) ∧
    let orders := passers .zero .agent .origin 0xfffffffc ++ latecomers
    let events := asked (.tick 0 ⟨.zero, ⟨400.0, 200.0, 90.0⟩⟩) (followAll orders fastGround)
    ∃ e ∈ events, ∃ handle action w foe near far, e.request = .step handle action ∧
      let shot : Moment Arena FixedTrainer := ⟨e.battle, .step handle action⟩
      shot.shot? = some (w, handle.id) ∧ w.aim? handle.id = some (foe, near, far) ∧
        (Host.rayCast w.host near far .shotBlockers).1 = [.agent handle.id, .agent foe] ∧
        shot.landed = false := by
  constructor
  · intro d a
    refine ⟨Disc.entry?_from_edge.1, ?_⟩
    have hmet : (a.met ⟨-0.2, -1.4⟩ ⟨2.0, 0.5⟩ (.team .zero)).map Arena.Crossing.strike =
      [.agent ⟨1⟩] := by decide +kernel
    have hstrikes := (a.cast_perm ⟨-0.2, -1.4⟩ ⟨2.0, 0.5⟩ (.team .zero)).map Arena.Crossing.strike
    exact hstrikes.mem_iff.2 (hmet ▸ List.mem_singleton_self _)
  · intro orders events
    obtain ⟨e, place, he, hstep, hfriends, hfoes, hpose, hplace, hcone, hshot, hcast⟩ :=
      asked_latecomers
    rw [← followAll_latecomers] at he
    have hmem : e ∈ events := List.mem_of_getElem? he
    have hsound : e.battle.Sound := sound_asked _ _ _ _ _ orders 0 _ e hmem
    obtain ⟨w, hshot, haim, hhost, hlanded⟩ :=
      hsound.shot_of_lost hfriends hfoes hpose hplace (by decide +kernel) hcone hshot
    refine ⟨e, hmem, gun 0xffffffff, _, _, _, _, _, hstep, hshot, haim, ?_, hlanded.trans ?_⟩
    · rw [hhost]
      exact hcast
    · exact (congrArg (lineOfSightClear · _) hcast).trans (by decide)

end Campaign

end FlagCombat
