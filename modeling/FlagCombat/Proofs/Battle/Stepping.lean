import FlagCombat.Proofs.Battle.Queries

/-!
A step from end to end. The first step of a mobile agent only places it. Every other step shoots and
is paid for what was so before it: the action, the frozen distances, the pose and the damage that
waited; then the agent moves, and the host is shown where it went.
-/

namespace FlagCombat

/-- A valid action has two slots, the share of the speed and the turn in radians. -/
theorem Profile.exists_motion {profile : Profile} {action : List Float}
    (h : profile.interface.actions.violation? action = none) :
    ∃ move turn, action = [move, turn] ∧ (-1.0 ≤ move ∧ move ≤ 1.0) ∧
      (-profile.maxTurn ≤ turn ∧ turn ≤ profile.maxTurn) ∧
      Motion.ofAction action = ⟨move, turn * (180.0 / Binary64.pi)⟩ := by
  unfold Shape.violation? at h
  split at h
  · cases h
  · rename_i hlength
    obtain ⟨move, turn, rfl⟩ := List.length_eq_two.1 (not_not.1 hlength)
    have hinside : Shape.firstOutside 0
        [⟨-1.0, 1.0⟩, ⟨-profile.maxTurn, profile.maxTurn⟩] [move, turn] = none := h
    have hmove : Interval.contains ⟨-1.0, 1.0⟩ move = true := by
      by_contra hout
      simp only [Shape.firstOutside, if_neg hout] at hinside
      cases hinside
    have hturn : Interval.contains ⟨-profile.maxTurn, profile.maxTurn⟩ turn = true := by
      by_contra hout
      simp only [Shape.firstOutside, if_pos hmove, if_neg hout] at hinside
      cases hinside
    unfold Interval.contains at hmove hturn
    rw [Bool.and_eq_true, decide_eq_true_eq, decide_eq_true_eq] at hmove hturn
    exact ⟨move, turn, rfl, hmove, hturn, rfl⟩

/-- What a step pays in a dimension: `c` is the record of the agent before it, `near` and `far` are
the distances of the nearest friend and of the nearest foe, if there is a foe. -/
def Dimension.pay (flag : Point) (motion : Motion) (c : Combatant) (near : Float)
    (far : Option Float) (landed : Bool) : Dimension → Float
  | .standGround => -motion.moveBy
  | .stickTogether => -(near * near)
  | .approachEnemy =>
    match far with
    | some distance => -(distance * distance)
    | none => 0.0
  | .approachFlag => -(c.pose.position.distance flag * c.pose.position.distance flag)
  | .hitTarget => if landed then 1.0 else 0.0
  | .avoidFire => -c.pendingDamage.toFloat

namespace Battle

variable {H T : Type} [Host H] [Trainer T] {b b' e : Battle H T} {agent : Handle}
  {action : List Float} {c : Combatant}

omit [Trainer T] in
/-- No damage waits for an agent that only now gets its record. -/
theorem pendingDamage_of_enroll (henroll : b.enroll agent = .ok e)
    (hc : e.combatants.get? agent.id = some c) :
    c.pendingDamage = ((b.combatants.get? agent.id).map Combatant.pendingDamage).getD 0 := by
  rcases enroll_cases henroll with ⟨d, hd, -, rfl⟩ | ⟨hnone, rfl⟩
  · rw [hc]
    rfl
  · simp only [enlist, IdMap.get?_insert, ↓reduceIte, Option.some.injEq] at hc
    subst hc
    rw [hnone]
    unfold newcomer
    cases Host.transform b.host agent.id <;> rfl

/-- The agent was only placed: the host is shown where and casts no ray, nobody is struck and
nothing drained, and the trainer is not asked to grow. -/
structure Placed (e : Battle H T) (agent : AgentId) (b' : Battle H T) : Prop where
  poses : ∃ place, (b'.combatants.get? agent).map Combatant.poses = some (place, place) ∧
    b'.host = Host.setTransform e.host agent place
  books : Moment.SameBooks e b'
  trainer : b'.trainer = e.trainer

/-- The agent walked: it is where its action takes it from its pose before, which is its previous
pose, and the last that the host was told is where it is. -/
structure Walked (e : Battle H T) (agent : Handle) (action : List Float) (c : Combatant)
    (b' : Battle H T) : Prop where
  poses : (b'.combatants.get? agent.id).map Combatant.poses =
    some (Motion.carry e.profile.maxSpeed c.pose (Motion.ofAction action), c.pose)
  shown : b'.host = Host.setTransform ((e.walking agent action).hostAfterShot agent.id) agent.id
    (Motion.carry e.profile.maxSpeed c.pose (Motion.ofAction action))
  trainer : b'.trainer = e.requestGrowth.trainer

omit [Trainer T] in
/-- An agent that is shown and frozen is where its record says. -/
theorem shown_and_frozen {agent : AgentId} (hc : b.combatants.get? agent = some c) :
    ((b.showPose agent).freezePose agent).combatants = b.combatants ∧
      ((b.showPose agent).freezePose agent).host = Host.setTransform b.host agent c.pose := by
  have hshown : (b.showPose agent).combatants.get? agent = some c := by rw [combatants_showPose, hc]
  rw [freezePose_eq hshown, showPose_eq hc]
  exact ⟨rfl, rfl⟩

theorem placed_act (hfirst : agent.step = 0 ∧ agent.group.isMobile)
    (hc : e.combatants.get? agent.id = some c) (action : List Float) :
    Placed e agent.id (e.act agent action).2 := by
  have hkept := keeps_placeAtStart (f := Combatant.account) (fun _ _ _ => rfl) e agent.id
  unfold act
  rw [if_pos hfirst]
  refine ⟨?_, ⟨hkept.read, hkept.hits⟩, hkept.trainer⟩
  unfold placeAtStart
  generalize e.generator.below32 360 = draw
  dsimp only
  rw [modifyAgent_eq]
  let place : Pose := { (Host.transform e.host agent.id).getD .origin with
    heading := Float.ofNat draw.1 }
  let placed : Combatant := c.resetPose place.position place.heading
  have hplaced : (e.combatants.modify agent.id fun c =>
      c.resetPose ((Host.transform e.host agent.id).getD .origin).position
        (Float.ofNat draw.1)).get? agent.id = some placed := by
    rw [IdMap.get?_modify, if_pos rfl, hc, Option.map_some]
    rfl
  obtain ⟨hrecords, hhost⟩ := shown_and_frozen (b := { e with
    generator := draw.2
    combatants := e.combatants.modify agent.id fun c =>
      c.resetPose ((Host.transform e.host agent.id).getD .origin).position (Float.ofNat draw.1) })
    hplaced
  refine ⟨place, ?_, hhost⟩
  rw [hrecords, hplaced]
  rfl

theorem walked_act (hfirst : ¬(agent.step = 0 ∧ agent.group.isMobile))
    (hc : e.combatants.get? agent.id = some c) (action : List Float) :
    Walked e agent action c (e.act agent action).2 := by
  have hcontains := (IdMap.contains_eq_true_iff e.combatants).2 ⟨c, hc⟩
  obtain ⟨r, hr, -, -, hhost, htrainer⟩ := act_rest hfirst hcontains action
  have hrecord := get?_act hfirst hcontains action agent.id
  rw [hc, Option.map_some] at hrecord
  have hposes := poses_effect e agent action agent.id c
  rw [if_pos rfl] at hposes
  have hr' : r.combatants.get? agent.id = some (e.effect agent action agent.id c) := by
    rw [← combatants_showPose r agent.id, ← hr, hrecord]
  refine ⟨?_, ?_, ?_⟩
  · rw [hrecord, Option.map_some, hposes]
    rfl
  · rw [hr, showPose_eq hr', hhost]
    exact congrArg (Host.setTransform _ agent.id) (congrArg Prod.fst hposes)
  · rw [hr, showPose_eq hr', htrainer]

/-- The record that a reward reads: nobody strikes itself. -/
theorem exists_paid (he : e.Sound) (hc : e.combatants.get? agent.id = some c)
    (action : List Float) :
    ∃ paid, ((e.walking agent action).recordsAfterShot agent.id).get? agent.id = some paid ∧
      paid.pose = c.pose ∧ paid.pendingDamage = c.pendingDamage := by
  have hne : (e.walking agent action).victim? agent.id ≠ some agent.id :=
    fun hvictim => victim_ne (he.walking agent action).coherent hvictim rfl
  refine ⟨{ c with animation := some Host.runAnimation }, ?_, rfl, rfl⟩
  rw [get?_recordsAfterShot, walking_eq]
  simp only [IdMap.get?_modify, hc, Option.map_some, ↓reduceIte, ← walking_eq, if_neg hne]

/-- An agent with other friends is paid dimension by dimension. -/
theorem paid_act (he : e.Sound) (hfirst : ¬(agent.step = 0 ∧ agent.group.isMobile))
    (hfriends : e.teams.hasOtherFriends agent.id = true)
    (hc : e.combatants.get? agent.id = some c) {friend : AgentId × Float}
    (hfriend : e.snapshot.poses.nearestFriend e.teams agent.id = some friend)
    (action : List Float) :
    (e.act agent action).1 = e.profile.dimensions.map
      (Dimension.pay e.profile.flag (Motion.ofAction action) c friend.2
        ((e.snapshot.poses.nearestFoe e.teams agent.id).map (·.2))
        ((e.walking agent action).victim? agent.id).isSome) := by
  have hw := he.walking agent action
  obtain ⟨paid, hpaid, hpose, hdamage⟩ := exists_paid he hc action
  have hnear := nearestFriend_eq hw.coherent agent.id
  have hfar := nearestFoe_eq hw.coherent agent.id
  have hsame : (e.walking agent action).profile = e.profile ∧
      (e.walking agent action).teams = e.teams ∧
      (e.walking agent action).snapshot = e.snapshot := by
    rw [walking_eq]
    exact ⟨rfl, rfl, rfl⟩
  obtain ⟨hprofile, hteams, hsnapshot⟩ := hsame
  rw [hteams, hsnapshot] at hnear hfar
  rw [act_snd hfirst, reward_eq (hteams ▸ hfriends) hpaid, hprofile]
  refine List.map_congr_left fun d _ => ?_
  unfold outcome
  dsimp only
  rw [hteams, hnear, hfar, hfriend, hpose, hdamage, hprofile]
  cases d with
  | approachEnemy => cases e.snapshot.poses.nearestFoe e.teams agent.id <;> rfl
  | standGround | stickTogether | approachFlag | hitTarget | avoidFire => rfl

/-- A step that is not refused fires its shot from the battle with a record for its agent. -/
theorem landed_step (hrefusal : b.refusal? (.step agent action) = none)
    (henroll : b.enroll agent = .ok e) (hfirst : ¬(agent.step = 0 ∧ agent.group.isMobile))
    (hfriends : e.teams.hasOtherFriends agent.id = true) :
    (Moment.mk b (.step agent action)).landed =
      ((e.walking agent action).victim? agent.id).isSome := by
  have hshot : (Moment.mk b (.step agent action)).shot? =
      some (e.walking agent action, agent.id) := by
    simp only [Moment.shot?, hrefusal, henroll, hfriends, ↓reduceIte]
    exact if_neg hfirst
  rw [Moment.landed_eq, Moment.victim?_eq, hshot]
  rfl

theorem length_of_attempt {rewards : List Float}
    (h : b.attempt (.step agent action) = .ok (.vector rewards, b')) :
    rewards.length = b.profile.dimensions.length := by
  obtain ⟨_, hstep, heq⟩ := map_ok h
  obtain ⟨hrewards, -⟩ := Prod.mk.inj heq
  rw [← Reply.vector.inj hrewards]
  exact length_of_step hstep

/-- Nobody is paid for being placed, nor without another friend. -/
theorem unpaid_act (h : agent.step = 0 ∧ agent.group.isMobile ∨
    e.teams.hasOtherFriends agent.id = false) (action : List Float) :
    (e.act agent action).1 = List.replicate e.profile.dimensions.length 0.0 := by
  by_cases hfirst : agent.step = 0 ∧ agent.group.isMobile
  · unfold act
    rw [if_pos hfirst]
    exact List.map_const'
  · have hlone := h.resolve_left hfirst
    have hteams : (e.walking agent action).teams = e.teams := by rw [walking_eq]
    have hprofile : (e.walking agent action).profile = e.profile := by rw [walking_eq]
    rw [act_snd hfirst, reward_of_lone (hteams ▸ hlone), hprofile]
    exact List.map_const'

/-- Every step that succeeds, from end to end. Its action is a share of the speed and a turn in
radians. Its agent has a record, on which no damage waits if it is new. The reward has an entry for
each dimension, in their order: zeros if the step is the first one of a mobile agent, or if nobody
else is on its team; otherwise what each dimension pays for the action, the frozen distances of the
nearest friend and of the nearest foe, the pose and the damage of before, and the shot. The first
step of a mobile agent only places it; every other one moves it, and shows the host where it went. -/
theorem step_end_to_end (hb : Reachable b) {reply : Reply}
    (h : b.attempt (.step agent action) = .ok (reply, b')) :
    ∃ e c rewards move turn, action = [move, turn] ∧
      (-1.0 ≤ move ∧ move ≤ 1.0) ∧
      (-b.profile.maxTurn ≤ turn ∧ turn ≤ b.profile.maxTurn) ∧
      Motion.ofAction action = ⟨move, turn * (180.0 / Binary64.pi)⟩ ∧
      b.enroll agent = .ok e ∧ e.combatants.get? agent.id = some c ∧
      c.pendingDamage = ((b.combatants.get? agent.id).map Combatant.pendingDamage).getD 0 ∧
      reply = .vector rewards ∧ rewards.length = b.profile.dimensions.length ∧
      (agent.step = 0 ∧ agent.group.isMobile ∨ (∀ other, ¬e.Fellow agent.id other) →
        rewards = List.replicate b.profile.dimensions.length 0.0) ∧
      (¬(agent.step = 0 ∧ agent.group.isMobile) → (∃ other, e.Fellow agent.id other) →
        ∃ friend, e.snapshot.poses.nearestFriend e.teams agent.id = some friend ∧
          e.snapshot.poses.Nearest agent.id (e.Fellow agent.id) friend ∧
          (match e.snapshot.poses.nearestFoe e.teams agent.id with
            | some foe => e.snapshot.poses.Nearest agent.id (e.Foe agent.id) foe
            | none => ∀ other, ¬e.Foe agent.id other) ∧
          rewards = b.profile.dimensions.map (Dimension.pay b.profile.flag (Motion.ofAction action)
            c friend.2 ((e.snapshot.poses.nearestFoe e.teams agent.id).map (·.2))
            (Moment.mk b (.step agent action)).landed)) ∧
      b'.hits = b.hits + (if (Moment.mk b (.step agent action)).landed then 1 else 0) ∧
      (if agent.step = 0 ∧ agent.group.isMobile then Placed e agent.id b'
        else Walked e agent action c b') := by
  cases success_of_handle rfl h with
  | @handle _ _ e hagent hrefusal henroll =>
    cases hagent
    have he : e.Sound := hb.sound.changes (enroll_changes henroll)
    have hprofile : e.profile = b.profile := (enroll_changes henroll).profile
    obtain ⟨c, hc⟩ := (IdMap.contains_eq_true_iff _).1 (contains_of_enroll henroll)
    have hhits := (Moment.mk b (.step agent action)).hits_after
    have hafter : (Moment.mk b (.step agent action)).after = (e.act agent action).2 := by
      simp only [Moment.after, perform, h]
      rfl
    rw [hafter] at hhits
    obtain ⟨move, turn, haction, hmove, hturn, hmotion⟩ :=
      Profile.exists_motion (Option.map_eq_none_iff.1 hrefusal)
    refine ⟨e, c, (e.act agent action).1, move, turn, haction, hmove, hturn, hmotion, henroll, hc,
      pendingDamage_of_enroll henroll hc, rfl, ?length, fun hunpaid => ?unpaid,
      fun hfirst hfellow => ?paid, hhits, ?moved⟩
    case length => exact length_of_attempt h
    case unpaid =>
      rw [← hprofile]
      exact unpaid_act (hunpaid.imp_right he.hasOtherFriends_eq_false_iff.2) action
    case paid =>
      obtain ⟨friend, hfriend, hnearest⟩ := he.exists_nearestFriend hfellow
      have hfriends := he.hasOtherFriends_iff.2 hfellow
      refine ⟨friend, hfriend, hnearest, ?_, ?_⟩
      · have hknown := he.isSome_nearestFoe (contains_of_enroll henroll)
        cases hfoe : e.snapshot.poses.nearestFoe e.teams agent.id with
        | some foe => exact he.nearestFoe_spec hfoe
        | none =>
          rw [hfoe] at hknown
          exact fun other hother => absurd (hknown.2 ⟨other, hother⟩) Bool.false_ne_true
      · rw [paid_act he hfirst hfriends hc hfriend,
          landed_step hrefusal henroll hfirst hfriends, hprofile]
    case moved =>
      split
      · rename_i hfirst
        exact placed_act hfirst hc action
      · rename_i hfirst
        exact walked_act hfirst hc action

/-- In the volley the shot of the first agent lands, and its step pays for a friend at the distance
15, a foe at no distance and a flag at the distance 500. -/
theorem step_end_to_end_volley :
    ∃ b', (volleyField.beginTick 1).attempt (.step (volleyAgent 1 .zero) [0.5, 0.0]) =
      .ok (.vector [-0.5, -225.0, -0.0, -250000.0, 1.0, -0.0], b') ∧ b'.hits = 1 := by
  have hreach : Reachable (volleyField.beginTick 1) :=
    ((Reachable.start _ _ _ _).performAll _).perform (.beginTick 1)
  have hok : ((volleyField.beginTick 1).attempt
      (.step (volleyAgent 1 .zero) [0.5, 0.0])).isOk = true := by decide +kernel
  have hlanded : (Moment.mk (volleyField.beginTick 1)
      (.step (volleyAgent 1 .zero) [0.5, 0.0])).landed = true := by decide +kernel
  have hbefore : (volleyField.beginTick 1).hits = 0 := by decide +kernel
  have hrecord : ((volleyField.beginTick 1).combatants.get? ⟨1⟩).map
      (fun c => (c.pose, c.pendingDamage)) = some (⟨100.0, 200.0, 90.0⟩, 0) := by decide +kernel
  have hfriends : (volleyField.beginTick 1).teams.hasOtherFriends ⟨1⟩ = true := by decide +kernel
  have hnear : (volleyField.beginTick 1).snapshot.poses.nearestFriend
      (volleyField.beginTick 1).teams ⟨1⟩ = some (⟨2⟩, 15.0) := by decide +kernel
  have hfar : (volleyField.beginTick 1).snapshot.poses.nearestFoe
      (volleyField.beginTick 1).teams ⟨1⟩ = some (⟨3⟩, 0.0) := by decide +kernel
  obtain ⟨d, hd, hfields⟩ := Option.map_eq_some_iff.1 hrecord
  obtain ⟨hpose, hdamage⟩ := Prod.mk.inj hfields
  obtain ⟨⟨reply, b'⟩, h⟩ := exists_of_isOk hok
  obtain ⟨e, c, rewards, -, -, -, -, -, -, henroll, hc, -, rfl, -, -, hpaid, hhits, -⟩ :=
    step_end_to_end hreach h
  obtain rfl : e = volleyField.beginTick 1 :=
    eq_of_enroll henroll ((IdMap.contains_eq_true_iff _).2 ⟨d, hd⟩)
  obtain rfl : c = d := Option.some.inj (hc.symm.trans hd)
  obtain ⟨friend, hfriend, -, -, hrewards⟩ := hpaid (by decide)
    (hreach.sound.hasOtherFriends_iff.1 hfriends)
  obtain rfl := Option.some.inj (hfriend.symm.trans hnear)
  rw [hlanded, hbefore] at hhits
  rw [hlanded, show (volleyAgent 1 .zero).id = ⟨1⟩ from rfl, hfar] at hrewards
  have hvalues : rewards = [-0.5, -225.0, -0.0, -250000.0, 1.0, -0.0] := by
    rw [hrewards]
    unfold Dimension.pay
    rw [hpose, hdamage]
    decide +kernel
  exact ⟨b', by rw [h, hvalues], hhits⟩

end Battle

end FlagCombat
