import FlagCombat.Arena.Basic
import FlagCombat.Proofs.Battle.Anew
import FlagCombat.Proofs.Binary64.Sum
import Mathlib.Data.List.Basic

/-!
What an agent is shown, slot by slot: first the readings of its sensors, each in its place, then
where the centre of its team is, and last whether it has a target. The battle writes its slots by
their distance from the end, and they fall behind the readings because the host gives one reading
for each sensor.
-/

namespace FlagCombat

namespace Point

open Binary64

theorem count_pos (points : List Point) {n : Float} (hn : 0.0 < n) :
    0.0 < points.foldl (fun n _ => n + 1.0) n := by
  induction points generalizing n with
  | nil => exact hn
  | cons point points ih => exact ih (add_pos hn (by decide +kernel))

/-- Some points have a centroid. -/
theorem exists_centroid {point : Point} {points : List Point} (h : point ∈ points) :
    ∃ center, centroid? points = some center := by
  cases points with
  | nil => cases h
  | cons first rest =>
    have hcount : 0.0 < (first :: rest).foldl (fun n _ => n + 1.0) 0.0 :=
      count_pos rest (show (0.0 : Float) < 0.0 + 1.0 by decide +kernel)
    unfold centroid?
    dsimp only
    rw [if_pos hcount]
    exact ⟨_, rfl⟩

end Point

namespace Arena

theorem overwriteHead_append {values head : List Float} (h : head.length = values.length)
    (rest : List Float) : overwriteHead values (head ++ rest) = values ++ rest := by
  induction values generalizing head with
  | nil =>
    rw [List.eq_nil_of_length_eq_zero h]
    cases rest <;> rfl
  | cons value values ih =>
    obtain ⟨first, head, rfl⟩ := List.exists_cons_of_length_eq_add_one h
    exact congrArg (value :: ·) (ih (Nat.succ.inj h))

/-- A body with as many sensors as a vector has slots, or fewer, gives a reading for each. -/
theorem senseChannels_append {a : Arena} {agent : AgentId} {body : Body} {head : List Float}
    (hbody : a.bodies.get? agent = some body) (h : head.length = body.sensors.length)
    (rest : List Float) :
    a.senseChannels agent (head ++ rest) =
      body.sensors.map (a.reading agent body.pose) ++ rest := by
  unfold senseChannels
  rw [hbody]
  dsimp only
  rw [List.take_of_length_le (by rw [List.length_append]; omega)]
  exact overwriteHead_append (by rw [List.length_map, h]) rest

end Arena

theorem SensorLayout.length_sensors (l : SensorLayout) (agent : Handle) :
    (l.sensors agent).length = l.hostChannels := by
  simp [sensors, hostChannels, Nat.add_assoc]

theorem Profile.zeros_eq (p : Profile) :
    p.interface.sensors.zeros = List.replicate p.sensors.hostChannels 0.0 ++ [0.0, 0.0, 0.0] := by
  have hlength : p.interface.sensors.length = p.sensors.hostChannels + 3 := by
    simp [interface, Shape.length, observationLength]
  unfold Shape.zeros
  rw [hlength, ← List.replicate_append_replicate]
  rfl

namespace Observation

/-- A vector that is long enough ends in three slots. -/
theorem exists_tail {observations : List Float} (h : ¬observations.length < tailLength) :
    ∃ readings distance bearing target, observations = readings ++ [distance, bearing, target] := by
  have htail : (observations.drop (observations.length - 3)).length = 3 := by
    rw [List.length_drop]
    unfold tailLength at h
    omega
  obtain ⟨distance, bearing, target, hlast⟩ := List.length_eq_three.1 htail
  refine ⟨observations.take (observations.length - 3), distance, bearing, target, ?_⟩
  rw [← hlast, List.take_append_drop]

theorem setFromEnd_append (readings rest : List Float) {offset : Nat} (h : offset ≤ rest.length)
    (value : Float) :
    setFromEnd (readings ++ rest) offset value =
      readings ++ rest.set (rest.length - offset) value := by
  unfold setFromEnd slotFromEnd?
  rw [if_pos (by rw [List.length_append]; omega), List.length_append]
  dsimp only
  rw [List.set_append_right _ _ (by omega)]
  congr 2
  omega

variable (readings : List Float) (distance bearing target : Float)

theorem writeHasTarget_append (hasTarget : Bool) :
    writeHasTarget (readings ++ [distance, bearing, target]) hasTarget =
      readings ++ [distance, bearing, if hasTarget then 1.0 else 0.0] :=
  setFromEnd_append readings [distance, bearing, target] (Nat.le_of_ble_eq_true rfl) _

theorem writeCentroid_append (away turn radius : Float) :
    (writeCentroid (readings ++ [distance, bearing, target]) away turn radius).2 =
      readings ++ if beyond away radius then [distance, bearing, target]
        else [away / radius, (turn + 180.0) / 360.0, target] := by
  unfold writeCentroid
  split
  · rfl
  · dsimp only
    rw [setFromEnd_append readings [distance, bearing, target] (Nat.le_of_ble_eq_true rfl)]
    exact setFromEnd_append readings [away / radius, bearing, target] (Nat.le_of_ble_eq_true rfl) _

end Observation

namespace Battle

variable {H T : Type}

/-- The two slots that tell an agent where the centre of its team is. They stay zero without another
friend, and when the centre is too far. -/
inductive Centred (b : Battle H T) (agent : AgentId) : Float → Float → Prop
  | alone (h : b.teams.hasOtherFriends agent = false) : Centred b agent 0.0 0.0
  | far {record : Combatant} {center : Point} (hfriends : b.teams.hasOtherFriends agent = true)
      (hrecord : b.combatants.get? agent = some record)
      (hcenter : b.snapshot.poses.centroid? b.teams agent = some center)
      (hfar : Observation.beyond (record.pose.position.distance center) b.profile.friendRadius =
        true) : Centred b agent 0.0 0.0
  | near {record : Combatant} {center : Point} (hfriends : b.teams.hasOtherFriends agent = true)
      (hrecord : b.combatants.get? agent = some record)
      (hcenter : b.snapshot.poses.centroid? b.teams agent = some center)
      (hnear : Observation.beyond (record.pose.position.distance center) b.profile.friendRadius =
        false) :
      Centred b agent (record.pose.position.distance center / b.profile.friendRadius)
        ((record.pose.bearing center + 180.0) / 360.0)

/-- An agent with a record is one of its team, so the team has a centre. -/
theorem Sound.exists_centroid {b : Battle H T} (hb : b.Sound) {agent : AgentId} {record : Combatant}
    (hrecord : b.combatants.get? agent = some record) :
    ∃ center, b.snapshot.poses.centroid? b.teams agent = some center := by
  have hcontains : b.snapshot.poses.contains agent = true :=
    (hb.posed agent).trans ((IdMap.contains_eq_true_iff _).2 ⟨record, hrecord⟩)
  obtain ⟨pose, hpose⟩ := (IdMap.contains_eq_true_iff _).1 hcontains
  have hteam : b.teams.teamOf agent = some record.team := by
    rw [hb.teamOf, hrecord, Option.map_some]
  have hfriend : agent ∈ b.teams.friendsOf agent :=
    (Teams.mem_friendsOf_iff _).2 ⟨record.team, hteam, hteam⟩
  have hmember : (agent, pose) ∈ b.snapshot.poses.ofMembers (b.teams.friendsOf agent) :=
    List.mem_filterMap.2 ⟨agent, hfriend, by rw [hpose, Option.map_some]⟩
  exact Point.exists_centroid (List.mem_map_of_mem hmember)

/-- What the battle writes behind the readings: always whether there is a target, and before it where
the centre of the team is, if the agent has another friend and the centre is near enough. -/
theorem Sound.perceive_append {b : Battle H T} (hb : b.Sound) {agent : AgentId} {record : Combatant}
    {center : Point} (hrecord : b.combatants.get? agent = some record)
    (hcenter : b.snapshot.poses.centroid? b.teams agent = some center) (readings : List Float)
    (distance bearing target : Float) :
    (b.perceive agent (readings ++ [distance, bearing, target])).1 = readings ++
      if b.teams.hasOtherFriends agent = true ∧ Observation.beyond
          (record.pose.position.distance center) b.profile.friendRadius = false then
        [record.pose.position.distance center / b.profile.friendRadius,
          (record.pose.bearing center + 180.0) / 360.0,
          if (b.target agent).1.isSome then 1.0 else 0.0]
      else [distance, bearing, if (b.target agent).1.isSome then 1.0 else 0.0] := by
  rw [← (perceive_forget hb.coherent agent _).1, target_forget hb.coherent]
  have hteams : b.forget.teams = b.teams := rfl
  have hrecords : b.forget.combatants = b.combatants := rfl
  have hposes : b.forget.snapshot.poses = b.snapshot.poses := rfl
  have hprofile : b.forget.profile = b.profile := rfl
  unfold perceiveAnew
  rw [Observation.writeHasTarget_append, hteams, hrecords, hposes, hprofile]
  cases b.teams.hasOtherFriends agent with
  | false => simp
  | true =>
    rw [if_pos rfl, hrecord, hcenter]
    dsimp only
    rw [Observation.writeCentroid_append]
    cases Observation.beyond (record.pose.position.distance center) b.profile.friendRadius <;> simp

/-- The battle adds its three slots to the readings, and asks for nothing but the target. -/
theorem Sound.perceived {b : Battle H T} (hb : b.Sound) {agent : AgentId}
    (hrecord : b.combatants.contains agent = true) (readings : List Float) :
    ∃ distance bearing, b.Centred agent distance bearing ∧
      (b.perceive agent (readings ++ [0.0, 0.0, 0.0])).1 =
        readings ++ [distance, bearing, if (b.target agent).1.isSome then 1.0 else 0.0] := by
  obtain ⟨record, hrecord⟩ := (IdMap.contains_eq_true_iff _).1 hrecord
  obtain ⟨center, hcenter⟩ := hb.exists_centroid hrecord
  rw [hb.perceive_append hrecord hcenter]
  cases hfriends : b.teams.hasOtherFriends agent with
  | false => exact ⟨0.0, 0.0, .alone hfriends, by simp⟩
  | true =>
    cases hbeyond : Observation.beyond (record.pose.position.distance center)
        b.profile.friendRadius with
    | false => exact ⟨_, _, .near hfriends hrecord hcenter hbeyond, by simp⟩
    | true => exact ⟨_, _, .far hfriends hrecord hcenter hbeyond, by simp⟩

/-- The centre is where it was before a question about a target. -/
theorem Centred.asked {b : Battle H T} {agent other : AgentId} {distance bearing : Float}
    (h : b.Centred agent distance bearing) : (b.target other).2.Centred agent distance bearing := by
  have hposes : (b.target other).2.snapshot.poses = b.snapshot.poses := by
    rw [target_snd]
    dsimp only
    split
    · exact Snapshot.poses_target ..
    · rfl
  have hteams : (b.target other).2.teams = b.teams := by rw [target_snd]
  have hrecords : (b.target other).2.combatants = b.combatants := by rw [target_snd]
  have hprofile : (b.target other).2.profile = b.profile := by rw [target_snd]
  cases h with
  | alone halone => exact .alone (hteams ▸ halone)
  | far hfriends hrecord hcenter hfar =>
    rw [← hprofile] at hfar
    exact .far (hteams ▸ hfriends) (hrecords ▸ hrecord) (hposes ▸ hteams ▸ hcenter) hfar
  | near hfriends hrecord hcenter hnear =>
    rw [← hprofile] at hnear ⊢
    exact .near (hteams ▸ hfriends) (hrecords ▸ hrecord) (hposes ▸ hteams ▸ hcenter) hnear

/-- Whoever asks for its target again gets the same answer. -/
theorem Sound.target_again {b : Battle H T} (hb : b.Sound) (agent : AgentId) :
    ((b.target agent).2.target agent).1 = (b.target agent).1 := by
  have hteams : (b.target agent).2.teams = b.teams := by rw [target_snd]
  have hprofile : (b.target agent).2.profile = b.profile := by rw [target_snd]
  have hcoherent := coherent_target hb.coherent agent
  rw [← hteams, ← hprofile] at hcoherent
  rw [target_forget hcoherent, target_forget hb.coherent, target_snd_forget]

/-- What a vector shows an agent in an arena: the readings of its sensors from where its body is, the
centre of its team, and whether it has a target. -/
def Shows (b : Battle Arena T) (agent : Handle) (observations : List Float) : Prop :=
  ∃ body distance bearing, b.host.bodies.get? agent.id = some body ∧
    b.Centred agent.id distance bearing ∧
    observations = (b.profile.sensors.sensors agent).map (b.host.reading agent.id body.pose) ++
      [distance, bearing, if (b.target agent.id).1.isSome then 1.0 else 0.0]

theorem Shows.length {b : Battle Arena T} {agent : Handle} {observations : List Float}
    (h : b.Shows agent observations) :
    observations.length = b.profile.interface.sensors.length := by
  obtain ⟨body, distance, bearing, -, -, rfl⟩ := h
  simp [SensorLayout.length_sensors, Profile.interface, Profile.observationLength, Shape.length]

/-- An agent whose body carries its sensors, and none besides, is shown what they read. -/
theorem Sound.sensed {b b' : Battle Arena T} (hb : b.Sound) {agent : Handle} {body : Body}
    (hbody : b.host.bodies.get? agent.id = some body)
    (hsensors : body.sensors = b.profile.sensors.sensors agent) {observations : List Float}
    (h : b.sense agent (b.host.senseChannels agent.id b.profile.interface.sensors.zeros) =
      .ok (observations, b')) : b'.Shows agent observations := by
  have hreadings : b.host.senseChannels agent.id b.profile.interface.sensors.zeros =
      (b.profile.sensors.sensors agent).map (b.host.reading agent.id body.pose) ++
        [0.0, 0.0, 0.0] := by
    rw [Profile.zeros_eq, Arena.senseChannels_append hbody, hsensors]
    rw [List.length_replicate, hsensors, SensorLayout.length_sensors]
  rw [hreadings] at h
  unfold sense at h
  split at h
  · cases h
  · obtain ⟨b₁, henroll, hperceive⟩ := map_ok h
    have h₁ : b₁.Sound := hb.changes (enroll_changes henroll)
    have hkept : b₁.host = b.host ∧ b₁.profile = b.profile := by
      rcases enroll_cases henroll with ⟨c, -, -, rfl⟩ | ⟨-, rfl⟩ <;> exact ⟨rfl, rfl⟩
    obtain ⟨distance, bearing, hcentred, hshown⟩ := h₁.perceived (contains_of_enroll henroll)
      ((b.profile.sensors.sensors agent).map (b.host.reading agent.id body.pose))
    have hafter : b' = (b₁.target agent.id).2 := by
      rw [← perceive_snd]
      exact (congrArg Prod.snd hperceive).symm
    have hhost : b'.host = b.host := by
      rw [hafter, target_snd]
      exact hkept.1
    have hprofile : b'.profile = b.profile := by
      rw [hafter, target_snd]
      exact hkept.2
    refine ⟨body, distance, bearing, by rw [hhost, hbody], hafter ▸ hcentred.asked, ?_⟩
    rw [hhost, hprofile, hafter, h₁.target_again, ← hshown]
    exact (congrArg Prod.fst hperceive).symm

end Battle

end FlagCombat
