import FlagCombat.Proofs.Selection
import FlagCombat.Proofs.Battle.Frame
import FlagCombat.Proofs.Battle.Order
import FlagCombat.Proofs.Battle.Perception
import FlagCombat.Proofs.Battle.Queries
import FlagCombat.Proofs.Binary64.Arithmetic
import FlagCombat.Proofs.Draws

/-!
What a look at the surroundings writes into a vector that is given to it. The last slot always tells
whether there is a target; the two slots before it tell where the centre of the team is, both or
neither; and everything in front of them comes back as it was. The centre is the mean of where the
members of the team were frozen.
-/

namespace FlagCombat

namespace Point

open Binary64

/-- The sum of some numbers from zero on, from left to right. -/
def total (numbers : List Float) : Float := numbers.foldl (· + ·) 0.0

/-- As many ones as there are points. -/
def ones (points : List Point) : List Float := points.map fun _ => 1.0

/-- The mean of some points: the totals of their coordinates, divided by their number. -/
structure IsMean (points : List Point) (mean : Point) : Prop where
  /-- The divisor is the number of points, without an error. -/
  number : value (total (ones points)) = points.length
  x_eq : mean.x = total (points.map Point.x) / total (ones points)
  y_eq : mean.y = total (points.map Point.y) / total (ones points)

/-- Ones are counted without an error as long as their number has at most 53 bits. -/
theorem value_count (points : List Point) {n : Float} {k : ℕ} (hn : n.isFinite = true)
    (hvalue : value n = k) (hfew : k + points.length < 2 ^ 53) :
    value ((ones points).foldl (· + ·) n) = k + points.length := by
  induction points generalizing n k with
  | nil => simpa [ones] using hvalue
  | cons point points ih =>
    rw [List.length_cons] at hfew
    have hround := rounds_add hn finite_one
    have hnext : value n + value 1.0 = (k + 1 : ℕ) := by rw [hvalue, value_one, Nat.cast_succ]
    have hrepresentable : Representable (value n + value 1.0) := by
      rw [hnext]
      simpa using representable_natCast_mul (k + 1) 0 (by omega) (by norm_num) (by norm_num)
    have hsum := ih (hround.isFinite_of_representable hrepresentable)
      ((hround.exact hrepresentable).trans hnext) (by omega)
    show value ((ones points).foldl (· + ·) (n + 1.0)) = _
    rw [hsum, List.length_cons]
    push_cast
    ring

theorem foldl_add (points : List Point) (sum : Point) :
    points.foldl (fun s p => (⟨s.x + p.x, s.y + p.y⟩ : Point)) sum =
      ⟨(points.map Point.x).foldl (· + ·) sum.x, (points.map Point.y).foldl (· + ·) sum.y⟩ := by
  induction points generalizing sum with
  | nil => rfl
  | cons point points ih => exact ih _

/-- The centroid of some points is their mean. -/
theorem isMean_centroid {points : List Point} (hfew : points.length < 2 ^ 53) {center : Point}
    (h : centroid? points = some center) : IsMean points center := by
  have hcount : points.foldl (fun n _ => n + 1.0) 0.0 = total (ones points) := by
    unfold total ones
    rw [List.foldl_map]
  unfold centroid? at h
  rw [foldl_add, hcount] at h
  dsimp only at h
  split at h
  · cases h
    refine ⟨?_, rfl, rfl⟩
    have hnumber := value_count points (n := 0.0) (k := 0) (by decide +kernel)
      (value_zero.trans Nat.cast_zero.symm) (by omega)
    rwa [Nat.cast_zero, zero_add] at hnumber
  · cases h

end Point

namespace Battle

variable {H T : Type} {b e : Battle H T} {agent : AgentId}

/-- The agents with a record on a team, in ascending order. -/
def teamIds (b : Battle H T) (team : Team) : List AgentId :=
  (b.combatants.filter fun _ c => c.team = team).keys

/-- Where the agents of a team were frozen. -/
def teamPositions (b : Battle H T) (team : Team) : List Point :=
  (b.teamIds team).filterMap fun id => (b.snapshot.poses.get? id).map Pose.position

theorem mem_teamIds_iff {team : Team} :
    agent ∈ b.teamIds team ↔ ∃ c, b.combatants.get? agent = some c ∧ c.team = team := by
  unfold teamIds
  rw [IdMap.mem_keys_iff, IdMap.contains_eq_true_iff]
  simp [Option.filter_eq_some_iff]

/-- The members of a team are listed as their records are. -/
theorem Sound.members_eq (hb : b.Sound) (team : Team) : b.teams.members team = b.teamIds team := by
  refine IdMap.keys_eq fun id => ?_
  rw [Bool.eq_iff_iff, b.teams.kept, ← IdMap.mem_keys_iff]
  refine Iff.trans ?_ mem_teamIds_iff.symm
  rw [show b.teams.teams.get? id = _ from hb.teamOf id, Option.map_eq_some_iff]

/-- The centre that an agent is told of is that of the frozen positions of its team. -/
theorem Sound.centroid?_eq (hb : b.Sound) {c : Combatant}
    (hc : b.combatants.get? agent = some c) :
    b.snapshot.poses.centroid? b.teams agent = Point.centroid? (b.teamPositions c.team) := by
  have hteam : b.teams.teamOf agent = some c.team := by rw [hb.teamOf, hc, Option.map_some]
  have hfriends : b.teams.friendsOf agent = b.teamIds c.team := by
    rw [← hb.members_eq]
    unfold Teams.friendsOf
    rw [hteam]
  unfold Poses.centroid? Poses.ofMembers teamPositions
  rw [hfriends, List.map_filterMap]
  simp only [Option.map_map, Function.comp_def]

theorem Sound.posed_of_mem_teamIds (hb : b.Sound) {team : Team} (h : agent ∈ b.teamIds team) :
    b.snapshot.poses.contains agent = true := by
  obtain ⟨c, hc, -⟩ := mem_teamIds_iff.1 h
  exact (hb.posed agent).trans ((IdMap.contains_eq_true_iff _).2 ⟨c, hc⟩)

/-- Every member of a team was frozen, so there is a position for each. -/
theorem Sound.length_teamPositions (hb : b.Sound) (team : Team) :
    (b.teamPositions team).length = (b.teamIds team).length := by
  unfold teamPositions
  rw [List.length_filterMap_eq_countP, List.countP_eq_length]
  intro id hid
  rw [Option.isSome_map]
  exact hb.posed_of_mem_teamIds hid

theorem Sound.isMean (hb : b.Sound) {team : Team} {center : Point}
    (hcenter : Point.centroid? (b.teamPositions team) = some center) :
    Point.IsMean (b.teamPositions team) center := by
  refine Point.isMean_centroid ?_ hcenter
  have hids := AgentId.length_le (b.combatants.filter fun _ c => c.team = team).nodup_keys
  rw [hb.length_teamPositions]
  exact Nat.lt_of_le_of_lt hids (by decide)

/-- An agent has a target if it has another friend and some foe is in its cone. -/
theorem Sound.isSome_target_iff (hb : b.Sound) :
    (b.target agent).1.isSome = true ↔
      (∃ other, b.Fellow agent other) ∧ ∃ foe, b.InSight agent foe := by
  constructor
  · intro h
    obtain ⟨foe, hfoe⟩ := Option.isSome_iff_exists.1 h
    obtain ⟨hfellow, hseen⟩ := hb.target_spec hfoe
    exact ⟨hfellow, foe, hseen⟩
  · rintro ⟨hfellow, foe, hisFoe, pose, place, hpose, hplace, hinside⟩
    rw [target_forget hb.coherent]
    unfold targetAnew
    rw [show b.forget.teams = b.teams from rfl, if_pos (hb.hasOtherFriends_iff.2 hfellow)]
    have hlisted : (foe, place) ∈ b.snapshot.poses.ofMembers (b.teams.foesOf agent) :=
      (Poses.mem_ofMembers_iff _).2 ⟨hb.mem_foesOf_iff.2 hisFoe, hplace⟩
    show (b.snapshot.poses.target b.teams b.profile.targeting agent).isSome = true
    unfold Poses.target
    rw [hpose, Option.bind_some, Option.isSome_iff_ne_none]
    intro hnone
    have hbeyond := ((Targeting.keepsFirst_select b.profile.targeting pose).none_iff _).1 hnone
    exact hinside (hbeyond (foe, place) hlisted)

/-- What a look at the surroundings makes of a vector: `e` is the battle in which an agent with the
record `c` looks, and `center` is where its team is. -/
structure WritesTail (e : Battle H T) (agent : AgentId) (c : Combatant) (center : Point)
    (before after : List Float) : Prop where
  length : after.length = before.length
  kept : ∀ i, i < before.length - 3 → after[i]? = before[i]?
  target : after[before.length - 1]? = some (if (e.target agent).1.isSome then 1.0 else 0.0)
  /-- Both slots of the centre stay as they were. -/
  unseen : (∀ other, ¬e.Fellow agent other) ∨
      c.pose.position.distance center > e.profile.friendRadius →
    after[before.length - 3]? = before[before.length - 3]? ∧
      after[before.length - 2]? = before[before.length - 2]?
  /-- Both slots of the centre are written. -/
  seen : (∃ other, e.Fellow agent other) →
      ¬c.pose.position.distance center > e.profile.friendRadius →
    after[before.length - 3]? =
        some (c.pose.position.distance center / e.profile.friendRadius) ∧
      after[before.length - 2]? = some ((c.pose.bearing center + 180.0) / 360.0)

theorem getElem?_tail (readings : List Float) (x y z : Float) :
    (∀ i, i < readings.length → (readings ++ [x, y, z])[i]? = readings[i]?) ∧
    (readings ++ [x, y, z])[readings.length]? = some x ∧
    (readings ++ [x, y, z])[readings.length + 1]? = some y ∧
    (readings ++ [x, y, z])[readings.length + 2]? = some z := by
  refine ⟨fun i hi => List.getElem?_append_left hi, ?_, ?_, ?_⟩ <;> simp

/-- The two slots of the centre, of which both or neither are written. -/
theorem Sound.exists_slots (he : e.Sound) {c : Combatant} {center : Point}
    (hc : e.combatants.get? agent = some c)
    (hcenter : Point.centroid? (e.teamPositions c.team) = some center) (readings : List Float)
    (distance bearing target : Float) :
    ∃ x y, (e.perceive agent (readings ++ [distance, bearing, target])).1 =
        readings ++ [x, y, if (e.target agent).1.isSome then 1.0 else 0.0] ∧
      ((∀ other, ¬e.Fellow agent other) ∨
        c.pose.position.distance center > e.profile.friendRadius → x = distance ∧ y = bearing) ∧
      ((∃ other, e.Fellow agent other) →
        ¬c.pose.position.distance center > e.profile.friendRadius →
        x = c.pose.position.distance center / e.profile.friendRadius ∧
          y = (c.pose.bearing center + 180.0) / 360.0) := by
  rw [← he.centroid?_eq hc] at hcenter
  rw [he.perceive_append hc hcenter]
  split
  · rename_i hseen
    refine ⟨_, _, rfl, fun hunseen => ?_, fun _ _ => ⟨rfl, rfl⟩⟩
    rcases hunseen with hlone | hfar
    · exact absurd (he.hasOtherFriends_iff.1 hseen.1) (not_exists.2 hlone)
    · exact absurd hfar (of_decide_eq_false hseen.2)
  · rename_i hunseen
    refine ⟨_, _, rfl, fun _ => ⟨rfl, rfl⟩, fun hfellow hnear => ?_⟩
    exact absurd ⟨he.hasOtherFriends_iff.2 hfellow, decide_eq_false hnear⟩ hunseen

theorem Sound.writesTail (he : e.Sound) {c : Combatant} {center : Point}
    (hc : e.combatants.get? agent = some c)
    (hcenter : Point.centroid? (e.teamPositions c.team) = some center) {before : List Float}
    (hlong : ¬before.length < Observation.tailLength) :
    e.WritesTail agent c center before (e.perceive agent before).1 := by
  obtain ⟨readings, distance, bearing, target, rfl⟩ := Observation.exists_tail hlong
  obtain ⟨x, y, hafter, hunseen, hseen⟩ :=
    he.exists_slots hc hcenter readings distance bearing target
  obtain ⟨hkept, hx, hy, hz⟩ :=
    getElem?_tail readings x y (if (e.target agent).1.isSome then 1.0 else 0.0)
  obtain ⟨hkept', hx', hy', -⟩ := getElem?_tail readings distance bearing target
  have hlength (x y z : Float) : (readings ++ [x, y, z]).length = readings.length + 3 := by simp
  rw [hafter]
  refine ⟨by rw [hlength, hlength], ?_, ?_, ?_, ?_⟩ <;> rw [hlength]
  · exact fun i hi => (hkept i hi).trans (hkept' i hi).symm
  · exact hz
  · intro h
    obtain ⟨rfl, rfl⟩ := hunseen h
    exact ⟨hx.trans hx'.symm, hy.trans hy'.symm⟩
  · intro hfellow hnear
    obtain ⟨rfl, rfl⟩ := hseen hfellow hnear
    exact ⟨hx, hy⟩

variable [Host H] [Trainer T] {agent : Handle} {observations : List Float}

/-- A look at the surroundings with a vector of three slots or more, by an agent whose record, if it
has one, is on the team of its handle. The last slot tells whether there is a target, which there is
if the agent has another friend and some foe is in its cone. The two slots before it stay as they
were if the agent has no other friend, or if the mean of the frozen positions of its team, the agent
included, is too far from where it is now; otherwise they tell the distance and the bearing of the
mean. All other slots stay as they were. -/
theorem sense_writes_tail (hb : Reachable b)
    (haccepted : ∀ c, b.combatants.get? agent.id = some c → c.team = agent.team)
    (hlong : 3 ≤ observations.length) :
    ∃ e values b' c center, b.enroll agent = .ok e ∧
      b.attempt (.sense agent observations) = .ok (.vector values, b') ∧
      e.combatants.get? agent.id = some c ∧ agent.id ∈ e.teamIds c.team ∧
      (∀ id ∈ e.teamIds c.team, e.snapshot.poses.contains id = true) ∧
      Point.IsMean (e.teamPositions c.team) center ∧
      ((e.target agent.id).1.isSome = true ↔
        (∃ other, e.Fellow agent.id other) ∧ ∃ foe, e.InSight agent.id foe) ∧
      e.WritesTail agent.id c center observations values := by
  have htail : ¬observations.length < Observation.tailLength := by
    unfold Observation.tailLength
    omega
  obtain ⟨e, henroll⟩ : ∃ e, b.enroll agent = .ok e := by
    unfold enroll
    split
    · rename_i c hc
      exact ⟨b, if_pos (haccepted c hc)⟩
    · exact ⟨_, rfl⟩
  have he : e.Sound := hb.sound.changes (enroll_changes henroll)
  obtain ⟨c, hc⟩ := (IdMap.contains_eq_true_iff _).1 (contains_of_enroll henroll)
  obtain ⟨center, hcenter⟩ := he.exists_centroid hc
  rw [he.centroid?_eq hc] at hcenter
  have hattempt : b.attempt (.sense agent observations) =
      .ok (.vector (e.perceive agent.id observations).1, (e.perceive agent.id observations).2) := by
    simp only [attempt, sense, if_neg htail, henroll, Except.map]
  exact ⟨e, _, _, c, center, henroll, hattempt, hc, mem_teamIds_iff.2 ⟨c, hc, rfl⟩,
    fun _ hid => he.posed_of_mem_teamIds hid, he.isMean hcenter, he.isSome_target_iff,
    he.writesTail hc hcenter htail⟩

/-- In the volley the first agent has a target, and the mean of its team is half a radius away. -/
theorem sense_writes_tail_volley :
    ∃ values b', (volleyField.beginTick 1).attempt
        (.sense (volleyAgent 1 .zero) [0.25, 7.0, 8.0, 9.0]) = .ok (.vector values, b') ∧
      values.length = 4 ∧ values[0]? = some 0.25 ∧ values[1]? = some 0.5 ∧
      values[2]? = some (((⟨100.0, 200.0, 90.0⟩ : Pose).bearing ⟨104.5, 206.0⟩ + 180.0) / 360.0) ∧
      values[3]? = some 1.0 := by
  have hreach : Reachable (volleyField.beginTick 1) :=
    ((Reachable.start _ _ _ _).performAll _).perform (.beginTick 1)
  have hknown : ((volleyField.beginTick 1).combatants.get? ⟨1⟩).map (fun c => (c.team, c.pose)) =
      some (.zero, ⟨100.0, 200.0, 90.0⟩) := by decide +kernel
  have hmean : (volleyField.beginTick 1).teamPositions .zero =
      [⟨100.0, 200.0⟩, ⟨109.0, 212.0⟩] := by decide +kernel
  have htarget : ((volleyField.beginTick 1).target ⟨1⟩).1.isSome = true := by decide +kernel
  obtain ⟨d, hd, hrecord⟩ := Option.map_eq_some_iff.1 hknown
  obtain ⟨hteam, hpose⟩ := Prod.mk.inj hrecord
  have haccepted (c : Combatant)
      (hc : (volleyField.beginTick 1).combatants.get? (volleyAgent 1 .zero).id = some c) :
      c.team = (volleyAgent 1 .zero).team := by
    rw [Option.some.inj (hc.symm.trans hd)]
    exact hteam
  have hlong : 3 ≤ ([0.25, 7.0, 8.0, 9.0] : List Float).length := by decide
  obtain ⟨e, values, b', c, center, henroll, hattempt, hc, -, -, hcenter, hseen, htail⟩ :=
    sense_writes_tail hreach haccepted hlong
  obtain rfl : e = volleyField.beginTick 1 :=
    eq_of_enroll henroll ((IdMap.contains_eq_true_iff _).2 ⟨d, hd⟩)
  obtain rfl : c = d := Option.some.inj (hc.symm.trans hd)
  rw [hteam, hmean] at hcenter
  obtain ⟨x, y⟩ := center
  obtain rfl : x = 104.5 := hcenter.x_eq.trans (by decide +kernel)
  obtain rfl : y = 206.0 := hcenter.y_eq.trans (by decide +kernel)
  have hfellow := (hseen.1 htarget).1
  have hnear : ¬c.pose.position.distance ⟨104.5, 206.0⟩ >
      (volleyField.beginTick 1).profile.friendRadius := by
    rw [hpose]
    decide +kernel
  obtain ⟨hdistance, hbearing⟩ := htail.seen hfellow hnear
  have hlast := htail.target
  rw [hpose] at hdistance hbearing
  rw [show (volleyAgent 1 .zero).id = ⟨1⟩ from rfl, htarget] at hlast
  have hhalf : Point.distance ⟨100.0, 200.0⟩ ⟨104.5, 206.0⟩ /
      (volleyField.beginTick 1).profile.friendRadius = 0.5 := by decide +kernel
  exact ⟨values, b', hattempt, htail.length, htail.kept 0 (by decide),
    hdistance.trans (congrArg some hhalf), hbearing, hlast⟩

end Battle

end FlagCombat
