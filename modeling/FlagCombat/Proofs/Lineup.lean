import FlagCombat.Teams
import Mathlib.Data.Set.Card

/-!
The registry of teams against the partial map that it stands for. The map binds agents to teams: to
register an agent binds it if it is unbound, and to remove it unbinds it. Along every list of
changes the registry gives the answers of the map, and every question about teams is one about the
map.
-/

namespace FlagCombat

namespace Teams

/-- A change of a registry. -/
inductive Change where
  | register (agent : AgentId) (team : Team)
  | remove (agent : AgentId)
deriving DecidableEq, Repr

/-- What a change answers: whether the agent was new, or the team it was on. -/
inductive Answer where
  | registered (isNew : Bool)
  | removed (team : Option Team)
deriving DecidableEq, Repr

def apply (t : Teams) : Change → Answer × Teams
  | .register agent team => let (isNew, t) := t.register agent team; (.registered isNew, t)
  | .remove agent => let (team, t) := t.remove agent; (.removed team, t)

/-- The answers to some changes, made one after the other, and the registry after them. -/
def applyAll (t : Teams) : List Change → List Answer × Teams
  | [] => ([], t)
  | change :: rest =>
    let (answer, t) := t.apply change
    let (answers, t) := t.applyAll rest
    (answer :: answers, t)

end Teams

/-- A partial map from agents to teams. -/
abbrev Lineup := AgentId → Option Team

namespace Lineup

open Teams (Change Answer)

def empty : Lineup := fun _ => none

/-- What the map binds at the time of a change. -/
def answer (m : Lineup) : Change → Answer
  | .register agent _ => .registered (m agent).isNone
  | .remove agent => .removed (m agent)

/-- The map with an unbound agent bound, or with an agent unbound. -/
def apply (m : Lineup) : Change → Lineup
  | .register agent team => fun other => if other = agent then (m agent).or team else m other
  | .remove agent => fun other => if other = agent then none else m other

/-- What the map binds at the time of each of some changes, and the map after them. -/
def applyAll (m : Lineup) : List Change → List Answer × Lineup
  | [] => ([], m)
  | change :: rest =>
    let (answers, m') := (m.apply change).applyAll rest
    (m.answer change :: answers, m')

theorem applyAll_append (m : Lineup) (earlier later : List Change) :
    (m.applyAll (earlier ++ later)).2 = ((m.applyAll earlier).2.applyAll later).2 := by
  induction earlier generalizing m with
  | nil => rfl
  | cons change rest ih => exact ih (m.apply change)

/-- A bound agent keeps its team unless it is removed. -/
theorem apply_eq_some {m : Lineup} {agent : AgentId} {team : Team} {change : Change}
    (h : m agent = some team) (hchange : change ≠ .remove agent) :
    m.apply change agent = some team := by
  cases change with
  | register other otherTeam =>
    by_cases ho : agent = other
    · simp [apply, ← ho, h]
    · simp [apply, ho, h]
  | remove other =>
    have hne : agent ≠ other := fun heq => hchange (heq ▸ rfl)
    simp [apply, hne, h]

theorem applyAll_eq_some {m : Lineup} {agent : AgentId} {team : Team} {changes : List Change}
    (h : m agent = some team) (hchanges : .remove agent ∉ changes) :
    (m.applyAll changes).2 agent = some team := by
  induction changes generalizing m with
  | nil => exact h
  | cons change rest ih =>
    obtain ⟨hchange, hrest⟩ := List.ne_and_not_mem_of_not_mem_cons hchanges
    exact ih (apply_eq_some h hchange.symm) hrest

end Lineup

namespace Teams

/-- A registry that answers every question as a partial map from agents to teams does. -/
structure Represents (t : Teams) (m : Lineup) : Prop where
  teamOf : ∀ agent, t.teamOf agent = m agent
  members : ∀ team, (t.members team).Pairwise (· < ·) ∧
    ∀ agent, agent ∈ t.members team ↔ m agent = some team
  size : t.size = {agent | m agent ≠ none}.ncard
  friendsOf : ∀ agent, (t.friendsOf agent).Pairwise (· < ·) ∧
    ∀ other, other ∈ t.friendsOf agent ↔ ∃ team, m agent = some team ∧ m other = some team
  foesOf : ∀ agent, (t.foesOf agent).Pairwise (· < ·) ∧
    ∀ other, other ∈ t.foesOf agent ↔ ∃ team, m agent = some team ∧ m other = some team.opponent
  hasOtherFriends : ∀ agent, t.hasOtherFriends agent = true ↔
    ∃ other team, other ≠ agent ∧ m agent = some team ∧ m other = some team

theorem pairwise_members (t : Teams) (team : Team) : (t.members team).Pairwise (· < ·) :=
  (t.sets.of team).pairwise_keys

theorem pairwise_friendsOf (t : Teams) (agent : AgentId) :
    (t.friendsOf agent).Pairwise (· < ·) := by
  unfold friendsOf
  split
  · exact .nil
  · exact t.pairwise_members _

theorem pairwise_foesOf (t : Teams) (agent : AgentId) : (t.foesOf agent).Pairwise (· < ·) := by
  unfold foesOf
  split
  · exact .nil
  · exact t.pairwise_members _

theorem hasOtherFriends_iff (t : Teams) {agent : AgentId} :
    t.hasOtherFriends agent = true ↔
      ∃ other team, other ≠ agent ∧ t.teamOf agent = some team ∧ t.teamOf other = some team := by
  unfold hasOtherFriends
  simp only [List.any_eq_true, decide_eq_true_eq, mem_friendsOf_iff]
  constructor
  · rintro ⟨other, ⟨team, hagent, hother⟩, hne⟩
    exact ⟨other, team, hne, hagent, hother⟩
  · rintro ⟨other, team, hne, hagent, hother⟩
    exact ⟨other, ⟨team, hagent, hother⟩, hne⟩

/-- The agents that are counted are those on a team. -/
theorem size_eq_ncard (t : Teams) : t.size = {agent | t.teamOf agent ≠ none}.ncard := by
  have hkeys : {agent | t.teamOf agent ≠ none} = ↑t.teams.keys.toFinset := by
    ext agent
    rw [List.coe_toFinset, Set.mem_ofPred_eq, Set.mem_ofPred_eq, IdMap.mem_keys_iff,
      IdMap.contains, Option.isSome_iff_ne_none]
    rfl
  rw [hkeys, Set.ncard_coe_finset, List.toFinset_card_of_nodup t.teams.nodup_keys]
  exact (List.length_map _).symm

theorem remove_fst (t : Teams) (agent : AgentId) : (t.remove agent).1 = t.teamOf agent := by
  unfold remove
  split
  · rename_i hteam
    exact hteam.symm
  · rename_i hteam
    exact hteam.symm

/-- The team of every agent decides all the answers of a registry. -/
theorem represents_of_teamOf {t : Teams} {m : Lineup} (h : ∀ agent, t.teamOf agent = m agent) :
    t.Represents m := by
  obtain rfl : t.teamOf = m := funext h
  exact {
    teamOf := h
    members := fun team => ⟨t.pairwise_members team, fun agent => t.mem_members_iff⟩
    size := t.size_eq_ncard
    friendsOf := fun agent => ⟨t.pairwise_friendsOf agent, fun other => t.mem_friendsOf_iff⟩
    foesOf := fun agent => ⟨t.pairwise_foesOf agent, fun other => t.mem_foesOf_iff⟩
    hasOtherFriends := fun agent => t.hasOtherFriends_iff }

/-- A change answers what the map binds, and does to the registry what it does to the map. -/
theorem apply_represents {t : Teams} {m : Lineup} (h : ∀ agent, t.teamOf agent = m agent)
    (change : Change) :
    (t.apply change).1 = m.answer change ∧
      ∀ agent, (t.apply change).2.teamOf agent = m.apply change agent := by
  cases change with
  | register agent team =>
    cases hteam : t.teamOf agent with
    | none =>
      refine ⟨?_, fun other => ?_⟩
      · simp [apply, register, Lineup.answer, hteam, ← h]
      · show (t.register agent team).2.teamOf other = _
        rw [teamOf_register hteam]
        simp [Lineup.apply, ← h, hteam]
    | some current =>
      refine ⟨?_, fun other => ?_⟩
      · simp [apply, register, Lineup.answer, hteam, ← h]
      · by_cases ho : other = agent
        · simp [apply, register, Lineup.apply, hteam, ← h, ho]
        · simp [apply, register, Lineup.apply, hteam, ← h, ho]
  | remove agent =>
    refine ⟨?_, fun other => ?_⟩
    · show Answer.removed (t.remove agent).1 = .removed (m agent)
      rw [remove_fst, h]
    · show (t.remove agent).2.teamOf other = _
      rw [teamOf_remove]
      simp [Lineup.apply, ← h]

theorem applyAll_represents {t : Teams} {m : Lineup} (h : ∀ agent, t.teamOf agent = m agent)
    (changes : List Change) :
    (t.applyAll changes).1 = (m.applyAll changes).1 ∧
      ∀ agent, (t.applyAll changes).2.teamOf agent = (m.applyAll changes).2 agent := by
  induction changes generalizing t m with
  | nil => exact ⟨rfl, h⟩
  | cons change rest ih =>
    obtain ⟨hanswer, happly⟩ := apply_represents h change
    obtain ⟨hanswers, hteams⟩ := ih happly
    exact ⟨congrArg₂ List.cons hanswer hanswers, hteams⟩

theorem mem_foesOf_comm (t : Teams) {agent other : AgentId} :
    other ∈ t.foesOf agent ↔ agent ∈ t.foesOf other := by
  have himp (a b : AgentId) (hmem : b ∈ t.foesOf a) : a ∈ t.foesOf b := by
    obtain ⟨team, ha, hb⟩ := t.mem_foesOf_iff.1 hmem
    exact t.mem_foesOf_iff.2 ⟨team.opponent, hb, by rw [Team.opponent_opponent, ha]⟩
  exact ⟨himp agent other, himp other agent⟩

/-- Every list of changes of an empty registry is answered as the partial map answers it: an agent
is new exactly if it is unbound, and its removal tells its team. After it the registry represents
the map. So enmity is mutual, nobody is on both teams, and an agent that is on one team at one
time and on the other later was removed in between. -/
theorem registry_is_lineup (changes : List Change) :
    let t := (empty.applyAll changes).2
    (empty.applyAll changes).1 = (Lineup.empty.applyAll changes).1 ∧
    t.Represents (Lineup.empty.applyAll changes).2 ∧
    (∀ agent other, other ∈ t.foesOf agent ↔ agent ∈ t.foesOf other) ∧
    (∀ agent, ¬(agent ∈ t.members .zero ∧ agent ∈ t.members .one)) ∧
    ∀ earlier later agent team team', changes = earlier ++ later →
      (empty.applyAll earlier).2.teamOf agent = some team → t.teamOf agent = some team' →
      team ≠ team' → .remove agent ∈ later := by
  intro t
  have hrun (changes : List Change) :=
    applyAll_represents (t := empty) (m := Lineup.empty) (fun _ => rfl) changes
  refine ⟨(hrun changes).1, represents_of_teamOf (hrun changes).2, fun agent other =>
    t.mem_foesOf_comm, ?apart, ?moved⟩
  case apart =>
    rintro agent ⟨hzero, hone⟩
    rw [mem_members_iff] at hzero hone
    rw [hzero] at hone
    cases hone
  case moved =>
    rintro earlier later agent team team' rfl hbefore hafter hne
    by_contra hkept
    rw [(hrun earlier).2] at hbefore
    rw [(hrun _).2, Lineup.applyAll_append, Lineup.applyAll_eq_some hbefore hkept] at hafter
    exact hne (Option.some.inj hafter)

/-- An agent that is refused on the other team comes to it through a removal. -/
def defection : List Change :=
  [.register ⟨1⟩ .zero, .register ⟨2⟩ .zero, .register ⟨1⟩ .one, .remove ⟨1⟩, .register ⟨1⟩ .one]

theorem registry_is_lineup_defection :
    (empty.applyAll defection).1 =
      [.registered true, .registered true, .registered false, .removed (some .zero),
        .registered true] ∧
    .remove ⟨1⟩ ∈ defection.drop 2 := by
  obtain ⟨hanswers, -, -, -, hmoved⟩ := registry_is_lineup defection
  exact ⟨hanswers.trans (by decide), hmoved (defection.take 2) (defection.drop 2) ⟨1⟩ .zero .one
    (List.take_append_drop 2 defection).symm (by decide) (by decide) (by decide)⟩

end Teams

end FlagCombat
