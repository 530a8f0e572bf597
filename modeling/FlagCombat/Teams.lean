import FlagCombat.IdMap

/-!
Which agent plays for which team. An agent keeps the team it first registered for until it is
removed. The members of either team are kept beside the team of every agent, and both say the same.
-/

namespace FlagCombat

/-- A set of agents for either team. -/
structure MemberSets where
  zero : IdMap Unit := .empty
  one : IdMap Unit := .empty

namespace MemberSets

def of (s : MemberSets) : Team → IdMap Unit
  | .zero => s.zero
  | .one => s.one

/-- The sets with the one of a team changed. -/
def modify (s : MemberSets) (team : Team) (f : IdMap Unit → IdMap Unit) : MemberSets :=
  match team with
  | .zero => { s with zero := f s.zero }
  | .one => { s with one := f s.one }

@[simp] theorem of_modify (s : MemberSets) (team other : Team) (f : IdMap Unit → IdMap Unit) :
    (s.modify team f).of other = if other = team then f (s.of other) else s.of other := by
  cases team <;> cases other <;> rfl

end MemberSets

/-- The members of either team, and the team of every registered agent. -/
structure Teams where
  sets : MemberSets
  teams : IdMap Team
  /-- An agent is in the set of its team and in no other. -/
  kept : ∀ team agent, (sets.of team).contains agent = true ↔ teams.get? agent = some team

namespace Teams

def empty : Teams where
  sets := {}
  teams := .empty
  kept team agent := by cases team <;> simp [MemberSets.of, IdMap.contains]

def teamOf (t : Teams) (agent : AgentId) : Option Team := t.teams.get? agent

/-- Puts an agent on a team, if it is on none. -/
def enter (t : Teams) (agent : AgentId) (team : Team) (h : t.teamOf agent = none) : Teams where
  sets := t.sets.modify team (·.insert agent ())
  teams := t.teams.insert agent team
  kept other a := by
    have hkept := t.kept other a
    by_cases ha : a = agent
    · subst ha
      have hout : ¬(t.sets.of other).contains a = true := by
        rw [hkept, show t.teams.get? a = none from h]
        simp
      by_cases ho : other = team
      · simp [ho, IdMap.contains_insert]
      · simp [ho, hout, Ne.symm ho]
    · by_cases ho : other = team <;> simp [ho, ha, IdMap.contains_insert, ← t.kept]

/-- Takes an agent off its team. -/
def leave (t : Teams) (agent : AgentId) (team : Team) (h : t.teamOf agent = some team) : Teams where
  sets := t.sets.modify team (·.erase agent)
  teams := t.teams.erase agent
  kept other a := by
    have hkept := t.kept other a
    by_cases ha : a = agent
    · subst ha
      by_cases ho : other = team
      · simp [ho, IdMap.contains_erase]
      · rw [show t.teams.get? a = some team from h] at hkept
        have hout : (t.sets.of other).contains a = false := by simpa [Ne.symm ho] using hkept
        simp [ho, hout]
    · by_cases ho : other = team <;> simp [ho, ha, IdMap.contains_erase, ← t.kept]

/-- Registers an agent unless it is registered already, and says whether it did. -/
def register (t : Teams) (agent : AgentId) (team : Team) : Bool × Teams :=
  if h : t.teamOf agent = none then (true, t.enter agent team h) else (false, t)

/-- Forgets an agent, and says which team it was on. -/
def remove (t : Teams) (agent : AgentId) : Option Team × Teams :=
  match h : t.teamOf agent with
  | none => (none, t)
  | some team => (some team, t.leave agent team h)

/-- The agents of a team, in ascending order. -/
def members (t : Teams) (team : Team) : List AgentId := (t.sets.of team).keys

/-- The agents on the team of an agent, itself among them; none if it is not registered. -/
def friendsOf (t : Teams) (agent : AgentId) : List AgentId :=
  match t.teamOf agent with
  | none => []
  | some team => t.members team

/-- The agents on the other team; none if the agent is not registered. -/
def foesOf (t : Teams) (agent : AgentId) : List AgentId :=
  match t.teamOf agent with
  | none => []
  | some team => t.members team.opponent

def hasOtherFriends (t : Teams) (agent : AgentId) : Bool := (t.friendsOf agent).any (· ≠ agent)

def size (t : Teams) : Nat := t.teams.size

theorem mem_members_iff (t : Teams) {agent : AgentId} {team : Team} :
    agent ∈ t.members team ↔ t.teamOf agent = some team := by
  rw [members, IdMap.mem_keys_iff]
  exact t.kept team agent

theorem teamOf_register {t : Teams} {agent : AgentId} (h : t.teamOf agent = none) (team : Team)
    (other : AgentId) :
    (t.register agent team).2.teamOf other =
      if other = agent then some team else t.teamOf other := by
  rw [register, dif_pos h]
  exact IdMap.get?_insert t.teams agent other team

theorem teamOf_remove (t : Teams) (agent other : AgentId) :
    (t.remove agent).2.teamOf other = if other = agent then none else t.teamOf other := by
  unfold remove
  split
  · rename_i h
    by_cases ho : other = agent
    · simp [ho, h]
    · simp [ho]
  · simp [leave, teamOf]

theorem mem_friendsOf_iff (t : Teams) {agent other : AgentId} :
    other ∈ t.friendsOf agent ↔ ∃ team, t.teamOf agent = some team ∧ t.teamOf other = some team := by
  unfold friendsOf
  cases h : t.teamOf agent with
  | none => simp
  | some team => simp [mem_members_iff]

theorem mem_foesOf_iff (t : Teams) {agent other : AgentId} :
    other ∈ t.foesOf agent ↔
      ∃ team, t.teamOf agent = some team ∧ t.teamOf other = some team.opponent := by
  unfold foesOf
  cases h : t.teamOf agent with
  | none => simp
  | some team => simp [mem_members_iff]

end Teams

end FlagCombat
