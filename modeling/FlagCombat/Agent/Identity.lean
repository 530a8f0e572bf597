/-!
Who an agent is: its id, its team and its group. A handle carries these together with the number of
steps the agent has taken in its episode.
-/

namespace FlagCombat

/-- The number a host gave to an agent. -/
structure AgentId where
  value : UInt32
deriving DecidableEq, Repr, Inhabited

namespace AgentId

instance : LT AgentId := ⟨fun a b => a.value < b.value⟩

instance (a b : AgentId) : Decidable (a < b) := inferInstanceAs (Decidable (a.value < b.value))

theorem lt_iff {a b : AgentId} : a < b ↔ a.value.toNat < b.value.toNat := Iff.rfl

theorem ext_toNat {a b : AgentId} (h : a.value.toNat = b.value.toNat) : a = b := by
  cases a
  cases b
  simpa [UInt32.toNat_inj] using h

theorem lt_trichotomy (a b : AgentId) : a < b ∨ a = b ∨ b < a := by
  rcases Nat.lt_trichotomy a.value.toNat b.value.toNat with h | h | h
  · exact .inl h
  · exact .inr (.inl (ext_toNat h))
  · exact .inr (.inr h)

def text (a : AgentId) : String := toString a.value.toNat

end AgentId

/-- The number a host gave to an object that is no agent. -/
structure ObjectId where
  value : UInt32
deriving DecidableEq, Repr

namespace ObjectId

def text (a : ObjectId) : String := toString a.value.toNat

end ObjectId

/-- One of the two opposing teams. -/
inductive Team where
  | zero
  | one
deriving DecidableEq, Repr

namespace Team

def opponent : Team → Team
  | .zero => .one
  | .one => .zero

@[simp] theorem opponent_opponent (t : Team) : t.opponent.opponent = t := by cases t <;> rfl

theorem opponent_ne (t : Team) : t.opponent ≠ t := by cases t <;> decide

def index : Team → Nat
  | .zero => 0
  | .one => 1

def ofIndex? : Nat → Option Team
  | 0 => some .zero
  | 1 => some .one
  | _ => none

@[simp] theorem ofIndex?_index (t : Team) : ofIndex? t.index = some t := by cases t <;> rfl

/-- What is said of a number that names no team. -/
def indexMessage (n : Nat) : String := "team index must be 0 or 1, got " ++ toString n

def text (t : Team) : String := toString t.index

end Team

/-- What an agent can do: walk, or stand where it was put. -/
inductive Group where
  | agent
  | turret
deriving DecidableEq, Repr

namespace Group

def isMobile : Group → Bool
  | .agent => true
  | .turret => false

def isStationary : Group → Bool
  | .agent => false
  | .turret => true

end Group

/-- An agent as its driver knows it; `step` counts the steps of the running episode. -/
structure Handle where
  id : AgentId
  team : Team
  group : Group
  step : UInt64 := 0
deriving DecidableEq, Repr

end FlagCombat
