import FlagCombat.Agent.Identity

/-!
What a host can look for and find: masks of object kinds, the objects a ray strikes, and the sensors
that an agent carries.
-/

namespace FlagCombat

/-- A set of object kinds, one bit each. -/
structure Mask where
  bits : UInt32
deriving DecidableEq, Repr

namespace Mask

def none : Mask := ⟨0⟩

def obstacle : Mask := ⟨1⟩

def flag : Mask := ⟨2⟩

def team : Team → Mask
  | .zero => ⟨4⟩
  | .one => ⟨8⟩

def union (a b : Mask) : Mask := ⟨a.bits ||| b.bits⟩

/-- Whether the masks share a kind. -/
def intersects (a b : Mask) : Bool := a.bits &&& b.bits != 0

/-- What stops a shot: obstacles and the agents of both teams. -/
def shotBlockers : Mask := obstacle.union ((team .zero).union (team .one))

end Mask

/-- What a ray strikes. -/
inductive Strike where
  | agent (id : AgentId)
  | object (id : ObjectId)
deriving DecidableEq, Repr

/-- A ray to a victim is clear when the first thing it strikes, if any, is the victim. -/
def lineOfSightClear (strikes : List Strike) (victim : AgentId) : Bool :=
  match strikes.head? with
  | .none => true
  | some (.agent first) => first = victim
  | some (.object _) => false

/-- A sensor of an agent: a ray at an angle to its heading, or a sector of a radar. -/
inductive Sensor where
  | ray (angle radius : Float) (mask : Mask)
  | radar (left right bottom top radius : Float) (mask : Mask)
deriving DecidableEq

end FlagCombat
