import FlagCombat.Binary64.Arithmetic
import FlagCombat.Decimal.Layout

/-!
Vectors of bounded features. A shape declares a closed interval per slot; a vector fits when it has
the length of the shape and every value lies in its interval. Values are scaled to the unit interval
and back slot by slot.
-/

namespace FlagCombat

open Binary64

/-- The numbers from `low` to `high`, both included. -/
structure Interval where
  low : Float
  high : Float
deriving DecidableEq

namespace Interval

/-- Every finite number. -/
def unbounded : Interval := ⟨-maxFinite, maxFinite⟩

/-- Whether a number lies in the interval; what is not a number never does. -/
def contains (b : Interval) (x : Float) : Bool := x ≥ b.low && x ≤ b.high

/-- The length of the interval, as one rounded difference. -/
def span (b : Interval) : Float := b.high - b.low

/-- The place of a value between the ends, from 0 to 1; zero in an interval without a finite
positive length. -/
def toUnit (b : Interval) (x : Float) : Float :=
  if b.span.isFinite && b.span > 0.0 then clamp ((x - b.low) / b.span) 0.0 1.0 else 0.0

/-- The value at a place between the ends; zero in an interval without a finite length. -/
def ofUnit (b : Interval) (x : Float) : Float :=
  if b.span.isFinite then fusedMulAdd (clamp x 0.0 1.0) b.span b.low else 0.0

end Interval

/-- The declared interval of every slot of a vector. -/
structure Shape where
  bounds : List Interval
deriving DecidableEq

/-- Why a vector does not fit a shape. -/
inductive Violation where
  | length (expected actual : Nat)
  | outOfBounds (index : Nat) (value : Float) (bounds : Interval)
deriving DecidableEq

namespace Shape

def length (s : Shape) : Nat := s.bounds.length

def zeros (s : Shape) : List Float := List.replicate s.length 0.0

/-- The first value outside its interval, the slots being numbered from `index` on. -/
def firstOutside (index : Nat) : List Interval → List Float → Option Violation
  | b :: bounds, x :: values =>
    if b.contains x then firstOutside (index + 1) bounds values else some (.outOfBounds index x b)
  | _, _ => none

/-- Why a vector does not fit: its length, or else its first value outside the interval. -/
def violation? (s : Shape) (values : List Float) : Option Violation :=
  if values.length ≠ s.length then some (.length s.length values.length)
  else firstOutside 0 s.bounds values

/-- The values scaled to the unit interval, slot by slot. -/
def normalize (s : Shape) (values : List Float) : List Float :=
  List.zipWith (fun x b => b.toUnit x) values s.bounds

/-- The values scaled back from the unit interval, slot by slot. -/
def denormalize (s : Shape) (values : List Float) : List Float :=
  List.zipWith (fun x b => b.ofUnit x) values s.bounds

end Shape

namespace Violation

def number (x : Float) : String := Decimal.floatText Decimal.marked x

def text : Violation → String
  | .length expected actual =>
    "Length \x7b expected: " ++ toString expected ++ ", actual: " ++ toString actual ++ " \x7d"
  | .outOfBounds index value bounds =>
    "OutOfBounds \x7b index: " ++ toString index ++ ", value: " ++ number value ++
      ", bounds: FeatureBounds \x7b min: " ++ number bounds.low ++
        ", max: " ++ number bounds.high ++
      " \x7d \x7d"

end Violation

/-- What an agent perceives, does and earns, as shapes. -/
structure Interface where
  sensors : Shape
  actions : Shape
  rewards : Shape
deriving DecidableEq

/-- A move of an agent: a share of its speed, and a turn in degrees. -/
structure Motion where
  moveBy : Float
  turnBy : Float
deriving DecidableEq

/-- The motion of an action vector, whose second slot is a turn in radians; missing slots
are zero. -/
def Motion.ofAction (action : List Float) : Motion :=
  ⟨action.headD 0.0, degrees (action.tail.headD 0.0)⟩

end FlagCombat
