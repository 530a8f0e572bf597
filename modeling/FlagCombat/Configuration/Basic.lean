import FlagCombat.Profile
import FlagCombat.Text.Blank

/-!
The configuration of a simulation, section by section, with the values that stand where none is
given. It is valid when its profile is, when its probability lies in the unit interval, and when its
arena has an area.
-/

namespace FlagCombat

/-- A round obstacle. -/
structure Obstacle where
  x : Float
  y : Float
  radius : Float
deriving DecidableEq

/-- The world: its seed, its clock, and its arena. -/
structure WorldSettings where
  name : String := "NERO"
  seed : UInt64 := 42
  tickIntervalMs : UInt64 := 0
  width : Float := 800.0
  height : Float := 800.0
  frameDelay : Float := 0.0
  obstacles : List Obstacle := []
deriving DecidableEq

/-- How many agents are bred, and how organisms are replaced. -/
structure TrainerSettings where
  populationSize : UInt32 := 10
  exploitProbability : Float := 0.5
  replacementInterval : UInt32 := 20
deriving DecidableEq

/-- The line of turrets. -/
structure PopulationSettings where
  turrets : UInt32 := 5
  turretLine : Point := ⟨400.0, 500.0⟩
  turretSpacing : Float := 60.0
deriving DecidableEq

/-- The limits of a run. -/
structure LimitSettings where
  maxTicks : UInt64 := 5000
  maxSeconds : UInt64 := 0
deriving DecidableEq

/-- What is logged. -/
structure LoggingSettings where
  level : String := "info"
  summaryInterval : UInt64 := 500
deriving DecidableEq

/-- The configuration of a simulation. -/
structure Configuration where
  world : WorldSettings := {}
  profile : Profile := {}
  trainer : TrainerSettings := {}
  population : PopulationSettings := {}
  limits : LimitSettings := {}
  logging : LoggingSettings := {}
deriving DecidableEq

namespace Configuration

/-- Why a configuration is not valid. -/
inductive Invalidity where
  | profile (error : Profile.Error)
  | exploitProbability (value : Float)
  | arenaSize (width height : Float)
deriving DecidableEq

def Invalidity.message : Invalidity → String
  | .profile error => "invalid environment profile: " ++ error.message
  | .exploitProbability value =>
    "config field trainer.exploit_probability is invalid: " ++
      Decimal.floatText Decimal.plain value ++ " is outside [0, 1]"
  | .arenaSize width height =>
    "config field world is invalid: arena size " ++ Decimal.floatText Decimal.plain width ++ "x" ++
      Decimal.floatText Decimal.plain height ++ " must be positive"

/-- Checks the profile, then the probability, then the arena, and names the first fault. -/
def validate (c : Configuration) : Except Invalidity Unit := do
  match c.profile.validate with
  | .error e => throw (.profile e)
  | .ok () => pure ()
  let p := c.trainer.exploitProbability
  if !(0.0 ≤ p && p ≤ 1.0) then throw (.exploitProbability p)
  if !(c.world.width > 0.0 && c.world.height > 0.0) then
    throw (.arenaSize c.world.width c.world.height)

/-- The seed that a text of the surroundings asks for: decimal digits, after an optional plus sign,
of a number of 64 bits. -/
def seedOf? (text : String) : Option UInt64 :=
  let digits := match Text.trim text.toList with
    | '+' :: rest => rest
    | digits => digits
  if digits.isEmpty || !digits.all Char.isDigit then none
  else
    let n := digits.foldl (fun n d => 10 * n + (d.toNat - '0'.toNat)) 0
    if n < UInt64.size then some n.toUInt64 else none

/-- The configuration with its seed replaced, if the surroundings name one. -/
def withSeed (c : Configuration) (seedText : Option String) : Configuration :=
  match seedText.bind seedOf? with
  | none => c
  | some seed => { c with world := { c.world with seed } }

end Configuration

end FlagCombat
