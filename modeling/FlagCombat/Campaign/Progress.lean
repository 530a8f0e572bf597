import FlagCombat.Campaign.Run
import FlagCombat.Document.Values

/-!
Progress lines. Every tick whose number is a multiple of the interval gives a line, and at the level
of debugging a second one with everything that may be seen of the agents; an interval of zero gives
none.
-/

namespace FlagCombat

/-- How much is logged. -/
inductive LogLevel where
  | warn
  | info
  | debug
deriving DecidableEq, Repr

/-- A line of a log. -/
inductive LogEvent where
  | progress (tick : UInt64) (agents episodes hits damage : Nat)
  | views (tick : UInt64) (agents : List View)
deriving DecidableEq

def LogEvent.level : LogEvent → LogLevel
  | .progress .. => .info
  | .views .. => .debug

def LogEvent.message : LogEvent → String
  | .progress .. => "Simulation progress"
  | .views .. => "Agent views"

def LogLevel.shows : LogLevel → LogLevel → Bool
  | .warn, event => event = .warn
  | .info, event => event ≠ .debug
  | .debug, _ => true

/-- The views as a document without blanks. -/
def viewsText (views : List View) : String := (encode views).render

/-- Counts the episodes and lines of a run, and keeps what is logged. -/
structure Progress where
  interval : UInt64
  level : LogLevel := .info
  episodes : Nat := 0
  lines : Nat := 0
  /-- What was logged, the last event first. -/
  log : List LogEvent := []

namespace Progress

def isDue (p : Progress) (tick : UInt64) : Bool := p.interval ≠ 0 && tick % p.interval = 0

def events (p : Progress) (summary : TickSummary) (views : List View) : List LogEvent :=
  let damage := views.foldl (fun total v => total + v.totalDamage.toNat) 0
  let all : List LogEvent := [
    .progress summary.tick summary.agents p.episodes summary.totalHits damage,
    .views summary.tick views]
  all.filter fun event => p.level.shows event.level

def onTick (p : Progress) (summary : TickSummary) (views : List View) : Progress :=
  let p := { p with episodes := p.episodes + summary.episodesEnded }
  if p.isDue summary.tick then
    { p with lines := p.lines + 1, log := (p.events summary views).reverse ++ p.log }
  else p

instance : TickObserver Progress where
  onTick p control summary views := (p.onTick summary views, control)

end Progress

end FlagCombat
