import FlagCombat.Campaign.Tick

/-!
Running a campaign until a limit, a request to stop, or an empty roster. `Run.advance` is one turn
of the loop, so a caller that waits between ticks repeats it; `Run.within` repeats it at most a
given number of times.
-/

namespace FlagCombat

/-- When a run stops, how long it waits between ticks, and whether it was asked to stop. A limit of
zero is none. -/
structure RunControl where
  maxTicks : UInt64 := 5000
  maxSeconds : UInt64 := 0
  tickIntervalMs : UInt64 := 0
  stopRequested : Bool := false
deriving DecidableEq

namespace RunControl

def requestStop (c : RunControl) : RunControl := { c with stopRequested := true }

def tickLimitReached (c : RunControl) (completed : UInt64) : Bool :=
  c.maxTicks > 0 && completed ≥ c.maxTicks

def timeLimitReached (c : RunControl) (elapsed : Nat) : Bool :=
  c.maxSeconds > 0 && elapsed ≥ c.maxSeconds.toNat

end RunControl

/-- Why a run ended. -/
inductive EndReason where
  | maxTicksReached
  | maxRealTimeReached
  | stopRequested
  | noAgents
deriving DecidableEq, Repr

def EndReason.text : EndReason → String
  | .maxTicksReached => "MaxTicksReached"
  | .maxRealTimeReached => "MaxRealTimeReached"
  | .stopRequested => "StopRequested"
  | .noAgents => "NoAgents"

/-- Whoever is told of every tick, and may ask the run to stop. -/
class TickObserver (O : Type) where
  onTick : O → RunControl → TickSummary → List View → O × RunControl

instance : TickObserver Unit where
  onTick _ control _ _ := ((), control)

/-- What a run came to. -/
structure RunSummary where
  endReason : EndReason
  totalTicks : UInt64
  episodesCompleted : Nat
  hits : Nat
  finalSummary : Option TickSummary
deriving DecidableEq

/-- A run under way. -/
structure Run (H T P O : Type) where
  campaign : Campaign H T P
  control : RunControl
  observer : O
  totalTicks : UInt64 := 0
  episodesCompleted : Nat := 0
  /-- The shots that had landed when the run started. -/
  hitsAtStart : Nat
  finalSummary : Option TickSummary := none

namespace Run

variable {H T P O : Type}

def start (campaign : Campaign H T P) (control : RunControl) (observer : O) : Run H T P O where
  campaign := campaign
  control := control
  observer := observer
  hitsAtStart := campaign.battle.hits

def summary (r : Run H T P O) (endReason : EndReason) : RunSummary where
  endReason := endReason
  totalTicks := r.totalTicks
  episodesCompleted := r.episodesCompleted
  hits := r.campaign.battle.hits - r.hitsAtStart
  finalSummary := r.finalSummary

/-- Why the run ends before its next tick, if it does. -/
def haltBefore? (r : Run H T P O) (elapsed : Nat) : Option EndReason :=
  if r.control.stopRequested then some .stopRequested
  else if r.control.timeLimitReached elapsed then some .maxRealTimeReached
  else if r.campaign.roster.isEmpty then some .noAgents
  else none

/-- How a turn of the loop leaves a run. -/
inductive Turn (H T P O : Type) where
  | goesOn (run : Run H T P O)
  | ended (summary : RunSummary) (run : Run H T P O)
  | failed (error : CampaignError) (run : Run H T P O)

variable [Host H] [Trainer T] [Policy P] [TickObserver O]

def finish (r : Run H T P O) (reason : EndReason) : Turn H T P O :=
  .ended (r.summary reason)
    { r with campaign := { r.campaign with battle := r.campaign.battle.cleanup } }

/-- One turn of the loop: the reasons to end before a tick, the tick, and the tick limit
after it. -/
def advance (point : SpawnPoint) (elapsed : Nat) (r : Run H T P O) : Turn H T P O :=
  match r.haltBefore? elapsed with
  | some reason => r.finish reason
  | none =>
    match Campaign.tick r.totalTicks point r.campaign with
    | .error e campaign => .failed e { r with campaign }
    | .ok summary campaign =>
      let (observer, control) :=
        TickObserver.onTick r.observer r.control summary campaign.battle.views
      let r := { r with
        campaign, observer, control
        totalTicks := addCapped64 r.totalTicks 1
        episodesCompleted := r.episodesCompleted + summary.episodesEnded
        finalSummary := some summary }
      if r.control.tickLimitReached r.totalTicks then r.finish .maxTicksReached else .goesOn r

/-- Repeats turns until the run stops, at most `turns` times; `clock` tells the seconds that have
passed before each turn, the last number being the turns still allowed. -/
def within (point : SpawnPoint) (clock : Nat → Nat) : Nat → Run H T P O → Turn H T P O
  | 0, r => .goesOn r
  | turns + 1, r =>
    match advance point (clock turns) r with
    | .goesOn r => within point clock turns r
    | turn => turn

end Run

end FlagCombat
