import FlagCombat.Campaign.Progress

/-!
Lines about a run for people to read: those of its progress, and those of its end.
-/

namespace FlagCombat

/-- The level of a name, in any case; a name that is no level shows warnings only. -/
def LogLevel.named (name : String) : LogLevel :=
  if ["debug", "trace"].contains name.toLower then .debug
  else if name.toLower = "info" then .info
  else .warn

/-- A name and a value, as lines show them. -/
def showField (name value : String) : String := " " ++ name ++ "=" ++ value

def LogEvent.line (event : LogEvent) : String :=
  event.message ++ match event with
    | .progress tick agents episodes hits damage =>
      showField "tick" (toString tick) ++ showField "agents" (toString agents) ++
        showField "episodes" (toString episodes) ++ showField "hits" (toString hits) ++
        showField "damage" (toString damage)
    | .views tick agents =>
      showField "tick" (toString tick) ++ showField "agents" (viewsText agents)

def RunSummary.line (s : RunSummary) : String :=
  "Simulation ended" ++ showField "reason" s.endReason.text ++
    showField "total_ticks" (toString s.totalTicks) ++
    showField "episodes" (toString s.episodesCompleted) ++ showField "hits" (toString s.hits)

namespace Progress

/-- The lines that were logged, from the first to the last, and the count without them. -/
def takeLines (p : Progress) : List String × Progress :=
  (p.log.reverse.map LogEvent.line, { p with log := [] })

end Progress

end FlagCombat
