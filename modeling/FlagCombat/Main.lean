import FlagCombat.Campaign.Launch
import FlagCombat.Campaign.Report

/-!
The command line. It reads the configuration that its first argument names, or a file of a fixed
name, and runs the campaign of that configuration under a wandering policy. A configuration file
that is missing is one that gives nothing.
-/

namespace FlagCombat

def defaultConfigurationFile : String := "nero-config.yaml"

/-- The variable of the surroundings that names the seed. -/
def seedVariable : String := "NERO_SEED"

def readConfigurationFile (path : String) : IO Configuration.File := do
  try
    return .text (← IO.FS.readFile path)
  catch
    | .noFileOrDirectory .. => return .missing
    | _ => return .unreadable

/-- A run of a configured campaign, as the command line does it. -/
abbrev WatchedRun := Run Arena ReplacementTrainer WanderPolicy Progress

def WatchedRun.flush (r : WatchedRun) : IO WatchedRun := do
  let (lines, observer) := r.observer.takeLines
  for line in lines do
    IO.println line
  (← IO.getStdout).flush
  return { r with observer }

/-- Repeats turns until the run stops, waiting between ticks for as long as the
configuration says. -/
partial def WatchedRun.play (point : SpawnPoint) (startedMs : Nat) (r : WatchedRun) : IO Unit := do
  let elapsed := ((← IO.monoMsNow) - startedMs) / 1000
  match r.advance point elapsed with
  | .failed error _ => throw (IO.userError (LaunchError.campaign error).message)
  | .ended summary r =>
    let _ ← WatchedRun.flush r
    IO.println summary.line
  | .goesOn r =>
    let r ← WatchedRun.flush r
    if r.control.tickIntervalMs > 0 then
      IO.sleep (min r.control.tickIntervalMs 0xffffffff).toUInt32
    WatchedRun.play point startedMs r

def runConfiguration (c : Configuration) : IO Unit := do
  match c.build c.wanderer with
  | .error error => throw (IO.userError (LaunchError.campaign error).message)
  | .ok campaign =>
    let progress : Progress := {
      interval := c.logging.summaryInterval
      level := .named c.logging.level }
    WatchedRun.play c.spawnPoint (← IO.monoMsNow) (.start campaign c.control progress)

end FlagCombat

open FlagCombat in
def main (arguments : List String) : IO Unit := do
  let file ← readConfigurationFile (arguments.head?.getD defaultConfigurationFile)
  match Configuration.load file (← IO.getEnv seedVariable) with
  | .error error => throw (IO.userError (LaunchError.configuration error).message)
  | .ok c => runConfiguration c
