import FlagCombat.Battle.Trainer
import FlagCombat.Binary64.Arithmetic
import FlagCombat.Configuration.Basic
import FlagCombat.IdMap
import FlagCombat.Counter

/-!
A trainer that replaces organisms one at a time. After a number of reports it withdraws one scored
organism: the worst, or any one, as a draw decides. The agent of a withdrawn organism gets a fresh
one.
-/

namespace FlagCombat

open Binary64

/-- What drives an agent: its serial number, and its score once it was reported. -/
structure Organism where
  serial : Nat
  score : Option Word := none
deriving DecidableEq

/-- A trainer that replaces organisms one at a time. -/
structure ReplacementTrainer where
  settings : TrainerSettings
  lifetime : UInt64 := 0
  /-- The agents asked for so far. -/
  added : Nat := 0
  /-- The agents asked for and not yet spawned. -/
  pending : Nat := 0
  organisms : IdMap Organism := .empty
  withdrawn : IdMap Unit := .empty
  reports : UInt32 := 0
  lastSerial : Nat := 0
  generator : Generator

namespace ReplacementTrainer

def ofSeed (settings : TrainerSettings) (seed : UInt64) : ReplacementTrainer :=
  { settings, generator := .ofSeed seed }

/-- The organisms that can be withdrawn, with their scores. -/
def candidates (t : ReplacementTrainer) : List (AgentId × Word) :=
  t.organisms.entries.filterMap fun (id, organism) =>
    if t.withdrawn.contains id then none else organism.score.map fun score => (id, score)

/-- The candidate of the worst score, the first one among equals. -/
def worst? (candidates : List (AgentId × Word)) : Option (AgentId × Word) :=
  candidates.foldl (fun best candidate => match best with
    | none => some candidate
    | some current =>
      if candidate.2.rank < current.2.rank then some candidate else some current) none

/-- Withdraws one candidate: the worst with the exploit probability, else any one. -/
def withdrawOne (t : ReplacementTrainer) : Except BadProbability ReplacementTrainer := do
  let (exploit, generator) ← t.generator.chance t.settings.exploitProbability
  let (victim, generator) :=
    if exploit then (worst? t.candidates, generator) else generator.choose? t.candidates
  let t := { t with generator }
  match victim with
  | none => return t
  | some (agent, _) => return { t with withdrawn := t.withdrawn.insert agent () }

def keepScore (t : ReplacementTrainer) (agent : AgentId) (score : Word) : ReplacementTrainer :=
  match t.organisms.get? agent with
  | none => t
  | some organism =>
    { t with organisms := t.organisms.insert agent { organism with score := some score } }

/-- Takes a report; the last of every interval withdraws an organism. The score is the sum of the
fitness. -/
def report (t : ReplacementTrainer) (agent : AgentId) (fitness : List Word) :
    Except BadProbability ReplacementTrainer :=
  let t := t.keepScore agent (.sum fitness)
  let t := { t with reports := addCapped32 t.reports 1 }
  if t.settings.replacementInterval > 0 && t.reports ≥ t.settings.replacementInterval then
    { t with reports := 0 }.withdrawOne
  else .ok t

instance : Trainer ReplacementTrainer where
  setLifetime t lifetime := { t with lifetime }
  ready _ := true
  hasOrganism t agent := !t.withdrawn.contains agent
  wanted t := t.settings.populationSize.toNat - t.added
  addAgent t := { t with added := t.added + 1, pending := t.pending + 1 }
  takeSpawnRequests t := (t.pending, { t with pending := 0 })
  nextOrganism t agent :=
    { t with
      withdrawn := t.withdrawn.erase agent
      lastSerial := t.lastSerial + 1
      organisms := t.organisms.insert agent { serial := t.lastSerial + 1 } }
  -- A total that is not a number comes without its sign, which no score is compared by: whoever
  -- reports gets a fresh organism before the next report.
  reportFitness t agent fitness := t.report agent (fitness.map .ofFloat)

end ReplacementTrainer

end FlagCombat
