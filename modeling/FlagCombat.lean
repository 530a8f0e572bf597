import FlagCombat.Binary64.Arithmetic
import FlagCombat.Decimal.Layout
import FlagCombat.Random.Draw
import FlagCombat.Counter
import FlagCombat.IdMap
import FlagCombat.Document.Json
import FlagCombat.Document.Values
import FlagCombat.Configuration.Reading
import FlagCombat.Campaign.Deployment
import FlagCombat.Campaign.Launch
import FlagCombat.Campaign.Progress
import FlagCombat.Campaign.Report
import FlagCombat.Main
import FlagCombat.Proofs.Battle.Anew
import FlagCombat.Proofs.Battle.Shot
import FlagCombat.Proofs.Battle.Account
import FlagCombat.Proofs.Battle.Ledger
import FlagCombat.Proofs.Battle.Frozen
import FlagCombat.Proofs.Battle.Order
import FlagCombat.Proofs.Battle.Replacement
import FlagCombat.Proofs.Battle.Running
import FlagCombat.Proofs.Campaign.Settled
import FlagCombat.Proofs.Campaign.Withdrawal
import FlagCombat.Proofs.Battle.Membership
import FlagCombat.Proofs.Battle.InPlace
import FlagCombat.Proofs.Binary64.Order
import FlagCombat.Proofs.Battle.Refusal
import FlagCombat.Proofs.Battle.Touch
import FlagCombat.Proofs.Campaign.Mustered
import FlagCombat.Proofs.Campaign.Turn
import FlagCombat.Proofs.Campaign.Entry
import FlagCombat.Proofs.Campaign.Agreement
import FlagCombat.Proofs.Binary64.Amount
import FlagCombat.Proofs.Binary64.Operation
import FlagCombat.Proofs.Campaign.Breeding
import FlagCombat.Proofs.Campaign.Conduct
import FlagCombat.Proofs.Campaign.Unfailing
import FlagCombat.Proofs.Battle.Ending
import FlagCombat.Proofs.Campaign.Journal
import FlagCombat.Proofs.Campaign.Chronicle
import FlagCombat.Proofs.Campaign.Conserved
import FlagCombat.Proofs.Campaign.Life
import FlagCombat.Proofs.Campaign.Earnings
import FlagCombat.Proofs.Battle.Beside
import FlagCombat.Proofs.Campaign.Unhurt
import FlagCombat.Proofs.Campaign.Episodes
import FlagCombat.Proofs.Battle.Whereabouts
import FlagCombat.Proofs.Campaign.Mirror
import FlagCombat.Proofs.Campaign.Poses
import FlagCombat.Proofs.Battle.Exemption
import FlagCombat.Proofs.Battle.LineOfFire
import FlagCombat.Proofs.Campaign.Crossfire
import FlagCombat.Proofs.Campaign.Layout
import FlagCombat.Proofs.Campaign.Growth
import FlagCombat.Proofs.Campaign.Population
import FlagCombat.Proofs.Battle.Frame
import FlagCombat.Proofs.Battle.Relabel
import FlagCombat.Proofs.Battle.RewardLayout
import FlagCombat.Proofs.Battle.Exchange
import FlagCombat.Proofs.Battle.Scripts
import FlagCombat.Proofs.Campaign.Symmetry
import FlagCombat.Proofs.Campaign.Elapsed
import FlagCombat.Proofs.Campaign.Accounting
import FlagCombat.Proofs.Nearest
import FlagCombat.Proofs.Battle.Queries
import FlagCombat.Proofs.Battle.Stepping
import FlagCombat.Proofs.Campaign.Aiming
import FlagCombat.Proofs.Binary64.Square
import FlagCombat.Proofs.Battle.RewardRange
import FlagCombat.Proofs.Document.Carried
import FlagCombat.Proofs.Document.Stable
import FlagCombat.Proofs.Document.Records
import FlagCombat.Proofs.Document.Forms
import FlagCombat.Proofs.Battle.Drain
import FlagCombat.Proofs.Selection
import FlagCombat.Proofs.Battle.Tail
import FlagCombat.Proofs.Binary64.Undefined
import FlagCombat.Proofs.Arena.Casting
import FlagCombat.Proofs.Campaign.Unobstructed
import FlagCombat.Proofs.Lineup
import FlagCombat.Proofs.Draws
import FlagCombat.Proofs.Battle.Recycling
import FlagCombat.Proofs.Battle.Standing
import FlagCombat.Proofs.Campaign.Respawn
import FlagCombat.Proofs.Arena.Readings
import FlagCombat.Proofs.Binary64.Comparison
import FlagCombat.Proofs.Binary64.Error
import FlagCombat.Proofs.Requirements
import FlagCombat.Proofs.Denormalized
import FlagCombat.Proofs.Bearing
import FlagCombat.Proofs.Arena.Lines
import FlagCombat.Proofs.Heading
