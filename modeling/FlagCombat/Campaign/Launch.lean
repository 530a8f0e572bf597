import FlagCombat.Campaign.Deployment
import FlagCombat.Configuration.Reading

/-!
What can go wrong between a configuration and the end of its run.
-/

namespace FlagCombat

/-- Why a simulation does not come to its end. -/
inductive LaunchError where
  | configuration (error : Configuration.Error)
  | campaign (error : CampaignError)
deriving DecidableEq

def LaunchError.message : LaunchError → String
  | .configuration error => "config error: " ++ error.message
  | .campaign error => "runner error: " ++ error.message

end FlagCombat
