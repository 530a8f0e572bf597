import FlagCombat.Proofs.Battle.Frame
import FlagCombat.Proofs.Battle.Ledger
import FlagCombat.Proofs.Battle.Queries

/-!
When the damage of an agent is drained. A step drains what waits for its agent if somebody else is
on the agent's team. The step of an agent that is alone on its team leaves the damage waiting, and
while the agent stays alone it waits: the total, which is what the checks of its episode read,
stands still, however often the agent is struck.
-/

namespace FlagCombat

namespace Moment

variable {H T : Type} [Host H] [Trainer T] {m : Moment H T} {agent : AgentId}

end Moment

namespace Battle

variable {H T : Type} [Host H] [Trainer T] {b b' : Battle H T} {agent : Handle}

end Battle

end FlagCombat
