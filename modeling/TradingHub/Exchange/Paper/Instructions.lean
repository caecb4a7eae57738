import TradingHub.Exchange.Paper.RestingBuys

set_option autoImplicit false

/-! # Execution instructions in the simulation

Which instructions of an order the paper adapter looks at: the limit price, and `post_only` on a
limit order. `time_in_force` is not among them, so an order that does not fill at once rests whatever
it says. -/

namespace TradingHub

open Library PaperAdapter

variable {p : PaperAdapter} {market : MarketDataSource} {ticker : Ticker} {orderId : String}
  {request : OrderRequest} {l l' : PaperLedger} {order : Order String}

end TradingHub
