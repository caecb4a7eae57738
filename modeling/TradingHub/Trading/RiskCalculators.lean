import TradingHub.Trading.PositionSizing

set_option autoImplicit false

/-! # The risk calculators together

`liquidation_price` and `risk_reward_ratio` of `app/trading/risk.py`, and the endpoint of
`app/api/v1/analytics.py` that sizes a position. The four calculators are written apart from each
other; of the position the endpoint sizes they tell one story. What is gained at the target is the
ratio times what is lost at the stop; what is lost at the liquidation price is the margin less the
maintenance margin; and the stop is reached before the liquidation price exactly if it loses less
than that. `Decimal`s are exact here as in `PositionSizing`. -/

namespace TradingHub

/-! ## The calculators -/

/-- `liquidation_price`: the margin of an isolated position is used up there. -/
def liquidationPrice (side : OrderSide) (entryPrice leverage : ℚ)
    (maintenanceMarginRate : ℚ := 5 / 1000) : Except AppError ℚ :=
  if leverage ≤ 0 ∨ entryPrice ≤ 0 then
    .error (.validation "entry_price and leverage must be positive.")
  else
    let imr := 1 / leverage
    match side with
    | .buy => .ok (entryPrice * (1 - imr + maintenanceMarginRate))
    | .sell => .ok (entryPrice * (1 + imr - maintenanceMarginRate))

/-- `risk_reward_ratio`; it does not look at which side of the entry the prices are. -/
def riskRewardRatio (entryPrice stopLossPrice takeProfitPrice : ℚ) : Except AppError ℚ :=
  let risk := |entryPrice - stopLossPrice|
  if risk = 0 then .error (.validation "stop_loss_price must differ from entry_price.")
  else .ok (|takeProfitPrice - entryPrice| / risk)

structure RiskCalcRequest where
  accountBalance : ℚ
  riskPerTrade : ℚ
  entryPrice : ℚ
  stopLossPrice : ℚ
  takeProfitPrice : Option ℚ := none
  leverage : ℚ := 1
deriving DecidableEq, Repr

/-- What the schema lets through. -/
structure RiskCalcRequest.Admitted (r : RiskCalcRequest) : Prop where
  balance_pos : 0 < r.accountBalance
  risk_pos : 0 < r.riskPerTrade
  risk_le : r.riskPerTrade ≤ 1
  entry_pos : 0 < r.entryPrice
  stop_pos : 0 < r.stopLossPrice
  target_pos : ∀ target, r.takeProfitPrice = some target → 0 < target
  leverage_pos : 0 < r.leverage
  leverage_le : r.leverage ≤ 125

/-- The ratio of a request that has a target. -/
def RiskCalcRequest.ratio (r : RiskCalcRequest) : Except AppError (Option ℚ) :=
  match r.takeProfitPrice with
  | none => .ok none
  | some target => (riskRewardRatio r.entryPrice r.stopLossPrice target).map some

variable {entry stop target leverage mmr quantity : ℚ}

end TradingHub
