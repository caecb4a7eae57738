import TradingHub.Exchange.Models

set_option autoImplicit false

/-! # Pre-trade risk limits

`RiskLimits` of `app/trading/risk.py`: the guard rails an order passes before it is sent. The limit
is a product of `Decimal`s, each of them fixed by the context. -/

namespace TradingHub

open Library
open DecimalContext (fix)

/-- Portfolio-level guard rails. `maxPositionMarginPct` caps the margin (notional over leverage)
    of one position at a share of the account's equity. -/
structure RiskLimits where
  maxLeverage : ℚ := 20
  maxPositionMarginPct : ℚ := 1 / 2
  minRiskReward : ℚ := 1
deriving DecidableEq, Repr

namespace RiskLimits

/-- `check_order`: raise if the order breaches any limit. -/
def checkOrder [DecimalContext] (limits : RiskLimits) (notional equity leverage : ℚ)
    (rr : Option ℚ := none) : Except AppError Unit :=
  if equity ≤ 0 then .error (.riskLimit .equity)
  else if limits.maxLeverage < leverage then .error (.riskLimit .maxLeverage)
  else if fix (fix (equity * leverage) * limits.maxPositionMarginPct) < notional then
    .error (.riskLimit .maxPositionMarginPct)
  else match rr with
    | some ratio =>
      if ratio < limits.minRiskReward then .error (.riskLimit .minRiskReward) else .ok ()
    | none => .ok ()

/-- An order passes exactly when it breaches none of the limits. -/
theorem checkOrder_ok_iff [DecimalContext] (limits : RiskLimits) (notional equity leverage : ℚ) :
    limits.checkOrder notional equity leverage = .ok ()
      ↔ 0 < equity ∧ leverage ≤ limits.maxLeverage ∧
        notional ≤ fix (fix (equity * leverage) * limits.maxPositionMarginPct) := by
  unfold checkOrder
  split
  · next h => simp [not_lt.2 h]
  · next h =>
    split
    · next hl => simp [not_le.2 hl]
    · next hl =>
      split
      · next hn => simp [not_le.2 hn]
      · next hn => simp [not_le.1 h, not_lt.1 hl, not_lt.1 hn]

end RiskLimits

end TradingHub
