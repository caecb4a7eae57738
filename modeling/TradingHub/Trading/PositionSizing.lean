import Mathlib.Tactic.Ring
import TradingHub.Trading.Risk

set_option autoImplicit false

/-! # Position sizing

`position_size` and `pnl` of `app/trading/risk.py`. The quantity is the one that loses the risk
amount at the stop, unless its notional is more than the account's buying power: then the quantity
is cut down, and the risk amount that is returned is still the one from before the cut. `Decimal`s
are exact here: neither their 28 digits nor `Overflow` is modelled. -/

namespace TradingHub

structure PositionSizing where
  quantity : ℚ
  riskAmount : ℚ
  notional : ℚ
deriving DecidableEq, Repr

/-- `position_size`; `riskPerTrade` is a fraction of the account. -/
def positionSize (accountBalance riskPerTrade entryPrice stopLossPrice : ℚ) (leverage : ℚ := 1) :
    Except AppError PositionSizing :=
  if accountBalance ≤ 0 then .error (.validation "account_balance must be positive.")
  else if ¬ (0 < riskPerTrade ∧ riskPerTrade ≤ 1) then
    .error (.validation "risk_per_trade must be in (0, 1].")
  else if entryPrice ≤ 0 ∨ stopLossPrice ≤ 0 then .error (.validation "prices must be positive.")
  else if entryPrice = stopLossPrice then
    .error (.validation "entry_price and stop_loss_price must differ.")
  else if leverage ≤ 0 then .error (.validation "leverage must be positive.")
  else
    let riskAmount := accountBalance * riskPerTrade
    let perUnitRisk := |entryPrice - stopLossPrice|
    let quantity := riskAmount / perUnitRisk
    let notional := quantity * entryPrice
    -- Cap by available buying power; the risk amount is not computed again.
    let maxNotional := accountBalance * leverage
    if maxNotional < notional then
      let quantity := maxNotional / entryPrice
      .ok { quantity, riskAmount, notional := quantity * entryPrice }
    else .ok { quantity, riskAmount, notional }

/-- `pnl`: realised profit or loss of a round trip, net of fees on both legs. -/
def pnl (side : OrderSide) (entryPrice exitPrice quantity : ℚ) (feeRate : ℚ := 0) :
    Except AppError ℚ :=
  if quantity ≤ 0 ∨ entryPrice ≤ 0 ∨ exitPrice ≤ 0 then
    .error (.validation "prices and quantity must be positive.")
  else
    let gross := match side with
      | .buy => (exitPrice - entryPrice) * quantity
      | .sell => (entryPrice - exitPrice) * quantity
    let fees := (entryPrice + exitPrice) * quantity * feeRate
    .ok (gross - fees)

/-- The side of a trade that is stopped out at `stop`. -/
def stopSide (entry stop : ℚ) : OrderSide := if stop < entry then .buy else .sell

/-- What the sizing says of the trade that is stopped out: it stays within the buying power, and
    loses the risk amount. -/
structure LosesWhatItSays (balance risk entry stop leverage : ℚ) (sizing : PositionSizing) :
    Prop where
  notional_eq : sizing.notional = sizing.quantity * entry
  notional_le : sizing.notional ≤ balance * leverage
  loss : ∃ value, pnl (stopSide entry stop) entry stop sizing.quantity = .ok value ∧
    value = -sizing.riskAmount ∧ -(balance * risk) ≤ value

/-! ## What is accepted -/

/-- The inputs that pass the checks. -/
structure Accepted (balance risk entry stop leverage : ℚ) : Prop where
  balance_pos : 0 < balance
  risk_pos : 0 < risk
  risk_le : risk ≤ 1
  entry_pos : 0 < entry
  stop_pos : 0 < stop
  ne : entry ≠ stop
  leverage_pos : 0 < leverage

variable {balance risk entry stop leverage : ℚ} {sizing : PositionSizing}

theorem Accepted.distance_pos (h : Accepted balance risk entry stop leverage) :
    0 < |entry - stop| :=
  abs_pos.2 (sub_ne_zero.2 h.ne)

/-- Accepted inputs, and the quantity that is returned for them. -/
theorem positionSize_cases (h : positionSize balance risk entry stop leverage = .ok sizing) :
    Accepted balance risk entry stop leverage ∧
      sizing.riskAmount = balance * risk ∧ sizing.notional = sizing.quantity * entry ∧
      (balance * risk / |entry - stop| * entry ≤ balance * leverage ∧
          sizing.quantity = balance * risk / |entry - stop| ∨
        balance * leverage < balance * risk / |entry - stop| * entry ∧
          sizing.quantity = balance * leverage / entry) := by
  unfold positionSize at h
  split at h
  · exact absurd h (by simp)
  next hbalance =>
  split at h
  · exact absurd h (by simp)
  next hrisk =>
  split at h
  · exact absurd h (by simp)
  next hprices =>
  split at h
  · exact absurd h (by simp)
  next hne =>
  split at h
  · exact absurd h (by simp)
  next hleverage =>
  obtain ⟨hentry, hstop⟩ := not_or.1 hprices
  have haccepted : Accepted balance risk entry stop leverage :=
    ⟨not_le.1 hbalance, (not_not.1 hrisk).1, (not_not.1 hrisk).2, not_le.1 hentry, not_le.1 hstop, hne,
      not_le.1 hleverage⟩
  simp only at h
  split at h
  · next hcapped =>
    obtain rfl := Except.ok.inj h
    exact ⟨haccepted, rfl, rfl, Or.inr ⟨hcapped, rfl⟩⟩
  · next hfree =>
    obtain rfl := Except.ok.inj h
    exact ⟨haccepted, rfl, rfl, Or.inl ⟨not_lt.1 hfree, rfl⟩⟩

/-- A trade that is stopped out loses the distance to the stop on every unit. -/
theorem pnl_stop {quantity : ℚ} (hquantity : 0 < quantity) (hentry : 0 < entry) (hstop : 0 < stop) :
    pnl (stopSide entry stop) entry stop quantity = .ok (-(|entry - stop| * quantity)) := by
  unfold pnl
  rw [if_neg (by simp only [not_or, not_le]; exact ⟨hquantity, hentry, hstop⟩)]
  by_cases hbelow : stop < entry
  · rw [stopSide, if_pos hbelow, abs_of_pos (sub_pos.2 hbelow)]
    refine congrArg Except.ok ?_
    show (stop - entry) * quantity - (entry + stop) * quantity * 0 = _
    ring
  · rw [stopSide, if_neg hbelow, abs_of_nonpos (sub_nonpos.2 (not_lt.1 hbelow))]
    refine congrArg Except.ok ?_
    show (entry - stop) * quantity - (entry + stop) * quantity * 0 = _
    ring

/-! ## What is lost at the stop -/

/-- The notional that would lose the risk amount is within the buying power. -/
theorem Accepted.uncapped_iff (h : Accepted balance risk entry stop leverage) :
    balance * risk / |entry - stop| * entry ≤ balance * leverage
      ↔ risk * entry ≤ leverage * |entry - stop| := by
  rw [div_mul_eq_mul_div, div_le_iff₀ h.distance_pos, mul_assoc, mul_assoc]
  exact mul_le_mul_iff_right₀ h.balance_pos

/-- The quantity is positive, within the buying power, and loses at most the risk amount; it loses
    just the risk amount exactly if it was not cut down. -/
theorem positionSize_quantity (h : positionSize balance risk entry stop leverage = .ok sizing) :
    0 < sizing.quantity ∧ sizing.quantity * entry ≤ balance * leverage ∧
      |entry - stop| * sizing.quantity ≤ balance * risk ∧
      (|entry - stop| * sizing.quantity = balance * risk
        ↔ risk * entry ≤ leverage * |entry - stop|) := by
  obtain ⟨haccepted, -, -, hquantity⟩ := positionSize_cases h
  have hdistance := haccepted.distance_pos
  rw [← haccepted.uncapped_iff]
  obtain ⟨hfree, hquantity⟩ | ⟨hcapped, hquantity⟩ := hquantity
  · have hloss : |entry - stop| * sizing.quantity = balance * risk := by
      rw [hquantity, mul_div_cancel₀ _ hdistance.ne']
    refine ⟨?_, by rw [hquantity]; exact hfree, hloss.le, iff_of_true hloss hfree⟩
    rw [hquantity]
    exact div_pos (mul_pos haccepted.balance_pos haccepted.risk_pos) hdistance
  · have hnotional : sizing.quantity * entry = balance * leverage := by
      rw [hquantity, div_mul_cancel₀ _ haccepted.entry_pos.ne']
    have hless : |entry - stop| * sizing.quantity < balance * risk := by
      rw [← hnotional] at hcapped
      have hfewer := lt_of_mul_lt_mul_right hcapped haccepted.entry_pos.le
      rw [mul_comm]
      exact (lt_div_iff₀ hdistance).1 hfewer
    refine ⟨?_, hnotional.le, hless.le, iff_of_false hless.ne (not_le.2 hcapped)⟩
    rw [hquantity]
    exact div_pos (mul_pos haccepted.balance_pos haccepted.leverage_pos) haccepted.entry_pos

/-- The sizing says what the stop costs exactly if the leverage does not cut the quantity down. -/
theorem loses_what_it_says_iff (h : positionSize balance risk entry stop leverage = .ok sizing) :
    LosesWhatItSays balance risk entry stop leverage sizing
      ↔ risk * entry ≤ leverage * |entry - stop| := by
  obtain ⟨haccepted, hamount, hnotional, -⟩ := positionSize_cases h
  obtain ⟨hpos, hpower, hbound, hexact⟩ := positionSize_quantity h
  have hpnl := pnl_stop hpos haccepted.entry_pos haccepted.stop_pos
  rw [← hexact]
  constructor
  · rintro ⟨-, -, value, hvalue, hsays, -⟩
    rw [hpnl, hsays, hamount] at hvalue
    exact neg_inj.1 (Except.ok.inj hvalue)
  · intro hloss
    refine ⟨hnotional, hnotional ▸ hpower, -(|entry - stop| * sizing.quantity), hpnl, ?_, ?_⟩
    · rw [hloss, hamount]
    · exact neg_le_neg hbound

/-- A hundred at risk of ten thousand, at five a unit. -/
theorem loses_what_it_says_sample :
    positionSize 10000 (1 / 100) 100 95 10 = .ok ⟨20, 100, 2000⟩ ∧
      (LosesWhatItSays 10000 (1 / 100) 100 95 10 ⟨20, 100, 2000⟩
        ↔ (1 / 100 : ℚ) * 100 ≤ 10 * |100 - 95|) := by
  have hsize : positionSize 10000 (1 / 100) 100 95 10 = .ok ⟨20, 100, 2000⟩ := by decide +kernel
  exact ⟨hsize, loses_what_it_says_iff hsize⟩

/-- Half of a thousand at risk, with a stop one below a hundred: at a leverage of two the position
    is cut to twenty units and loses 20 at the stop, and 500 is what is said to be at risk. -/
theorem capped_sizing_overstates :
    positionSize 1000 (1 / 2) 100 99 2 = .ok ⟨20, 500, 2000⟩ ∧
      pnl (stopSide 100 99) 100 99 20 = .ok (-20) ∧
      ¬ LosesWhatItSays 1000 (1 / 2) 100 99 2 ⟨20, 500, 2000⟩ := by
  have hpnl : pnl (stopSide 100 99) 100 99 20 = .ok (-20) := by decide +kernel
  refine ⟨by decide +kernel, hpnl, ?_⟩
  rintro ⟨-, -, value, hvalue, hsays, -⟩
  rw [hpnl] at hvalue
  obtain rfl := Except.ok.inj hvalue
  exact absurd hsays (by decide +kernel)

end TradingHub
