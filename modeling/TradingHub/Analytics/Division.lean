import TradingHub.Analytics.Adx

set_option autoImplicit false

/-! # Indicators with a division that raises

The oscillators, and the averages that they are made of, once more with a division that raises
`ZeroDivisionError`. The guards of the code keep it from ever doing so: these functions return what
the others do, on every input. -/

namespace TradingHub

open Library

namespace Indicators

variable {K : Type} [Scalar K] [LinearOrder K]

/-- `a / b`. -/
def divide (a b : K) : Except AppError K :=
  if b = 0 then .error (.external "ZeroDivisionError" "float division by zero") else .ok (a / b)

theorem divide_of_ne {b : K} (h : b ≠ 0) (a : K) : divide a b = quotient a b := by
  rw [divide, if_neg h, quotient]

/-- The guard of the divisions by a range and by the sum of the directional indicators. -/
theorem divide_of_guard (a b : K) :
    (if 0 < b then divide a b else pure 0) = if 0 < b then quotient a b else pure 0 := by
  split
  · next hpos => exact divide_of_ne hpos.ne' a
  · rfl

namespace Raising

def sma : List K → ℕ → Except AppError (List (Option K)) := smaWith divide

def wilderSmoothing : List K → ℕ → Except AppError (List (Option K)) := wilderSmoothingWith divide

/-- `_rsi_from`. -/
def rsiFrom : K → K → Except AppError K := rsiFromWith divide

def rsi : List K → ℕ → Except AppError (List (Option K)) := rsiWith divide

/-- `stochastic`: %K and %D. -/
def stochastic : List Candle → ℕ → ℕ → Except AppError (List (Option ℚ) × List (Option ℚ)) :=
  stochasticWith divide

/-- The part of `adx` that fills in the list `dx`. -/
def dx : List Candle → ℕ → Except AppError (List (Option ℚ)) := dxWith divide

def adx : List Candle → ℕ → Except AppError (List (Option ℚ)) := adxWith divide

end Raising

/-! ## No division by zero -/

variable [IsStrictOrderedRing K]

theorem Raising.sma_eq (values : List K) (period : ℕ) :
    Raising.sma values period = Indicators.sma values period := by
  unfold Raising.sma Indicators.sma smaWith
  cases period with
  | zero => rfl
  | succ period =>
    have hne : ((period + 1 : ℕ) : K) ≠ 0 := Nat.cast_ne_zero.2 (by omega)
    simp only [divide_of_ne hne]

theorem Raising.wilderSmoothing_eq (values : List K) (period : ℕ) :
    Raising.wilderSmoothing values period = Indicators.wilderSmoothing values period := by
  unfold Raising.wilderSmoothing Indicators.wilderSmoothing wilderSmoothingWith
  cases period with
  | zero => rfl
  | succ period =>
    have hne : ((period + 1 : ℕ) : K) ≠ 0 := Nat.cast_ne_zero.2 (by omega)
    simp only [divide_of_ne hne]

/-- The averages that `_rsi_from` gets are not negative, so `1 + rs` is positive. -/
theorem Raising.rsiFrom_eq {avgGain avgLoss : K} (hgain : 0 ≤ avgGain) (hloss : 0 ≤ avgLoss) :
    Raising.rsiFrom avgGain avgLoss = .ok (Indicators.rsiFrom avgGain avgLoss) := by
  rw [← rsiFromWith_quotient]
  unfold Raising.rsiFrom rsiFromWith
  split
  · rfl
  · next hne =>
    have hrs : 0 ≤ avgGain / avgLoss := div_nonneg hgain hloss
    simp only [divide_of_ne hne, quotient, bind, Except.bind]
    rw [divide_of_ne (by linarith), quotient]

theorem Raising.rsi_eq (closes : List K) (period : ℕ) :
    Raising.rsi closes period = Indicators.rsi closes period := by
  unfold Raising.rsi Indicators.rsi rsiWith
  cases period with
  | zero => rfl
  | succ period =>
    by_cases hshort : closes.length ≤ period + 1
    · simp only [if_pos hshort]
    · have hpos : (0 : K) < ((period + 1 : ℕ) : K) := Nat.cast_pos.2 (by omega)
      have hone : (1 : K) ≤ ((period + 1 : ℕ) : K) := Nat.one_le_cast.2 (by omega)
      have hnonneg : ∀ f : K → K, (∀ v, 0 ≤ f v) → ∀ v ∈ 0 :: (changes closes).map f, 0 ≤ v := by
        intro f hf v hv
        rcases List.mem_cons.1 hv with rfl | hv
        · exact le_rfl
        · obtain ⟨w, -, rfl⟩ := List.mem_map.1 hv
          exact hf w
      have hgains := hnonneg (fun c => max c 0) fun v => le_max_right v 0
      have hlosses := hnonneg (fun c => max (-c) 0) fun v => le_max_right (-v) 0
      simp only [divide_of_ne hpos.ne', quotient, bind, Except.bind, pure, Except.pure,
        if_neg hshort]
      rw [gains_losses closes (by omega)]
      generalize 0 :: (changes closes).map (fun c => max c 0) = gains at hgains ⊢
      generalize 0 :: (changes closes).map (fun c => max (-c) 0) = losses at hlosses ⊢
      have hseed : ∀ values : List K, (∀ v ∈ values, 0 ≤ v) →
          0 ≤ (slice values 1 (period + 1 + 1)).sum / ((period + 1 : ℕ) : K) := fun values h =>
        div_nonneg (List.sum_nonneg fun v hv =>
          h v (List.mem_of_mem_take (List.mem_of_mem_drop hv))) hpos.le
      have hnext : ∀ values : List K, (∀ v ∈ values, 0 ≤ v) → ∀ prev : K, 0 ≤ prev → ∀ i,
          0 ≤ (prev * (((period + 1 : ℕ) : K) - 1) + values.getD i 0) / ((period + 1 : ℕ) : K) := by
        intro values h prev hprev i
        have hvalue : 0 ≤ values.getD i 0 := by
          by_cases hi : i < values.length
          · rw [List.getD_eq_getElem _ _ hi]
            exact h _ (List.getElem_mem hi)
          · rw [List.getD_eq_default _ _ (by omega)]
        exact div_nonneg (add_nonneg (mul_nonneg hprev (sub_nonneg.2 hone)) hvalue) hpos.le
      have hfrom : ∀ {gain loss : K}, 0 ≤ gain → 0 ≤ loss →
          rsiFromWith divide gain loss = .ok (Indicators.rsiFrom gain loss) := Raising.rsiFrom_eq
      simp only [rsiFromWith_quotient, hfrom (hseed gains hgains) (hseed losses hlosses)]
      conv_rhs => rw [forRangeM_eq_ok _ fun _ _ _ _ => rfl]
      conv_lhs => rw [forRangeM_eq_ok_of_invariant _ (fun t => 0 ≤ t.1.1 ∧ 0 ≤ t.1.2)
        (fun i _ _ t h => ⟨hnext gains hgains t.1.1 h.1 i, hnext losses hlosses t.1.2 h.2 i⟩)
        (fun i _ _ t h => by
          rw [hfrom (hnext gains hgains t.1.1 h.1 i) (hnext losses hlosses t.1.2 h.2 i)])
        ⟨hseed gains hgains, hseed losses hlosses⟩]

theorem Raising.stochastic_eq (candles : List Candle) (kPeriod dPeriod : ℕ) :
    Raising.stochastic candles kPeriod dPeriod
      = Indicators.stochastic candles kPeriod dPeriod := by
  have hsma : ∀ values : List ℚ, smaWith divide values dPeriod = smaWith quotient values dPeriod :=
    fun values => Raising.sma_eq values dPeriod
  unfold Raising.stochastic Indicators.stochastic stochasticWith
  simp only [hsma, divide_of_guard]

theorem Raising.dx_eq (candles : List Candle) (period : ℕ) :
    Raising.dx candles period = Indicators.dx candles period := by
  have hsmoothed : ∀ values : List ℚ,
      wilderSmoothingWith divide values period = wilderSmoothingWith quotient values period :=
    fun values => Raising.wilderSmoothing_eq values period
  unfold Raising.dx Indicators.dx dxWith
  simp only [hsmoothed, divide_of_guard]
  refine bind_congr fun atrS => bind_congr fun plusS => bind_congr fun minusS => ?_
  refine congrArg (forRangeM 0 _ _) (funext fun dx => funext fun i => ?_)
  cases atrS.getD i none with
  | none => rfl
  | some a =>
    cases plusS.getD i none with
    | none => rfl
    | some p =>
      cases minusS.getD i none with
      | none => rfl
      | some m =>
        by_cases hzero : a = 0
        · simp only [if_pos hzero]
        · simp only [if_neg hzero, divide_of_ne hzero]

theorem Raising.adx_eq (candles : List Candle) (period : ℕ) :
    Raising.adx candles period = Indicators.adx candles period := by
  have hdx : dxWith divide candles period = dxWith quotient candles period :=
    Raising.dx_eq candles period
  have hsmoothed : ∀ values : List ℚ,
      wilderSmoothingWith divide values period = wilderSmoothingWith quotient values period :=
    fun values => Raising.wilderSmoothing_eq values period
  unfold Raising.adx Indicators.adx adxWith
  simp only [hdx, hsmoothed]

end Indicators

end TradingHub
