import TradingHub.Analytics.Smoothing

set_option autoImplicit false

/-! # ADX

`adx` leaves out the candles whose average true range is zero, smooths what is there and puts the
result back with an offset that counts the gaps. That is aligned with the candles only where the
gaps come first. From a period of two on, an average true range that has left zero never returns;
with a period of one it is the true range itself, and any flat candle is a gap. -/

namespace TradingHub

open Library

namespace Indicators

/-! ## Directional movement -/

def upMove (p : List Candle) : ℚ :=
  (p.getD (p.length - 1) default).high - (p.getD (p.length - 1 - 1) default).high

def downMove (p : List Candle) : ℚ :=
  (p.getD (p.length - 1 - 1) default).low - (p.getD (p.length - 1) default).low

/-- The directional movement of the last candle, upwards and downwards. -/
def plusDmAt (p : List Candle) : ℚ :=
  if downMove p < upMove p ∧ 0 < upMove p then upMove p else 0

def minusDmAt (p : List Candle) : ℚ :=
  if upMove p < downMove p ∧ 0 < downMove p then downMove p else 0

theorem upMove_take (candles : List Candle) {i : ℕ} (hi : i < candles.length) :
    upMove (candles.take (i + 1))
      = (candles.getD i default).high - (candles.getD (i - 1) default).high := by
  have hlen : (candles.take (i + 1)).length = i + 1 := List.length_take_of_le hi
  rw [upMove, hlen, Nat.add_sub_cancel, getD_take_succ _ le_rfl, getD_take_succ _ (Nat.sub_le i 1)]

theorem downMove_take (candles : List Candle) {i : ℕ} (hi : i < candles.length) :
    downMove (candles.take (i + 1))
      = (candles.getD (i - 1) default).low - (candles.getD i default).low := by
  have hlen : (candles.take (i + 1)).length = i + 1 := List.length_take_of_le hi
  rw [downMove, hlen, Nat.add_sub_cancel, getD_take_succ _ le_rfl, getD_take_succ _ (Nat.sub_le i 1)]

/-- The lists of movements. -/
theorem plusDm_minusDm (candles : List Candle) :
    forRange 1 candles.length
        (List.replicate candles.length 0, List.replicate candles.length 0) (fun t i =>
          let upMove := (candles.getD i default).high - (candles.getD (i - 1) default).high
          let downMove := (candles.getD (i - 1) default).low - (candles.getD i default).low
          (t.1.set i (if downMove < upMove ∧ 0 < upMove then upMove else 0),
            t.2.set i (if upMove < downMove ∧ 0 < downMove then downMove else 0)))
      = (online plusDmAt candles, online minusDmAt candles) := by
  have hmoves : ∀ (val : List Candle → ℚ), (∀ p : List Candle, p.length ≤ 1 → val p = 0) →
      forRange 1 candles.length (List.replicate candles.length 0)
        (fun t i => t.set i (val (candles.take (i + 1)))) = online val candles := by
    intro val hfirst
    refine filled_eq_online candles (fun i => val (candles.take (i + 1))) 0 (fun i hi _ => ?_)
      fun _ _ _ => rfl
    rw [hfirst _ (by rw [List.length_take]; omega)]
  have hsame : ∀ p : List Candle, p.length ≤ 1 → upMove p = 0 ∧ downMove p = 0 := by
    intro p hp
    rw [upMove, downMove, show p.length - 1 = 0 by omega]
    exact ⟨sub_self _, sub_self _⟩
  rw [← hmoves plusDmAt fun p hp => by simp [plusDmAt, hsame p hp],
    ← hmoves minusDmAt fun p hp => by simp [minusDmAt, hsame p hp], ← forRange_prod]
  refine forRange_congr (fun i _ hi t => ?_) _
  simp only [plusDmAt, minusDmAt, upMove_take candles hi, downMove_take candles hi]

/-! ## DX -/

/-- The smoothing of a value of the candles. -/
def smoothedAt (period : ℕ) (val : List Candle → ℚ) (p : List Candle) : Option ℚ :=
  since period (smoothed (wilderStep period) period) (online val p)

/-- DX from the average true range and the smoothed movements. -/
def dxOf (a p m : ℚ) : ℚ :=
  let plusDi := 100 * p / a
  let minusDi := 100 * m / a
  let denom := plusDi + minusDi
  if 0 < denom then 100 * |plusDi - minusDi| / denom else 0

/-- The entry of the list `dx`. -/
def dxEntry : Option ℚ → Option ℚ → Option ℚ → Option ℚ
  | some a, some p, some m => if a = 0 then none else some (dxOf a p m)
  | _, _, _ => none

/-- DX of the last candle, if it is there. -/
def dxAt (period : ℕ) (candles : List Candle) : Option ℚ :=
  dxEntry (smoothedAt period trueRangeAt candles) (smoothedAt period plusDmAt candles)
    (smoothedAt period minusDmAt candles)

theorem wilderSmoothing_online (val : List Candle → ℚ) (candles : List Candle) {period : ℕ}
    (hperiod : 0 < period) :
    wilderSmoothing (online val candles) period = .ok (online (smoothedAt period val) candles) := by
  rw [wilderSmoothing_eq _ hperiod, online_online]
  rfl

theorem dx_eq (candles : List Candle) {period : ℕ} (hperiod : 0 < period) :
    dx candles period = .ok (online (dxAt period) candles) := by
  let entry := fun i => dxEntry ((online (smoothedAt period trueRangeAt) candles).getD i none)
    ((online (smoothedAt period plusDmAt) candles).getD i none)
    ((online (smoothedAt period minusDmAt) candles).getD i none)
  unfold dx dxWith
  simp only [plusDm_minusDm, trueRange_eq, wilderSmoothingWith_quotient,
    wilderSmoothing_online _ candles hperiod, bind, Except.bind]
  rw [forRangeM_eq_ok (fun out i => (entry i).elim out fun v => out.set i (some v))
    fun i _ _ out => ?_]
  · refine congrArg Except.ok (loop_eq_online candles (t := blank candles.length) (fun _ => ()) id
      (fun _ _ => ()) (fun _ i => entry i) (fun _ _ => rfl) (fun t i hblank => ?_) rfl fun i hi => ?_)
    · simp only [id]
      cases entry i with
      | none => exact (set_getElem?_self hblank).symm
      | some v => rfl
    · show dxEntry _ _ _ = _
      rw [getD_online _ hi, getD_online _ hi, getD_online _ hi, dxAt]
  · -- What the body does at an index is to enter the value, if there is one.
    simp only [entry]
    rcases (online (smoothedAt period trueRangeAt) candles).getD i none with _ | a
    · rfl
    rcases (online (smoothedAt period plusDmAt) candles).getD i none with _ | p
    · rfl
    rcases (online (smoothedAt period minusDmAt) candles).getD i none with _ | m
    · rfl
    by_cases hzero : a = 0
    · simp only [dxEntry, if_pos hzero]
      rfl
    · simp only [dxEntry, if_neg hzero, dxOf, quotient_of_guard]
      rfl

/-! ## The line -/

/-- The smoothing of the values of DX that are there, behind as many places as there are gaps. -/
def adxLine (period : ℕ) (candles : List Candle) : List (Option ℚ) :=
  let dxDefined := (online (dxAt period) candles).reduceOption
  List.replicate (candles.length - dxDefined.length) none
    ++ online (since period (smoothed (wilderStep period) period)) dxDefined

theorem dxAt_of_length_lt {period : ℕ} (p : List Candle) (h : p.length < period) :
    dxAt period p = none := by
  rw [dxAt, smoothedAt, since, if_pos (by rwa [length_online]), dxEntry]
  simp

theorem adx_eq (candles : List Candle) {period : ℕ} (hperiod : 0 < period) :
    adx candles period = .ok (adxLine period candles) := by
  have hle := length_reduceOption_online (dxAt period) candles
  unfold adx adxWith adxLine
  simp only [dxWith_quotient, wilderSmoothingWith_quotient]
  split
  · next hshort =>
    -- There are fewer values of DX than it takes for one of ADX.
    have hfew := length_reduceOption_online_le (@dxAt_of_length_lt period) candles
    refine congrArg Except.ok ?_
    rw [show since period (smoothed (wilderStep period) period) = fun p : List ℚ =>
      if p.length < period then none else some (smoothed (wilderStep period) period p) from rfl,
      ← replicate_eq_online _ (by omega), List.replicate_append_replicate, Nat.sub_add_cancel hle]
    rfl
  · simp only [dx_eq candles hperiod, wilderSmoothing_eq _ hperiod, bind, Except.bind]
    have hput := putBack_eq
      (candles.length - (online (dxAt period) candles).reduceOption.length)
      (online (since period (smoothed (wilderStep period) period))
        (online (dxAt period) candles).reduceOption)
    rw [length_online, Nat.sub_add_cancel hle] at hput
    exact congrArg Except.ok hput

/-! ## Where the gaps are -/

/-- The close of a candle is between its low and its high. -/
def ClosesInside (c : Candle) : Prop := c.low ≤ c.close ∧ c.close ≤ c.high

/-- A candle that does not move, neither itself nor from the close before it. -/
def Flat (candles : List Candle) (i : ℕ) : Prop :=
  (candles.getD i default).high = (candles.getD i default).low ∧
    (i ≠ 0 → (candles.getD i default).high = (candles.getD (i - 1) default).close)

/-- No candle is flat once one was not. -/
def FlatFirst (candles : List Candle) : Prop :=
  ∀ i j, i ≤ j → j < candles.length → Flat candles j → Flat candles i

theorem getD_low_le_high {candles : List Candle} (h : ∀ c ∈ candles, ClosesInside c) (i : ℕ) :
    (candles.getD i default).low ≤ (candles.getD i default).high := by
  by_cases hi : i < candles.length
  · rw [List.getD_eq_getElem _ _ hi]
    have hc := h _ (List.getElem_mem hi)
    exact hc.1.trans hc.2
  · rw [List.getD_eq_default _ _ (by omega)]
    rfl

theorem trueRangeAt_nonneg {p : List Candle} (h : ∀ c ∈ p, ClosesInside c) : 0 ≤ trueRangeAt p := by
  have hle := getD_low_le_high h (p.length - 1)
  rw [trueRangeAt]
  split
  · exact sub_nonneg.2 hle
  · exact le_max_of_le_right (abs_nonneg _)

theorem trueRangeAt_take_eq_zero_iff {candles : List Candle} (h : ∀ c ∈ candles, ClosesInside c)
    {i : ℕ} (hi : i < candles.length) :
    trueRangeAt (candles.take (i + 1)) = 0 ↔ Flat candles i := by
  have hlen : (candles.take (i + 1)).length = i + 1 := List.length_take_of_le hi
  have hle := getD_low_le_high h i
  simp only [trueRangeAt, hlen, Nat.add_sub_cancel, getD_take_succ _ (le_refl i),
    getD_take_succ _ (Nat.sub_le i 1), Flat]
  generalize candles.getD i default = c at hle
  generalize candles.getD (i - 1) default = prev
  split
  · next hzero => simp [hzero, sub_eq_zero]
  · next hi =>
    constructor
    · intro hmax
      have hrange : c.high - c.low ≤ 0 := hmax ▸ le_max_of_le_left (le_max_left _ _)
      have hhigh : |c.high - prev.close| ≤ 0 := hmax ▸ le_max_of_le_left (le_max_right _ _)
      exact ⟨by linarith, fun _ => sub_eq_zero.1 (abs_nonpos_iff.1 hhigh)⟩
    · rintro ⟨hflat, hclose⟩
      rw [← hflat, hclose hi]
      simp

/-- The average true range is not negative. -/
theorem trueRange_smoothed_nonneg {period : ℕ} (hperiod : 0 < period) {p : List Candle}
    (hlong : period ≤ p.length) (h : ∀ c ∈ p, ClosesInside c) :
    0 ≤ smoothed (wilderStep period) period (online trueRangeAt p) := by
  refine le_smoothed hperiod (by rwa [length_online]) fun v hv => ?_
  obtain ⟨i, -, rfl⟩ := List.mem_map.1 hv
  exact trueRangeAt_nonneg fun c hc => h c (List.mem_of_mem_take hc)

theorem dxAt_ne_none_iff {period : ℕ} {p : List Candle} :
    dxAt period p ≠ none ↔ period ≤ p.length ∧
      smoothed (wilderStep period) period (online trueRangeAt p) ≠ 0 := by
  rw [dxAt, smoothedAt, smoothedAt, smoothedAt]
  simp only [since, length_online]
  split
  · next hshort => exact iff_of_false (by simp [dxEntry]) (by omega)
  · next hlong =>
    rw [dxEntry]
    split
    · next hzero => simp [hzero]
    · next hpos => simpa [hpos] using hlong

/-- From a period of two on, the gaps come first: the average true range stays positive. -/
theorem leading_dxAt {period : ℕ} (hperiod : 2 ≤ period) {candles : List Candle}
    (h : ∀ c ∈ candles, ClosesInside c) : Leading (online (dxAt period) candles) := by
  refine leading_online (fun p c hp hc hdx => ?_) h
  obtain ⟨hlong, hne⟩ := dxAt_ne_none_iff.1 hdx
  have hpos := lt_of_le_of_ne (trueRange_smoothed_nonneg (by omega) hlong hp) (Ne.symm hne)
  rw [dxAt_ne_none_iff, online_concat, smoothed_concat _ (by rwa [length_online])]
  refine ⟨by rw [List.length_append]; omega, ne_of_gt (wilderStep_pos hperiod hpos ?_)⟩
  exact trueRangeAt_nonneg fun d hd =>
    (List.mem_append.1 hd).elim (hp d) fun hd => by rwa [List.mem_singleton.1 hd]

/-- With a period of one, the gaps are the flat candles. -/
theorem dxAt_one_eq_none_iff {candles : List Candle} (h : ∀ c ∈ candles, ClosesInside c) {i : ℕ}
    (hi : i < candles.length) : dxAt 1 (candles.take (i + 1)) = none ↔ Flat candles i := by
  rw [← not_iff_not, ← ne_eq, dxAt_ne_none_iff, ← trueRangeAt_take_eq_zero_iff h hi]
  have htake : online trueRangeAt (candles.take (i + 1))
      = online trueRangeAt (candles.take i) ++ [trueRangeAt (candles.take (i + 1))] := by
    conv_lhs => rw [List.take_add_one, List.getElem?_eq_getElem hi, Option.toList_some, online_concat]
    rw [List.take_add_one, List.getElem?_eq_getElem hi, Option.toList_some]
  rw [htake, smoothed_one]
  exact and_iff_right (by rw [List.length_take]; omega)

/-! ## Alignment -/

/-- ADX after the last candle, where it has a value of DX. -/
def adxAt (period : ℕ) (p : List Candle) : Option ℚ :=
  (online (dxAt period) p).getLast?.join.bind fun _ =>
    since period (smoothed (wilderStep period) period) (online (dxAt period) p).reduceOption

theorem adxLine_eq {period : ℕ} {candles : List Candle}
    (h : Leading (online (dxAt period) candles)) :
    adxLine period candles = online (adxAt period) candles := by
  have hplaced := h.place_eq_online (since period (smoothed (wilderStep period) period))
  rw [length_online, online_online] at hplaced
  exact hplaced

/-- One more candle keeps the entries of `adx`, and each entry that is there smooths the values of
    `dx` of the candles up to its own, which has one. -/
def Aligned (period : ℕ) (candles : List Candle) (c : Candle) : Prop :=
  ∃ before after, adx candles period = .ok before ∧ adx (candles ++ [c]) period = .ok after ∧
    after.take candles.length = before ∧
    ∀ i v, after[i]? = some (some v) → ∃ dxs last line,
      dx ((candles ++ [c]).take (i + 1)) period = .ok dxs ∧ dxs.getLast? = some (some last) ∧
      wilderSmoothing dxs.reduceOption period = .ok line ∧ line.getLast? = some (some v)

theorem aligned_of_leading {period : ℕ} (hperiod : 0 < period) {candles : List Candle} {c : Candle}
    (h : Leading (online (dxAt period) (candles ++ [c]))) : Aligned period candles c := by
  have hbefore : Leading (online (dxAt period) candles) := by
    rw [online_concat] at h
    intro i j hij hj
    have hlt := (List.getElem?_eq_some_iff.1 hj).1
    have hi := h i j hij (by rwa [List.getElem?_append_left hlt])
    rwa [List.getElem?_append_left (by omega)] at hi
  refine ⟨_, _, adx_eq candles hperiod, adx_eq _ hperiod, ?_, fun i v hv => ?_⟩
  · rw [adxLine_eq h, adxLine_eq hbefore, take_online]
  · rw [adxLine_eq h, getElem?_online] at hv
    split at hv
    · obtain ⟨last, hlast, hsmoothed⟩ := Option.bind_eq_some_iff.1 (Option.some.inj hv)
      have hlast := Option.join_eq_some_iff.1 hlast
      refine ⟨_, last, _, dx_eq _ hperiod, hlast, wilderSmoothing_eq _ hperiod, ?_⟩
      have hmem := List.reduceOption_mem_iff.2 (List.mem_of_getLast? hlast)
      rw [getLast?_online _ (List.ne_nil_of_mem hmem), hsmoothed]
    · exact absurd hv (by simp)

/-- With a period of one, every place behind the gaps gets an entry. -/
theorem Aligned.leading_one {candles : List Candle} {c : Candle} (h : Aligned 1 candles c) :
    Leading (online (dxAt 1) (candles ++ [c])) := by
  obtain ⟨before, after, -, hafter, -, hentries⟩ := h
  obtain rfl := Except.ok.inj (hafter.symm.trans (adx_eq _ (by decide)))
  refine leading_of_defined fun i hi hlt hnone => ?_
  rw [length_online] at hi hlt
  have hle := length_reduceOption_online (dxAt 1) (candles ++ [c])
  obtain ⟨v, hv⟩ : ∃ v, (adxLine 1 (candles ++ [c]))[i]? = some (some v) := by
    rw [adxLine, List.getElem?_append_right (by rwa [List.length_replicate]), List.length_replicate,
      getElem?_online, if_pos (by omega), since, if_neg (by rw [List.length_take]; omega)]
    exact ⟨_, rfl⟩
  obtain ⟨dxs, last, line, hdx, hlast, -⟩ := hentries i v hv
  obtain rfl := Except.ok.inj (hdx.symm.trans (dx_eq _ (by decide)))
  rw [getLast?_online _ (List.ne_nil_of_length_pos (by rw [List.length_take]; omega))] at hlast
  rw [getElem?_online, if_pos hlt, Option.some.inj hlast] at hnone
  exact absurd hnone (by simp)

/-- The entries of `adx` are aligned and stay, if and only if the period is two or more or no candle
    is flat once one was not. -/
theorem adx_aligned_iff {period : ℕ} (hperiod : 1 ≤ period) {candles : List Candle} {c : Candle}
    (hcandles : ∀ d ∈ candles ++ [c], ClosesInside d) :
    Aligned period candles c ↔ 2 ≤ period ∨ FlatFirst (candles ++ [c]) := by
  have hgap : ∀ i, i < (candles ++ [c]).length →
      ((online (dxAt 1) (candles ++ [c]))[i]? = some none ↔ Flat (candles ++ [c]) i) := by
    intro i hi
    rw [getElem?_online, if_pos hi, Option.some_inj]
    exact dxAt_one_eq_none_iff hcandles hi
  constructor
  · intro haligned
    by_cases htwo : 2 ≤ period
    · exact .inl htwo
    · obtain rfl : period = 1 := by omega
      refine .inr fun i j hij hj hflat => ?_
      exact (hgap i (by omega)).1 (haligned.leading_one i j hij ((hgap j hj).2 hflat))
  · rintro (htwo | hflat)
    · exact aligned_of_leading hperiod (leading_dxAt htwo hcandles)
    · by_cases htwo : 2 ≤ period
      · exact aligned_of_leading hperiod (leading_dxAt htwo hcandles)
      · obtain rfl : period = 1 := by omega
        refine aligned_of_leading hperiod fun i j hij hj => ?_
        have hlt : j < (candles ++ [c]).length := by
          simpa using (List.getElem?_eq_some_iff.1 hj).1
        exact (hgap i (by omega)).2 (hflat i j hij hlt ((hgap j hlt).1 hj))

/-- A candle that moves, and one that stays at its close. -/
def moving : Candle := ⟨0, 10, 12, 9, 11, 1⟩

def resting : Candle := ⟨1, 11, 11, 11, 11, 1⟩

/-- With a period of one, the value of the moving candle moves on to the resting one. -/
theorem adx_moves_on :
    (∀ d ∈ [moving] ++ [resting], ClosesInside d) ∧
      adx [moving] 1 = .ok [some 0] ∧ adx ([moving] ++ [resting]) 1 = .ok [none, some 0] ∧
      ¬ Aligned 1 [moving] resting := by
  have hbefore : adx [moving] 1 = .ok [some 0] := by decide +kernel
  have hafter : adx ([moving] ++ [resting]) 1 = .ok [none, some 0] := by decide +kernel
  refine ⟨by simp [ClosesInside, moving, resting]; norm_num, hbefore, hafter, ?_⟩
  rintro ⟨before, after, h, h', hkept, -⟩
  obtain rfl := Except.ok.inj (h.symm.trans hbefore)
  obtain rfl := Except.ok.inj (h'.symm.trans hafter)
  exact absurd hkept (by decide)

/-- With a period of two it stays. -/
theorem adx_two_aligned : Aligned 2 [moving, moving, moving] resting :=
  (adx_aligned_iff (by decide) (by simp [ClosesInside, moving, resting]; norm_num)).2
    (.inl le_rfl)

end Indicators

end TradingHub
