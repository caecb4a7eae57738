import TradingHub.Analytics.NoLookAhead

set_option autoImplicit false

/-! # The SuperTrend stop

`supertrend` of `app/analytics/indicators.py` holds one line: the lower band in an uptrend, and the
upper band in a downtrend. While the direction stays the line is combined with its last value by the
maximum or the minimum, so it is a stop that only tightens; it is given up when a close crosses it. -/

namespace TradingHub

open Library

namespace Indicators

/-- `hl2 + multiplier * a`. -/
def upperBand (multiplier : ℚ) (c : Candle) (a : ℚ) : ℚ := (c.high + c.low) / 2 + multiplier * a

/-- `hl2 - multiplier * a`. -/
def lowerBand (multiplier : ℚ) (c : Candle) (a : ℚ) : ℚ := (c.high + c.low) / 2 - multiplier * a

/-! ## One candle -/

/-- A candle `c` with the average true range `a` takes the line from `l` to `l'`, and the direction
    from `d` to `d'`. -/
structure Ratchet (multiplier : ℚ) (c : Candle) (a l : ℚ) (d : ℤ) (l' : ℚ) (d' : ℤ) : Prop where
  direction : d' = 1 ∨ d' = -1
  rises : d = 1 → d' = d → l ≤ l' ∧ l' ≤ c.close
  falls : d = -1 → d' = d → l' ≤ l ∧ c.close ≤ l'
  flipsDown : d = 1 → (d' ≠ d ↔ c.close < max (lowerBand multiplier c a) l)
  flipsUp : d = -1 → (d' ≠ d ↔ min (upperBand multiplier c a) l < c.close)

theorem supertrendNext_ratchet (multiplier : ℚ) (c : Candle) (a l : ℚ) {d : ℤ}
    (hd : d = 1 ∨ d = -1) :
    Ratchet multiplier c a l d (supertrendNext multiplier (some l, d) c a).1
      (supertrendNext multiplier (some l, d) c a).2 := by
  have hne : (-1 : ℤ) ≠ 1 := by decide
  obtain rfl | rfl := hd
  · have hnext : supertrendNext multiplier (some l, 1) c a
        = if c.close < max (lowerBand multiplier c a) l then (upperBand multiplier c a, -1)
          else (max (lowerBand multiplier c a) l, 1) := rfl
    rw [hnext]
    split
    · next hcross =>
      exact ⟨Or.inr rfl, fun _ h => absurd h hne, fun h => absurd h.symm hne,
        fun _ => iff_of_true hne hcross, fun h => absurd h.symm hne⟩
    · next hkeep =>
      exact ⟨Or.inl rfl, fun _ _ => ⟨le_max_right _ _, not_lt.1 hkeep⟩,
        fun h => absurd h.symm hne, fun _ => iff_of_false (not_not.2 rfl) hkeep,
        fun h => absurd h.symm hne⟩
  · have hnext : supertrendNext multiplier (some l, -1) c a
        = if min (upperBand multiplier c a) l < c.close then (lowerBand multiplier c a, 1)
          else (min (upperBand multiplier c a) l, -1) := rfl
    rw [hnext]
    split
    · next hcross =>
      exact ⟨Or.inl rfl, fun h => absurd h hne, fun _ h => absurd h hne.symm,
        fun h => absurd h hne, fun _ => iff_of_true hne.symm hcross⟩
    · next hkeep =>
      exact ⟨Or.inr rfl, fun h => absurd h hne, fun _ _ => ⟨min_le_right _ _, not_lt.1 hkeep⟩,
        fun h => absurd h hne, fun _ => iff_of_false (not_not.2 rfl) hkeep⟩

/-! ## The entries -/

variable {period : ℕ} {multiplier : ℚ} {candles : List Candle}

theorem supertrendState_direction (period : ℕ) (multiplier : ℚ) (p : List Candle) :
    (supertrendState period multiplier p).2 = 1 ∨ (supertrendState period multiplier p).2 = -1 := by
  induction p using List.reverseRecOn with
  | nil => exact Or.inl rfl
  | append_singleton p c ih =>
    rw [supertrendState_concat]
    cases atrAt period (p ++ [c]) with
    | none => exact ih
    | some a =>
      rcases hstate : supertrendState period multiplier p with ⟨l, d⟩
      rw [hstate] at ih
      cases l with
      | none => exact Or.inl rfl
      | some l => exact (supertrendNext_ratchet multiplier c a l ih).direction

theorem supertrendState_take (multiplier : ℚ) {i : ℕ} {a : ℚ} (hlt : i < candles.length)
    (ha : atrAt period (candles.take (i + 1)) = some a) :
    supertrendState period multiplier (candles.take (i + 1)) =
      (some (supertrendNext multiplier (supertrendState period multiplier (candles.take i))
          candles[i] a).1,
        (supertrendNext multiplier (supertrendState period multiplier (candles.take i))
          candles[i] a).2) := by
  rw [List.take_succ_eq_append_getElem hlt] at ha ⊢
  rw [supertrendState_concat, ha]

/-- At the index `i` there is an average true range `a`, and `supertrend` shows the line `l` and the
    direction `d`. -/
structure Shows (period : ℕ) (multiplier : ℚ) (candles : List Candle) (i : ℕ) (a l : ℚ) (d : ℤ) :
    Prop where
  lt : i < candles.length
  atr : atrAt period (candles.take (i + 1)) = some a
  state : supertrendState period multiplier (candles.take (i + 1)) = (some l, d)

/-- Where there is an average true range, there is a line. -/
theorem exists_shows (multiplier : ℚ) {i : ℕ} {a : ℚ} (hlt : i < candles.length)
    (ha : atrAt period (candles.take (i + 1)) = some a) :
    ∃ l d, Shows period multiplier candles i a l d :=
  ⟨_, _, hlt, ha, supertrendState_take multiplier hlt ha⟩

namespace Shows

variable {i : ℕ} {a l : ℚ} {d : ℤ}

theorem unique (h : Shows period multiplier candles i a l d) {a' l' : ℚ} {d' : ℤ}
    (h' : Shows period multiplier candles i a' l' d') : a' = a ∧ l' = l ∧ d' = d := by
  have hstate := Prod.mk.inj (h'.state.symm.trans h.state)
  exact ⟨Option.some.inj (h'.atr.symm.trans h.atr), Option.some.inj hstate.1, hstate.2⟩

theorem direction (h : Shows period multiplier candles i a l d) : d = 1 ∨ d = -1 := by
  have hdirection := supertrendState_direction period multiplier (candles.take (i + 1))
  rwa [h.state] at hdirection

/-- The next entry is there as well, and the line is ratcheted. -/
theorem succ (h : Shows period multiplier candles i a l d) {c : Candle}
    (hc : candles[i + 1]? = some c) :
    ∃ a' l' d', Shows period multiplier candles (i + 1) a' l' d' ∧
      Ratchet multiplier c a' l d l' d' := by
  obtain ⟨hlt, rfl⟩ := List.getElem?_eq_some_iff.1 hc
  have hatr : atrAt period (candles.take (i + 1 + 1)) ≠ none := by
    rw [List.take_succ_eq_append_getElem hlt]
    exact atrAt_concat _ (by rw [h.atr]; simp)
  obtain ⟨a', ha'⟩ := Option.ne_none_iff_exists'.1 hatr
  have hstate := supertrendState_take multiplier hlt ha'
  rw [h.state] at hstate
  exact ⟨a', _, _, ⟨hlt, ha', hstate⟩, supertrendNext_ratchet multiplier _ a' l h.direction⟩

/-- The line and the direction that `supertrend` returns. -/
theorem entries (h : Shows period multiplier candles i a l d) :
    (online (atrAt period) candles)[i]? = some (some a) ∧
    (online (fun p => (atrAt period p).bind fun _ => (supertrendState period multiplier p).1)
      candles)[i]? = some (some l) ∧
    (online (fun p => (atrAt period p).map fun _ => (supertrendState period multiplier p).2)
      candles)[i]? = some (some d) := by
  rw [getElem?_online, getElem?_online, getElem?_online, if_pos h.lt, if_pos h.lt, if_pos h.lt, h.atr,
    h.state]
  exact ⟨rfl, rfl, rfl⟩

end Shows

theorem exists_shows_of_atr (multiplier : ℚ) {i : ℕ} {a : ℚ}
    (h : (online (atrAt period) candles)[i]? = some (some a)) :
    ∃ l d, Shows period multiplier candles i a l d := by
  rw [getElem?_online] at h
  split at h
  · next hlt => exact exists_shows multiplier hlt (Option.some.inj h)
  · exact absurd h (by simp)

theorem exists_shows_of_direction {i : ℕ} {d : ℤ}
    (h : (online (fun p => (atrAt period p).map fun _ => (supertrendState period multiplier p).2)
      candles)[i]? = some (some d)) : ∃ a l, Shows period multiplier candles i a l d := by
  rw [getElem?_online] at h
  split at h
  · next hlt =>
    obtain ⟨a, ha, hd⟩ := Option.map_eq_some_iff.1 (Option.some.inj h)
    obtain ⟨l, d', hshows⟩ := exists_shows multiplier hlt ha
    rw [hshows.state] at hd
    obtain rfl : d' = d := hd
    exact ⟨a, l, hshows⟩
  · exact absurd h (by simp)

/-! ## The stop -/

/-- The outputs of `supertrend` as a stop: it is there where the average true range is, within a run
    of one direction it only tightens and the closes are on its side, and it is given up exactly
    where a close crosses it. -/
structure NeverLoosens (multiplier : ℚ) (candles : List Candle) (atrS lineS : List (Option ℚ))
    (direction : List (Option ℤ)) : Prop where
  defined : ∀ i : ℕ, (∃ d, direction[i]? = some (some d)) ↔ ∃ a, atrS[i]? = some (some a)
  values : ∀ (i : ℕ) d, direction[i]? = some (some d) → d = 1 ∨ d = -1
  tightens : ∀ (i j : ℕ) d, i ≤ j → (∀ k, i ≤ k → k ≤ j → direction[k]? = some (some d)) →
    ∃ l l', lineS[i]? = some (some l) ∧ lineS[j]? = some (some l') ∧
      (d = 1 → l ≤ l') ∧ (d = -1 → l' ≤ l)
  side : ∀ (i : ℕ) d c, direction[i]? = some (some d) → direction[i + 1]? = some (some d) →
    candles[i + 1]? = some c → ∃ l, lineS[i + 1]? = some (some l) ∧
      (d = 1 → l ≤ c.close) ∧ (d = -1 → c.close ≤ l)
  flips : ∀ (i : ℕ) d d' c a l, direction[i]? = some (some d) → direction[i + 1]? = some (some d') →
    candles[i + 1]? = some c → atrS[i + 1]? = some (some a) → lineS[i]? = some (some l) →
      (d = 1 → (d' ≠ d ↔ c.close < max (lowerBand multiplier c a) l)) ∧
      (d = -1 → (d' ≠ d ↔ min (upperBand multiplier c a) l < c.close))

/-- Two entries side by side. -/
theorem Shows.ratchet {i : ℕ} {a l a' l' : ℚ} {d d' : ℤ}
    (h : Shows period multiplier candles i a l d)
    (h' : Shows period multiplier candles (i + 1) a' l' d') {c : Candle}
    (hc : candles[i + 1]? = some c) : Ratchet multiplier c a' l d l' d' := by
  obtain ⟨a₁, l₁, d₁, hshows, hratchet⟩ := h.succ hc
  obtain ⟨rfl, rfl, rfl⟩ := h'.unique hshows
  exact hratchet

/-- A run of one direction, by induction on its length. -/
theorem tightens_of_run {i j : ℕ} {d : ℤ} (hij : i ≤ j)
    (hrun : ∀ k, i ≤ k → k ≤ j → ∃ a l, Shows period multiplier candles k a l d) :
    ∃ a l a' l', Shows period multiplier candles i a l d ∧ Shows period multiplier candles j a' l' d ∧
      (d = 1 → l ≤ l') ∧ (d = -1 → l' ≤ l) := by
  induction j, hij using Nat.le_induction with
  | base =>
    obtain ⟨a, l, h⟩ := hrun i le_rfl le_rfl
    exact ⟨a, l, a, l, h, h, fun _ => le_rfl, fun _ => le_rfl⟩
  | succ j hij ih =>
    obtain ⟨a, l, a₁, l₁, h, h₁, hup, hdown⟩ := ih fun k hk hkj => hrun k hk (hkj.trans (Nat.le_succ j))
    obtain ⟨a', l', h'⟩ := hrun (j + 1) (hij.trans (Nat.le_succ j)) le_rfl
    have hratchet := h₁.ratchet h' (List.getElem?_eq_getElem h'.lt)
    exact ⟨a, l, a', l', h, h', fun hd => (hup hd).trans (hratchet.rises hd rfl).1,
      fun hd => (hratchet.falls hd rfl).1.trans (hdown hd)⟩

/-- For every multiplier, the SuperTrend line is a stop that never loosens. -/
theorem supertrend_never_loosens (candles : List Candle) (period : ℕ) (hperiod : 1 ≤ period)
    (multiplier : ℚ) :
    ∃ atrS line direction, atr candles period = .ok atrS ∧
      supertrend candles period multiplier = .ok (line, direction) ∧
      NeverLoosens multiplier candles atrS line direction := by
  refine ⟨_, _, _, atr_eq candles hperiod, supertrend_eq candles hperiod multiplier, ?_⟩
  refine ⟨fun i => ⟨?_, ?_⟩, ?_, ?_, ?_, ?_⟩
  · rintro ⟨d, hd⟩
    obtain ⟨a, l, h⟩ := exists_shows_of_direction hd
    exact ⟨a, h.entries.1⟩
  · rintro ⟨a, ha⟩
    obtain ⟨l, d, h⟩ := exists_shows_of_atr multiplier ha
    exact ⟨d, h.entries.2.2⟩
  · intro i d hd
    obtain ⟨a, l, h⟩ := exists_shows_of_direction hd
    exact h.direction
  · intro i j d hij hrun
    obtain ⟨a, l, a', l', h, h', htightens⟩ := tightens_of_run hij fun k hk hkj =>
      exists_shows_of_direction (hrun k hk hkj)
    exact ⟨l, l', h.entries.2.1, h'.entries.2.1, htightens⟩
  · intro i d c hd hd' hc
    obtain ⟨a, l, h⟩ := exists_shows_of_direction hd
    obtain ⟨a', l', h'⟩ := exists_shows_of_direction hd'
    have hratchet := h.ratchet h' hc
    exact ⟨l', h'.entries.2.1, fun hd => (hratchet.rises hd rfl).2,
      fun hd => (hratchet.falls hd rfl).2⟩
  · intro i d d' c a l hd hd' hc ha hl
    obtain ⟨a₁, l₁, h⟩ := exists_shows_of_direction hd
    obtain ⟨a', l', h'⟩ := exists_shows_of_direction hd'
    obtain rfl : l₁ = l := Option.some.inj (Option.some.inj (h.entries.2.1.symm.trans hl))
    obtain rfl : a' = a := Option.some.inj (Option.some.inj (h'.entries.1.symm.trans ha))
    have hratchet := h.ratchet h' hc
    exact ⟨hratchet.flipsDown, hratchet.flipsUp⟩

/-- A stop that is tightened, crossed and turned around, and crossed again. -/
theorem supertrend_never_loosens_candles :
    let candles : List Candle := [⟨0, 10, 12, 8, 10, 1⟩, ⟨1, 10, 16, 12, 15, 1⟩,
      ⟨2, 15, 15, 9, 9, 1⟩, ⟨3, 9, 10, 6, 5, 1⟩, ⟨4, 9, 10, 6, 15, 1⟩]
    supertrend candles 1 1 = .ok ([some 6, some 8, some 8, some 12, some 3],
      [some 1, some 1, some 1, some (-1), some 1]) ∧
    ∃ atrS line direction, atr candles 1 = .ok atrS ∧
      supertrend candles 1 1 = .ok (line, direction) ∧
      NeverLoosens 1 candles atrS line direction := by
  intro candles
  exact ⟨by decide +kernel, supertrend_never_loosens candles 1 le_rfl 1⟩

end Indicators

end TradingHub
