import Mathlib.Algebra.Order.Field.Power
import Mathlib.Data.Int.Log
import Mathlib.Data.Rat.Floor
import Mathlib.Tactic.Linarith
import Mathlib.Tactic.NormNum

set_option autoImplicit false

/-! # Decimal arithmetic

Decimal arithmetic carries every operation out exactly and then fixes the result: one that has more
digits than the context keeps is rounded to the nearest number that has not, and at a tie to the one
whose last digit is even (`fixDigits`).

A program is written against a `DecimalContext`, the map that fixes results with the few laws that
hold whatever the precision is. `DecimalContext.exact` keeps all digits; it is the context where
none is named. -/

namespace Library

/-! ## Rounding half to even -/

section Rounding

variable {K : Type} [Field K] [LinearOrder K] [FloorRing K]

/-- The integer nearest to `q`, at a tie the even one. -/
def roundHalfEven (q : K) : ℤ :=
  if Int.fract q < 1 - Int.fract q ∨ Int.fract q = 1 - Int.fract q ∧ Even ⌊q⌋ then ⌊q⌋
  else ⌊q⌋ + 1

/-- The place of the last digit that is kept of `q`: with the first place that is not zero there
    are `precision` of them, but none is below the place `tiny`. -/
def lastPlace (precision : ℕ) (tiny : ℤ) (q : K) : ℤ :=
  max (Int.log 10 |q| + 1 - precision) tiny

/-- The number nearest to `q` with the digits that are kept. -/
def fixDigits (precision : ℕ) (tiny : ℤ) (q : K) : K :=
  roundHalfEven (q / 10 ^ lastPlace precision tiny q) * 10 ^ lastPlace precision tiny q

variable {precision : ℕ} {tiny k n : ℤ} {q : K}

theorem floor_le_roundHalfEven : ⌊q⌋ ≤ roundHalfEven q := by
  unfold roundHalfEven
  split <;> omega

theorem roundHalfEven_nonneg (h : 0 ≤ q) : 0 ≤ roundHalfEven q :=
  (Int.floor_nonneg.2 h).trans floor_le_roundHalfEven

variable [IsStrictOrderedRing K]

theorem roundHalfEven_le_ceil : roundHalfEven q ≤ ⌈q⌉ := by
  unfold roundHalfEven
  split
  · exact Int.floor_le_ceil q
  · next h =>
    obtain ⟨hhalf, -⟩ := not_or.1 h
    have hfract : 0 < Int.fract q := by linarith [not_lt.1 hhalf]
    exact Int.add_one_le_iff.2 (Int.lt_ceil.2 (by linarith [Int.self_sub_floor q]))

@[simp] theorem roundHalfEven_intCast (n : ℤ) : roundHalfEven (n : K) = n := by
  simp [roundHalfEven]

/-- Rounding does not leave the bounds that are integers. -/
theorem abs_roundHalfEven_le (h : |q| ≤ n) : |roundHalfEven q| ≤ n := by
  obtain ⟨hlower, hupper⟩ := abs_le.1 h
  refine abs_le.2 ⟨?_, roundHalfEven_le_ceil.trans (Int.ceil_le.2 hupper)⟩
  exact (Int.le_floor.2 (by rwa [Int.cast_neg])).trans floor_le_roundHalfEven

/-! ## Keeping some digits -/

/-- A number whose digits end at a place that is kept is kept as it is. -/
theorem fixDigits_of_place (hk : lastPlace precision tiny q ≤ k) (hq : q = n * 10 ^ k) :
    fixDigits precision tiny q = q := by
  have hten : (10 : K) ≠ 0 := by norm_num
  obtain ⟨d, hd⟩ := Int.eq_ofNat_of_zero_le (sub_nonneg.2 hk)
  have hint : q / 10 ^ lastPlace precision tiny q = ((n * 10 ^ d : ℤ) : K) := by
    rw [div_eq_iff (zpow_ne_zero _ hten), Int.cast_mul, Int.cast_pow, Int.cast_ofNat,
      ← zpow_natCast, mul_assoc, ← zpow_add₀ hten, ← hd, Int.sub_add_cancel]
    exact hq
  rw [fixDigits, hint, roundHalfEven_intCast, ← hint, div_mul_cancel₀ _ (zpow_ne_zero _ hten)]

@[simp] theorem fixDigits_zero : fixDigits precision tiny (0 : K) = 0 := by
  rw [fixDigits, zero_div, ← Int.cast_zero, roundHalfEven_intCast, Int.cast_zero, zero_mul]

theorem fixDigits_one (hprecision : 0 < precision) (htiny : tiny ≤ 0) :
    fixDigits precision tiny (1 : K) = 1 := by
  refine fixDigits_of_place (k := 0) (n := 1) ?_ (by simp)
  rw [lastPlace, abs_one, Int.log_one_right]
  omega

theorem fixDigits_nonneg (h : 0 ≤ q) : 0 ≤ fixDigits precision tiny q :=
  mul_nonneg (Int.cast_nonneg (roundHalfEven_nonneg (div_nonneg h (zpow_nonneg (by norm_num) _))))
    (zpow_nonneg (by norm_num) _)

/-- A number has at most `precision` digits above its last place. -/
theorem abs_div_place_le : |q / 10 ^ lastPlace precision tiny q| ≤ ((10 ^ precision : ℤ) : K) := by
  have hpos : (0 : K) < 10 ^ lastPlace precision tiny q := zpow_pos (by norm_num) _
  have hlog : |q| < (10 : K) ^ (Int.log 10 |q| + 1) := by
    exact_mod_cast Int.lt_zpow_succ_log_self (b := 10) (by norm_num) |q|
  have hplace : Int.log 10 |q| + 1 ≤ precision + lastPlace precision tiny q := by
    rw [lastPlace]
    omega
  rw [abs_div, abs_of_pos hpos, div_le_iff₀ hpos]
  calc |q| ≤ (10 : K) ^ (Int.log 10 |q| + 1) := hlog.le
    _ ≤ 10 ^ ((precision : ℤ) + lastPlace precision tiny q) :=
        zpow_le_zpow_right₀ (by norm_num) hplace
    _ = ((10 ^ precision : ℤ) : K) * 10 ^ lastPlace precision tiny q := by
        rw [zpow_add₀ (by norm_num), zpow_natCast, Int.cast_pow, Int.cast_ofNat]

/-- What is kept is kept as it is: it has no more digits, unless the rounding has carried to one
    more place, and then the last place is a zero. -/
theorem fixDigits_fixDigits (hprecision : 0 < precision) :
    fixDigits precision tiny (fixDigits precision tiny q) = fixDigits precision tiny q := by
  have hten : (10 : K) ≠ 0 := by norm_num
  set e := lastPlace precision tiny q with he
  set m := roundHalfEven (q / 10 ^ e) with hm
  have hfix : fixDigits precision tiny q = m * 10 ^ e := rfl
  have htiny : tiny ≤ e := le_max_right _ _
  have hplace : (0 : K) < 10 ^ e := zpow_pos (by norm_num) e
  have hbound : |m| ≤ 10 ^ precision := abs_roundHalfEven_le abs_div_place_le
  have habs : |fixDigits precision tiny q| = (|m| : ℤ) * 10 ^ e := by
    rw [hfix, abs_mul, Int.cast_abs, abs_of_pos hplace]
  rcases eq_or_ne m 0 with hzero | hnonzero
  · rw [hfix, hzero, Int.cast_zero, zero_mul, fixDigits_zero]
  rcases hbound.lt_or_eq with hlt | hcarry
  · -- No more digits than before.
    refine fixDigits_of_place (k := e) (n := m) (max_le ?_ htiny) hfix
    have hpos : 0 < |fixDigits precision tiny q| := by
      rw [habs]
      exact mul_pos (Int.cast_pos.2 (abs_pos.2 hnonzero)) hplace
    have hlog : Int.log 10 |fixDigits precision tiny q| < precision + e := by
      refine (Int.lt_zpow_iff_log_lt (b := 10) (by norm_num) hpos).1 ?_
      rw [habs, Nat.cast_ofNat, zpow_add₀ hten, zpow_natCast]
      refine mul_lt_mul_of_pos_right ?_ hplace
      exact_mod_cast hlt
    omega
  · -- The digits are a one and zeros.
    have hlog : Int.log 10 |fixDigits precision tiny q| = precision + e := by
      rw [habs, hcarry, Int.cast_pow, Int.cast_ofNat, ← zpow_natCast, ← zpow_add₀ hten]
      exact_mod_cast Int.log_zpow (R := K) (b := 10) (by norm_num) (precision + e)
    obtain ⟨d, rfl⟩ : ∃ d, precision = d + 1 := ⟨precision - 1, by omega⟩
    by_cases hlast : lastPlace (d + 1) tiny (fixDigits (d + 1) tiny q) ≤ e
    · exact fixDigits_of_place hlast hfix
    · refine fixDigits_of_place (k := e + 1) (n := m.sign * 10 ^ d) ?_ ?_
      · rw [lastPlace, hlog]
        omega
      · have hsign : (m : K) = (m.sign * 10 ^ d : ℤ) * 10 := by
          have hint : m = m.sign * 10 ^ d * 10 := by
            rw [mul_assoc, ← pow_succ, ← hcarry, Int.sign_mul_abs]
          exact_mod_cast congrArg (Int.cast : ℤ → K) hint
        rw [hfix, hsign, zpow_add_one₀ hten]
        ring

end Rounding

/-! ## Contexts -/

/-- How the results of decimal arithmetic are fixed. -/
class DecimalContext where
  fix : ℚ → ℚ
  fix_zero : fix 0 = 0
  fix_one : fix 1 = 1
  fix_nonneg : ∀ {q : ℚ}, 0 ≤ q → 0 ≤ fix q
  fix_fix : ∀ q : ℚ, fix (fix q) = fix q

namespace DecimalContext

attribute [simp] fix_zero fix_one fix_fix

/-- Arithmetic that keeps all digits. -/
instance exact : DecimalContext where
  fix q := q
  fix_zero := rfl
  fix_one := rfl
  fix_nonneg h := h
  fix_fix _ := rfl

@[simp] theorem fix_exact (q : ℚ) : @fix exact q = q := rfl

/-- Arithmetic that keeps `precision` digits, and none below the place `tiny`. -/
@[reducible] def ofPrecision (precision : ℕ) (tiny : ℤ) (hprecision : 0 < precision)
    (htiny : tiny ≤ 0) : DecimalContext where
  fix := fixDigits precision tiny
  fix_zero := fixDigits_zero
  fix_one := fixDigits_one hprecision htiny
  fix_nonneg := fixDigits_nonneg
  fix_fix _ := fixDigits_fixDigits hprecision

end DecimalContext

end Library
