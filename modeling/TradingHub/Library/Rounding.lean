import Mathlib.Algebra.Order.Round
import Mathlib.Algebra.Order.Field.Basic

set_option autoImplicit false

/-! # Fixed-point rounding

Values kept as multiples of `1 / scale`, as a decimal column keeps them. `roundAway` rounds to the
nearest multiple and breaks ties away from zero; `roundToward` breaks the ties of a value that is
not negative toward zero.

The two meet when something is taken off a kept value: a sum rounds what was added up at a tie
(`roundAway_add`), a difference rounds what was taken off down (`roundAway_sub`). So adding `q` and
taking `q` off again does not always lead back. -/

namespace Library

variable {K : Type} [Field K]

/-- `q` is a multiple of `1 / scale`. -/
def OnGrid (scale : ℕ) (q : K) : Prop := ∃ k : ℤ, q * scale = k

theorem onGrid_zero {scale : ℕ} : OnGrid scale (0 : K) := ⟨0, by simp⟩

variable [LinearOrder K] [FloorRing K]

/-- The multiple of `1 / scale` nearest to `q`, ties away from zero. -/
def roundAway (scale : ℕ) (q : K) : K :=
  ((if 0 ≤ q then round (q * scale) else -round (-(q * scale)) : ℤ) : K) / scale

/-- The multiple of `1 / scale` nearest to `q`, ties toward zero if `q` is not negative. -/
def roundToward (scale : ℕ) (q : K) : K := ((-round (-(q * scale)) : ℤ) : K) / scale

variable {scale : ℕ} {q u : K}

theorem roundAway_of_nonneg (h : 0 ≤ q) : roundAway scale q = (round (q * scale) : K) / scale := by
  rw [roundAway, if_pos h]

theorem onGrid_roundAway [CharZero K] (hs : 0 < scale) : OnGrid scale (roundAway scale q) :=
  ⟨_, div_mul_cancel₀ _ (Nat.cast_ne_zero.2 hs.ne')⟩

variable [IsStrictOrderedRing K]

/-- A kept value is kept as it is. -/
theorem roundAway_of_onGrid (hs : 0 < scale) (h : OnGrid scale q) : roundAway scale q = q := by
  have hne : (scale : K) ≠ 0 := Nat.cast_ne_zero.2 hs.ne'
  obtain ⟨k, hk⟩ := h
  rw [roundAway, hk, ← Int.cast_neg, round_intCast, round_intCast, neg_neg, ite_self, ← hk,
    mul_div_cancel_right₀ _ hne]

theorem roundToward_of_onGrid (hs : 0 < scale) (h : OnGrid scale q) : roundToward scale q = q := by
  have hne : (scale : K) ≠ 0 := Nat.cast_ne_zero.2 hs.ne'
  obtain ⟨k, hk⟩ := h
  rw [roundToward, hk, ← Int.cast_neg, round_intCast, neg_neg, ← hk, mul_div_cancel_right₀ _ hne]

@[simp] theorem roundAway_zero : roundAway scale (0 : K) = 0 := by
  simp [roundAway]

@[simp] theorem roundToward_zero : roundToward scale (0 : K) = 0 := by
  simp [roundToward]

theorem round_mono {x y : K} (h : x ≤ y) : round x ≤ round y := by
  rw [round_eq, round_eq]
  exact Int.floor_mono (add_le_add_left h _)

theorem roundAway_nonneg (h : 0 ≤ q) : 0 ≤ roundAway scale q := by
  have hround : 0 ≤ round (q * scale) := by
    rw [← round_zero (α := K)]
    exact round_mono (mul_nonneg h (Nat.cast_nonneg _))
  rw [roundAway_of_nonneg h]
  exact div_nonneg (Int.cast_nonneg hround) (Nat.cast_nonneg _)

theorem roundToward_mono {q' : K} (h : q ≤ q') : roundToward scale q ≤ roundToward scale q' := by
  have hround : round (-(q' * scale)) ≤ round (-(q * scale)) :=
    round_mono (neg_le_neg (mul_le_mul_of_nonneg_right h (Nat.cast_nonneg _)))
  exact div_le_div_of_nonneg_right (Int.cast_le.2 (neg_le_neg hround)) (Nat.cast_nonneg _)

theorem roundToward_nonneg (h : 0 ≤ q) : 0 ≤ roundToward scale q := by
  calc (0 : K) = roundToward scale 0 := roundToward_zero.symm
    _ ≤ roundToward scale q := roundToward_mono h

/-- Adding to a kept value: the sum rounds as what is added. -/
theorem roundAway_add (hs : 0 < scale) (hu : OnGrid scale u) (hu0 : 0 ≤ u) (hq : 0 ≤ q) :
    roundAway scale (u + q) = u + roundAway scale q := by
  have hne : (scale : K) ≠ 0 := Nat.cast_ne_zero.2 hs.ne'
  obtain ⟨k, hk⟩ := hu
  rw [roundAway_of_nonneg (add_nonneg hu0 hq), roundAway_of_nonneg hq, add_mul, hk,
    round_intCast_add, Int.cast_add, add_div, ← hk, mul_div_cancel_right₀ _ hne]

/-- Taking from a kept value: a tie of the difference is the other tie of what is taken. -/
theorem roundAway_sub (hs : 0 < scale) (hu : OnGrid scale u) (hq : q ≤ u) :
    roundAway scale (u - q) = u - roundToward scale q := by
  have hne : (scale : K) ≠ 0 := Nat.cast_ne_zero.2 hs.ne'
  obtain ⟨k, hk⟩ := hu
  rw [roundAway_of_nonneg (sub_nonneg.2 hq), sub_mul, hk, sub_eq_add_neg, round_intCast_add,
    Int.cast_add, add_div, ← hk, mul_div_cancel_right₀ _ hne, roundToward, Int.cast_neg, neg_div,
    sub_neg_eq_add]

/-- A value that covers a kept one still covers it after rounding, whichever way. -/
theorem roundAway_le_roundToward {q' : K} (hs : 0 < scale) (h : roundAway scale q ≤ q') :
    roundAway scale q ≤ roundToward scale q' := by
  rw [← roundToward_of_onGrid hs (onGrid_roundAway (q := q) hs)]
  exact roundToward_mono h

end Library
