import Mathlib.Algebra.Order.Group.Defs
import Mathlib.Algebra.Order.Ring.Int
import Mathlib.Tactic.Linarith

set_option autoImplicit false

/-! # Moments that come in bursts

A list of moments, the last one first, cut into bursts: a burst holds at most `size` moments, and
between the moments before a burst and its first one there is a gap of at least `gap`. Then any
half-open window of the length of the gap holds at most `size` of the moments. -/

namespace Library

variable {K : Type} [AddCommGroup K] [LinearOrder K]

/-- The moments come in bursts, with `k` of them in the last burst. -/
inductive Bursts (gap : K) (size : ℤ) : List K → ℤ → Prop
  | nil : Bursts gap size [] 0
  | extend {moments : List K} {k : ℤ} {m : K} (h : Bursts gap size moments k)
      (hsize : k + 1 ≤ size) (hlast : ∀ m' ∈ moments, m' ≤ m) :
      Bursts gap size (m :: moments) (k + 1)
  | start {moments : List K} {k : ℤ} {m : K} (h : Bursts gap size moments k) (hsize : 1 ≤ size)
      (hgap : ∀ m' ∈ moments, m' + gap ≤ m) : Bursts gap size (m :: moments) 1

/-- The moment is in the half-open window of length `gap` from `a` on. -/
def inWindow (a gap m : K) : Bool := a ≤ m ∧ m < a + gap

/-- The moment is in the window of length `gap` after `a`, its end included. -/
def inWindowAfter (a gap m : K) : Bool := a < m ∧ m ≤ a + gap

/-- A stretch of time in which no two moments are a gap apart. -/
structure Stretch (gap : K) (w : K → Bool) : Prop where
  convex : ∀ {m m' m'' : K}, m ≤ m' → m' ≤ m'' → w m = true → w m'' = true → w m' = true
  short : ∀ {m m' : K}, w m = true → w m' = true → m' < m + gap

theorem stretch_inWindow [IsOrderedAddMonoid K] (a gap : K) : Stretch gap (inWindow a gap) := by
  constructor
  · intro m m' m'' hle hle' h h''
    exact decide_eq_true ⟨(of_decide_eq_true h).1.trans hle, hle'.trans_lt (of_decide_eq_true h'').2⟩
  · intro m m' h h'
    exact (of_decide_eq_true h').2.trans_le (add_le_add_left (of_decide_eq_true h).1 gap)

theorem stretch_inWindowAfter [IsOrderedAddMonoid K] (a gap : K) :
    Stretch gap (inWindowAfter a gap) := by
  constructor
  · intro m m' m'' hle hle' h h''
    exact decide_eq_true ⟨(of_decide_eq_true h).1.trans_le hle, hle'.trans (of_decide_eq_true h'').2⟩
  · intro m m' h h'
    exact (of_decide_eq_true h').2.trans_lt (add_lt_add_left (of_decide_eq_true h).1 gap)

namespace Bursts

variable [IsOrderedAddMonoid K] {gap : K} {size : ℤ} {moments : List K} {k : ℤ}

omit [IsOrderedAddMonoid K] in
theorem le_size (h : Bursts gap size moments k) (hsize : 0 ≤ size) : k ≤ size := by
  cases h with
  | nil => exact hsize
  | extend _ hle _ => exact hle
  | start _ hle _ => exact hle

omit [IsOrderedAddMonoid K] in
theorem nonneg (h : Bursts gap size moments k) : 0 ≤ k := by
  induction h with
  | nil => exact le_rfl
  | extend _ _ _ ih => omega
  | start _ _ _ _ => omega

omit [IsOrderedAddMonoid K] in
/-- The moments from which on there is no gap are in the last burst. -/
theorem countP_le (h : Bursts gap size moments k) {w : K → Bool}
    (hw : ∀ m ∈ moments, w m = true → ∀ m' ∈ moments, m' < m + gap) :
    (moments.countP w : ℤ) ≤ k := by
  induction h with
  | nil => simp
  | @extend moments k m h hsize hle ih =>
    have hcount := ih fun m' hm' hwm m'' hm'' => hw m' (by simp [hm']) hwm m'' (by simp [hm''])
    rw [List.countP_cons]
    split
    · push_cast
      omega
    · push_cast
      omega
  | @start moments k m h hsize hgap ih =>
    -- The moments before the last burst are a gap earlier than its first one.
    have hzero : moments.countP w = 0 := by
      rw [List.countP_eq_zero]
      intro m' hm' hwm
      exact absurd (hw m' (by simp [hm']) hwm m (by simp)) (not_lt.2 (hgap m' hm'))
    rw [List.countP_cons, hzero]
    split
    · simp
    · simp

/-- The moments before the last one are bursts, of moments that are not later. -/
theorem tail {m : K} (h : Bursts gap size (m :: moments) k) (hgap : 0 ≤ gap) :
    (∃ k', Bursts gap size moments k') ∧ ∀ m' ∈ moments, m' ≤ m := by
  cases h with
  | extend h _ hlast => exact ⟨⟨_, h⟩, hlast⟩
  | start h _ hearly =>
    exact ⟨⟨_, h⟩, fun m' hm' => (le_add_of_nonneg_right hgap).trans (hearly m' hm')⟩

/-- A stretch holds at most `size` moments. -/
theorem countP_stretch_le (hgap : 0 ≤ gap) (hsize : 0 ≤ size) {w : K → Bool} (hw : Stretch gap w) :
    ∀ {moments : List K} {k : ℤ}, Bursts gap size moments k →
      (moments.countP w : ℤ) ≤ size := by
  intro moments
  induction moments with
  | nil => intro k _; simpa using hsize
  | cons m moments ih =>
    intro k h
    obtain ⟨⟨k', h'⟩, hle⟩ := h.tail hgap
    cases hm : w m with
    | true =>
      -- The last moment is in the stretch, and so no moment is a gap after one in the stretch.
      refine (h.countP_le fun m' _ hwm m'' hm'' => ?_).trans (h.le_size hsize)
      have hlast : m < m' + gap := hw.short hwm hm
      rcases List.mem_cons.1 hm'' with rfl | hm''
      · exact hlast
      · exact (hle m'' hm'').trans_lt hlast
    | false =>
      rw [List.countP_cons, if_neg (by simp [hm])]
      simpa using ih h'

/-- A window of the length of the gap holds at most `size` moments. -/
theorem countP_inWindow_le (hgap : 0 ≤ gap) (hsize : 0 ≤ size) (a : K)
    (h : Bursts gap size moments k) : (moments.countP (inWindow a gap) : ℤ) ≤ size :=
  h.countP_stretch_le hgap hsize (stretch_inWindow a gap)

end Bursts

end Library
