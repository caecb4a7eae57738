import Mathlib.Algebra.Field.Defs
import Mathlib.Data.List.GetD
import Mathlib.Data.List.Induction
import Mathlib.Data.List.ReduceOption
import Mathlib.Data.Nat.Init
import Mathlib.Data.Option.NAry
import Mathlib.Tactic.Common

set_option autoImplicit false

/-! # Series computed entry by entry

A transformation of series that can be charted live: one output for each input, missing outputs
only at the start, and an output that later inputs do not change.

* `loop_getElem?` is the rule for a loop that walks over the indices of a series with a running
  state and writes one entry of a preallocated list at each.
* `online g` applies `g` to the prefixes of a series. A transformation that equals some `online g`
  cannot look ahead.
* `Stable` is the property itself, with the rules by which transformations are put together:
  `online`, two outputs combined entry by entry, and a transformation applied to the entries of a
  series that are there (`Stable.place`). -/

namespace Library

/-- The entries of a numerical series are numbers of a field. -/
abbrev Scalar (K : Type) := Field K

variable {α β γ δ σ τ : Type}

/-! ## Loops over indices -/

/-- `for i in range(a, b): t = body(t, i)`. -/
def forRange (a b : ℕ) (t : τ) (body : τ → ℕ → τ) : τ := (List.range' a (b - a)).foldl body t

/-- The same with a body that can raise. -/
def forRangeM {ε : Type} (a b : ℕ) (t : τ) (body : τ → ℕ → Except ε τ) : Except ε τ :=
  (List.range' a (b - a)).foldlM body t

/-- A body that returns at every index of the range, as long as it keeps `I`. -/
theorem forRangeM_eq_ok_of_invariant {ε : Type} {a b : ℕ} {body : τ → ℕ → Except ε τ}
    (body' : τ → ℕ → τ) (I : τ → Prop) (hkept : ∀ i, a ≤ i → i < b → ∀ t, I t → I (body' t i))
    (h : ∀ i, a ≤ i → i < b → ∀ t, I t → body t i = .ok (body' t i)) {t : τ} (ht : I t) :
    forRangeM a b t body = .ok (forRange a b t body') := by
  unfold forRangeM forRange
  have hmem : ∀ i ∈ List.range' a (b - a), ∀ t, I t → I (body' t i) ∧ body t i = .ok (body' t i) := by
    intro i hi t ht
    have hi := List.mem_range'_1.1 hi
    exact ⟨hkept i hi.1 (by omega) t ht, h i hi.1 (by omega) t ht⟩
  generalize List.range' a (b - a) = is at hmem ⊢
  induction is generalizing t with
  | nil => rfl
  | cons i is ih =>
    obtain ⟨hnext, hok⟩ := hmem i (by simp) t ht
    rw [List.foldlM_cons, hok, List.foldl_cons]
    exact ih hnext fun j hj => hmem j (List.mem_cons_of_mem i hj)

/-- A body that returns at every index of the range. -/
theorem forRangeM_eq_ok {ε : Type} {a b : ℕ} {body : τ → ℕ → Except ε τ} (body' : τ → ℕ → τ)
    (h : ∀ i, a ≤ i → i < b → ∀ t, body t i = .ok (body' t i)) (t : τ) :
    forRangeM a b t body = .ok (forRange a b t body') :=
  forRangeM_eq_ok_of_invariant body' (fun _ => True) (fun _ _ _ _ _ => trivial)
    (fun i hi hlt t _ => h i hi hlt t) trivial

theorem forRange_succ {a b : ℕ} (h : a ≤ b) (t : τ) (body : τ → ℕ → τ) :
    forRange a (b + 1) t body = body (forRange a b t body) b := by
  unfold forRange
  rw [show b + 1 - a = (b - a) + 1 by omega, List.range'_1_concat, List.foldl_append,
    show a + (b - a) = b by omega]
  rfl

/-- A part of what the loop carries that does not read the rest. -/
theorem forRange_part {body : τ → ℕ → τ} (core : τ → σ) (step : σ → ℕ → σ)
    (hcore : ∀ t i, core (body t i) = step (core t) i) (a b : ℕ) (t : τ) :
    core (forRange a b t body) = forRange a b (core t) step := by
  unfold forRange
  induction List.range' a (b - a) generalizing t with
  | nil => rfl
  | cons i is ih => rw [List.foldl_cons, ih, hcore, List.foldl_cons]

/-- A loop whose body keeps a state, by `step`, and writes the entry `emit` at the index, where the
    entries are blank before it is there: what each entry is in the end. The state and the list are
    parts of what the loop carries. -/
theorem loop_getElem? {body : τ → ℕ → τ} (core : τ → σ) (out : τ → List β) (step : σ → ℕ → σ)
    (emit : σ → ℕ → β) (blank : β) (hcore : ∀ t i, core (body t i) = step (core t) i)
    (hout : ∀ t i, (out t)[i]? = some blank → out (body t i) = (out t).set i (emit (core t) i))
    {a : ℕ} {t : τ} : ∀ b, a ≤ b → (∀ i, a ≤ i → i < b → (out t)[i]? = some blank) →
      ∀ j, (out (forRange a b t body))[j]? =
        if a ≤ j ∧ j < b then some (emit (forRange a j (core t) step) j) else (out t)[j]? := by
  intro b hb
  induction b, hb using Nat.le_induction with
  | base =>
    intro _
    simp only [forRange, Nat.sub_self, List.range'_zero, List.foldl_nil]
    exact fun j => (if_neg (by omega)).symm
  | succ b hb ih =>
    intro hblank j
    have hentries := ih fun i hi hi' => hblank i hi (by omega)
    have hfree : (out (forRange a b t body))[b]? = some blank := by
      rw [hentries b, if_neg (by omega)]
      exact hblank b hb (by omega)
    rw [forRange_succ hb, hout _ _ hfree, List.getElem?_set, forRange_part core step hcore]
    by_cases hj : b = j
    · subst hj
      rw [if_pos rfl, if_pos (List.getElem?_eq_some_iff.1 hfree).1, if_pos ⟨hb, by omega⟩]
    · rw [if_neg hj, hentries j]
      refine if_congr ?_ rfl rfl
      omega

/-- A state that takes in the entries of a list, index by index. -/
theorem forRange_eq_foldl {f : σ → α → σ} {xs : List α} (d : α) {a b : ℕ} (hb : b ≤ xs.length)
    (s : σ) : forRange a b s (fun s i => f s (xs.getD i d)) = ((xs.take b).drop a).foldl f s := by
  by_cases hab : a ≤ b
  · induction b, hab using Nat.le_induction with
    | base => simp [forRange]
    | succ b hab ih =>
      have hlt : b < xs.length := hb
      rw [forRange_succ hab, ih (by omega), List.take_add_one, List.getElem?_eq_getElem hlt,
        Option.toList_some, List.drop_append_of_le_length (by rw [List.length_take]; omega),
        List.foldl_append, List.getD_eq_getElem _ _ hlt]
      rfl
  · simp only [forRange, show b - a = 0 by omega, List.range'_zero, List.foldl_nil]
    rw [List.drop_eq_nil_of_le (by rw [List.length_take]; omega), List.foldl_nil]

theorem forRange_congr {a b : ℕ} {body body' : τ → ℕ → τ}
    (h : ∀ i, a ≤ i → i < b → ∀ t, body t i = body' t i) (t : τ) :
    forRange a b t body = forRange a b t body' := by
  have hok : forRangeM (ε := Empty) a b t (fun t i => .ok (body t i)) = .ok (forRange a b t body) :=
    forRangeM_eq_ok body (fun _ _ _ _ => rfl) t
  rw [forRangeM_eq_ok body' fun i hi hi' t => congrArg _ (h i hi hi' t)] at hok
  exact (Except.ok.inj hok).symm

/-- A state of two parts that do not read each other. -/
theorem forRange_prod {a b : ℕ} (s : σ) (t : τ) (f : σ → ℕ → σ) (g : τ → ℕ → τ) :
    forRange a b (s, t) (fun p i => (f p.1 i, g p.2 i)) = (forRange a b s f, forRange a b t g) := by
  unfold forRange
  induction List.range' a (b - a) generalizing s t with
  | nil => rfl
  | cons i is ih => exact ih (f s i) (g t i)

/-- A loop that writes the entries of a list of gaps from index `offset` on. -/
theorem placed_eq (offset : ℕ) {body : τ → ℕ → τ} (out : τ → List (Option β)) (emit : ℕ → Option β)
    {n : ℕ} {t : τ} (hout : ∀ t j, (out t)[offset + j]? = some none →
      out (body t j) = (out t).set (offset + j) (emit j))
    (ht : out t = List.replicate (offset + n) none) :
    out (forRange 0 n t body) = List.replicate offset none ++ (List.range n).map emit := by
  have hprefix : ∀ k, k ≤ n → out (forRange 0 k t body) = List.replicate offset none
      ++ ((List.range k).map emit ++ List.replicate (n - k) none) := by
    intro k
    induction k with
    | zero =>
      intro _
      rw [List.range_zero, List.map_nil, List.nil_append, List.replicate_append_replicate]
      exact ht
    | succ k ih =>
      intro hk
      have hwritten := ih (by omega)
      rw [show n - k = n - (k + 1) + 1 by omega, List.replicate_succ] at hwritten
      have hfree : (out (forRange 0 k t body))[offset + k]? = some none := by
        rw [hwritten, List.getElem?_append_right (by simp), List.length_replicate,
          Nat.add_sub_cancel_left, List.getElem?_append_right (by simp), List.length_map,
          List.length_range, Nat.sub_self, List.getElem?_cons_zero]
      rw [forRange_succ (Nat.zero_le k), hout _ _ hfree, hwritten,
        List.set_append_right _ _ (by simp), List.length_replicate, Nat.add_sub_cancel_left,
        List.set_append_right _ _ (by simp), List.length_map, List.length_range, Nat.sub_self,
        List.set_cons_zero, List.range_succ, List.map_append, List.append_assoc]
      rfl
  have hall := hprefix n (Nat.le_refl n)
  rwa [Nat.sub_self, List.replicate_zero, List.append_nil] at hall

theorem map_getD_range (xs : List α) (d : α) :
    (List.range xs.length).map (fun i => xs.getD i d) = xs := by
  refine List.ext_getElem? fun i => ?_
  rw [List.getElem?_map]
  by_cases hi : i < xs.length
  · rw [List.getElem?_range hi, Option.map_some, List.getD_eq_getElem _ _ hi,
      List.getElem?_eq_getElem hi]
  · rw [List.getElem?_eq_none (by simpa using hi), List.getElem?_eq_none (by omega), Option.map_none]

theorem set_getElem?_self {xs : List α} {i : ℕ} {a : α} (h : xs[i]? = some a) : xs.set i a = xs := by
  refine List.ext_getElem? fun j => ?_
  rw [List.getElem?_set]
  split
  · next hij =>
    subst hij
    rw [if_pos (List.getElem?_eq_some_iff.1 h).1, h]
  · rfl

theorem getD_take_succ (xs : List α) {i j : ℕ} (hj : j ≤ i) (d : α) :
    (xs.take (i + 1)).getD j d = xs.getD j d := by
  rw [List.getD_eq_getElem?_getD, List.getD_eq_getElem?_getD, List.getElem?_take_of_lt (by omega)]

/-- `xs[a:b]`. -/
def slice (xs : List α) (a b : ℕ) : List α := (xs.take b).drop a

/-! ## Online transformations -/

/-- The value of `g` on every prefix. -/
def online (g : List α → β) (xs : List α) : List β :=
  (List.range xs.length).map fun i => g (xs.take (i + 1))

@[simp] theorem length_online (g : List α → β) (xs : List α) :
    (online g xs).length = xs.length := by
  simp [online]

theorem length_reduceOption_online (g : List α → Option β) (xs : List α) :
    (online g xs).reduceOption.length ≤ xs.length := by
  have h := List.reduceOption_length_le (online g xs)
  rwa [length_online] at h

theorem getElem?_online (g : List α → β) (xs : List α) (i : ℕ) :
    (online g xs)[i]? = if i < xs.length then some (g (xs.take (i + 1))) else none := by
  unfold online
  rw [List.getElem?_map]
  by_cases hi : i < xs.length
  · rw [List.getElem?_range hi, if_pos hi, Option.map_some]
  · rw [if_neg hi, List.getElem?_eq_none (by simpa using hi), Option.map_none]

/-- A loop that writes an entry at every index of a series, or leaves the gap that is there. -/
theorem loop_eq_online (xs : List α) {body : τ → ℕ → τ} (core : τ → σ) (out : τ → List (Option β))
    (step : σ → ℕ → σ) (emit : σ → ℕ → Option β) {g : List α → Option β} {t : τ}
    (hcore : ∀ t i, core (body t i) = step (core t) i)
    (hout : ∀ t i, (out t)[i]? = some none → out (body t i) = (out t).set i (emit (core t) i))
    (ht : out t = List.replicate xs.length none)
    (hg : ∀ i, i < xs.length → emit (forRange 0 i (core t) step) i = g (xs.take (i + 1))) :
    out (forRange 0 xs.length t body) = online g xs := by
  have hentries := loop_getElem? core out step emit none hcore hout xs.length (Nat.zero_le _)
    fun i _ hi => by rw [ht, List.getElem?_replicate, if_pos hi]
  refine List.ext_getElem? fun i => ?_
  rw [hentries i, getElem?_online, ht]
  by_cases hi : i < xs.length
  · rw [if_pos ⟨Nat.zero_le i, hi⟩, if_pos hi, hg i hi]
  · rw [if_neg (by omega), if_neg hi, List.getElem?_replicate, if_neg hi]

/-- A list with the entries of an online transformation. -/
theorem eq_online {g : List α → β} {xs : List α} {out : List β} (hlen : out.length = xs.length)
    (h : ∀ i, i < xs.length → out[i]? = some (g (xs.take (i + 1)))) : out = online g xs := by
  refine List.ext_getElem? fun i => ?_
  rw [getElem?_online]
  by_cases hi : i < xs.length
  · rw [h i hi, if_pos hi]
  · rw [if_neg hi, List.getElem?_eq_none (by omega)]

theorem take_online (g : List α → β) (xs ys : List α) :
    (online g (xs ++ ys)).take xs.length = online g xs := by
  refine eq_online (by simp) fun i hi => ?_
  rw [List.getElem?_take_of_lt hi, getElem?_online, if_pos (by simp; omega),
    List.take_append_of_le_length (by omega)]

theorem online_take (g : List α → β) (xs : List α) (n : ℕ) :
    online g (xs.take n) = (online g xs).take n := by
  by_cases hn : n ≤ xs.length
  · have htake := take_online g (xs.take n) (xs.drop n)
    rw [List.take_append_drop, List.length_take, Nat.min_eq_left hn] at htake
    exact htake.symm
  · rw [List.take_of_length_le (by omega), List.take_of_length_le (by rw [length_online]; omega)]

/-- One online transformation after another. -/
theorem online_online (g : List β → γ) (h : List α → β) (xs : List α) :
    online g (online h xs) = online (fun p => g (online h p)) xs := by
  refine eq_online (by simp) fun i hi => ?_
  rw [getElem?_online, if_pos (by rwa [length_online]), online_take]

/-- Inputs and outputs that are carried over, entry by entry: the values on the prefixes decide. -/
theorem online_map {f : α → γ} {h : β → δ} {g : List α → β} {g' : List γ → δ}
    (hg : ∀ p, g' (p.map f) = h (g p)) (xs : List α) :
    online g' (xs.map f) = (online g xs).map h := by
  refine (eq_online (by simp) fun i hi => ?_).symm
  rw [List.length_map] at hi
  rw [List.getElem?_map, getElem?_online, if_pos hi, ← List.map_take, hg, Option.map_some]

theorem getD_online (g : List α → β) {xs : List α} {i : ℕ} (hi : i < xs.length) (d : β) :
    (online g xs).getD i d = g (xs.take (i + 1)) := by
  rw [List.getD_eq_getElem?_getD, getElem?_online, if_pos hi, Option.getD_some]

theorem online_concat (g : List α → β) (xs : List α) (x : α) :
    online g (xs ++ [x]) = online g xs ++ [g (xs ++ [x])] := by
  unfold online
  rw [List.length_append, List.length_singleton, List.range_succ, List.map_append, List.map_singleton]
  congr 1
  · refine List.map_congr_left fun i hi => ?_
    have hi := List.mem_range.1 hi
    rw [List.take_append_of_le_length (by omega)]
  · rw [List.take_of_length_le (by simp)]

theorem getLast?_online (g : List α → β) {xs : List α} (h : xs ≠ []) :
    (online g xs).getLast? = some (g xs) := by
  rw [← List.dropLast_append_getLast h, online_concat, List.getLast?_concat]

/-- A loop over a series that starts at index `first`, behind the entry for the first inputs: it is
    the online transformation that has the values `val` once there are `first` inputs. -/
theorem seeded_eq_online (xs : List α) {body : τ → ℕ → τ} (core : τ → σ) (out : τ → List (Option β))
    (step : σ → ℕ → σ) (emit : σ → ℕ → Option β) {val : List α → β} {first : ℕ} {t : τ}
    (hcore : ∀ t i, core (body t i) = step (core t) i)
    (hout : ∀ t i, out (body t i) = (out t).set i (emit (core t) i)) (hfirst : 0 < first)
    (hle : first ≤ xs.length)
    (hstart : out t = (List.replicate xs.length none).set (first - 1) (some (val (xs.take first))))
    (hval : ∀ j, first ≤ j → j < xs.length →
      emit (forRange first j (core t) step) j = some (val (xs.take (j + 1)))) :
    out (forRange first xs.length t body)
      = online (fun p => if p.length < first then none else some (val p)) xs := by
  have hblank : ∀ i, first ≤ i → i < xs.length → (out t)[i]? = some none := by
    intro i hi hlt
    rw [hstart, List.getElem?_set, if_neg (by omega), List.getElem?_replicate, if_pos hlt]
  have hentries := loop_getElem? core out step emit none hcore (fun t i _ => hout t i) xs.length
    hle hblank
  refine List.ext_getElem? fun j => ?_
  rw [hentries j, getElem?_online]
  by_cases hlt : j < xs.length
  · have hlen : (xs.take (j + 1)).length = j + 1 := by rw [List.length_take]; omega
    simp only [hlen, if_pos hlt]
    by_cases hj : first ≤ j
    · rw [if_pos ⟨hj, hlt⟩, if_neg (by omega), hval j hj hlt]
    · rw [if_neg (by omega), hstart, List.getElem?_set]
      by_cases hlast : first - 1 = j
      · rw [if_pos hlast, List.length_replicate, if_pos (by omega), if_neg (by omega),
          show j + 1 = first by omega]
      · rw [if_neg hlast, List.getElem?_replicate, if_pos hlt, if_pos (by omega)]
  · rw [if_neg (by omega), if_neg hlt, hstart, List.getElem?_set, if_neg (by omega),
      List.getElem?_replicate, if_neg hlt]

/-- Fewer inputs than it takes for an entry. -/
theorem replicate_eq_online {xs : List α} (val : List α → β) {first : ℕ} (h : xs.length < first) :
    List.replicate xs.length none
      = online (fun p => if p.length < first then none else some (val p)) xs := by
  refine eq_online (by simp) fun i hi => ?_
  rw [List.getElem?_replicate, if_pos hi, if_pos (by rw [List.length_take]; omega)]

/-- A loop over a series that fills in what a list has from index `first` on. -/
theorem filled_eq_online (xs : List α) (emit : ℕ → β) (blank : β) {val : List α → β} {first : ℕ}
    (hblank : ∀ i, i < first → i < xs.length → blank = val (xs.take (i + 1)))
    (hval : ∀ i, first ≤ i → i < xs.length → emit i = val (xs.take (i + 1))) :
    forRange first xs.length (List.replicate xs.length blank) (fun t i => t.set i (emit i))
      = online val xs := by
  by_cases hle : first ≤ xs.length
  · have hentries := loop_getElem? (t := List.replicate xs.length blank) (fun _ => ()) id
      (fun _ _ => ()) (fun _ i => emit i) blank (fun _ _ => rfl) (fun _ _ _ => rfl) xs.length hle
      fun i _ hi => by rw [id, List.getElem?_replicate, if_pos hi]
    refine List.ext_getElem? fun j => (hentries j).trans ?_
    rw [getElem?_online, id, List.getElem?_replicate]
    by_cases hlt : j < xs.length
    · by_cases hj : first ≤ j
      · rw [if_pos ⟨hj, hlt⟩, if_pos hlt, hval j hj hlt]
      · rw [if_neg (by omega), if_pos hlt, if_pos hlt, hblank j (by omega) hlt]
    · rw [if_neg (by omega), if_neg hlt, if_neg hlt]
  · unfold forRange
    rw [show xs.length - first = 0 by omega, List.range'_zero, List.foldl_nil]
    refine eq_online (by simp) fun i hi => ?_
    rw [List.getElem?_replicate, if_pos hi, hblank i (by omega) hi]

/-- A loop over a series that fills in an entry at each index from `first - 1` on. -/
theorem fill_eq_online (xs : List α) (emit : ℕ → Option β) (val : List α → β) {first : ℕ}
    (hfirst : 0 < first)
    (hval : ∀ i, first ≤ i + 1 → i < xs.length → emit i = some (val (xs.take (i + 1)))) :
    forRange (first - 1) xs.length (List.replicate xs.length none) (fun t i => t.set i (emit i))
      = online (fun p => if p.length < first then none else some (val p)) xs := by
  refine filled_eq_online xs emit none (fun i hi hlt => ?_) fun i hi hlt => ?_
  · rw [if_pos (by rw [List.length_take]; omega)]
  · rw [if_neg (by rw [List.length_take]; omega), hval i (by omega) hlt]

/-! ## Missing entries -/

/-- The missing entries come first. -/
def Leading (out : List (Option β)) : Prop :=
  ∀ i j : ℕ, i ≤ j → out[j]? = some none → out[i]? = some none

theorem Leading.tail {o : Option β} {out : List (Option β)} (h : Leading (o :: out)) :
    Leading out := by
  intro i j hij hj
  have := h (i + 1) (j + 1) (by omega) (by simpa using hj)
  simpa using this

/-- Once an entry is there, all are. -/
theorem Leading.of_some {v : β} {out : List (Option β)} (h : Leading (some v :: out)) :
    out.reduceOption.map some = out := by
  induction out with
  | nil => rfl
  | cons o out ih =>
    cases o with
    | none => exact absurd (h 0 1 (by omega) rfl) (by simp)
    | some w =>
      have hrest : Leading (some v :: out) := by
        intro i j hij hj
        cases i with
        | zero =>
          cases j with
          | zero => exact absurd hj (by simp)
          | succ j => exact absurd (h 0 (j + 2) (by omega) (by simpa using hj)) (by simp)
        | succ i =>
          cases j with
          | zero => omega
          | succ j =>
            have := h (i + 2) (j + 2) (by omega) (by simpa using hj)
            simpa using this
      rw [List.reduceOption_cons_of_some, List.map_cons, ih hrest]

/-- A series with leading gaps is its gaps, and then the entries that are there. -/
theorem Leading.eq_append {out : List (Option β)} (h : Leading out) :
    out = List.replicate (out.length - out.reduceOption.length) none
      ++ out.reduceOption.map some := by
  induction out with
  | nil => rfl
  | cons o out ih =>
    cases o with
    | none =>
      have hle := List.reduceOption_length_le out
      rw [List.reduceOption_cons_of_none, List.length_cons,
        show out.length + 1 - out.reduceOption.length
          = (out.length - out.reduceOption.length) + 1 by omega, List.replicate_succ,
        List.cons_append, ← ih h.tail]
    | some v =>
      have hall := h.of_some
      have hlen : out.reduceOption.length = out.length := by
        conv_rhs => rw [← hall, List.length_map]
      rw [List.reduceOption_cons_of_some, List.length_cons, List.length_cons, hlen, Nat.sub_self,
        List.replicate_zero, List.nil_append, List.map_cons, hall]

/-- A series that has no entry for fewer than `first` inputs. -/
theorem length_reduceOption_online_le {g : List α → Option β} {first : ℕ}
    (hnone : ∀ p : List α, p.length < first → g p = none) (xs : List α) :
    (online g xs).reduceOption.length ≤ xs.length - (first - 1) := by
  have hgaps : ((online g xs).take (first - 1)).reduceOption = [] := by
    rw [← online_take, List.reduceOption_eq_nil_iff]
    refine ⟨_, List.eq_replicate_of_mem fun o ho => ?_⟩
    obtain ⟨i, hi, rfl⟩ := List.mem_map.1 ho
    have hi := List.mem_range.1 hi
    rw [List.length_take] at hi
    exact hnone _ (by rw [List.length_take, List.length_take]; omega)
  rw [← List.take_append_drop (first - 1) (online g xs), List.reduceOption_append, hgaps,
    List.nil_append]
  have hrest := List.reduceOption_length_le ((online g xs).drop (first - 1))
  rwa [List.length_drop, length_online] at hrest

/-- A series in which all entries behind as many places as there are gaps are there. -/
theorem leading_of_defined {out : List (Option β)}
    (h : ∀ i, out.length - out.reduceOption.length ≤ i → i < out.length → out[i]? ≠ some none) :
    Leading out := by
  obtain ⟨k, hk⟩ : ∃ k, k = out.length - out.reduceOption.length := ⟨_, rfl⟩
  rw [← hk] at h
  have hle := List.reduceOption_length_le out
  have hlater : (out.drop k).reduceOption.length = (out.drop k).length := by
    rw [List.reduceOption_length_eq_iff]
    intro o ho
    obtain ⟨i, hi, rfl⟩ := List.getElem_of_mem ho
    rw [List.length_drop] at hi
    have hsome := h (k + i) (by omega) (by omega)
    rw [List.getElem?_eq_getElem (show k + i < out.length by omega)] at hsome
    rw [List.getElem_drop, Option.isSome_iff_ne_none]
    exact fun hnone => hsome (congrArg some hnone)
  -- The entries that are there are used up by the places behind.
  have hearlier : (out.take k).reduceOption = [] := by
    have hsplit := congrArg List.length (congrArg List.reduceOption (List.take_append_drop k out))
    rw [List.reduceOption_append, List.length_append, hlater, List.length_drop] at hsplit
    exact List.eq_nil_of_length_eq_zero (by omega)
  intro i j hij hj
  have hjk : j < k := by
    by_contra hge
    exact h j (by omega) (List.getElem?_eq_some_iff.1 hj).1 hj
  have hi : i < out.length := by omega
  rw [List.getElem?_eq_getElem hi]
  cases hout : out[i] with
  | none => rfl
  | some v =>
    have hmem : some v ∈ out.take k := by
      rw [← hout, List.mem_take_iff_getElem]
      exact ⟨i, by omega, rfl⟩
    rw [← List.reduceOption_mem_iff, hearlier] at hmem
    exact absurd hmem (by simp)

theorem leading_append_map_some (k : ℕ) (vs : List β) :
    Leading (List.replicate k none ++ vs.map some) := by
  intro i j hij hj
  have hjk : j < k := by
    by_contra hge
    rw [List.getElem?_append_right (by simp; omega), List.getElem?_map] at hj
    obtain ⟨v, -, hv⟩ := Option.map_eq_some_iff.1 hj
    exact absurd hv (by simp)
  rw [List.getElem?_append_left (by simp; omega), List.getElem?_replicate, if_pos (by omega)]

theorem reduceOption_append_map_some (k : ℕ) (vs : List β) :
    (List.replicate k none ++ vs.map some).reduceOption = vs := by
  rw [List.reduceOption_append, List.reduceOption_replicate_none, List.nil_append]
  induction vs with
  | nil => rfl
  | cons v vs ih => rw [List.map_cons, List.reduceOption_cons_of_some, ih]

/-- What is put back behind leading gaps is computed online as well: it is there where an entry is,
    from the entries so far. -/
theorem Leading.place_eq_online {out : List (Option β)} (h : Leading out) (g : List β → Option γ) :
    List.replicate (out.length - out.reduceOption.length) none ++ online g out.reduceOption
      = online (fun p => p.getLast?.join.bind fun _ => g p.reduceOption) out := by
  conv_rhs => rw [h.eq_append]
  generalize out.length - out.reduceOption.length = k
  induction out.reduceOption using List.reverseRecOn with
  | nil =>
    rw [List.map_nil, List.append_nil]
    refine eq_online (by simp [online]) fun i hi => ?_
    rw [List.length_replicate] at hi
    have hlast : ((List.replicate k (none : Option β)).take (i + 1)).getLast? = some none := by
      rw [List.take_replicate, Nat.min_eq_left hi, List.getLast?_replicate, if_neg (by omega)]
    rw [show online g [] = [] from rfl, List.append_nil, List.getElem?_replicate, if_pos hi, hlast]
    rfl
  | append_singleton vs v ih =>
    rw [online_concat, List.map_append, List.map_singleton, ← List.append_assoc, ih,
      ← List.append_assoc, online_concat, List.getLast?_concat]
    congr 2
    rw [List.append_assoc, show vs.map some ++ [some v] = (vs ++ [v]).map some by simp,
      reduceOption_append_map_some]
    rfl

/-- The online transformation has leading gaps if its values, once there, stay. -/
theorem leading_online {P : α → Prop} {g : List α → Option β}
    (hmono : ∀ xs x, (∀ y ∈ xs, P y) → P x → g xs ≠ none → g (xs ++ [x]) ≠ none) {xs : List α}
    (hxs : ∀ x ∈ xs, P x) : Leading (online g xs) := by
  have hstays : ∀ j i : ℕ, i ≤ j → j < xs.length → g (xs.take (i + 1)) ≠ none →
      g (xs.take (j + 1)) ≠ none := by
    intro j i hij
    induction j, hij using Nat.le_induction with
    | base => exact fun _ h => h
    | succ j hij ih =>
      intro hj h
      rw [List.take_add_one, List.getElem?_eq_getElem hj, Option.toList_some]
      exact hmono _ _ (fun y hy => hxs y (List.mem_of_mem_take hy)) (hxs _ (List.getElem_mem hj))
        (ih (by omega) h)
  intro i j hij hj
  rw [getElem?_online] at hj ⊢
  split at hj
  · next hlt =>
    rw [if_pos (by omega)]
    by_contra hsome
    exact hstays j i hij hlt (fun hnone => hsome (by rw [hnone])) (Option.some.inj hj)
  · exact absurd hj (by simp)

/-! ## Stable transformations -/

/-- A transformation of series whose output has the length of its input, keeps its entries when the
    input grows and, on inputs in `P`, has its missing entries first. -/
structure Stable (P : α → Prop) (F : List α → List (Option β)) : Prop where
  length : ∀ xs, (F xs).length = xs.length
  leading : ∀ xs, (∀ x ∈ xs, P x) → Leading (F xs)
  take : ∀ xs ys, (F (xs ++ ys)).take xs.length = F xs

namespace Stable

variable {P : α → Prop} {F : List α → List (Option β)}

theorem online {g : List α → Option β}
    (hmono : ∀ xs x, P x → g xs ≠ none → g (xs ++ [x]) ≠ none) : Stable P (Library.online g) where
  length := length_online g
  leading _ hxs := leading_online (fun xs x _ => hmono xs x) hxs
  take := take_online g

/-- Two outputs combined where both are there. -/
theorem zipWith {G : List α → List (Option γ)} (hF : Stable P F) (hG : Stable P G)
    (c : β → γ → δ) : Stable P fun xs => List.zipWith (Option.map₂ c) (F xs) (G xs) where
  length xs := by rw [List.length_zipWith, hF.length, hG.length, Nat.min_self]
  leading xs hxs := by
    have hentry : ∀ i, (List.zipWith (Option.map₂ c) (F xs) (G xs))[i]? = some none ↔
        i < xs.length ∧ ((F xs)[i]? = some none ∨ (G xs)[i]? = some none) := by
      intro i
      rw [List.getElem?_zipWith]
      by_cases hi : i < xs.length
      · rw [List.getElem?_eq_getElem (by rwa [hF.length]),
          List.getElem?_eq_getElem (by rwa [hG.length])]
        simp [hi, Option.map₂_eq_none_iff]
      · rw [List.getElem?_eq_none (by rw [hF.length]; omega)]
        simp [hi]
    intro i j hij hj
    obtain ⟨hlt, hj⟩ := (hentry j).1 hj
    exact (hentry i).2 ⟨by omega, hj.imp (hF.leading xs hxs i j hij) (hG.leading xs hxs i j hij)⟩
  take xs ys := by rw [List.take_zipWith, hF.take, hG.take]

/-- An online transformation applied to the entries that are there, its output put back behind the
    gaps. -/
theorem place {g : List β → Option γ} (hF : Stable (fun _ => True) F)
    (hg : Stable (fun _ => True) (Library.online g)) :
    Stable (fun _ => True) fun xs => List.replicate (xs.length - (F xs).reduceOption.length) none
      ++ Library.online g (F xs).reduceOption := by
  have hleading : ∀ xs, Leading (F xs) := fun xs => hF.leading xs fun _ _ => trivial
  have hplaced : ∀ xs, List.replicate (xs.length - (F xs).reduceOption.length) none
      ++ Library.online g (F xs).reduceOption
        = Library.online (fun p => p.getLast?.join.bind fun _ => g p.reduceOption) (F xs) := by
    intro xs
    rw [← (hleading xs).place_eq_online, hF.length]
  refine ⟨fun xs => ?_, fun xs _ => ?_, fun xs ys => ?_⟩
  · rw [hplaced, length_online, hF.length]
  · have hlead := (hg.leading (F xs).reduceOption fun _ _ => trivial).eq_append
    rw [hlead, ← List.append_assoc, List.replicate_append_replicate]
    exact leading_append_map_some _ _
  · rw [hplaced, hplaced, ← online_take, hF.take]

end Stable

end Library
