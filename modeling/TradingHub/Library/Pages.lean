import Mathlib.Data.List.Nodup
import Mathlib.Data.List.Pairwise
import Mathlib.Data.List.Sort

set_option autoImplicit false

/-! # Pages of a sorted list

A list is read page by page, and every page is cut out of a list of its own: the same rows, sorted
by the same key, but with ties in any order. The pages put together hold every row exactly once,
whatever the orders, if and only if rows with one key are always on one page. -/

namespace Library

variable {α κ : Type}

/-- The page `k` of a list, `l[k * size : (k + 1) * size]`. -/
def page (size k : ℕ) (l : List α) : List α := (l.drop (k * size)).take size

/-- The first `n` pages, each cut out of its own list. -/
def pages (size n : ℕ) (order : ℕ → List α) : List α :=
  (List.range n).flatMap fun k => page size k (order k)

/-- The number of pages for `total` rows, `total / size` rounded up. -/
def pageCount (size total : ℕ) : ℕ := (total + size - 1) / size

theorem mem_page_iff {size k : ℕ} (hsize : 0 < size) {l : List α} {o : α} :
    o ∈ page size k l ↔ ∃ i, i / size = k ∧ l[i]? = some o := by
  unfold page
  rw [List.mem_iff_getElem?]
  constructor
  · rintro ⟨j, hj⟩
    rw [List.getElem?_take] at hj
    split at hj
    · next hlt =>
      rw [List.getElem?_drop] at hj
      refine ⟨k * size + j, ?_, hj⟩
      rw [Nat.add_comm, Nat.add_mul_div_right _ _ hsize, Nat.div_eq_of_lt hlt, Nat.zero_add]
    · exact absurd hj (by simp)
  · rintro ⟨i, rfl, hi⟩
    refine ⟨i % size, ?_⟩
    rw [List.getElem?_take_of_lt (Nat.mod_lt i hsize), List.getElem?_drop, Nat.div_add_mod', hi]

theorem page_lt {size i n : ℕ} (hsize : 0 < size) (hi : i < n) : i / size < pageCount size n := by
  unfold pageCount
  rw [Nat.div_lt_iff_lt_mul hsize]
  have hround := Nat.lt_div_mul_add hsize (a := n + size - 1)
  omega

/-- Pages that hold nothing twice have nothing in common. -/
theorem pages_disjoint {size n : ℕ} {order : ℕ → List α} (h : (pages size n order).Nodup) {k k' : ℕ}
    (hk : k < n) (hk' : k' < n) (hne : k ≠ k') :
    (page size k (order k)).Disjoint (page size k' (order k')) := by
  have hsymm : Std.Symm (Function.onFun List.Disjoint fun k => page size k (order k)) :=
    ⟨fun _ _ h => List.disjoint_symm h⟩
  exact (List.nodup_flatMap.1 h).2.forall (List.mem_range.2 hk) (List.mem_range.2 hk') hne

/-- An entry of a list, with what stands before and behind it. -/
theorem exists_split {l : List α} {i : ℕ} {o : α} (h : l[i]? = some o) :
    ∃ pre post, l = pre ++ o :: post ∧ pre.length = i := by
  obtain ⟨hi, rfl⟩ := List.getElem?_eq_some_iff.1 h
  refine ⟨l.take i, l.drop (i + 1), ?_, List.length_take_of_le hi.le⟩
  rw [← List.drop_eq_getElem_cons hi, List.take_append_drop]

/-! ## Sorted lists -/

section Sorted

variable [LinearOrder κ] (key : α → κ)

/-- Sorted by the key, the greatest one first. -/
def Descending (l : List α) : Prop := l.Pairwise fun a b => key b ≤ key a

/-- The number of rows with a greater key. -/
def later (rows : List α) (o : α) : ℕ := rows.countP fun x => key o < key x

/-- The number of rows with the same key, the row itself included. -/
def tied (rows : List α) (o : α) : ℕ := rows.countP fun x => key x = key o

/-- Rows with one key have their places on one page. -/
def TiesOnOnePage (size : ℕ) (rows : List α) : Prop :=
  ∀ o ∈ rows, later key rows o / size = (later key rows o + tied key rows o - 1) / size

instance (size : ℕ) (rows : List α) : Decidable (TiesOnOnePage key size rows) :=
  inferInstanceAs (Decidable (∀ o ∈ rows, _))

/-- A sort by the key that breaks ties by a rank. -/
def sortDesc (rank : α → ℕ) (rows : List α) : List α :=
  rows.insertionSort fun a b => key b < key a ∨ key b = key a ∧ rank a ≤ rank b

theorem sortDesc_pairwise (rank : α → ℕ) (rows : List α) : (sortDesc key rank rows).Pairwise
    fun a b => key b < key a ∨ key b = key a ∧ rank a ≤ rank b := by
  have htotal : Std.Total fun a b => key b < key a ∨ key b = key a ∧ rank a ≤ rank b := by
    refine ⟨fun a b => ?_⟩
    rcases lt_trichotomy (key a) (key b) with h | h | h
    · exact Or.inr (Or.inl h)
    · rcases le_total (rank a) (rank b) with hrank | hrank
      · exact Or.inl (Or.inr ⟨h.symm, hrank⟩)
      · exact Or.inr (Or.inr ⟨h, hrank⟩)
    · exact Or.inl (Or.inl h)
  have htrans : IsTrans α fun a b => key b < key a ∨ key b = key a ∧ rank a ≤ rank b := by
    refine ⟨fun a b c hab hbc => ?_⟩
    rcases hab with hab | ⟨hab, hrank⟩
    · rcases hbc with hbc | ⟨hbc, -⟩
      · exact Or.inl (hbc.trans hab)
      · exact Or.inl (hbc ▸ hab)
    · rcases hbc with hbc | ⟨hbc, hrank'⟩
      · exact Or.inl (hab ▸ hbc)
      · exact Or.inr ⟨hbc.trans hab, hrank.trans hrank'⟩
  exact List.pairwise_insertionSort _ rows

theorem sortDesc_perm (rank : α → ℕ) (rows : List α) : (sortDesc key rank rows).Perm rows :=
  List.perm_insertionSort _ rows

theorem sortDesc_descending (rank : α → ℕ) (rows : List α) :
    Descending key (sortDesc key rank rows) := by
  refine (sortDesc_pairwise key rank rows).imp fun h => ?_
  rcases h with h | ⟨h, -⟩
  · exact h.le
  · exact h.le

variable {key}

/-- The place of a row in a sorted list: behind the greater keys and the ties that stand before it. -/
theorem place_eq {pre post : List α} {o : α} (h : Descending key (pre ++ o :: post)) :
    pre.length = later key (pre ++ o :: post) o + pre.countP (fun x => key x = key o) ∧
    tied key (pre ++ o :: post) o
      = pre.countP (fun x => key x = key o) + 1 + post.countP (fun x => key x = key o) := by
  obtain ⟨-, hcons, hbefore⟩ := List.pairwise_append.1 h
  obtain ⟨hbehind, -⟩ := List.pairwise_cons.1 hcons
  have hpost : post.countP (fun x => key o < key x) = 0 :=
    List.countP_eq_zero.2 fun x hx => by simpa using hbehind x hx
  have hpre : pre.countP (fun x => ¬ decide (key o < key x) = true)
      = pre.countP fun x => key x = key o :=
    List.countP_congr fun x hx => by
      have hle := hbefore x hx o (by simp)
      simp only [decide_eq_true_eq, not_lt]
      exact ⟨fun hge => le_antisymm hge hle, fun heq => heq.le⟩
  constructor
  · rw [List.length_eq_countP_add_countP (fun x => decide (key o < key x)), hpre, later,
      List.countP_append, List.countP_cons, hpost]
    simp
  · rw [tied, List.countP_append, List.countP_cons]
    simp only [decide_true, if_true]
    omega

/-- A row stands behind the greater keys, and among its ties. -/
theorem place_bounds {l : List α} (hsorted : Descending key l) {i : ℕ} {o : α} (h : l[i]? = some o) :
    later key l o ≤ i ∧ i < later key l o + tied key l o := by
  obtain ⟨pre, post, rfl, rfl⟩ := exists_split h
  obtain ⟨hlen, htied⟩ := place_eq hsorted
  omega

theorem later_perm {l rows : List α} (h : l.Perm rows) (o : α) : later key l o = later key rows o :=
  h.countP_eq _

theorem tied_perm {l rows : List α} (h : l.Perm rows) (o : α) : tied key l o = tied key rows o :=
  h.countP_eq _

/-! ## The pages of lists with their own ties -/

variable {size : ℕ} {rows : List α} {order : ℕ → List α}

/-- If ties stay on one page, a row is on the page of its place and on no other one. -/
theorem mem_page_iff_place (hsize : 0 < size) (hties : TiesOnOnePage key size rows)
    (hperm : ∀ k, (order k).Perm rows) (hsorted : ∀ k, Descending key (order k)) {k : ℕ} {o : α} :
    o ∈ page size k (order k) ↔ o ∈ rows ∧ k = later key rows o / size := by
  have hplace : ∀ i, (order k)[i]? = some o → i / size = later key rows o / size := by
    intro i hi
    have ho : o ∈ rows := (hperm k).mem_iff.1 (List.mem_of_getElem? hi)
    obtain ⟨hle, hlt⟩ := place_bounds (hsorted k) hi
    rw [later_perm (hperm k)] at hle hlt
    rw [tied_perm (hperm k)] at hlt
    refine le_antisymm ?_ (Nat.div_le_div_right hle)
    rw [hties o ho]
    exact Nat.div_le_div_right (by omega)
  rw [mem_page_iff hsize]
  constructor
  · rintro ⟨i, rfl, hi⟩
    exact ⟨(hperm (i / size)).mem_iff.1 (List.mem_of_getElem? hi), hplace i hi⟩
  · rintro ⟨ho, rfl⟩
    obtain ⟨i, hi⟩ := List.mem_iff_getElem?.1 ((hperm _).mem_iff.2 ho)
    exact ⟨i, hplace i hi, hi⟩

/-- If ties stay on one page, the pages hold every row exactly once. -/
theorem pages_perm (hsize : 0 < size) (hnodup : rows.Nodup) (hties : TiesOnOnePage key size rows)
    (hperm : ∀ k, (order k).Perm rows) (hsorted : ∀ k, Descending key (order k)) :
    (pages size (pageCount size rows.length) order).Perm rows := by
  have hmem := @mem_page_iff_place α κ _ key size rows order hsize hties hperm hsorted
  have hpages : (pages size (pageCount size rows.length) order).Nodup := by
    refine List.nodup_flatMap.2 ⟨fun k _ => ?_, List.nodup_range.imp fun hne o hk hk' => ?_⟩
    · exact ((hperm k).nodup_iff.2 hnodup).sublist
        ((List.take_sublist _ _).trans (List.drop_sublist _ _))
    · exact hne ((hmem.1 hk).2.trans (hmem.1 hk').2.symm)
  refine (List.perm_ext_iff_of_nodup hpages hnodup).2 fun o => ?_
  rw [pages, List.mem_flatMap]
  constructor
  · rintro ⟨k, -, ho⟩
    exact (hmem.1 ho).1
  · intro ho
    have hcount : later key rows o < rows.length := by
      obtain ⟨i, hi⟩ := List.mem_iff_getElem?.1 ((hperm 0).mem_iff.2 ho)
      have hlt := (List.getElem?_eq_some_iff.1 hi).1
      rw [(hperm 0).length_eq] at hlt
      rw [← later_perm (hperm 0)]
      exact (place_bounds (hsorted 0) hi).1.trans_lt hlt
    exact ⟨_, List.mem_range.2 (page_lt hsize hcount), hmem.2 ⟨ho, rfl⟩⟩

theorem tied_eq_count (rows : List α) (o : α) : tied key rows o = (rows.map key).count (key o) := by
  rw [List.count, List.countP_map]
  exact List.countP_congr fun x _ => by simp

/-- Without ties, there is nothing to ask for. -/
theorem tiesOnOnePage_of_nodup (hkeys : (rows.map key).Nodup) : TiesOnOnePage key size rows := by
  intro o ho
  rw [tied_eq_count, List.count_eq_one_of_mem hkeys (List.mem_map_of_mem ho), Nat.add_sub_cancel]

/-! ## Ties on two pages -/

/-- The ties of a row in a list that is sorted with a rank. -/
theorem sortDesc_split (key : α → κ) (rank : α → ℕ) (hnodup : rows.Nodup) {o : α} (ho : o ∈ rows) :
    ∃ pre post, sortDesc key rank rows = pre ++ o :: post ∧
      (∀ x ∈ pre, key x = key o → rank x ≤ rank o ∧ x ≠ o) ∧
      ∀ x ∈ post, key x = key o → rank o ≤ rank x ∧ x ≠ o := by
  have hperm := sortDesc_perm key rank rows
  obtain ⟨pre, post, hsplit⟩ := List.append_of_mem (hperm.mem_iff.2 ho)
  have hnodup' := hperm.nodup_iff.2 hnodup
  have hsorted := sortDesc_pairwise key rank rows
  rw [hsplit] at hnodup' hsorted
  obtain ⟨-, hcons, hbefore⟩ := List.pairwise_append.1 hsorted
  obtain ⟨-, hcons', hdisjoint⟩ := List.nodup_append.1 hnodup'
  refine ⟨pre, post, hsplit, fun x hx hkey => ?_, fun x hx hkey => ?_⟩
  · rcases hbefore x hx o (by simp) with hlt | ⟨-, hrank⟩
    · exact absurd hkey hlt.ne'
    · exact ⟨hrank, hdisjoint x hx o (by simp)⟩
  · rcases (List.pairwise_cons.1 hcons).1 x hx with hlt | ⟨-, hrank⟩
    · exact absurd hkey hlt.ne
    · refine ⟨hrank, ?_⟩
      rintro rfl
      exact (List.nodup_cons.1 hcons').1 hx

variable [DecidableEq α]

/-- The rank that puts a row in front of its ties, and the one that puts it behind them. -/
def firstRank (o x : α) : ℕ := if x = o then 0 else 1

def lastRank (o x : α) : ℕ := if x = o then 1 else 0

theorem sortDesc_firstRank (hnodup : rows.Nodup) {o : α} (ho : o ∈ rows) :
    (sortDesc key (firstRank o) rows)[later key rows o]? = some o := by
  obtain ⟨pre, post, hsplit, hpre, -⟩ := sortDesc_split key (firstRank o) hnodup ho
  have hdesc := sortDesc_descending key (firstRank o) rows
  have hnone : pre.countP (fun x => key x = key o) = 0 := by
    refine List.countP_eq_zero.2 fun x hx hkey => ?_
    obtain ⟨hrank, hne⟩ := hpre x hx (of_decide_eq_true hkey)
    simp [firstRank, hne] at hrank
  rw [← later_perm (sortDesc_perm key (firstRank o) rows)]
  rw [hsplit] at hdesc ⊢
  have hplace := (place_eq hdesc).1
  rw [hnone, Nat.add_zero] at hplace
  rw [← hplace]
  simp

theorem sortDesc_lastRank (hnodup : rows.Nodup) {o : α} (ho : o ∈ rows) :
    (sortDesc key (lastRank o) rows)[later key rows o + tied key rows o - 1]? = some o := by
  obtain ⟨pre, post, hsplit, -, hpost⟩ := sortDesc_split key (lastRank o) hnodup ho
  have hdesc := sortDesc_descending key (lastRank o) rows
  have hnone : post.countP (fun x => key x = key o) = 0 := by
    refine List.countP_eq_zero.2 fun x hx hkey => ?_
    obtain ⟨hrank, hne⟩ := hpost x hx (of_decide_eq_true hkey)
    simp [lastRank, hne] at hrank
  rw [← later_perm (sortDesc_perm key (lastRank o) rows),
    ← tied_perm (sortDesc_perm key (lastRank o) rows)]
  rw [hsplit] at hdesc ⊢
  obtain ⟨hlen, htied⟩ := place_eq hdesc
  have hplace : later key (pre ++ o :: post) o + tied key (pre ++ o :: post) o - 1 = pre.length := by
    omega
  rw [hplace]
  simp

/-- Otherwise there are orders for which the pages do not hold the rows once each: a row is in front
    of its ties when its first page is read, and behind them when a later one is. -/
theorem exists_not_pages_perm (hsize : 0 < size) (hnodup : rows.Nodup)
    (hties : ¬ TiesOnOnePage key size rows) :
    ∃ rank : ℕ → α → ℕ, ¬ (pages size (pageCount size rows.length)
      fun k => sortDesc key (rank k) rows).Perm rows := by
  unfold TiesOnOnePage at hties
  push Not at hties
  obtain ⟨o, ho, hne⟩ := hties
  let first := later key rows o / size
  let order (k : ℕ) := sortDesc key (if k = first then firstRank o else lastRank o) rows
  refine ⟨fun k => if k = first then firstRank o else lastRank o, fun hperm => ?_⟩
  have hcount : ∀ {k i : ℕ}, (order k)[i]? = some o → i / size < pageCount size rows.length := by
    intro k i hi
    have hlt := (List.getElem?_eq_some_iff.1 hi).1
    rw [(sortDesc_perm key _ rows).length_eq] at hlt
    exact page_lt hsize hlt
  have hfirst : (order first)[later key rows o]? = some o := by
    simp only [order, if_true]
    exact sortDesc_firstRank hnodup ho
  have hlast : (order ((later key rows o + tied key rows o - 1) / size))[later key rows o
      + tied key rows o - 1]? = some o := by
    simp only [order, first, if_neg (Ne.symm hne)]
    exact sortDesc_lastRank hnodup ho
  exact pages_disjoint (hperm.nodup_iff.2 hnodup) (hcount hfirst) (hcount hlast) hne
    ((mem_page_iff hsize).2 ⟨_, rfl, hfirst⟩) ((mem_page_iff hsize).2 ⟨_, rfl, hlast⟩)

end Sorted

end Library
