import Mathlib.Algebra.BigOperators.Group.Finset.Basic
import Mathlib.Algebra.BigOperators.Group.List.Basic
import Mathlib.Algebra.Order.BigOperators.Group.List
import Mathlib.Data.Fintype.EquivFin
import Mathlib.Data.List.Induction
import Mathlib.Data.List.Nodup
import Mathlib.Tactic.Abel

set_option autoImplicit false

/-! # Insertion-ordered dictionaries

A `Dict` is a finite map that remembers the order in which its keys were first assigned:
assigning to a key that is already there overwrites the value in place, assigning to a new key
appends an entry. Iteration follows that order. The distinctness of the keys is a field of the
structure, so every dictionary has it by construction.

The second half is the sum of a value over all entries (`Dict.sumBy`) and what one assignment
does to it; a ledger total is such a sum. -/

namespace Library

variable {κ υ : Type} [DecidableEq κ]

/-! ## Entry lists -/

/-- Assign `v` to `k` in an entry list: overwrite the entry of `k` in place, or append one. -/
def setEntry (k : κ) (v : υ) : List (κ × υ) → List (κ × υ)
  | [] => [(k, v)]
  | (k', v') :: rest => if k' = k then (k', v) :: rest else (k', v') :: setEntry k v rest

/-- The value an entry list holds for `k`. -/
def getEntry (k : κ) : List (κ × υ) → Option υ
  | [] => none
  | (k', v') :: rest => if k' = k then some v' else getEntry k rest

theorem getEntry_setEntry (k : κ) (v : υ) (l : List (κ × υ)) (k' : κ) :
    getEntry k' (setEntry k v l) = if k' = k then some v else getEntry k' l := by
  induction l with
  | nil =>
      simp only [setEntry, getEntry]
      by_cases h : k' = k
      · subst h; simp
      · rw [if_neg h, if_neg (fun he => h he.symm)]
  | cons e rest ih =>
      obtain ⟨k₀, v₀⟩ := e
      simp only [setEntry]
      by_cases h₀ : k₀ = k
      · subst h₀
        by_cases h : k' = k₀
        · subst h; simp [getEntry]
        · rw [if_pos rfl, if_neg h]
          simp only [getEntry]
          rw [if_neg (fun he => h he.symm), if_neg (fun he => h he.symm)]
      · rw [if_neg h₀]
        simp only [getEntry, ih]
        by_cases h : k₀ = k'
        · subst h
          rw [if_pos rfl, if_neg h₀, if_pos rfl]
        · rw [if_neg h, if_neg h]

theorem setEntry_keys (k : κ) (v : υ) (l : List (κ × υ)) :
    (setEntry k v l).map Prod.fst
      = if k ∈ l.map Prod.fst then l.map Prod.fst else l.map Prod.fst ++ [k] := by
  induction l with
  | nil => simp [setEntry]
  | cons e rest ih =>
      obtain ⟨k₀, v₀⟩ := e
      simp only [setEntry]
      by_cases h₀ : k₀ = k
      · subst h₀; simp
      · rw [if_neg h₀]
        have hne : ¬ k = k₀ := fun he => h₀ he.symm
        simp only [List.map_cons, List.mem_cons, hne, false_or]
        by_cases hmem : k ∈ rest.map Prod.fst
        · rw [if_pos hmem] at ih ⊢
          rw [ih]
        · rw [if_neg hmem] at ih ⊢
          rw [ih, List.cons_append]

theorem setEntry_of_new {k : κ} {v : υ} {l : List (κ × υ)} (h : ∀ e ∈ l, e.1 ≠ k) :
    setEntry k v l = l ++ [(k, v)] := by
  induction l with
  | nil => rfl
  | cons e l ih =>
    rw [List.forall_mem_cons] at h
    rw [setEntry, if_neg h.1, ih h.2, List.cons_append]

theorem setEntry_nodup (k : κ) (v : υ) (l : List (κ × υ)) (h : (l.map Prod.fst).Nodup) :
    ((setEntry k v l).map Prod.fst).Nodup := by
  rw [setEntry_keys]
  split
  · exact h
  · next hk => exact h.append (List.nodup_singleton k) (List.disjoint_singleton.2 hk)

theorem getEntry_eq_some_iff (k : κ) (v : υ) (l : List (κ × υ)) (h : (l.map Prod.fst).Nodup) :
    getEntry k l = some v ↔ (k, v) ∈ l := by
  induction l with
  | nil => simp [getEntry]
  | cons e rest ih =>
      obtain ⟨k₀, v₀⟩ := e
      rw [List.map_cons, List.nodup_cons] at h
      obtain ⟨hk₀, hrest⟩ := h
      simp only [getEntry, List.mem_cons, Prod.mk.injEq]
      by_cases hk : k₀ = k
      · subst hk
        have hno : (k₀, v) ∉ rest := fun hm => hk₀ (List.mem_map.2 ⟨_, hm, rfl⟩)
        rw [if_pos rfl, Option.some.injEq]
        constructor
        · rintro rfl; exact Or.inl ⟨rfl, rfl⟩
        · rintro (⟨-, rfl⟩ | hm)
          · rfl
          · exact absurd hm hno
      · rw [if_neg hk, ih hrest]
        constructor
        · exact Or.inr
        · rintro (⟨rfl, -⟩ | hm)
          · exact absurd rfl hk
          · exact hm

theorem getEntry_eq_none_iff (k : κ) (l : List (κ × υ)) :
    getEntry k l = none ↔ k ∉ l.map Prod.fst := by
  induction l with
  | nil => simp [getEntry]
  | cons e rest ih =>
      obtain ⟨k₀, v₀⟩ := e
      simp only [getEntry, List.map_cons, List.mem_cons, not_or]
      by_cases hk : k₀ = k
      · subst hk; simp
      · rw [if_neg hk, ih]
        exact ⟨fun h => ⟨fun he => hk he.symm, h⟩, fun h => h.2⟩

/-! ## The dictionary -/

variable (κ υ) in
/-- A finite map with its entries in insertion order; no key occurs twice. -/
structure Dict where
  entries : List (κ × υ)
  nodup : (entries.map Prod.fst).Nodup
deriving DecidableEq

namespace Dict

variable {M : Type}

/-- The dictionary without entries. -/
def empty : Dict κ υ := ⟨[], List.nodup_nil⟩

/-- `d.get(k)`. -/
def get? (d : Dict κ υ) (k : κ) : Option υ := getEntry k d.entries

/-- `d[k] = v`. -/
def set (d : Dict κ υ) (k : κ) (v : υ) : Dict κ υ :=
  ⟨setEntry k v d.entries, setEntry_nodup k v d.entries d.nodup⟩

def keys (d : Dict κ υ) : List κ := d.entries.map Prod.fst

def values (d : Dict κ υ) : List υ := d.entries.map Prod.snd

/-- The dictionary a comprehension builds: later entries overwrite earlier ones of the same key. -/
def ofEntries (l : List (κ × υ)) : Dict κ υ := l.foldl (fun d e => d.set e.1 e.2) empty

/-- The sum of `f` over all entries. -/
def sumBy [AddCommMonoid M] (d : Dict κ υ) (f : κ → υ → M) : M :=
  (d.entries.map (fun e => f e.1 e.2)).sum

@[simp] theorem get?_empty (k : κ) : (empty : Dict κ υ).get? k = none := rfl

theorem get?_set (d : Dict κ υ) (k : κ) (v : υ) (k' : κ) :
    (d.set k v).get? k' = if k' = k then some v else d.get? k' :=
  getEntry_setEntry k v d.entries k'

@[simp] theorem get?_set_self (d : Dict κ υ) (k : κ) (v : υ) : (d.set k v).get? k = some v := by
  rw [get?_set, if_pos rfl]

theorem get?_set_of_ne (d : Dict κ υ) {k k' : κ} (v : υ) (h : k' ≠ k) :
    (d.set k v).get? k' = d.get? k' := by
  rw [get?_set, if_neg h]

theorem get?_eq_some_iff (d : Dict κ υ) (k : κ) (v : υ) :
    d.get? k = some v ↔ (k, v) ∈ d.entries :=
  getEntry_eq_some_iff k v d.entries d.nodup

omit [DecidableEq κ] in
theorem keys_nodup (d : Dict κ υ) : d.keys.Nodup := d.nodup

theorem get?_eq_none_iff (d : Dict κ υ) (k : κ) : d.get? k = none ↔ k ∉ d.keys :=
  getEntry_eq_none_iff k d.entries

/-- Where there are infinitely many keys, some key is not used. -/
theorem exists_get?_eq_none [Infinite κ] (d : Dict κ υ) : ∃ k, d.get? k = none := by
  obtain ⟨k, hk⟩ := Infinite.exists_notMem_finset d.keys.toFinset
  exact ⟨k, (get?_eq_none_iff d k).2 fun hmem => hk (List.mem_toFinset.2 hmem)⟩

theorem mem_keys_iff (d : Dict κ υ) (k : κ) : k ∈ d.keys ↔ ∃ v, d.get? k = some v := by
  rw [← Option.isSome_iff_exists, ← Option.ne_none_iff_isSome, Ne, get?_eq_none_iff, not_not]

theorem entries_eq_nil_iff (d : Dict κ υ) : d.entries = [] ↔ ∀ k, d.get? k = none := by
  constructor
  · intro h k
    rw [get?, h]
    rfl
  · intro h
    refine List.eq_nil_iff_forall_not_mem.2 fun e he => ?_
    have := (d.get?_eq_some_iff e.1 e.2).2 he
    rw [h] at this
    exact absurd this (by simp)

theorem mem_values_iff (d : Dict κ υ) (v : υ) : v ∈ d.values ↔ ∃ k, d.get? k = some v := by
  simp only [values, List.mem_map, Prod.exists, exists_eq_right, get?_eq_some_iff]

/-! ## Dictionaries built from dictionaries -/

/-- The entries with a key in `ks`. -/
def restrict (d : Dict κ υ) (ks : List κ) : Dict κ υ :=
  ⟨d.entries.filter (fun e => e.1 ∈ ks), d.nodup.sublist (List.filter_sublist.map Prod.fst)⟩

/-- The entries that satisfy `p`. -/
def filter (d : Dict κ υ) (p : κ → υ → Bool) : Dict κ υ :=
  ⟨d.entries.filter fun e => p e.1 e.2, d.nodup.sublist (List.filter_sublist.map Prod.fst)⟩

/-- `del d[k]`, or nothing if the key is not there. -/
def erase (d : Dict κ υ) (k : κ) : Dict κ υ := d.filter fun k' _ => k' ≠ k

/-- Change every value, given its key. -/
def mapValues {ω : Type} (d : Dict κ υ) (f : κ → υ → ω) : Dict κ ω :=
  ⟨d.entries.map fun e => (e.1, f e.1 e.2), by
    rw [List.map_map]
    exact d.nodup⟩

/-- For each of the keys `ks` in turn, assign what `f` makes of its current value, if anything. -/
def alter (d : Dict κ υ) (ks : List κ) (f : κ → Option υ → Option υ) : Dict κ υ :=
  ks.foldl (fun d k =>
    match f k (d.get? k) with
    | some v => d.set k v
    | none => d) d

/-- `d.update(d')`. -/
def update (d d' : Dict κ υ) : Dict κ υ := d.alter d'.keys fun k _ => d'.get? k

omit [DecidableEq κ] in
theorem eq_empty_of_entries {d : Dict κ υ} (h : d.entries = []) : d = empty := by
  obtain ⟨entries, nodup⟩ := d
  obtain rfl : entries = [] := h
  rfl

theorem get?_restrict (d : Dict κ υ) (ks : List κ) (k : κ) :
    (d.restrict ks).get? k = if k ∈ ks then d.get? k else none := by
  refine Option.ext fun v => ?_
  rw [get?_eq_some_iff, restrict, List.mem_filter, ← get?_eq_some_iff]
  by_cases hk : k ∈ ks <;> simp [hk]

theorem restrict_eq_self {d : Dict κ υ} {ks : List κ} (h : ∀ k, d.get? k ≠ none → k ∈ ks) :
    d.restrict ks = d := by
  have hall : d.entries.filter (fun e => e.1 ∈ ks) = d.entries :=
    List.filter_eq_self.2 fun e he => decide_eq_true (h e.1 (by
      rw [(d.get?_eq_some_iff e.1 e.2).2 he]
      simp))
  simp only [restrict, hall]

theorem get?_filter (d : Dict κ υ) (p : κ → υ → Bool) (k : κ) :
    (d.filter p).get? k = (d.get? k).filter (p k) := by
  refine Option.ext fun v => ?_
  rw [get?_eq_some_iff, filter, List.mem_filter, ← get?_eq_some_iff, Option.filter_eq_some_iff]

theorem get?_erase (d : Dict κ υ) (k k' : κ) :
    (d.erase k).get? k' = if k' = k then none else d.get? k' := by
  rw [erase, get?_filter]
  by_cases hk : k' = k <;> cases d.get? k' <;> simp [hk]

theorem get?_mapValues {ω : Type} (d : Dict κ υ) (f : κ → υ → ω) (k : κ) :
    (d.mapValues f).get? k = (d.get? k).map (f k) := by
  refine Option.ext fun v => ?_
  rw [get?_eq_some_iff, mapValues, List.mem_map, Option.map_eq_some_iff]
  constructor
  · rintro ⟨⟨k', u⟩, hmem, heq⟩
    obtain ⟨rfl, rfl⟩ := Prod.mk.inj heq
    exact ⟨u, (d.get?_eq_some_iff k' u).2 hmem, rfl⟩
  · rintro ⟨u, hget, rfl⟩
    exact ⟨(k, u), (d.get?_eq_some_iff k u).1 hget, rfl⟩

theorem get?_alter {ks : List κ} (hks : ks.Nodup) (f : κ → Option υ → Option υ) (k : κ) :
    ∀ d : Dict κ υ, (d.alter ks f).get? k
      = if k ∈ ks then (f k (d.get? k)).or (d.get? k) else d.get? k := by
  induction ks with
  | nil => intro d; rfl
  | cons k' ks ih =>
    intro d
    rw [List.nodup_cons] at hks
    rw [alter, List.foldl_cons, ← alter, ih hks.2]
    by_cases hk : k = k'
    · subst hk
      rw [if_neg hks.1, if_pos (by simp)]
      cases hf : f k (d.get? k) <;> simp
    · have hget : (match f k' (d.get? k') with
          | some v => d.set k' v
          | none => d).get? k = d.get? k := by
        cases f k' (d.get? k') with
        | none => rfl
        | some v => exact get?_set_of_ne d v hk
      rw [hget]
      simp only [List.mem_cons, hk, false_or]

theorem get?_update (d d' : Dict κ υ) (k : κ) :
    (d.update d').get? k = (d'.get? k).or (d.get? k) := by
  rw [update, get?_alter d'.keys_nodup]
  split
  · rfl
  · next hk => rw [(d'.get?_eq_none_iff k).2 hk, Option.none_or]

/-- No entry but that of `i` satisfies `p`, which a missing key, standing for `dflt`, does not. -/
theorem all_other_iff {p : υ → Bool} {dflt : υ} (hdflt : p dflt = false) (d : Dict κ υ) (i : κ) :
    (d.entries.all fun e => e.1 = i || !p e.2) = true
      ↔ ∀ j, j ≠ i → p ((d.get? j).getD dflt) = false := by
  rw [List.all_eq_true]
  constructor
  · intro h j hj
    cases hget : d.get? j with
    | none => exact hdflt
    | some v =>
      have := h (j, v) ((d.get?_eq_some_iff j v).1 hget)
      simpa [hj] using this
  · rintro h ⟨j, v⟩ hmem
    by_cases hj : j = i
    · simp [hj]
    · have := h j hj
      rw [(d.get?_eq_some_iff j v).2 hmem, Option.getD_some] at this
      simp [this]

/-! ## Dictionaries built from entries -/

theorem ofEntries_concat (l : List (κ × υ)) (e : κ × υ) :
    ofEntries (l ++ [e]) = (ofEntries l).set e.1 e.2 := by
  simp only [ofEntries, List.foldl_append, List.foldl_cons, List.foldl_nil]

/-- Entries under distinct keys are kept as they are, in their order. -/
theorem entries_ofEntries {l : List (κ × υ)} (h : (l.map Prod.fst).Nodup) :
    (ofEntries l).entries = l := by
  induction l using List.reverseRecOn with
  | nil => rfl
  | append_singleton l e ih =>
    rw [List.map_append, List.nodup_append] at h
    have hnew : ∀ e' ∈ l, e'.1 ≠ e.1 := fun e' he' =>
      h.2.2 _ (List.mem_map_of_mem he') _ (by simp)
    rw [ofEntries_concat]
    show setEntry e.1 e.2 (ofEntries l).entries = _
    rw [ih h.1]
    exact setEntry_of_new hnew

theorem mem_of_get?_ofEntries {l : List (κ × υ)} {k : κ} {v : υ}
    (h : (ofEntries l).get? k = some v) : (k, v) ∈ l := by
  induction l using List.reverseRecOn with
  | nil => exact absurd h (by simp [ofEntries])
  | append_singleton l e ih =>
    rw [ofEntries_concat, get?_set] at h
    split at h
    · next hk =>
      obtain rfl := Option.some.inj h
      exact List.mem_append_right l (by simp [hk])
    · exact List.mem_append_left _ (ih h)

theorem get?_ofEntries_eq_none_iff (l : List (κ × υ)) (k : κ) :
    (ofEntries l).get? k = none ↔ ∀ e ∈ l, e.1 ≠ k := by
  induction l using List.reverseRecOn with
  | nil => simp [ofEntries]
  | append_singleton l e ih =>
    rw [ofEntries_concat, get?_set]
    by_cases hk : k = e.1
    · rw [if_pos hk]
      refine ⟨fun h => absurd h (by simp), fun h => ?_⟩
      exact absurd hk.symm (h e (by simp))
    · rw [if_neg hk, ih]
      have hk' : e.1 ≠ k := fun h => hk h.symm
      simp only [List.mem_append, List.mem_singleton, or_imp, forall_and, forall_eq, hk', and_true,
        ne_eq, not_false_eq_true]

/-- An entry whose key has one value only is found. -/
theorem get?_ofEntries_of_unique {l : List (κ × υ)} {k : κ} {v : υ} (hmem : (k, v) ∈ l)
    (huniq : ∀ v', (k, v') ∈ l → v' = v) : (ofEntries l).get? k = some v := by
  cases h : (ofEntries l).get? k with
  | none => exact absurd rfl ((get?_ofEntries_eq_none_iff l k).1 h (k, v) hmem)
  | some v' => rw [huniq v' (mem_of_get?_ofEntries h)]

/-- Rewriting every value. -/
theorem get?_ofEntries_mapValues {ω : Type} (l : List (κ × υ)) (f : υ → ω) (k : κ) :
    (ofEntries (l.map fun e => (e.1, f e.2))).get? k = ((ofEntries l).get? k).map f := by
  induction l using List.reverseRecOn with
  | nil => rfl
  | append_singleton l e ih =>
    rw [List.map_append, List.map_singleton, ofEntries_concat, ofEntries_concat, get?_set, get?_set,
      ih]
    split <;> rfl

/-- Rewriting the value of one key in all entries. -/
theorem get?_ofEntries_map (l : List (κ × υ)) (k : κ) (v : υ) (k' : κ) :
    (ofEntries (l.map fun e => if e.1 = k then (e.1, v) else e)).get? k'
      = if k' = k ∧ k ∈ l.map Prod.fst then some v else (ofEntries l).get? k' := by
  induction l using List.reverseRecOn with
  | nil => simp [ofEntries]
  | append_singleton l e ih =>
    rw [List.map_append, List.map_singleton, ofEntries_concat, ofEntries_concat, get?_set, get?_set,
      ih]
    by_cases hek : e.1 = k
    · by_cases hk : k' = k <;> simp [hk, hek]
    · by_cases hk : k' = e.1
      · simp [hk, hek]
      · have hmem : k ∈ (l ++ [e]).map Prod.fst ↔ k ∈ l.map Prod.fst := by
          rw [List.map_append, List.map_singleton, List.mem_append, List.mem_singleton]
          exact or_iff_left fun h => hek h.symm
        simp only [hmem, if_neg hek, if_neg hk]

/-! ## Sums over the entries -/

section Sums

variable [AddCommGroup M]

theorem setEntry_sum (k : κ) (v : υ) (f : κ → υ → M) (l : List (κ × υ)) :
    ((setEntry k v l).map (fun e => f e.1 e.2)).sum
      = (l.map (fun e => f e.1 e.2)).sum - ((getEntry k l).map (f k)).getD 0 + f k v := by
  induction l with
  | nil => simp [setEntry, getEntry]
  | cons e rest ih =>
      obtain ⟨k₀, v₀⟩ := e
      simp only [setEntry, getEntry]
      by_cases h₀ : k₀ = k
      · subst h₀
        simp only [if_pos, List.map_cons, List.sum_cons, Option.map_some, Option.getD_some]
        abel
      · rw [if_neg h₀, if_neg h₀]
        simp only [List.map_cons, List.sum_cons, ih]
        abel

/-- One assignment replaces the contribution of its key and leaves the others alone. -/
theorem sumBy_set (d : Dict κ υ) (k : κ) (v : υ) (f : κ → υ → M) :
    (d.set k v).sumBy f = d.sumBy f - ((d.get? k).map (f k)).getD 0 + f k v :=
  setEntry_sum k v f d.entries

theorem sumBy_set_new (d : Dict κ υ) {k : κ} (v : υ) (f : κ → υ → M) (h : d.get? k = none) :
    (d.set k v).sumBy f = d.sumBy f + f k v := by
  rw [sumBy_set, h, Option.map_none, Option.getD_none, sub_zero]

end Sums

omit [DecidableEq κ] in
@[simp] theorem sumBy_empty [AddCommMonoid M] (f : κ → υ → M) :
    (empty : Dict κ υ).sumBy f = 0 := rfl

omit [DecidableEq κ] in
theorem sumBy_mapValues [AddCommMonoid M] {ω : Type} (d : Dict κ υ) (f : κ → υ → ω)
    (g : κ → ω → M) : (d.mapValues f).sumBy g = d.sumBy fun k v => g k (f k v) := by
  rw [sumBy, sumBy, mapValues, List.map_map]
  rfl

theorem sumBy_congr [AddCommMonoid M] {d : Dict κ υ} {f g : κ → υ → M}
    (h : ∀ k v, d.get? k = some v → f k v = g k v) : d.sumBy f = d.sumBy g := by
  rw [sumBy, sumBy, List.map_congr_left fun e he => h e.1 e.2 ((d.get?_eq_some_iff _ _).2 he)]

theorem sumBy_nonneg [AddCommMonoid M] [PartialOrder M] [IsOrderedAddMonoid M] (d : Dict κ υ)
    (f : κ → υ → M) (h : ∀ k v, d.get? k = some v → 0 ≤ f k v) : 0 ≤ d.sumBy f := by
  apply List.sum_nonneg
  intro x hx
  obtain ⟨⟨k, v⟩, hmem, rfl⟩ := List.mem_map.1 hx
  exact h k v ((d.get?_eq_some_iff k v).2 hmem)

/-- The sum over the entries, as a sum over the keys. -/
theorem sumBy_eq_sum_keys [AddCommMonoid M] (d : Dict κ υ) (f : κ → υ → M) :
    d.sumBy f = (d.keys.map fun k => ((d.get? k).map (f k)).getD 0).sum := by
  rw [sumBy, keys, List.map_map]
  refine congrArg List.sum (List.map_congr_left fun e he => ?_)
  rw [Function.comp_apply, (d.get?_eq_some_iff e.1 e.2).2 he, Option.map_some, Option.getD_some]

/-- Where a list of rows names every key once and its rows say what `f` makes of the entries, the
    sum over the entries is the sum over the rows. -/
theorem sumBy_eq_sum_map [AddCommMonoid M] {ρ : Type} (d : Dict κ υ) (f : κ → υ → M) {rows : List ρ}
    (key : ρ → κ) {g : ρ → M} (hkeys : (rows.map key).Nodup)
    (hrows : ∀ r ∈ rows, ∃ v, d.get? (key r) = some v ∧ f (key r) v = g r)
    (hall : ∀ k, d.get? k ≠ none → ∃ r ∈ rows, key r = k) : d.sumBy f = (rows.map g).sum := by
  have hperm : d.keys.Perm (rows.map key) := by
    refine (List.perm_ext_iff_of_nodup d.keys_nodup hkeys).2 fun k => ?_
    rw [mem_keys_iff, List.mem_map]
    constructor
    · rintro ⟨v, hv⟩
      exact hall k (by simp [hv])
    · rintro ⟨r, hr, rfl⟩
      obtain ⟨v, hv, -⟩ := hrows r hr
      exact ⟨v, hv⟩
  rw [sumBy_eq_sum_keys, (hperm.map _).sum_eq, List.map_map]
  refine congrArg List.sum (List.map_congr_left fun r hr => ?_)
  obtain ⟨v, hv, hg⟩ := hrows r hr
  rw [Function.comp_apply, hv, Option.map_some, Option.getD_some, hg]

/-- The sum over the entries, as a sum over any finite set that has all keys. -/
theorem sumBy_eq_finset_sum [AddCommMonoid M] (d : Dict κ υ) (f : κ → υ → M) {S : Finset κ}
    (hS : ∀ k, d.get? k ≠ none → k ∈ S) :
    d.sumBy f = S.sum fun k => ((d.get? k).map (f k)).getD 0 := by
  rw [sumBy_eq_sum_keys, ← List.sum_toFinset _ d.keys_nodup]
  refine Finset.sum_subset (fun k hk => ?_) fun k _ hk => ?_
  · rw [List.mem_toFinset, mem_keys_iff] at hk
    obtain ⟨v, hv⟩ := hk
    exact hS k (by simp [hv])
  · rw [List.mem_toFinset, ← get?_eq_none_iff] at hk
    rw [hk, Option.map_none, Option.getD_none]

/-- The sum over the entries under one key. -/
theorem sumBy_key [AddCommMonoid M] (d : Dict κ υ) (k : κ) (f : υ → M) :
    (d.sumBy fun k' v => if k' = k then f v else 0) = ((d.get? k).map f).getD 0 := by
  rw [d.sumBy_eq_finset_sum _ (S := insert k d.keys.toFinset) ?_]
  · rw [Finset.sum_eq_single k]
    · simp
    · intro k' _ hne
      cases d.get? k' <;> simp [hne]
    · exact fun hk => absurd (Finset.mem_insert_self _ _) hk
  · intro k' hk'
    obtain ⟨v, hv⟩ := Option.ne_none_iff_exists'.1 hk'
    exact Finset.mem_insert_of_mem (List.mem_toFinset.2 ((d.mem_keys_iff k').2 ⟨v, hv⟩))

/-- A single entry is at most the sum when no entry is negative. -/
theorem le_sumBy [AddCommMonoid M] [PartialOrder M] [IsOrderedAddMonoid M] (d : Dict κ υ)
    (f : κ → υ → M) (h : ∀ k v, d.get? k = some v → 0 ≤ f k v) {k : κ} {v : υ}
    (hk : d.get? k = some v) : f k v ≤ d.sumBy f := by
  apply List.single_le_sum
  · intro x hx
    obtain ⟨⟨k', v'⟩, hmem, rfl⟩ := List.mem_map.1 hx
    exact h k' v' ((d.get?_eq_some_iff k' v').2 hmem)
  · exact List.mem_map.2 ⟨(k, v), (d.get?_eq_some_iff k v).1 hk, rfl⟩

end Dict

end Library
