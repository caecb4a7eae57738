import TradingHub.Library.Dict
import TradingHub.Library.Run

set_option autoImplicit false

/-! # Load, compute, save under READ COMMITTED

Transactions on one table of keyed rows that all have the same shape: lock and read the rows with
a `SELECT .. FOR UPDATE`, compute, read the rows again with a plain `SELECT`, then update the rows
found and insert the ones missing, one statement at a time. Sessions interleave statement by
statement.

* `SELECT .. FOR UPDATE` has two moments. It picks its candidate rows from the snapshot at its
  start, and it returns when no other session holds a lock on one of them, with the newest
  committed versions. Rows inserted in between are not returned, and not locked.
* A plain `SELECT` reads what is committed at that moment.
* An `UPDATE` waits while another session holds the lock of its row. It writes the columns that the
  session changed; a row the session did not change is not written.
* An `INSERT` of a key waits while another session has inserted it, and cannot succeed once a row
  with the key is committed.
* A commit publishes what the session wrote. A session may roll back at any moment.

`serialises` says when this is as good as running the committed transactions one after another:
when at the second read a session finds no row of its scope that the first read did not return,
and no row at all if the first read returned none. -/

namespace Library.ReadCommitted

variable {κ υ ρ : Type}

/-! ## Programs and sessions -/

/-- What the transactions do. `compute` takes the rows loaded to the rows saved, and says whether
    the transaction may commit. `patch old new row` writes to `row` the columns in which `new`
    differs from `old`. -/
structure Program (κ υ ρ : Type) where
  compute : ρ → Dict κ υ → Bool × Dict κ υ
  patch : υ → υ → υ → υ

inductive Write (υ : Type)
  | insert (row : υ)
  | update (old new : υ)
deriving DecidableEq

/-- How far a session is. -/
inductive Session (κ υ ρ : Type)
  | idle
  /-- The locking read has started; the candidates are picked. -/
  | selecting (request : ρ) (candidates : List κ)
  /-- The locking read has returned `rows`. -/
  | loaded (request : ρ) (rows : Dict κ υ)
  /-- The second read has returned `found`; the keys in `written` have been flushed. -/
  | saving (request : ρ) (rows found : Dict κ υ) (written : List κ)

/-- The rows as they are committed, the sessions, and the requests committed in commit order. -/
structure State (κ υ ρ : Type) where
  committed : Dict κ υ
  sessions : Dict ℕ (Session κ υ ρ)
  log : List ρ

namespace State

def init (rows : Dict κ υ) : State κ υ ρ := ⟨rows, Dict.empty, []⟩

def session (s : State κ υ ρ) (i : ℕ) : Session κ υ ρ := (s.sessions.get? i).getD .idle

def put (s : State κ υ ρ) (i : ℕ) (σ : Session κ υ ρ) : State κ υ ρ :=
  { s with sessions := s.sessions.set i σ }

/-- No session but `i` has the property. -/
def noOther (s : State κ υ ρ) (i : ℕ) (p : Session κ υ ρ → Bool) : Bool :=
  s.sessions.entries.all fun e => e.1 = i || !p e.2

@[simp] theorem committed_put (s : State κ υ ρ) (i : ℕ) (σ : Session κ υ ρ) :
    (s.put i σ).committed = s.committed := rfl

@[simp] theorem log_put (s : State κ υ ρ) (i : ℕ) (σ : Session κ υ ρ) : (s.put i σ).log = s.log := rfl

theorem session_put (s : State κ υ ρ) (i : ℕ) (σ : Session κ υ ρ) (j : ℕ) :
    (s.put i σ).session j = if j = i then σ else s.session j := by
  unfold session put
  rw [Dict.get?_set]
  split <;> rfl

theorem noOther_iff {s : State κ υ ρ} {i : ℕ} {p : Session κ υ ρ → Bool} (hidle : p .idle = false) :
    s.noOther i p = true ↔ ∀ j, j ≠ i → p (s.session j) = false :=
  Dict.all_other_iff hidle s.sessions i

end State

/-- A statement, or the moment at which one returns, of session `i`. -/
inductive Action (κ ρ : Type)
  | select (i : ℕ) (request : ρ)
  | lock (i : ℕ)
  | save (i : ℕ)
  | write (i : ℕ) (k : κ)
  | commit (i : ℕ)
  | rollback (i : ℕ)

variable [DecidableEq κ] [DecidableEq υ]

/-- The write a save makes for a key: none if the row it found is already what it saves. -/
def writeOf (found saved : Dict κ υ) (k : κ) : Option (Write υ) :=
  match saved.get? k, found.get? k with
  | none, _ => none
  | some new, none => some (.insert new)
  | some new, some old => if old = new then none else some (.update old new)

namespace Program

variable (P : Program κ υ ρ)

/-- The session holds the lock of the row `k`. -/
def locks (k : κ) : Session κ υ ρ → Bool
  | .idle => false
  | .selecting _ _ => false
  | .loaded _ rows => k ∈ rows.keys
  | .saving request rows found written => k ∈ rows.keys ||
      (k ∈ written && match writeOf found (P.compute request rows).2 k with
        | some (.update _ _) => true
        | _ => false)

/-- The session has inserted a row `k`. -/
def inserts (k : κ) : Session κ υ ρ → Bool
  | .saving request rows found written =>
      k ∈ written && match writeOf found (P.compute request rows).2 k with
        | some (.insert _) => true
        | _ => false
  | _ => false

/-- The committed rows after the writes of a session. -/
def publish (found saved committed : Dict κ υ) : Dict κ υ :=
  committed.alter saved.keys fun k row =>
    match writeOf found saved k, row with
    | none, _ => none
    | some (.insert new), _ => some new
    | some (.update old new), some row => some (P.patch old new row)
    | some (.update _ _), none => none

/-- Carry out an action; one that has to wait, or does not apply, changes nothing. -/
def step (s : State κ υ ρ) : Action κ ρ → State κ υ ρ
  | .select i request =>
    match s.session i with
    | .idle => s.put i (.selecting request s.committed.keys)
    | _ => s
  | .lock i =>
    match s.session i with
    | .selecting request candidates =>
      if ∀ k ∈ candidates, s.noOther i (P.locks k) then
        s.put i (.loaded request (s.committed.restrict candidates))
      else s
    | _ => s
  | .save i =>
    match s.session i with
    | .loaded request rows => s.put i (.saving request rows s.committed [])
    | _ => s
  | .write i k =>
    match s.session i with
    | .saving request rows found written =>
      match writeOf found (P.compute request rows).2 k with
      | some (.insert _) =>
        if s.committed.get? k = none ∧ s.noOther i (P.inserts k) then
          s.put i (.saving request rows found (k :: written))
        else s
      | some (.update _ _) =>
        if s.noOther i (P.locks k) then s.put i (.saving request rows found (k :: written)) else s
      | none => s
    | _ => s
  | .commit i =>
    match s.session i with
    | .saving request rows found written =>
      let saved := (P.compute request rows).2
      if (P.compute request rows).1 = true ∧
          ∀ k ∈ saved.keys, writeOf found saved k = none ∨ k ∈ written then
        { s.put i .idle with
          committed := P.publish found saved s.committed
          log := s.log ++ [request] }
      else s
    | _ => s
  | .rollback i => s.put i .idle

/-- Run one request on its own. -/
def serial (rows : Dict κ υ) (request : ρ) : Dict κ υ :=
  if (P.compute request rows).1 then rows.update (P.compute request rows).2 else rows

/-- A session that has loaded its rows has every row of its scope that is committed, and some row if
    any is committed. -/
def Covers (scope : ρ → List κ) (committed : Dict κ υ) : Session κ υ ρ → Prop
  | .loaded request rows =>
    (∀ k ∈ scope request, committed.get? k ≠ none → rows.get? k ≠ none) ∧
    (rows.entries = [] → committed.entries = [])
  | _ => True

/-- The condition on a step: at the second read, the first one has covered what is committed. -/
def Covered (scope : ρ → List κ) (s : State κ υ ρ) : Action κ ρ → Prop
  | .save i => Covers scope s.committed (s.session i)
  | _ => True

instance (scope : ρ → List κ) (committed : Dict κ υ) :
    ∀ σ : Session κ υ ρ, Decidable (Covers scope committed σ)
  | .loaded request rows => inferInstanceAs (Decidable
      ((∀ k ∈ scope request, committed.get? k ≠ none → rows.get? k ≠ none) ∧
      (rows.entries = [] → committed.entries = [])))
  | .idle => inferInstanceAs (Decidable True)
  | .selecting _ _ => inferInstanceAs (Decidable True)
  | .saving _ _ _ _ => inferInstanceAs (Decidable True)

instance (scope : ρ → List κ) (s : State κ υ ρ) : ∀ a, Decidable (Covered scope s a)
  | .save i => inferInstanceAs (Decidable (Covers scope s.committed (s.session i)))
  | .select _ _ => inferInstanceAs (Decidable True)
  | .lock _ => inferInstanceAs (Decidable True)
  | .write _ _ => inferInstanceAs (Decidable True)
  | .commit _ => inferInstanceAs (Decidable True)
  | .rollback _ => inferInstanceAs (Decidable True)

end Program

/-! ## What a step can do -/

namespace Program

variable {P : Program κ υ ρ} {s : State κ υ ρ}

/-- The moves of the sessions, with the conditions under which they happen. -/
inductive Moves (P : Program κ υ ρ) (s : State κ υ ρ) : Action κ ρ → State κ υ ρ → Prop
  | select (i : ℕ) (request : ρ) (hσ : s.session i = .idle) :
      Moves P s (.select i request) (s.put i (.selecting request s.committed.keys))
  | lock (i : ℕ) (request : ρ) (candidates : List κ)
      (hσ : s.session i = .selecting request candidates)
      (hfree : ∀ k ∈ candidates, ∀ j, j ≠ i → P.locks k (s.session j) = false) :
      Moves P s (.lock i) (s.put i (.loaded request (s.committed.restrict candidates)))
  | save (i : ℕ) (request : ρ) (rows : Dict κ υ) (hσ : s.session i = .loaded request rows) :
      Moves P s (.save i) (s.put i (.saving request rows s.committed []))
  | insert (i : ℕ) (k : κ) (request : ρ) (rows found : Dict κ υ) (written : List κ) (row : υ)
      (hσ : s.session i = .saving request rows found written)
      (hwrite : writeOf found (P.compute request rows).2 k = some (.insert row))
      (hnew : s.committed.get? k = none)
      (hfree : ∀ j, j ≠ i → P.inserts k (s.session j) = false) :
      Moves P s (.write i k) (s.put i (.saving request rows found (k :: written)))
  | update (i : ℕ) (k : κ) (request : ρ) (rows found : Dict κ υ) (written : List κ) (old new : υ)
      (hσ : s.session i = .saving request rows found written)
      (hwrite : writeOf found (P.compute request rows).2 k = some (.update old new))
      (hfree : ∀ j, j ≠ i → P.locks k (s.session j) = false) :
      Moves P s (.write i k) (s.put i (.saving request rows found (k :: written)))
  | commit (i : ℕ) (request : ρ) (rows found : Dict κ υ) (written : List κ)
      (hσ : s.session i = .saving request rows found written)
      (hok : (P.compute request rows).1 = true)
      (hflushed : ∀ k, writeOf found (P.compute request rows).2 k ≠ none → k ∈ written) :
      Moves P s (.commit i)
        { s.put i .idle with
          committed := P.publish found (P.compute request rows).2 s.committed
          log := s.log ++ [request] }
  | rollback (i : ℕ) : Moves P s (.rollback i) (s.put i .idle)

theorem writeOf_eq_none_of_not_mem {found saved : Dict κ υ} {k : κ} (h : k ∉ saved.keys) :
    writeOf found saved k = none := by
  rw [writeOf, (Dict.get?_eq_none_iff saved k).2 h]

/-- A step does nothing, or it is a move. -/
theorem step_cases (P : Program κ υ ρ) (s : State κ υ ρ) (a : Action κ ρ) :
    P.step s a = s ∨ Moves P s a (P.step s a) := by
  cases a with
  | select i request =>
    simp only [step]
    split
    · next hσ => exact Or.inr (.select i request hσ)
    · exact Or.inl rfl
  | lock i =>
    simp only [step]
    split
    · next request candidates hσ =>
      split
      · next hfree =>
        exact Or.inr (.lock i request candidates hσ fun k hk => (State.noOther_iff rfl).1 (hfree k hk))
      · exact Or.inl rfl
    · exact Or.inl rfl
  | save i =>
    simp only [step]
    split
    · next request rows hσ => exact Or.inr (.save i request rows hσ)
    · exact Or.inl rfl
  | write i k =>
    simp only [step]
    split
    · next request rows found written hσ =>
      split
      · next row hwrite =>
        split
        · next hfree =>
          exact Or.inr (.insert i k request rows found written row hσ hwrite hfree.1
            ((State.noOther_iff rfl).1 hfree.2))
        · exact Or.inl rfl
      · next old new hwrite =>
        split
        · next hfree =>
          exact Or.inr (.update i k request rows found written old new hσ hwrite
            ((State.noOther_iff rfl).1 hfree))
        · exact Or.inl rfl
      · exact Or.inl rfl
    · exact Or.inl rfl
  | commit i =>
    simp only [step]
    split
    · next request rows found written hσ =>
      split
      · next hready =>
        refine Or.inr (.commit i request rows found written hσ hready.1 fun k hk => ?_)
        by_cases hmem : k ∈ (P.compute request rows).2.keys
        · exact (hready.2 k hmem).resolve_left hk
        · exact absurd (writeOf_eq_none_of_not_mem hmem) hk
      · exact Or.inl rfl
    · exact Or.inl rfl
  | rollback i => exact Or.inr (.rollback i)

end Program

/-! ## The invariant -/

/-- What the theorem needs of a program: a transaction that loaded some rows looks at those of its
    scope and saves the others as they were; one that loaded none saves a row `seed`; and patching
    the row that was read gives the row that was to be saved. -/
structure Program.Local (P : Program κ υ ρ) (scope : ρ → List κ) (seed : κ) : Prop where
  agree : ∀ request (rows rows' : Dict κ υ), rows.entries ≠ [] → rows'.entries ≠ [] →
    (∀ k ∈ scope request, rows.get? k = rows'.get? k) →
    (P.compute request rows).1 = (P.compute request rows').1 ∧
    ∀ k ∈ scope request, (P.compute request rows).2.get? k = (P.compute request rows').2.get? k
  frame : ∀ request (rows : Dict κ υ), rows.entries ≠ [] → ∀ k ∉ scope request,
    (P.compute request rows).2.get? k = rows.get? k
  seeded : ∀ request, (P.compute request Dict.empty).2.get? seed ≠ none
  patch_self : ∀ old new, P.patch old new old = new

/-- The rows a locking read returned, seen from the rows committed now. Only an account that
    started without rows can have a read that returned none; any other read returned `pivot`. -/
structure Snapshot (start committed : Dict κ υ) (pivot : κ) (rows : Dict κ υ) : Prop where
  current : ∀ k row, rows.get? k = some row → committed.get? k = some row
  fresh : rows.entries = [] → start.entries = []
  pivot_mem : rows.entries ≠ [] → rows.get? pivot ≠ none

/-- What holds of a session that is saving. -/
structure Saving (scope : ρ → List κ) (committed : Dict κ υ) (pivot : κ) (request : ρ)
    (rows found : Dict κ υ) (written : List κ) : Prop where
  covered : ∀ k ∈ scope request, found.get? k ≠ none → rows.get? k ≠ none
  fresh : rows.entries = [] → found.entries = []
  current : rows.entries ≠ [] → ∀ k, found.get? k = committed.get? k
  /-- Nothing is committed while a first transaction has its pivot row inserted. -/
  first : rows.entries = [] → pivot ∈ written → committed.entries = []

/-- A session is consistent with the rows committed. -/
def Consistent (scope : ρ → List κ) (start committed : Dict κ υ) (pivot : κ) : Session κ υ ρ → Prop
  | .idle => True
  | .selecting _ candidates => (∀ k ∈ candidates, committed.get? k ≠ none) ∧
      (candidates = [] → start.entries = []) ∧ (candidates ≠ [] → pivot ∈ candidates)
  | .loaded _ rows => Snapshot start committed pivot rows
  | .saving request rows found written => Snapshot start committed pivot rows ∧
      Saving scope committed pivot request rows found written

/-- The invariant of the runs whose second reads are covered. -/
structure Serialised (P : Program κ υ ρ) (scope : ρ → List κ) (start : Dict κ υ) (pivot : κ)
    (s : State κ υ ρ) : Prop where
  serial : ∀ k, s.committed.get? k = (s.log.foldl P.serial start).get? k
  pivot_mem : s.committed.entries ≠ [] → s.committed.get? pivot ≠ none
  started : start.entries ≠ [] → s.committed.entries ≠ []
  consistent : ∀ i, Consistent scope start s.committed pivot (s.session i)
  locks : ∀ i j k, i ≠ j → P.locks k (s.session i) = true → P.locks k (s.session j) = false
  inserts : ∀ i j k, i ≠ j → P.inserts k (s.session i) = true → P.inserts k (s.session j) = false

/-- A row that is found as it is committed is published as it is saved. -/
theorem Program.get?_publish {P : Program κ υ ρ} {found saved committed : Dict κ υ} {k : κ}
    (hself : ∀ old new, P.patch old new old = new) (hfound : found.get? k = committed.get? k) :
    (P.publish found saved committed).get? k = (saved.get? k).or (committed.get? k) := by
  rw [publish, Dict.get?_alter saved.keys_nodup]
  split
  · rw [writeOf, hfound]
    cases saved.get? k with
    | none => rfl
    | some new =>
      cases hrow : committed.get? k with
      | none => rfl
      | some old =>
        by_cases heq : old = new
        · simp [heq]
        · simp [heq, hself]
  · next hk => rw [(Dict.get?_eq_none_iff saved k).2 hk, Option.none_or]

theorem Program.publish_ne_none {P : Program κ υ ρ} {found saved committed : Dict κ υ} {k : κ}
    (h : committed.get? k ≠ none) : (P.publish found saved committed).get? k ≠ none := by
  rw [publish, Dict.get?_alter saved.keys_nodup]
  split
  · simp [h]
  · exact h

namespace Snapshot

variable {start committed rows : Dict κ υ} {pivot : κ}

omit [DecidableEq υ] in
theorem entries_ne (h : Snapshot start committed pivot rows) (hne : rows.entries ≠ []) :
    committed.entries ≠ [] := by
  obtain ⟨row, hrow⟩ := Option.ne_none_iff_exists'.1 (h.pivot_mem hne)
  intro hnil
  have := (Dict.entries_eq_nil_iff committed).1 hnil pivot
  rw [h.current pivot row hrow] at this
  exact absurd this (by simp)

omit [DecidableEq υ] in
theorem mem_keys (h : Snapshot start committed pivot rows) (hne : rows.entries ≠ []) :
    pivot ∈ rows.keys :=
  (Dict.mem_keys_iff rows pivot).2 (Option.ne_none_iff_exists'.1 (h.pivot_mem hne))

end Snapshot

/-- A first transaction inserts the pivot row. -/
theorem Saving.writeOf_pivot {P : Program κ υ ρ} {scope : ρ → List κ} {start committed : Dict κ υ}
    {pivot seed : κ} (hlocal : P.Local scope seed) (hpivot : start.entries = [] → pivot = seed)
    {request : ρ} {rows found : Dict κ υ} {written : List κ}
    (hsnap : Snapshot start committed pivot rows)
    (h : Saving scope committed pivot request rows found written) (hempty : rows.entries = []) :
    ∃ row, writeOf found (P.compute request rows).2 pivot = some (.insert row) := by
  obtain rfl := Dict.eq_empty_of_entries hempty
  obtain ⟨row, hrow⟩ := Option.ne_none_iff_exists'.1 (hlocal.seeded request)
  refine ⟨row, ?_⟩
  rw [writeOf, hpivot (hsnap.fresh hempty), hrow,
    (Dict.entries_eq_nil_iff found).1 (h.fresh hempty) seed]

namespace Serialised

variable {P : Program κ υ ρ} {scope : ρ → List κ} {start : Dict κ υ} {pivot : κ} {s : State κ υ ρ}

theorem init (hpivot : start.entries ≠ [] → start.get? pivot ≠ none) :
    Serialised P scope start pivot (State.init start) where
  serial _ := rfl
  pivot_mem := hpivot
  started := id
  consistent _ := trivial
  locks _ _ _ _ h := absurd h (by simp [State.init, State.session, Program.locks])
  inserts _ _ _ _ h := absurd h (by simp [State.init, State.session, Program.inserts])

/-- A session moves on and the rows stay: what it holds now must not be held by another. -/
theorem put (h : Serialised P scope start pivot s) {i : ℕ} {σ : Session κ υ ρ}
    (hσ : Consistent scope start s.committed pivot σ)
    (hlocks : ∀ k, P.locks k σ = true → ∀ j, j ≠ i → P.locks k (s.session j) = false)
    (hinserts : ∀ k, P.inserts k σ = true → ∀ j, j ≠ i → P.inserts k (s.session j) = false) :
    Serialised P scope start pivot (s.put i σ) := by
  -- Both exclusions are symmetric, so the moved session may stand on either side.
  have hexcl : ∀ p : κ → Session κ υ ρ → Bool,
      (∀ i j k, i ≠ j → p k (s.session i) = true → p k (s.session j) = false) →
      (∀ k, p k σ = true → ∀ j, j ≠ i → p k (s.session j) = false) →
      ∀ j j' k, j ≠ j' → p k ((s.put i σ).session j) = true → p k ((s.put i σ).session j') = false := by
    intro p hold hnew j j' k hne hj
    rw [State.session_put] at hj ⊢
    split at hj
    · next hji =>
      have hj' : j' ≠ i := fun hj' => hne (hji.trans hj'.symm)
      rw [if_neg hj']
      exact hnew k hj j' hj'
    · next hji =>
      split
      · next hji' =>
        cases hp : p k σ with
        | false => rfl
        | true =>
          rw [hnew k hp j hji] at hj
          exact absurd hj (by simp)
      · exact hold j j' k hne hj
  refine ⟨h.serial, h.pivot_mem, h.started, fun j => ?_, hexcl P.locks h.locks hlocks,
    hexcl P.inserts h.inserts hinserts⟩
  rw [State.session_put]
  split
  · exact hσ
  · exact h.consistent j

theorem select (h : Serialised P scope start pivot s) (i : ℕ) (request : ρ) :
    Serialised P scope start pivot (s.put i (.selecting request s.committed.keys)) := by
  refine h.put ⟨fun k hk => ?_, fun hnil => ?_, fun hne => ?_⟩
    (fun _ hk => absurd hk (by simp [Program.locks]))
    (fun _ hk => absurd hk (by simp [Program.inserts]))
  · exact fun hnone => (s.committed.get?_eq_none_iff k).1 hnone hk
  · exact not_not.1 fun hstart => h.started hstart (List.map_eq_nil_iff.1 hnil)
  · have hpivot := h.pivot_mem fun hnil => hne (List.map_eq_nil_iff.2 hnil)
    exact not_not.1 fun hmem => hpivot ((s.committed.get?_eq_none_iff pivot).2 hmem)

theorem lock (h : Serialised P scope start pivot s) {i : ℕ} {request : ρ} {candidates : List κ}
    (hσ : s.session i = .selecting request candidates)
    (hfree : ∀ k ∈ candidates, ∀ j, j ≠ i → P.locks k (s.session j) = false) :
    Serialised P scope start pivot
      (s.put i (.loaded request (s.committed.restrict candidates))) := by
  have hcons := h.consistent i
  rw [hσ] at hcons
  obtain ⟨hmem, hnil, hpivot⟩ := hcons
  have hget : candidates ≠ [] → (s.committed.restrict candidates).get? pivot ≠ none := by
    intro hne
    rw [Dict.get?_restrict, if_pos (hpivot hne)]
    exact hmem pivot (hpivot hne)
  refine h.put ⟨fun k row hrow => ?_, fun hempty => ?_, fun hne => ?_⟩ (fun k hk => ?_)
    (fun _ hk => absurd hk (by simp [Program.inserts]))
  · rw [Dict.get?_restrict] at hrow
    split at hrow
    · exact hrow
    · exact absurd hrow (by simp)
  · refine hnil (not_not.1 fun hne => hget hne ?_)
    exact (Dict.entries_eq_nil_iff _).1 hempty pivot
  · refine hget fun hnone => hne ?_
    rw [Dict.entries_eq_nil_iff]
    intro k
    rw [Dict.get?_restrict, hnone, if_neg (List.not_mem_nil)]
  · refine hfree k ?_
    have hk' : k ∈ (s.committed.restrict candidates).keys := by simpa [Program.locks] using hk
    obtain ⟨row, hrow⟩ := (Dict.mem_keys_iff _ k).1 hk'
    rw [Dict.get?_restrict] at hrow
    split at hrow
    · next hk => exact hk
    · exact absurd hrow (by simp)

theorem save (h : Serialised P scope start pivot s) {i : ℕ} {request : ρ} {rows : Dict κ υ}
    (hσ : s.session i = .loaded request rows)
    (hscope : ∀ k ∈ scope request, s.committed.get? k ≠ none → rows.get? k ≠ none)
    (hempty : rows.entries = [] → s.committed.entries = []) :
    Serialised P scope start pivot (s.put i (.saving request rows s.committed [])) := by
  have hcons := h.consistent i
  rw [hσ] at hcons
  refine h.put ⟨hcons, hscope, hempty, fun _ _ => rfl, fun _ hp => absurd hp (by simp)⟩
    (fun k hk j hj => ?_) (fun _ hk => absurd hk (by simp [Program.inserts]))
  refine h.locks i j k hj.symm ?_
  rw [hσ]
  simpa [Program.locks] using hk

theorem insert (h : Serialised P scope start pivot s) {i : ℕ} {k : κ} {request : ρ}
    {rows found : Dict κ υ} {written : List κ} {row : υ}
    (hσ : s.session i = .saving request rows found written)
    (hwrite : writeOf found (P.compute request rows).2 k = some (.insert row))
    (hnew : s.committed.get? k = none)
    (hfree : ∀ j, j ≠ i → P.inserts k (s.session j) = false) :
    Serialised P scope start pivot (s.put i (.saving request rows found (k :: written))) := by
  have hcons := h.consistent i
  rw [hσ] at hcons
  obtain ⟨hsnap, hsaving⟩ := hcons
  refine h.put ⟨hsnap, { hsaving with first := fun hempty hp => ?_ }⟩ (fun k' hk' j hj => ?_)
    (fun k' hk' j hj => ?_)
  · rcases List.mem_cons.1 hp with rfl | hp
    · -- The pivot row is not committed, so no row is.
      exact not_not.1 fun hne => h.pivot_mem hne hnew
    · exact hsaving.first hempty hp
  · refine h.locks i j k' hj.symm ?_
    rw [hσ]
    by_cases hk : k' = k
    · subst hk
      simpa [Program.locks, hwrite] using hk'
    · simpa [Program.locks, hk] using hk'
  · by_cases hk : k' = k
    · exact hk ▸ hfree j hj
    · refine h.inserts i j k' hj.symm ?_
      rw [hσ]
      simpa [Program.inserts, hk] using hk'

theorem update (h : Serialised P scope start pivot s) {i : ℕ} {k : κ} {request : ρ}
    {rows found : Dict κ υ} {written : List κ} {old new : υ}
    (hσ : s.session i = .saving request rows found written)
    (hwrite : writeOf found (P.compute request rows).2 k = some (.update old new))
    (hfree : ∀ j, j ≠ i → P.locks k (s.session j) = false) :
    Serialised P scope start pivot (s.put i (.saving request rows found (k :: written))) := by
  have hcons := h.consistent i
  rw [hσ] at hcons
  obtain ⟨hsnap, hsaving⟩ := hcons
  refine h.put ⟨hsnap, { hsaving with first := fun hempty hp => ?_ }⟩ (fun k' hk' j hj => ?_)
    (fun k' hk' j hj => ?_)
  · rcases List.mem_cons.1 hp with rfl | hp
    · -- A first transaction found no row, so it updates none.
      have hnone := (Dict.entries_eq_nil_iff found).1 (hsaving.fresh hempty) pivot
      rw [writeOf, hnone] at hwrite
      split at hwrite <;> exact absurd hwrite (by simp_all)
    · exact hsaving.first hempty hp
  · by_cases hk : k' = k
    · exact hk ▸ hfree j hj
    · refine h.locks i j k' hj.symm ?_
      rw [hσ]
      simpa [Program.locks, hk] using hk'
  · refine h.inserts i j k' hj.symm ?_
    rw [hσ]
    by_cases hk : k' = k
    · subst hk
      exact absurd hk' (by simp [Program.inserts, hwrite])
    · simpa [Program.inserts, hk] using hk'

theorem rollback (h : Serialised P scope start pivot s) (i : ℕ) :
    Serialised P scope start pivot (s.put i .idle) :=
  h.put trivial (fun _ hk => absurd hk (by simp [Program.locks]))
    (fun _ hk => absurd hk (by simp [Program.inserts]))

section Commit

variable {seed : κ} {i : ℕ} {request : ρ} {rows found : Dict κ υ} {written : List κ}

/-- When a session commits, the rows it found are still the rows committed. -/
theorem found_eq (h : Serialised P scope start pivot s) (hlocal : P.Local scope seed)
    (hpivot : start.entries = [] → pivot = seed)
    (hσ : s.session i = .saving request rows found written)
    (hflushed : ∀ k, writeOf found (P.compute request rows).2 k ≠ none → k ∈ written) (k : κ) :
    found.get? k = s.committed.get? k := by
  have hcons := h.consistent i
  rw [hσ] at hcons
  obtain ⟨hsnap, hsaving⟩ := hcons
  by_cases hempty : rows.entries = []
  · obtain ⟨row, hrow⟩ := hsaving.writeOf_pivot hlocal hpivot hsnap hempty
    have hfirst := hsaving.first hempty (hflushed pivot (by simp [hrow]))
    rw [(Dict.entries_eq_nil_iff found).1 (hsaving.fresh hempty),
      (Dict.entries_eq_nil_iff s.committed).1 hfirst]
  · exact hsaving.current hempty k

/-- The rows a commit publishes are those of running its request on the rows committed before. -/
theorem publish_eq (h : Serialised P scope start pivot s) (hlocal : P.Local scope seed)
    (hpivot : start.entries = [] → pivot = seed)
    (hσ : s.session i = .saving request rows found written)
    (hok : (P.compute request rows).1 = true)
    (hflushed : ∀ k, writeOf found (P.compute request rows).2 k ≠ none → k ∈ written) (k : κ) :
    (P.publish found (P.compute request rows).2 s.committed).get? k
      = (P.serial (s.log.foldl P.serial start) request).get? k := by
  have hfound := h.found_eq hlocal hpivot hσ hflushed
  have hcons := h.consistent i
  rw [hσ] at hcons
  obtain ⟨hsnap, hsaving⟩ := hcons
  rw [Program.get?_publish hlocal.patch_self (hfound k), h.serial]
  generalize hD : s.log.foldl P.serial start = D
  have hserial : ∀ k, s.committed.get? k = D.get? k := fun k => hD ▸ h.serial k
  by_cases hempty : rows.entries = []
  · -- A first transaction: nothing was loaded and nothing is committed.
    have hDempty : D.entries = [] := by
      rw [Dict.entries_eq_nil_iff]
      intro k
      rw [← hserial, ← hfound]
      exact (Dict.entries_eq_nil_iff found).1 (hsaving.fresh hempty) k
    obtain rfl := Dict.eq_empty_of_entries hempty
    obtain rfl := Dict.eq_empty_of_entries hDempty
    rw [Program.serial, if_pos hok, Dict.get?_update]
  · have hDne : D.entries ≠ [] := by
      intro hnil
      refine hsnap.entries_ne hempty ((Dict.entries_eq_nil_iff _).2 fun k => ?_)
      rw [hserial, (Dict.entries_eq_nil_iff D).1 hnil]
    have hscope : ∀ k ∈ scope request, rows.get? k = D.get? k := by
      intro k hk
      cases hrow : rows.get? k with
      | some row => rw [← hserial, hsnap.current k row hrow]
      | none =>
        rw [← hserial, ← hfound]
        exact (not_not.1 fun hne => hsaving.covered k hk hne hrow).symm
    obtain ⟨hsame, hsaved⟩ := hlocal.agree request rows D hempty hDne hscope
    rw [Program.serial, if_pos (hsame ▸ hok), Dict.get?_update]
    by_cases hk : k ∈ scope request
    · rw [hsaved k hk]
    · rw [hlocal.frame request rows hempty k hk, hlocal.frame request D hDne k hk, Option.or_self]
      cases hrow : rows.get? k with
      | none => rfl
      | some row =>
        rw [← hserial, hsnap.current k row hrow]
        rfl

/-- While a session is ready to commit, every other session that has read the rows read none, and
    if it is saving it has not inserted the pivot row. -/
theorem others_first (h : Serialised P scope start pivot s) (hlocal : P.Local scope seed)
    (hpivot : start.entries = [] → pivot = seed)
    (hσ : s.session i = .saving request rows found written)
    (hflushed : ∀ k, writeOf found (P.compute request rows).2 k ≠ none → k ∈ written) {j : ℕ}
    (hj : j ≠ i) {rows' : Dict κ υ} (hsnap' : Snapshot start s.committed pivot rows')
    (hlocks : rows'.entries ≠ [] → P.locks pivot (s.session j) = true) :
    rows'.entries = [] ∧ (s.committed.entries = [] → P.inserts pivot (s.session j) = false) := by
  have hcons := h.consistent i
  rw [hσ] at hcons
  obtain ⟨hsnap, hsaving⟩ := hcons
  by_cases hempty : rows.entries = []
  · obtain ⟨row, hrow⟩ := hsaving.writeOf_pivot hlocal hpivot hsnap hempty
    have hwritten := hflushed pivot (by simp [hrow])
    refine ⟨not_not.1 fun hne => hsnap'.entries_ne hne (hsaving.first hempty hwritten), fun _ => ?_⟩
    refine h.inserts i j pivot hj.symm ?_
    simp [hσ, Program.inserts, hwritten, hrow]
  · have hlock : P.locks pivot (s.session i) = true := by
      simp [hσ, Program.locks, hsnap.mem_keys hempty]
    refine ⟨not_not.1 fun hne => ?_, fun hnil => absurd hnil (hsnap.entries_ne hempty)⟩
    rw [h.locks i j pivot hj.symm hlock] at hlocks
    exact absurd (hlocks hne) (by simp)

theorem publish_pivot (h : Serialised P scope start pivot s) (hlocal : P.Local scope seed)
    (hpivot : start.entries = [] → pivot = seed)
    (hσ : s.session i = .saving request rows found written)
    (hflushed : ∀ k, writeOf found (P.compute request rows).2 k ≠ none → k ∈ written) :
    (P.publish found (P.compute request rows).2 s.committed).get? pivot ≠ none := by
  have hcons := h.consistent i
  rw [hσ] at hcons
  obtain ⟨hsnap, hsaving⟩ := hcons
  by_cases hempty : rows.entries = []
  · obtain ⟨row, hrow⟩ := hsaving.writeOf_pivot hlocal hpivot hsnap hempty
    rw [Program.get?_publish hlocal.patch_self (h.found_eq hlocal hpivot hσ hflushed pivot)]
    intro hnone
    rw [writeOf, (Option.or_eq_none_iff.1 hnone).1] at hrow
    exact absurd hrow (by simp)
  · exact Program.publish_ne_none (h.pivot_mem (hsnap.entries_ne hempty))

/-- What a commit publishes does not contradict what the other sessions have seen. -/
theorem consistent_publish (h : Serialised P scope start pivot s) (hlocal : P.Local scope seed)
    (hpivot : start.entries = [] → pivot = seed)
    (hσ : s.session i = .saving request rows found written)
    (hflushed : ∀ k, writeOf found (P.compute request rows).2 k ≠ none → k ∈ written) {j : ℕ}
    (hj : j ≠ i) :
    Consistent scope start (P.publish found (P.compute request rows).2 s.committed) pivot
      (s.session j) := by
  have hcons := h.consistent j
  -- A session whose locking read returned nothing has nothing to contradict.
  have hsnapshot : ∀ rows', Snapshot start s.committed pivot rows' → rows'.entries = [] →
      Snapshot start (P.publish found (P.compute request rows).2 s.committed) pivot rows' := by
    intro rows' hsnap' hnil
    refine ⟨fun k row hrow => ?_, hsnap'.fresh, hsnap'.pivot_mem⟩
    rw [(Dict.entries_eq_nil_iff rows').1 hnil] at hrow
    exact absurd hrow (by simp)
  cases hσ' : s.session j with
  | idle => trivial
  | selecting request' candidates =>
    rw [hσ'] at hcons
    exact ⟨fun k hk => Program.publish_ne_none (hcons.1 k hk), hcons.2⟩
  | loaded request' rows' =>
    rw [hσ'] at hcons
    obtain ⟨hnil, -⟩ := h.others_first hlocal hpivot hσ hflushed hj hcons fun hne => by
      simp [hσ', Program.locks, hcons.mem_keys hne]
    exact hsnapshot rows' hcons hnil
  | saving request' rows' found' written' =>
    rw [hσ'] at hcons
    obtain ⟨hsnap', hsaving'⟩ := hcons
    obtain ⟨hnil, hinserts⟩ := h.others_first hlocal hpivot hσ hflushed hj hsnap' fun hne => by
      simp [hσ', Program.locks, hsnap'.mem_keys hne]
    refine ⟨hsnapshot rows' hsnap' hnil, hsaving'.covered, hsaving'.fresh,
      fun hne => absurd hnil hne, fun _ hp => ?_⟩
    obtain ⟨row, hrow⟩ := hsaving'.writeOf_pivot hlocal hpivot hsnap' hnil
    have hfree := hinserts (hsaving'.first hnil hp)
    rw [hσ'] at hfree
    exact absurd hfree (by simp [Program.inserts, hp, hrow])

theorem commit (h : Serialised P scope start pivot s) (hlocal : P.Local scope seed)
    (hpivot : start.entries = [] → pivot = seed)
    (hσ : s.session i = .saving request rows found written)
    (hok : (P.compute request rows).1 = true)
    (hflushed : ∀ k, writeOf found (P.compute request rows).2 k ≠ none → k ∈ written) :
    Serialised P scope start pivot
      { s.put i .idle with
        committed := P.publish found (P.compute request rows).2 s.committed
        log := s.log ++ [request] } := by
  have hidle := h.rollback i
  refine ⟨fun k => ?_, fun _ => ?_, fun hstart => ?_, fun j => ?_, hidle.locks, hidle.inserts⟩
  · rw [List.foldl_append]
    exact h.publish_eq hlocal hpivot hσ hok hflushed k
  · exact h.publish_pivot hlocal hpivot hσ hflushed
  · exact fun hnil => h.publish_pivot hlocal hpivot hσ hflushed
      ((Dict.entries_eq_nil_iff _).1 hnil pivot)
  · show Consistent scope start _ pivot ((s.put i .idle).session j)
    rw [State.session_put]
    split
    · trivial
    · next hj => exact h.consistent_publish hlocal hpivot hσ hflushed hj

end Commit

/-- A step whose second read is covered keeps the invariant. -/
theorem step {seed : κ} (h : Serialised P scope start pivot s) (hlocal : P.Local scope seed)
    (hpivot : start.entries = [] → pivot = seed) {a : Action κ ρ}
    (hcovered : Program.Covered scope s a) : Serialised P scope start pivot (P.step s a) := by
  rcases P.step_cases s a with hsame | hmoves
  · rwa [hsame]
  · generalize P.step s a = s' at hmoves
    cases hmoves with
    | select i request _ => exact h.select i request
    | lock i request candidates hσ hfree => exact h.lock hσ hfree
    | save i request rows hσ =>
      rw [Program.Covered, hσ] at hcovered
      exact h.save hσ hcovered.1 hcovered.2
    | insert i k request rows found written row hσ hwrite hnew hfree =>
      exact h.insert hσ hwrite hnew hfree
    | update i k request rows found written old new hσ hwrite hfree =>
      exact h.update hσ hwrite hfree
    | commit i request rows found written hσ hok hflushed =>
      exact h.commit hlocal hpivot hσ hok hflushed
    | rollback i => exact h.rollback i

end Serialised

/-- A run whose second reads are covered commits what its requests do one after another. -/
theorem serialises {P : Program κ υ ρ} {scope : ρ → List κ} {seed : κ} (hlocal : P.Local scope seed)
    (start : Dict κ υ) (actions : List (Action κ ρ))
    (hcovered : Guarded P.step (Program.Covered scope) (State.init start) actions) (k : κ) :
    (actions.foldl P.step (State.init start)).committed.get? k
      = ((actions.foldl P.step (State.init start)).log.foldl P.serial start).get? k := by
  -- Every locking read returns the pivot row or nothing: any row there was from the start, or else
  -- the row that the first transaction inserts.
  obtain ⟨pivot, hmem, hseed⟩ : ∃ pivot, (start.entries ≠ [] → start.get? pivot ≠ none) ∧
      (start.entries = [] → pivot = seed) := by
    by_cases hnil : start.entries = []
    · exact ⟨seed, fun hne => absurd hnil hne, fun _ => rfl⟩
    · obtain ⟨k, hk⟩ := not_forall.1 fun hall => hnil ((Dict.entries_eq_nil_iff start).2 hall)
      exact ⟨k, fun _ => hk, fun h => absurd h hnil⟩
  exact (run_invariant (fun _ _ hs hg => hs.step hlocal hseed hg) actions _
    (Serialised.init hmem : Serialised P scope start pivot _) hcovered).serial k

end Library.ReadCommitted
