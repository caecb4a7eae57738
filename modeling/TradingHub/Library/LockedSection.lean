import TradingHub.Library.ReadCommitted

set_option autoImplicit false

/-! # Transactions around a lock, under READ COMMITTED

Transactions that use two tables. They read the second one without a lock to find out what there
is to do, then lock and read all rows of the first with a `SELECT .. FOR UPDATE`, read the second
again, write it, and save what they computed to the first as in `ReadCommitted`. Sessions
interleave statement by statement; the statements are those of `ReadCommitted`, and a write to the
second table is published with the commit. Such writes are not made to wait for each other: the
runs in which they would are among those considered.

What the first read returned may be out of date when the lock is obtained, and nothing takes care
of that here. What `serialises` shows is that it is all that can go wrong: if the transactions
insert no rows into the first table, the committed ones take effect one after another, each on the
tables the previous one left and on what it had read at the start. -/

namespace Library.LockedSection

open ReadCommitted

variable {κ υ τ θ ρ : Type}

/-! ## Programs and sessions -/

/-- What the transactions do. `read` is the first read: what it makes of a query, if there is
    anything to do. `alter` is what the write to the second table makes of its newest version. -/
structure Program (κ υ τ θ ρ : Type) where
  rows : ReadCommitted.Program κ υ (ρ × τ)
  read : θ → τ → Option ρ
  alter : ρ × τ → Dict κ υ → τ → τ

/-- How far a session is. -/
inductive Session (κ υ τ ρ : Type)
  | idle
  /-- The first read has returned. -/
  | started (request : ρ)
  /-- The locking read has started; the candidates are picked. -/
  | selecting (request : ρ) (candidates : List κ)
  /-- The locking read has returned `rows`. -/
  | locked (request : ρ) (rows : Dict κ υ)
  /-- The second table has been read again. -/
  | loaded (request : ρ) (rows : Dict κ υ) (view : τ)
  /-- The write to the second table is flushed. -/
  | altered (request : ρ) (rows : Dict κ υ) (view : τ)
  /-- The save has read `found`; the keys in `written` have been flushed. -/
  | saving (request : ρ) (rows : Dict κ υ) (view : τ) (found : Dict κ υ) (written : List κ)

/-- The tables as they are committed, the sessions, and the requests committed in commit order. -/
structure State (κ υ τ ρ : Type) where
  rows : Dict κ υ
  table : τ
  sessions : Dict ℕ (Session κ υ τ ρ)
  log : List ρ

namespace State

def init (rows : Dict κ υ) (table : τ) : State κ υ τ ρ := ⟨rows, table, Dict.empty, []⟩

def session (s : State κ υ τ ρ) (i : ℕ) : Session κ υ τ ρ := (s.sessions.get? i).getD .idle

def put (s : State κ υ τ ρ) (i : ℕ) (σ : Session κ υ τ ρ) : State κ υ τ ρ :=
  { s with sessions := s.sessions.set i σ }

/-- No session but `i` has the property. -/
def noOther (s : State κ υ τ ρ) (i : ℕ) (p : Session κ υ τ ρ → Bool) : Bool :=
  s.sessions.entries.all fun e => e.1 = i || !p e.2

@[simp] theorem rows_put (s : State κ υ τ ρ) (i : ℕ) (σ : Session κ υ τ ρ) :
    (s.put i σ).rows = s.rows := rfl

@[simp] theorem table_put (s : State κ υ τ ρ) (i : ℕ) (σ : Session κ υ τ ρ) :
    (s.put i σ).table = s.table := rfl

@[simp] theorem log_put (s : State κ υ τ ρ) (i : ℕ) (σ : Session κ υ τ ρ) :
    (s.put i σ).log = s.log := rfl

theorem session_put (s : State κ υ τ ρ) (i : ℕ) (σ : Session κ υ τ ρ) (j : ℕ) :
    (s.put i σ).session j = if j = i then σ else s.session j := by
  unfold session put
  rw [Dict.get?_set]
  split <;> rfl

theorem noOther_iff {s : State κ υ τ ρ} {i : ℕ} {p : Session κ υ τ ρ → Bool}
    (hidle : p .idle = false) :
    s.noOther i p = true ↔ ∀ j, j ≠ i → p (s.session j) = false :=
  Dict.all_other_iff hidle s.sessions i

end State

/-- A statement, or the moment at which one returns, of session `i`. -/
inductive Action (κ θ : Type)
  | start (i : ℕ) (query : θ)
  | select (i : ℕ)
  | lock (i : ℕ)
  | load (i : ℕ)
  | alter (i : ℕ)
  | save (i : ℕ)
  | write (i : ℕ) (k : κ)
  | commit (i : ℕ)
  | rollback (i : ℕ)

/-- The keys whose rows the session has locked or inserted. -/
def Session.held : Session κ υ τ ρ → List κ
  | .idle => []
  | .started _ => []
  | .selecting _ _ => []
  | .locked _ rows => rows.keys
  | .loaded _ rows _ => rows.keys
  | .altered _ rows _ => rows.keys
  | .saving _ rows _ _ written => rows.keys ++ written

variable [DecidableEq κ] [DecidableEq υ]

/-- The session has locked or inserted the row `k`. -/
def Session.holds (k : κ) (σ : Session κ υ τ ρ) : Bool := k ∈ σ.held

namespace Program

variable (P : Program κ υ τ θ ρ)

/-- Carry out an action; one that has to wait, or does not apply, changes nothing. -/
def step (s : State κ υ τ ρ) : Action κ θ → State κ υ τ ρ
  | .start i query =>
    match s.session i, P.read query s.table with
    | .idle, some request => s.put i (.started request)
    | _, _ => s
  | .select i =>
    match s.session i with
    | .started request => s.put i (.selecting request s.rows.keys)
    | _ => s
  | .lock i =>
    match s.session i with
    | .selecting request candidates =>
      if ∀ k ∈ candidates, s.noOther i (Session.holds k) then
        s.put i (.locked request (s.rows.restrict candidates))
      else s
    | _ => s
  | .load i =>
    match s.session i with
    | .locked request rows => s.put i (.loaded request rows s.table)
    | _ => s
  | .alter i =>
    match s.session i with
    | .loaded request rows view => s.put i (.altered request rows view)
    | _ => s
  | .save i =>
    match s.session i with
    | .altered request rows view => s.put i (.saving request rows view s.rows [])
    | _ => s
  | .write i k =>
    match s.session i with
    | .saving request rows view found written =>
      match writeOf found (P.rows.compute (request, view) rows).2 k with
      | some (.insert _) =>
        if s.rows.get? k = none ∧ s.noOther i (Session.holds k) then
          s.put i (.saving request rows view found (k :: written))
        else s
      | some (.update _ _) =>
        if s.noOther i (Session.holds k) then s.put i (.saving request rows view found (k :: written))
        else s
      | none => s
    | _ => s
  | .commit i =>
    match s.session i with
    | .saving request rows view found written =>
      let saved := (P.rows.compute (request, view) rows).2
      if (P.rows.compute (request, view) rows).1 = true ∧
          ∀ k ∈ saved.keys, writeOf found saved k = none ∨ k ∈ written then
        { s.put i .idle with
          rows := P.rows.publish found saved s.rows
          table := P.alter (request, view) rows s.table
          log := s.log ++ [request] }
      else s
    | _ => s
  | .rollback i => s.put i .idle

/-- Run one request on its own, after its first read. -/
def serial (tables : Dict κ υ × τ) (request : ρ) : Dict κ υ × τ :=
  if (P.rows.compute (request, tables.2) tables.1).1 then
    (P.rows.publish tables.1 (P.rows.compute (request, tables.2) tables.1).2 tables.1,
      P.alter (request, tables.2) tables.1 tables.2)
  else tables

end Program

/-! ## What a step can do -/

namespace Program

variable {P : Program κ υ τ θ ρ} {s : State κ υ τ ρ}

/-- The moves of the sessions, with the conditions under which they happen. -/
inductive Moves (P : Program κ υ τ θ ρ) (s : State κ υ τ ρ) : Action κ θ → State κ υ τ ρ → Prop
  | start (i : ℕ) (query : θ) (request : ρ) (hσ : s.session i = .idle)
      (hread : P.read query s.table = some request) :
      Moves P s (.start i query) (s.put i (.started request))
  | select (i : ℕ) (request : ρ) (hσ : s.session i = .started request) :
      Moves P s (.select i) (s.put i (.selecting request s.rows.keys))
  | lock (i : ℕ) (request : ρ) (candidates : List κ)
      (hσ : s.session i = .selecting request candidates)
      (hfree : ∀ k ∈ candidates, ∀ j, j ≠ i → k ∉ (s.session j).held) :
      Moves P s (.lock i) (s.put i (.locked request (s.rows.restrict candidates)))
  | load (i : ℕ) (request : ρ) (rows : Dict κ υ) (hσ : s.session i = .locked request rows) :
      Moves P s (.load i) (s.put i (.loaded request rows s.table))
  | alter (i : ℕ) (request : ρ) (rows : Dict κ υ) (view : τ)
      (hσ : s.session i = .loaded request rows view) :
      Moves P s (.alter i) (s.put i (.altered request rows view))
  | save (i : ℕ) (request : ρ) (rows : Dict κ υ) (view : τ)
      (hσ : s.session i = .altered request rows view) :
      Moves P s (.save i) (s.put i (.saving request rows view s.rows []))
  | write (i : ℕ) (k : κ) (request : ρ) (rows : Dict κ υ) (view : τ) (found : Dict κ υ)
      (written : List κ) (hσ : s.session i = .saving request rows view found written)
      (hwrite : writeOf found (P.rows.compute (request, view) rows).2 k ≠ none)
      (hfree : ∀ j, j ≠ i → k ∉ (s.session j).held) :
      Moves P s (.write i k) (s.put i (.saving request rows view found (k :: written)))
  | commit (i : ℕ) (request : ρ) (rows : Dict κ υ) (view : τ) (found : Dict κ υ)
      (written : List κ) (hσ : s.session i = .saving request rows view found written)
      (hok : (P.rows.compute (request, view) rows).1 = true)
      (hflushed : ∀ k, writeOf found (P.rows.compute (request, view) rows).2 k ≠ none → k ∈ written) :
      Moves P s (.commit i)
        { s.put i .idle with
          rows := P.rows.publish found (P.rows.compute (request, view) rows).2 s.rows
          table := P.alter (request, view) rows s.table
          log := s.log ++ [request] }
  | rollback (i : ℕ) : Moves P s (.rollback i) (s.put i .idle)

omit [DecidableEq υ] in
theorem noOther_holds_iff {i : ℕ} {k : κ} :
    s.noOther i (Session.holds k) = true ↔ ∀ j, j ≠ i → k ∉ (s.session j).held := by
  rw [State.noOther_iff (by simp [Session.holds, Session.held])]
  simp [Session.holds]

/-- A step does nothing, or it is a move. -/
theorem step_cases (P : Program κ υ τ θ ρ) (s : State κ υ τ ρ) (a : Action κ θ) :
    P.step s a = s ∨ Moves P s a (P.step s a) := by
  cases a with
  | start i query =>
    simp only [step]
    split
    · next request hσ hread => exact Or.inr (.start i query request hσ hread)
    · exact Or.inl rfl
  | select i =>
    simp only [step]
    split
    · next request hσ => exact Or.inr (.select i request hσ)
    · exact Or.inl rfl
  | lock i =>
    simp only [step]
    split
    · next request candidates hσ =>
      split
      · next hfree =>
        exact Or.inr (.lock i request candidates hσ fun k hk => noOther_holds_iff.1 (hfree k hk))
      · exact Or.inl rfl
    · exact Or.inl rfl
  | load i =>
    simp only [step]
    split
    · next request rows hσ => exact Or.inr (.load i request rows hσ)
    · exact Or.inl rfl
  | alter i =>
    simp only [step]
    split
    · next request rows view hσ => exact Or.inr (.alter i request rows view hσ)
    · exact Or.inl rfl
  | save i =>
    simp only [step]
    split
    · next request rows view hσ => exact Or.inr (.save i request rows view hσ)
    · exact Or.inl rfl
  | write i k =>
    simp only [step]
    split
    · next request rows view found written hσ =>
      split
      · next row hwrite =>
        split
        · next hfree =>
          exact Or.inr (.write i k request rows view found written hσ (by simp [hwrite])
            (noOther_holds_iff.1 hfree.2))
        · exact Or.inl rfl
      · next old new hwrite =>
        split
        · next hfree =>
          exact Or.inr (.write i k request rows view found written hσ (by simp [hwrite])
            (noOther_holds_iff.1 hfree))
        · exact Or.inl rfl
      · exact Or.inl rfl
    · exact Or.inl rfl
  | commit i =>
    simp only [step]
    split
    · next request rows view found written hσ =>
      split
      · next hready =>
        refine Or.inr (.commit i request rows view found written hσ hready.1 fun k hk => ?_)
        by_cases hmem : k ∈ (P.rows.compute (request, view) rows).2.keys
        · exact (hready.2 k hmem).resolve_left hk
        · exact absurd (ReadCommitted.Program.writeOf_eq_none_of_not_mem hmem) hk
      · exact Or.inl rfl
    · exact Or.inl rfl
  | rollback i => exact Or.inr (.rollback i)

end Program

/-! ## The invariant -/

/-- What the theorem needs of a program, `J` being an invariant of the tables and `R` what is known
    of a request: the first read makes only such requests, and running one on its own keeps the
    invariant, finds rows and inserts none. -/
structure Program.Sound (P : Program κ υ τ θ ρ) (J : Dict κ υ → τ → Prop) (R : ρ → Prop) : Prop where
  read : ∀ rows table query request, J rows table → P.read query table = some request → R request
  serial : ∀ rows table request, J rows table → R request →
    J (P.serial (rows, table) request).1 (P.serial (rows, table) request).2
  nonempty : ∀ rows table request, J rows table → R request → rows.entries ≠ []
  closed : ∀ rows table request k, J rows table → R request →
    (P.rows.compute (request, table) rows).2.get? k ≠ none → rows.get? k ≠ none

/-- A session knows its request, and what it has read is what is committed: only the candidates of
    a locking read that has not returned may have been overtaken, and not by other keys. -/
def Consistent (R : ρ → Prop) (rows : Dict κ υ) (table : τ) : Session κ υ τ ρ → Prop
  | .idle => True
  | .started request => R request
  | .selecting request candidates => R request ∧ ∀ k, rows.get? k ≠ none → k ∈ candidates
  | .locked request rows' => R request ∧ rows' = rows
  | .loaded request rows' view => R request ∧ rows' = rows ∧ view = table
  | .altered request rows' view => R request ∧ rows' = rows ∧ view = table
  | .saving request rows' view found _ => R request ∧ rows' = rows ∧ view = table ∧ found = rows

omit [DecidableEq υ] in
/-- A session that is not past its locking read does not mind a change of the tables that brings no
    new keys. -/
theorem Consistent.change {R : ρ → Prop} {rows rows' : Dict κ υ} {table table' : τ}
    {σ : Session κ υ τ ρ} (h : Consistent R rows table σ) (hne : rows.entries ≠ [])
    (hheld : σ.held = []) (hkeys : ∀ k, rows'.get? k ≠ none → rows.get? k ≠ none) :
    Consistent R rows' table' σ := by
  have hpast : rows.keys ≠ [] := fun hnil => hne (List.map_eq_nil_iff.1 hnil)
  cases σ with
  | idle => trivial
  | started request => exact h
  | selecting request candidates => exact ⟨h.1, fun k hk => h.2 k (hkeys k hk)⟩
  | locked request rows₁ => exact absurd (h.2 ▸ hheld) hpast
  | loaded request rows₁ view => exact absurd (h.2.1 ▸ hheld) hpast
  | altered request rows₁ view => exact absurd (h.2.1 ▸ hheld) hpast
  | saving request rows₁ view found written =>
    exact absurd (h.2.1 ▸ (List.append_eq_nil_iff.1 hheld).1) hpast

/-- The invariant of the runs: at most one session is past its locking read. -/
structure Serialised (P : Program κ υ τ θ ρ) (J : Dict κ υ → τ → Prop) (R : ρ → Prop)
    (start : Dict κ υ × τ) (s : State κ υ τ ρ) : Prop where
  serial : (s.rows, s.table) = s.log.foldl P.serial start
  tables : J s.rows s.table
  logged : ∀ request ∈ s.log, R request
  consistent : ∀ i, Consistent R s.rows s.table (s.session i)
  alone : ∀ i j, (s.session i).held ≠ [] → (s.session j).held ≠ [] → i = j

namespace Serialised

variable {P : Program κ υ τ θ ρ} {J : Dict κ υ → τ → Prop} {R : ρ → Prop} {start : Dict κ υ × τ}
  {s : State κ υ τ ρ}

theorem init (hJ : J start.1 start.2) : Serialised P J R start (State.init start.1 start.2) where
  serial := rfl
  tables := hJ
  logged request h := absurd h (by simp [State.init])
  consistent i := trivial
  alone i j h := absurd rfl h

/-- One session moves without a commit, and holds nothing more than it did. -/
theorem put (h : Serialised P J R start s) {i : ℕ} {σ : Session κ υ τ ρ}
    (hσ : Consistent R s.rows s.table σ) (hheld : σ.held ≠ [] → (s.session i).held ≠ []) :
    Serialised P J R start (s.put i σ) := by
  refine ⟨h.serial, h.tables, h.logged, fun j => ?_, fun j j' hj hj' => ?_⟩
  · rw [State.session_put]
    split
    · exact hσ
    · exact h.consistent j
  · have hold : ∀ j, ((s.put i σ).session j).held ≠ [] → (s.session j).held ≠ [] := by
      intro j hj
      rw [State.session_put] at hj
      split at hj
      · next heq => exact heq ▸ hheld hj
      · exact hj
    exact h.alone j j' (hold j hj) (hold j' hj')

/-- A session past its locking read holds every row. -/
theorem holds_all (h : Serialised P J R start s) {i : ℕ} (hi : (s.session i).held ≠ []) {k : κ}
    (hk : s.rows.get? k ≠ none) : k ∈ (s.session i).held := by
  have hcons := h.consistent i
  have hmem : k ∈ s.rows.keys := not_not.1 fun hnot => hk ((s.rows.get?_eq_none_iff k).2 hnot)
  cases hσ : s.session i with
  | idle => exact absurd (by rw [hσ]; rfl) hi
  | started request => exact absurd (by rw [hσ]; rfl) hi
  | selecting request candidates => exact absurd (by rw [hσ]; rfl) hi
  | locked request rows =>
    rw [hσ] at hcons
    exact hcons.2 ▸ hmem
  | loaded request rows view =>
    rw [hσ] at hcons
    exact hcons.2.1 ▸ hmem
  | altered request rows view =>
    rw [hσ] at hcons
    exact hcons.2.1 ▸ hmem
  | saving request rows view found written =>
    rw [hσ] at hcons
    exact List.mem_append_left _ (hcons.2.1 ▸ hmem)

/-- The locking read returns all rows, and nobody else is past it. -/
theorem lock (h : Serialised P J R start s) (hP : P.Sound J R) {i : ℕ} {request : ρ}
    {candidates : List κ} (hσ : s.session i = .selecting request candidates)
    (hfree : ∀ k ∈ candidates, ∀ j, j ≠ i → k ∉ (s.session j).held) :
    Serialised P J R start (s.put i (.locked request (s.rows.restrict candidates))) := by
  have hcons := h.consistent i
  rw [hσ] at hcons
  obtain ⟨hR, hcandidates⟩ := hcons
  have hall : s.rows.restrict candidates = s.rows :=
    Dict.restrict_eq_self fun k hk => hcandidates k hk
  obtain ⟨k, hk⟩ : ∃ k, s.rows.get? k ≠ none :=
    not_forall.1 fun hnone => hP.nonempty _ _ _ h.tables hR ((Dict.entries_eq_nil_iff _).2 hnone)
  have hothers : ∀ j, j ≠ i → (s.session j).held = [] := fun j hj =>
    not_not.1 fun hheld => hfree k (hcandidates k hk) j hj (h.holds_all hheld hk)
  refine ⟨h.serial, h.tables, h.logged, fun j => ?_, fun j j' hj hj' => ?_⟩
  · rw [State.session_put]
    split
    · exact ⟨hR, hall⟩
    · exact h.consistent j
  · have honly : ∀ j, ((s.put i (.locked request (s.rows.restrict candidates))).session j).held ≠ []
        → j = i := by
      intro j hj
      rw [State.session_put] at hj
      split at hj
      · next heq => exact heq
      · next hne => exact absurd (hothers j hne) hj
    rw [honly j hj, honly j' hj']

/-- The rows a commit publishes have no new keys. -/
theorem publish_closed {rows found saved : Dict κ υ} {k : κ}
    (hclosed : saved.get? k ≠ none → rows.get? k ≠ none)
    (h : (P.rows.publish found saved rows).get? k ≠ none) : rows.get? k ≠ none := by
  rw [ReadCommitted.Program.publish, Dict.get?_alter saved.keys_nodup] at h
  split at h
  · next hk =>
    obtain ⟨row, hrow⟩ := (Dict.mem_keys_iff saved k).1 hk
    exact hclosed (by rw [hrow]; simp)
  · exact h

theorem commit (h : Serialised P J R start s) (hP : P.Sound J R) {i : ℕ} {request : ρ}
    {rows : Dict κ υ} {view : τ} {found : Dict κ υ} {written : List κ}
    (hσ : s.session i = .saving request rows view found written)
    (hok : (P.rows.compute (request, view) rows).1 = true) :
    Serialised P J R start
      { s.put i .idle with
        rows := P.rows.publish found (P.rows.compute (request, view) rows).2 s.rows
        table := P.alter (request, view) rows s.table
        log := s.log ++ [request] } := by
  have hcons := h.consistent i
  rw [hσ] at hcons
  obtain ⟨hR, rfl, rfl, rfl⟩ := hcons
  have hserial : P.serial (s.rows, s.table) request
      = (P.rows.publish s.rows (P.rows.compute (request, s.table) s.rows).2 s.rows,
        P.alter (request, s.table) s.rows s.table) := by
    rw [Program.serial, if_pos hok]
  have hothers : ∀ j, j ≠ i → (s.session j).held = [] := by
    refine fun j hj => not_not.1 fun hheld => hj (h.alone j i hheld ?_)
    rw [hσ]
    exact fun hnil => hP.nonempty _ _ _ h.tables hR
      (List.map_eq_nil_iff.1 (List.append_eq_nil_iff.1 hnil).1)
  have hidle : Serialised P J R start (s.put i .idle) := h.put trivial fun hne => absurd rfl hne
  refine ⟨?_, ?_, fun request' hr => ?_, fun j => ?_, hidle.alone⟩
  · rw [List.foldl_append, ← h.serial]
    exact hserial.symm
  · have hJ := hP.serial _ _ _ h.tables hR
    rwa [hserial] at hJ
  · rcases List.mem_append.1 hr with hr | hr
    · exact h.logged request' hr
    · exact List.mem_singleton.1 hr ▸ hR
  · show Consistent R _ _ ((s.put i .idle).session j)
    rw [State.session_put]
    split
    · trivial
    · next hj =>
      exact (h.consistent j).change (hP.nonempty _ _ _ h.tables hR) (hothers j hj) fun k =>
        publish_closed (hP.closed _ _ _ k h.tables hR)

/-- A step keeps the invariant. -/
theorem step (h : Serialised P J R start s) (hP : P.Sound J R) (a : Action κ θ) :
    Serialised P J R start (P.step s a) := by
  rcases P.step_cases s a with hsame | hmoves
  · rwa [hsame]
  · generalize P.step s a = s' at hmoves
    cases hmoves with
    | start i query request hσ hread =>
      exact h.put (hP.read _ _ _ _ h.tables hread) fun hne => absurd rfl hne
    | select i request hσ =>
      have hcons := h.consistent i
      rw [hσ] at hcons
      exact h.put ⟨hcons, fun k hk => not_not.1 fun hnot =>
        hk ((s.rows.get?_eq_none_iff k).2 hnot)⟩ fun hne => absurd rfl hne
    | lock i request candidates hσ hfree => exact h.lock hP hσ hfree
    | load i request rows hσ =>
      have hcons := h.consistent i
      rw [hσ] at hcons
      exact h.put ⟨hcons.1, hcons.2, rfl⟩ fun hne => hσ ▸ hne
    | alter i request rows view hσ =>
      have hcons := h.consistent i
      rw [hσ] at hcons
      exact h.put hcons fun hne => hσ ▸ hne
    | save i request rows view hσ =>
      have hcons := h.consistent i
      rw [hσ] at hcons
      refine h.put ⟨hcons.1, hcons.2.1, hcons.2.2, rfl⟩ fun hne => ?_
      rw [hσ]
      simpa [Session.held] using hne
    | write i k request rows view found written hσ hwrite hfree =>
      have hcons := h.consistent i
      rw [hσ] at hcons
      refine h.put hcons fun _ => ?_
      rw [hσ]
      obtain ⟨hR, rfl, -⟩ := hcons
      exact fun hnil => hP.nonempty _ _ _ h.tables hR
        (List.map_eq_nil_iff.1 (List.append_eq_nil_iff.1 hnil).1)
    | commit i request rows view found written hσ hok hflushed => exact h.commit hP hσ hok
    | rollback i => exact h.put trivial fun hne => absurd rfl hne

end Serialised

/-- Every run commits what its requests do one after another, each on what it had read at first. -/
theorem serialises {P : Program κ υ τ θ ρ} {J : Dict κ υ → τ → Prop} {R : ρ → Prop}
    (hP : P.Sound J R) {rows : Dict κ υ} {table : τ} (hJ : J rows table)
    (actions : List (Action κ θ)) :
    Serialised P J R (rows, table) (actions.foldl P.step (State.init rows table)) := by
  have hinit : Serialised P J R (rows, table) (State.init rows table) := Serialised.init hJ
  exact run_keeps (fun _ a hs => hs.step hP a) actions _ hinit

end Library.LockedSection
