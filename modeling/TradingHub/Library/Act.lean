import Mathlib.Tactic.Common

set_option autoImplicit false

/-! # Actions: programs with a state and exceptions

An `Act ε σ α` reads and writes a state `σ` and either returns an `α` or raises an `ε`. The state
is threaded through a raise: what was written before it stays written, as in an imperative
program, and it is a handler or a transaction around the action that undoes it, if anything does.

Three kinds of rules follow the definitions.

* *Inversion* (`bind_eq_ok` and its relatives) takes a run that returned apart into the runs of
  its parts.
* *Evaluation* (`bind_of_ok`, `bind_of_error`) goes the other way and computes a run from the
  runs of its parts.
* *Pre- and postconditions* (`Triple`) are for what has to hold however a run ends: a triple has
  one postcondition for a return and one for a raise. `Keeps I x` is the triple of an invariant
  that `x` keeps on both ends. -/

namespace Library

/-- An action over the state `σ` that returns an `α` or raises an `ε`. -/
def Act (ε σ α : Type) : Type := σ → Except ε α × σ

namespace Act

variable {ε σ τ α β : Type}

protected def pure (a : α) : Act ε σ α := fun s => (.ok a, s)

protected def bind (x : Act ε σ α) (f : α → Act ε σ β) : Act ε σ β := fun s =>
  match x s with
  | (.ok a, s') => f a s'
  | (.error e, s') => (.error e, s')

instance : Monad (Act ε σ) where
  pure := Act.pure
  bind := Act.bind

/-- `raise e`. -/
def raise (e : ε) : Act ε σ α := fun s => (.error e, s)

/-- `try: x except: h`; the handler starts in the state the raise left. -/
def tryExcept (x : Act ε σ α) (h : ε → Act ε σ α) : Act ε σ α := fun s =>
  match x s with
  | (.ok a, s') => (.ok a, s')
  | (.error e, s') => h e s'

/-- `try: x finally: fin`. The clean-up runs however `x` ends; a raise of its own replaces the
    outcome of `x`. -/
def tryFinally (x : Act ε σ α) (fin : Act ε σ Unit) : Act ε σ α := fun s =>
  match fin (x s).2 with
  | (.ok _, s'') => ((x s).1, s'')
  | (.error e, s'') => (.error e, s'')

/-- The current state. -/
def read : Act ε σ σ := fun s => (.ok s, s)

def modify (f : σ → σ) : Act ε σ Unit := fun s => (.ok (), f s)

def ofExcept (r : Except ε α) : Act ε σ α := fun s => (r, s)

/-- Run an action on a component of the state. -/
def zoom (get : σ → τ) (put : τ → σ → σ) (x : Act ε τ α) : Act ε σ α := fun s =>
  ((x (get s)).1, put (x (get s)).2 s)

/-! ## Inversion -/

theorem bind_eq_ok {x : Act ε σ α} {f : α → Act ε σ β} {s s'' : σ} {b : β} :
    (x >>= f) s = (.ok b, s'') ↔ ∃ a s', x s = (.ok a, s') ∧ f a s' = (.ok b, s'') := by
  show Act.bind x f s = _ ↔ _
  unfold Act.bind
  rcases hx : x s with ⟨_ | a, s'⟩
  · simp
  · simp only [Prod.mk.injEq, Except.ok.injEq, ↓existsAndEq, true_and]

@[simp] theorem pure_eq_ok {a b : α} {s s' : σ} :
    (pure a : Act ε σ α) s = (.ok b, s') ↔ a = b ∧ s = s' := by
  show ((Except.ok a, s) : Except ε α × σ) = _ ↔ _
  simp

@[simp] theorem raise_eq_ok {e : ε} {b : α} {s s' : σ} :
    (raise e : Act ε σ α) s = (.ok b, s') ↔ False := by
  simp [raise]

@[simp] theorem read_eq_ok {s s' t : σ} :
    (read : Act ε σ σ) s = (.ok t, s') ↔ s = t ∧ s = s' := by
  simp [read]

@[simp] theorem modify_eq_ok {f : σ → σ} {s s' : σ} {u : Unit} :
    (modify f : Act ε σ Unit) s = (.ok u, s') ↔ f s = s' := by
  simp [modify]

@[simp] theorem ofExcept_eq_ok {r : Except ε α} {a : α} {s s' : σ} :
    (ofExcept r : Act ε σ α) s = (.ok a, s') ↔ r = .ok a ∧ s = s' := by
  simp [ofExcept]

theorem tryFinally_eq_ok {x : Act ε σ α} {fin : Act ε σ Unit} {a : α} {s s'' : σ} :
    tryFinally x fin s = (.ok a, s'')
      ↔ ∃ s', x s = (.ok a, s') ∧ fin s' = (.ok (), s'') := by
  unfold tryFinally
  rcases hx : x s with ⟨r, s'⟩
  rcases hf : fin s' with ⟨_ | _, t⟩
  · simp only [Prod.mk.injEq, reduceCtorEq, false_and, false_iff]
    rintro ⟨s₁, ⟨rfl, rfl⟩, h⟩
    rw [hf] at h
    simp at h
  · simp only [Prod.mk.injEq]
    constructor
    · rintro ⟨rfl, rfl⟩; exact ⟨s', ⟨rfl, rfl⟩, hf⟩
    · rintro ⟨s₁, ⟨rfl, rfl⟩, h⟩
      rw [hf] at h
      exact ⟨rfl, (Prod.mk.inj h).2⟩

theorem tryExcept_eq_ok {x : Act ε σ α} {h : ε → Act ε σ α} {a : α} {s s'' : σ} :
    tryExcept x h s = (.ok a, s'')
      ↔ x s = (.ok a, s'') ∨ ∃ e s', x s = (.error e, s') ∧ h e s' = (.ok a, s'') := by
  unfold tryExcept
  rcases hx : x s with ⟨_ | b, s'⟩ <;> simp

/-! ## Evaluation -/

theorem bind_of_ok {x : Act ε σ α} {f : α → Act ε σ β} {s s' : σ} {a : α}
    (h : x s = (.ok a, s')) : (x >>= f) s = f a s' := by
  show Act.bind x f s = _
  simp only [Act.bind, h]

theorem bind_of_error {x : Act ε σ α} {f : α → Act ε σ β} {s s' : σ} {e : ε}
    (h : x s = (.error e, s')) : (x >>= f) s = (.error e, s') := by
  show Act.bind x f s = _
  simp only [Act.bind, h]

/-! ## Pre- and postconditions -/

/-- From a state in `P`, `x` returns an `a` in a state in `Q a` or raises an `e` in one in `E e`. -/
def Triple (P : σ → Prop) (x : Act ε σ α) (Q : α → σ → Prop) (E : ε → σ → Prop) : Prop :=
  ∀ s, P s → match x s with
    | (.ok a, s') => Q a s'
    | (.error e, s') => E e s'

/-- `x` keeps the invariant `I`, whether it returns or raises. -/
def Keeps (I : σ → Prop) (x : Act ε σ α) : Prop := Triple I x (fun _ => I) (fun _ => I)

namespace Triple

variable {P P' : σ → Prop} {Q Q' : α → σ → Prop} {E E' : ε → σ → Prop}

theorem conseq {x : Act ε σ α} (h : Triple P x Q E) (hP : ∀ s, P' s → P s)
    (hQ : ∀ a s, Q a s → Q' a s) (hE : ∀ e s, E e s → E' e s) : Triple P' x Q' E' := by
  intro s hs
  have := h s (hP s hs)
  rcases hx : x s with ⟨e | a, s'⟩ <;> rw [hx] at this
  · exact hE e s' this
  · exact hQ a s' this

theorem pure {a : α} (h : ∀ s, P s → Q a s) : Triple P (Pure.pure a : Act ε σ α) Q E :=
  fun s hs => h s hs

theorem raise {e : ε} (h : ∀ s, P s → E e s) : Triple P (Act.raise e : Act ε σ α) Q E :=
  fun s hs => h s hs

theorem bind {x : Act ε σ α} {f : α → Act ε σ β} {R : β → σ → Prop} (hx : Triple P x Q E)
    (hf : ∀ a, Triple (Q a) (f a) R E) : Triple P (x >>= f) R E := by
  intro s hs
  have hxs := hx s hs
  show match Act.bind x f s with | (.ok a, s') => R a s' | (.error e, s') => E e s'
  unfold Act.bind
  rcases hx' : x s with ⟨e | a, s'⟩ <;> rw [hx'] at hxs
  · exact hxs
  · exact hf a s' hxs

/-- A fact that does not depend on the state moves into the context. -/
theorem of_fact {x : Act ε σ α} {p : Prop} (h : p → Triple P x Q E) :
    Triple (fun s => p ∧ P s) x Q E :=
  fun s hs => h hs.1 s hs.2

/-- Reading the state: what holds of the state read is known in the rest of the action. -/
theorem read_bind {f : σ → Act ε σ β} {R : β → σ → Prop} (h : ∀ s, P s → Triple P (f s) R E) :
    Triple P (Act.read >>= f) R E :=
  fun s hs => h s hs s hs

/-- Reading the state, where the rest of the action depends on it. -/
theorem read_bind_eq {f : σ → Act ε σ β} {R : β → σ → Prop}
    (h : ∀ s, P s → Triple (· = s) (f s) R E) : Triple P (Act.read >>= f) R E :=
  fun s hs => h s hs s rfl

theorem modify {f : σ → σ} {Q : Unit → σ → Prop} (h : ∀ s, P s → Q () (f s)) :
    Triple P (Act.modify f : Act ε σ Unit) Q E :=
  fun s hs => h s hs

theorem ofExcept {r : Except ε α} (hok : ∀ a, r = .ok a → ∀ s, P s → Q a s)
    (herr : ∀ e, r = .error e → ∀ s, P s → E e s) :
    Triple P (Act.ofExcept r : Act ε σ α) Q E := by
  intro s hs
  show match (r, s) with | (.ok a, s') => Q a s' | (.error e, s') => E e s'
  rcases r with e | a
  · exact herr e rfl s hs
  · exact hok a rfl s hs

theorem tryExcept {x : Act ε σ α} {h : ε → Act ε σ α} {F : ε → σ → Prop} (hx : Triple P x Q F)
    (hh : ∀ e, Triple (F e) (h e) Q E) : Triple P (Act.tryExcept x h) Q E := by
  intro s hs
  have hxs := hx s hs
  unfold Act.tryExcept
  rcases hx' : x s with ⟨e | a, s'⟩ <;> rw [hx'] at hxs
  · exact hh e s' hxs
  · exact hxs

/-- The clean-up is verified once for each way the body can end. -/
theorem tryFinally {x : Act ε σ α} {fin : Act ε σ Unit} {R : α → σ → Prop} {F : ε → σ → Prop}
    (hx : Triple P x R F) (hok : ∀ a, Triple (R a) fin (fun _ => Q a) E)
    (herr : ∀ e, Triple (F e) fin (fun _ => E e) E) : Triple P (Act.tryFinally x fin) Q E := by
  intro s hs
  have hxs := hx s hs
  unfold Act.tryFinally
  rcases hx' : x s with ⟨e | a, s'⟩ <;> rw [hx'] at hxs
  · have hfs := herr e s' hxs
    rcases hf : fin s' with ⟨e' | u, s''⟩ <;> rw [hf] at hfs <;> exact hfs
  · have hfs := hok a s' hxs
    rcases hf : fin s' with ⟨e' | u, s''⟩ <;> rw [hf] at hfs <;> exact hfs

/-- The state an action leaves, when both postconditions are the same. -/
theorem final {x : Act ε σ α} {I : σ → Prop} (h : Triple P x (fun _ => I) (fun _ => I)) {s : σ}
    (hs : P s) : I (x s).2 := by
  have := h s hs
  rcases hx : x s with ⟨e | a, s'⟩ <;> rw [hx] at this <;> exact this

end Triple

namespace Keeps

variable {I : σ → Prop}

theorem pure (a : α) : Keeps I (Pure.pure a : Act ε σ α) := Triple.pure fun _ hs => hs

theorem raise (e : ε) : Keeps I (Act.raise e : Act ε σ α) := Triple.raise fun _ hs => hs

theorem read : Keeps I (Act.read : Act ε σ σ) := fun _ hs => hs

theorem modify {f : σ → σ} (h : ∀ s, I s → I (f s)) : Keeps I (Act.modify f : Act ε σ Unit) :=
  Triple.modify h

theorem ofExcept (r : Except ε α) : Keeps I (Act.ofExcept r : Act ε σ α) :=
  Triple.ofExcept (fun _ _ _ hs => hs) (fun _ _ _ hs => hs)

theorem bind {x : Act ε σ α} {f : α → Act ε σ β} (hx : Keeps I x) (hf : ∀ a, Keeps I (f a)) :
    Keeps I (x >>= f) :=
  Triple.bind hx hf

theorem tryExcept {x : Act ε σ α} {h : ε → Act ε σ α} (hx : Keeps I x) (hh : ∀ e, Keeps I (h e)) :
    Keeps I (Act.tryExcept x h) :=
  Triple.tryExcept hx hh

theorem tryFinally {x : Act ε σ α} {fin : Act ε σ Unit} (hx : Keeps I x) (hfin : Keeps I fin) :
    Keeps I (Act.tryFinally x fin) :=
  Triple.tryFinally hx (fun _ => hfin) (fun _ => hfin)

end Keeps

end Act

end Library
