import TradingHub.Library.Act

set_option autoImplicit false

/-! # Two runs side by side

Relational pre- and postconditions for actions. `RelTriple P x y Q E` says that two runs from states
related by `P` end alike: both return the same value, in states related by `Q`, or both raise the
same exception, in states related by `E`. With `x` and `y` the same action and `P` the relation of
states that an observer cannot tell apart, it says that the observer learns nothing from the result.

The rules follow those of `Triple`; `read_bind` is the one at which the two runs part, as each goes
on with the state it has read. -/

namespace Library

namespace Act

variable {ε σ α β : Type}

/-- Two ends of runs: the same value or the same exception, in related states. -/
inductive EndAlike (Q : α → σ → σ → Prop) (E : σ → σ → Prop) :
    Except ε α × σ → Except ε α × σ → Prop
  | returned {a : α} {s t : σ} (h : Q a s t) : EndAlike Q E (.ok a, s) (.ok a, t)
  | raised {e : ε} {s t : σ} (h : E s t) : EndAlike Q E (.error e, s) (.error e, t)

/-- From states related by `P`, the runs of `x` and `y` end alike. -/
def RelTriple (P : σ → σ → Prop) (x y : Act ε σ α) (Q : α → σ → σ → Prop) (E : σ → σ → Prop) : Prop :=
  ∀ s t, P s t → EndAlike Q E (x s) (y t)

/-- Two runs of `x` from related states end alike, in related states. -/
def RelKeeps (R : σ → σ → Prop) (x : Act ε σ α) : Prop := RelTriple R x x (fun _ => R) R

namespace EndAlike

variable {Q Q' : α → σ → σ → Prop} {E E' : σ → σ → Prop} {r r' : Except ε α × σ}

theorem mono (h : EndAlike Q E r r') (hQ : ∀ a s t, Q a s t → Q' a s t)
    (hE : ∀ s t, E s t → E' s t) : EndAlike Q' E' r r' := by
  cases h with
  | returned h => exact .returned (hQ _ _ _ h)
  | raised h => exact .raised (hE _ _ h)

theorem cases (h : EndAlike Q E r r') :
    (∃ a s t, r = (.ok a, s) ∧ r' = (.ok a, t) ∧ Q a s t) ∨
      ∃ e s t, r = (.error e, s) ∧ r' = (.error e, t) ∧ E s t := by
  cases h with
  | returned h => exact Or.inl ⟨_, _, _, rfl, rfl, h⟩
  | raised h => exact Or.inr ⟨_, _, _, rfl, rfl, h⟩

end EndAlike

namespace RelTriple

variable {P P' : σ → σ → Prop} {Q Q' : α → σ → σ → Prop} {E E' : σ → σ → Prop}

theorem conseq {x y : Act ε σ α} (h : RelTriple P x y Q E) (hP : ∀ s t, P' s t → P s t)
    (hQ : ∀ a s t, Q a s t → Q' a s t) (hE : ∀ s t, E s t → E' s t) : RelTriple P' x y Q' E' :=
  fun s t hst => (h s t (hP s t hst)).mono hQ hE

theorem pure {a : α} (h : ∀ s t, P s t → Q a s t) :
    RelTriple P (Pure.pure a : Act ε σ α) (Pure.pure a) Q E :=
  fun s t hst => .returned (h s t hst)

theorem raise {e : ε} (h : ∀ s t, P s t → E s t) :
    RelTriple P (Act.raise e : Act ε σ α) (Act.raise e) Q E :=
  fun s t hst => .raised (h s t hst)

theorem bind {x y : Act ε σ α} {f g : α → Act ε σ β} {R : β → σ → σ → Prop}
    (hxy : RelTriple P x y Q E) (hfg : ∀ a, RelTriple (Q a) (f a) (g a) R E) :
    RelTriple P (x >>= f) (y >>= g) R E := by
  intro s t hst
  obtain ⟨a, s', t', hx, hy, hq⟩ | ⟨e, s', t', hx, hy, he⟩ := (hxy s t hst).cases
  · rw [bind_of_ok hx, bind_of_ok hy]
    exact hfg a s' t' hq
  · rw [bind_of_error hx, bind_of_error hy]
    exact .raised he

/-- Reading the state: each run goes on with the state it is in. -/
theorem read_bind_at {f g : σ → Act ε σ β} {R : β → σ → σ → Prop}
    (h : ∀ s t, P s t → RelTriple (fun s' t' => s' = s ∧ t' = t) (f s) (g t) R E) :
    RelTriple P (Act.read >>= f) (Act.read >>= g) R E :=
  fun s t hst => h s t hst s t ⟨rfl, rfl⟩

theorem read_bind {f g : σ → Act ε σ β} {R : β → σ → σ → Prop}
    (h : ∀ s t, P s t → RelTriple P (f s) (g t) R E) :
    RelTriple P (Act.read >>= f) (Act.read >>= g) R E :=
  fun s t hst => h s t hst s t hst

theorem modify {f g : σ → σ} {Q : Unit → σ → σ → Prop} (h : ∀ s t, P s t → Q () (f s) (g t)) :
    RelTriple P (Act.modify f : Act ε σ Unit) (Act.modify g) Q E :=
  fun s t hst => .returned (h s t hst)

theorem ofExcept {r : Except ε α} (hQ : ∀ a s t, P s t → Q a s t) (hE : ∀ s t, P s t → E s t) :
    RelTriple P (Act.ofExcept r : Act ε σ α) (Act.ofExcept r) Q E := by
  intro s t hst
  show EndAlike Q E (r, s) (r, t)
  cases r with
  | error e => exact .raised (hE s t hst)
  | ok a => exact .returned (hQ a s t hst)

theorem tryExcept {x y : Act ε σ α} {h k : ε → Act ε σ α} {F : σ → σ → Prop}
    (hxy : RelTriple P x y Q F) (hhk : ∀ e, RelTriple F (h e) (k e) Q E) :
    RelTriple P (Act.tryExcept x h) (Act.tryExcept y k) Q E := by
  intro s t hst
  unfold Act.tryExcept
  obtain ⟨a, s', t', hx, hy, hq⟩ | ⟨e, s', t', hx, hy, he⟩ := (hxy s t hst).cases
  · rw [hx, hy]
    exact .returned hq
  · rw [hx, hy]
    exact hhk e s' t' he

/-- The clean-up is compared once for each way the bodies can end. -/
theorem tryFinally {x y : Act ε σ α} {fin gin : Act ε σ Unit} {R : α → σ → σ → Prop}
    {F : σ → σ → Prop} (hxy : RelTriple P x y R F)
    (hok : ∀ a, RelTriple (R a) fin gin (fun _ => Q a) E)
    (herr : RelTriple F fin gin (fun _ => E) E) :
    RelTriple P (Act.tryFinally x fin) (Act.tryFinally y gin) Q E := by
  intro s t hst
  unfold Act.tryFinally
  obtain ⟨a, s', t', hx, hy, hr⟩ | ⟨e, s', t', hx, hy, hf⟩ := (hxy s t hst).cases
  · rw [hx, hy]
    obtain ⟨_, u, v, hfin, hgin, hq⟩ | ⟨e, u, v, hfin, hgin, he⟩ := (hok a s' t' hr).cases
    · rw [hfin, hgin]
      exact .returned hq
    · rw [hfin, hgin]
      exact .raised he
  · rw [hx, hy]
    obtain ⟨_, u, v, hfin, hgin, he⟩ | ⟨e', u, v, hfin, hgin, he⟩ := (herr s' t' hf).cases
    · rw [hfin, hgin]
      exact .raised he
    · rw [hfin, hgin]
      exact .raised he

/-- What the first of the two runs returns and where it ends. -/
theorem left_ok {x y : Act ε σ α} (h : RelTriple P x y Q E) {s t s' : σ} {a : α} (hst : P s t)
    (hx : x s = (.ok a, s')) : ∃ t', Q a s' t' := by
  obtain ⟨b, s₁, t', hx', -, hq⟩ | ⟨e, s₁, t', hx', -, -⟩ := (h s t hst).cases
  · obtain ⟨hb, rfl⟩ := Prod.mk.inj (hx.symm.trans hx')
    obtain rfl := Except.ok.inj hb
    exact ⟨t', hq⟩
  · exact absurd (congrArg Prod.fst (hx.symm.trans hx')) (by simp)

end RelTriple

namespace RelKeeps

variable {R : σ → σ → Prop}

theorem pure (a : α) : RelKeeps R (Pure.pure a : Act ε σ α) := RelTriple.pure fun _ _ h => h

theorem raise (e : ε) : RelKeeps R (Act.raise e : Act ε σ α) := RelTriple.raise fun _ _ h => h

theorem modify {f : σ → σ} (h : ∀ s t, R s t → R (f s) (f t)) :
    RelKeeps R (Act.modify f : Act ε σ Unit) :=
  RelTriple.modify h

theorem ofExcept (r : Except ε α) : RelKeeps R (Act.ofExcept r : Act ε σ α) :=
  RelTriple.ofExcept (fun _ _ _ h => h) fun _ _ h => h

theorem bind {x : Act ε σ α} {f : α → Act ε σ β} (hx : RelKeeps R x) (hf : ∀ a, RelKeeps R (f a)) :
    RelKeeps R (x >>= f) :=
  RelTriple.bind hx hf

theorem tryExcept {x : Act ε σ α} {h : ε → Act ε σ α} (hx : RelKeeps R x)
    (hh : ∀ e, RelKeeps R (h e)) : RelKeeps R (Act.tryExcept x h) :=
  RelTriple.tryExcept hx hh

theorem tryFinally {x : Act ε σ α} {fin : Act ε σ Unit} (hx : RelKeeps R x)
    (hfin : RelKeeps R fin) : RelKeeps R (Act.tryFinally x fin) :=
  RelTriple.tryFinally hx (fun _ => hfin) hfin

end RelKeeps

/-- The runs of `y` are those of `x`, with the value they return carried over by `f`. -/
def Carries (f : α → β) (x : Act ε σ α) (y : Act ε σ β) : Prop :=
  ∀ s, y s = ((x s).1.map f, (x s).2)

namespace Carries

variable {γ δ : Type}

theorem refl (x : Act ε σ α) : Carries id x x := by
  intro s
  rw [Except.map_id]
  rfl

theorem pure (f : α → β) (a : α) :
    Carries f (Pure.pure a : Act ε σ α) (Pure.pure (f a)) :=
  fun _ => rfl

theorem raise (f : α → β) (e : ε) : Carries f (Act.raise e : Act ε σ α) (Act.raise e) :=
  fun _ => rfl

theorem ofExcept {f : α → β} {r : Except ε α} {r' : Except ε β} (h : r' = r.map f) :
    Carries f (Act.ofExcept r : Act ε σ α) (Act.ofExcept r') := by
  subst h
  exact fun _ => rfl

theorem bind {f : α → β} {h : γ → δ} {x : Act ε σ α} {y : Act ε σ β} {k : α → Act ε σ γ}
    {l : β → Act ε σ δ} (hxy : Carries f x y) (hkl : ∀ a, Carries h (k a) (l (f a))) :
    Carries h (x >>= k) (y >>= l) := by
  intro s
  have hy := hxy s
  rcases hx : x s with ⟨_ | a, s'⟩
  · rw [hx] at hy
    rw [bind_of_error hx, bind_of_error hy]
    rfl
  · rw [hx] at hy
    rw [bind_of_ok hx, bind_of_ok hy]
    exact hkl a s'

theorem ite {f : α → β} {p : Prop} [Decidable p] {x x' : Act ε σ α} {y y' : Act ε σ β}
    (h : Carries f x y) (h' : Carries f x' y') :
    Carries f (if p then x else x') (if p then y else y') := by
  split
  · exact h
  · exact h'

theorem tryExcept {f : α → β} {x : Act ε σ α} {y : Act ε σ β} {h : ε → Act ε σ α}
    {k : ε → Act ε σ β} (hxy : Carries f x y) (hhk : ∀ e, Carries f (h e) (k e)) :
    Carries f (Act.tryExcept x h) (Act.tryExcept y k) := by
  intro s
  unfold Act.tryExcept
  rw [hxy s]
  rcases x s with ⟨e | a, s'⟩
  · exact hhk e s'
  · rfl

theorem tryFinally {f : α → β} {x : Act ε σ α} {y : Act ε σ β} {fin : Act ε σ Unit}
    (hxy : Carries f x y) : Carries f (Act.tryFinally x fin) (Act.tryFinally y fin) := by
  intro s
  unfold Act.tryFinally
  rw [hxy s]
  rcases fin (x s).2 with ⟨e | u, s'⟩
  · rfl
  · rfl

end Carries

end Act

/-! ## Runs -/

variable {σ ι ρ : Type}

/-- What the steps of a run put out. -/
def outputs (step : σ → ι → ρ × σ) : σ → List ι → List ρ
  | _, [] => []
  | s, i :: is => (step s i).1 :: outputs step (step s i).2 is

/-- The state after a run. -/
def runState (step : σ → ι → ρ × σ) (s : σ) (is : List ι) : σ := is.foldl (fun s i => (step s i).2) s

/-- Steps that put out the same from related states, and keep them related: so do runs. -/
theorem outputs_eq {step : σ → ι → ρ × σ} {R : σ → σ → Prop} {A : ι → Prop}
    (hstep : ∀ s t i, A i → R s t → (step s i).1 = (step t i).1 ∧ R (step s i).2 (step t i).2) :
    ∀ (is : List ι) (s t : σ), (∀ i ∈ is, A i) → R s t →
      outputs step s is = outputs step t is ∧ R (runState step s is) (runState step t is) := by
  intro is
  induction is with
  | nil => intro s t _ h; exact ⟨rfl, h⟩
  | cons i is ih =>
    intro s t hA h
    obtain ⟨hout, hnext⟩ := hstep s t i (hA i List.mem_cons_self) h
    obtain ⟨houts, hend⟩ := ih _ _ (fun j hj => hA j (List.mem_cons_of_mem _ hj)) hnext
    exact ⟨congrArg₂ List.cons hout houts, hend⟩

/-- Two machines that put out the same from related states, for inputs that draw new values, and
    keep the states related: so do their runs, if no value is drawn twice. -/
theorem simulates_fresh {τ δ : Type} {step : σ → ι → ρ × σ} {step' : τ → ι → ρ × τ}
    {R : List δ → σ → τ → Prop} {A : ι → Prop} {draws : ι → List δ}
    (hstep : ∀ drawn s t i, A i → (∀ d ∈ draws i, d ∉ drawn) → R drawn s t →
      (step s i).1 = (step' t i).1 ∧ R (drawn ++ draws i) (step s i).2 (step' t i).2) :
    ∀ (is : List ι) (drawn : List δ) (s : σ) (t : τ), (∀ i ∈ is, A i) →
      (drawn ++ is.flatMap draws).Nodup → R drawn s t →
      outputs step s is = outputs step' t is ∧
        R (drawn ++ is.flatMap draws) (runState step s is) (runState step' t is) := by
  intro is
  induction is with
  | nil => intro drawn s t _ _ h; exact ⟨rfl, by simpa [runState] using h⟩
  | cons i is ih =>
    intro drawn s t hA hnodup h
    rw [List.flatMap_cons, ← List.append_assoc] at hnodup ⊢
    obtain ⟨-, -, hdisjoint⟩ := List.nodup_append.1 (List.nodup_append.1 hnodup).1
    have hfresh : ∀ d ∈ draws i, d ∉ drawn := fun d hd hmem => hdisjoint d hmem d hd rfl
    obtain ⟨hout, hnext⟩ := hstep drawn s t i (hA i List.mem_cons_self) hfresh h
    obtain ⟨houts, hend⟩ := ih _ _ _ (fun j hj => hA j (List.mem_cons_of_mem _ hj)) hnodup hnext
    exact ⟨congrArg₂ List.cons hout houts, hend⟩

end Library
