import Mathlib.Data.List.Forall2
import Mathlib.Tactic.Common

set_option autoImplicit false

/-! # Runs of a step function

A run folds a step function over a list of inputs. `Guarded` says that every step of a run is
taken under a condition on the state before it; `run_invariant` is the induction over runs, done
once: what a step under its guard keeps, a guarded run keeps. `Always` says that a property holds
in every state of a run, and `always_iff_guarded` reduces it to the guard that is exact for one
step. `sinceLast` is the end of a log behind the last entry of a kind. -/

namespace Library

variable {σ α : Type}

/-- Every step of the run from `s` is taken in a state in which `guard` holds of its input. -/
def Guarded (step : σ → α → σ) (guard : σ → α → Prop) : σ → List α → Prop
  | _, [] => True
  | s, a :: as => guard s a ∧ Guarded step guard (step s a) as

instance Guarded.decidable {step : σ → α → σ} {guard : σ → α → Prop}
    [∀ s a, Decidable (guard s a)] : ∀ (as : List α) (s : σ), Decidable (Guarded step guard s as)
  | [], _ => inferInstanceAs (Decidable True)
  | a :: as, s =>
    haveI : Decidable (Guarded step guard (step s a) as) := Guarded.decidable as (step s a)
    inferInstanceAs (Decidable (guard s a ∧ Guarded step guard (step s a) as))

theorem Guarded.and {step : σ → α → σ} {guard guard' : σ → α → Prop} :
    ∀ {as : List α} {s : σ}, Guarded step guard s as → Guarded step guard' s as →
      Guarded step (fun s a => guard s a ∧ guard' s a) s as := by
  intro as
  induction as with
  | nil => intro s _ _; trivial
  | cons a as ih => intro s h h'; exact ⟨⟨h.1, h'.1⟩, ih h.2 h'.2⟩

theorem Guarded.mono {step : σ → α → σ} {guard guard' : σ → α → Prop}
    (himp : ∀ s a, guard s a → guard' s a) :
    ∀ {as : List α} {s : σ}, Guarded step guard s as → Guarded step guard' s as := by
  intro as
  induction as with
  | nil => intro s _; trivial
  | cons a as ih => intro s h; exact ⟨himp s a h.1, ih h.2⟩

/-- A condition on the inputs alone. -/
theorem guarded_of_forall_mem {step : σ → α → σ} {A : α → Prop} :
    ∀ (as : List α) (s : σ), (∀ a ∈ as, A a) → Guarded step (fun _ a => A a) s as := by
  intro as
  induction as with
  | nil => intro s _; trivial
  | cons a as ih =>
    intro s h
    exact ⟨h a (by simp), ih (step s a) fun b hb => h b (by simp [hb])⟩

theorem guarded_true {step : σ → α → σ} (as : List α) (s : σ) :
    Guarded step (fun _ _ => True) s as :=
  guarded_of_forall_mem as s fun _ _ => trivial

theorem guarded_append {step : σ → α → σ} {guard : σ → α → Prop} (bs : List α) :
    ∀ (as : List α) (s : σ), Guarded step guard s (as ++ bs) →
      Guarded step guard s as ∧ Guarded step guard (as.foldl step s) bs := by
  intro as
  induction as with
  | nil => intro s h; exact ⟨trivial, h⟩
  | cons a as ih =>
    intro s h
    obtain ⟨has, hbs⟩ := ih (step s a) h.2
    exact ⟨⟨h.1, has⟩, hbs⟩

theorem guarded_concat {step : σ → α → σ} {guard : σ → α → Prop} {a : α} (as : List α) (s : σ)
    (h : Guarded step guard s (as ++ [a])) :
    Guarded step guard s as ∧ guard (as.foldl step s) a := by
  obtain ⟨has, ha⟩ := guarded_append [a] as s h
  exact ⟨has, ha.1⟩

/-- The run rule: an invariant of the guarded steps is an invariant of the guarded runs. -/
theorem run_invariant {step : σ → α → σ} {guard : σ → α → Prop} {I : σ → Prop}
    (hstep : ∀ s a, I s → guard s a → I (step s a)) :
    ∀ (as : List α) (s : σ), I s → Guarded step guard s as → I (as.foldl step s) := by
  intro as
  induction as with
  | nil => intro s hs _; exact hs
  | cons a as ih => intro s hs hg; exact ih (step s a) (hstep s a hs hg.1) hg.2

/-- An invariant of all steps is an invariant of all runs. -/
theorem run_keeps {step : σ → α → σ} {I : σ → Prop} (hstep : ∀ s a, I s → I (step s a)) :
    ∀ (as : List α) (s : σ), I s → I (as.foldl step s) := by
  intro as
  induction as with
  | nil => intro s hs; exact hs
  | cons a as ih => intro s hs; exact ih (step s a) (hstep s a hs)

/-- `P` holds in every state the run from `s` passes through, the first and the last included. -/
def Always (step : σ → α → σ) (P : σ → Prop) : σ → List α → Prop
  | s, [] => P s
  | s, a :: as => P s ∧ Always step P (step s a) as

instance Always.decidable {step : σ → α → σ} {P : σ → Prop} [∀ s, Decidable (P s)] :
    ∀ (as : List α) (s : σ), Decidable (Always step P s as)
  | [], s => inferInstanceAs (Decidable (P s))
  | a :: as, s =>
    haveI : Decidable (Always step P (step s a) as) := Always.decidable as (step s a)
    inferInstanceAs (Decidable (P s ∧ Always step P (step s a) as))

theorem Always.first {step : σ → α → σ} {P : σ → Prop} {s : σ} {as : List α}
    (h : Always step P s as) : P s := by
  cases as with
  | nil => exact h
  | cons a as => exact h.1

theorem Always.last {step : σ → α → σ} {P : σ → Prop} :
    ∀ (as : List α) (s : σ), Always step P s as → P (as.foldl step s) := by
  intro as
  induction as with
  | nil => intro s h; exact h
  | cons a as ih => intro s h; exact ih (step s a) h.2

theorem Always.mono {step : σ → α → σ} {P Q : σ → Prop} (hPQ : ∀ s, P s → Q s) :
    ∀ (as : List α) (s : σ), Always step P s as → Always step Q s as := by
  intro as
  induction as with
  | nil => intro s h; exact hPQ s h
  | cons a as ih => intro s h; exact ⟨hPQ s h.1, ih (step s a) h.2⟩

/-- What always holds may guard the steps. -/
theorem Always.guarded {step : σ → α → σ} {P : σ → Prop} :
    ∀ {as : List α} {s : σ}, Always step P s as → Guarded step (fun s _ => P s) s as := by
  intro as
  induction as with
  | nil => intro s _; trivial
  | cons a as ih => intro s h; exact ⟨h.1, ih h.2⟩

/-- What a guarded step keeps holds in every state of a guarded run. -/
theorem always_of_guarded {step : σ → α → σ} {guard : σ → α → Prop} {I : σ → Prop}
    (hstep : ∀ s a, I s → guard s a → I (step s a)) :
    ∀ (as : List α) (s : σ), I s → Guarded step guard s as → Always step I s as := by
  intro as
  induction as with
  | nil => intro s hs _; exact hs
  | cons a as ih => intro s hs hg; exact ⟨hs, ih (step s a) (hstep s a hs hg.1) hg.2⟩

/-- The run rule for inputs that draw a value each: what a step keeps that draws a new one, the
    invariant being about the values drawn so far, holds throughout a run that draws none twice. -/
theorem always_fresh {δ : Type} {step : σ → α → σ} {guard : σ → α → Prop} {draw : α → δ}
    {I : List δ → σ → Prop}
    (hstep : ∀ drawn s a, I drawn s → guard s a → draw a ∉ drawn → I (drawn ++ [draw a]) (step s a)) :
    ∀ (as : List α) (drawn : List δ) (s : σ), I drawn s → Guarded step guard s as →
      (drawn ++ as.map draw).Nodup → Always step (fun s => ∃ drawn, I drawn s) s as := by
  intro as
  induction as with
  | nil => intro drawn s h _ _; exact ⟨drawn, h⟩
  | cons a as ih =>
    intro drawn s h hg hnodup
    rw [List.map_cons, ← List.singleton_append, ← List.append_assoc] at hnodup
    obtain ⟨-, -, hdisjoint⟩ := List.nodup_append.1 (List.nodup_append.1 hnodup).1
    have hfresh : draw a ∉ drawn := fun hmem => hdisjoint _ hmem _ (by simp) rfl
    exact ⟨⟨drawn, h⟩, ih _ _ (hstep drawn s a h hg.1 hfresh) hg.2 hnodup⟩

/-- The run rule for inputs that draw several values each, or none, every value at most once. -/
theorem run_fresh {δ : Type} {step : σ → α → σ} {A : α → Prop} {draws : α → List δ}
    {I : List δ → σ → Prop}
    (hstep : ∀ drawn s a, I drawn s → A a → (∀ d ∈ draws a, d ∉ drawn) →
      I (drawn ++ draws a) (step s a)) :
    ∀ (as : List α) (drawn : List δ) (s : σ), I drawn s → (∀ a ∈ as, A a) →
      (drawn ++ as.flatMap draws).Nodup → I (drawn ++ as.flatMap draws) (as.foldl step s) := by
  intro as
  induction as with
  | nil => intro drawn s h _ _; simpa using h
  | cons a as ih =>
    intro drawn s h hA hnodup
    rw [List.flatMap_cons, ← List.append_assoc] at hnodup ⊢
    obtain ⟨-, -, hdisjoint⟩ := List.nodup_append.1 (List.nodup_append.1 hnodup).1
    have hfresh : ∀ d ∈ draws a, d ∉ drawn := fun d hd hmem => hdisjoint d hmem d hd rfl
    exact ih _ _ (hstep drawn s a h (hA a (by simp)) hfresh) (fun b hb => hA b (by simp [hb])) hnodup

/-- The exact run rule: if, where the invariant `I` holds, a step that is allowed keeps `P` exactly
    under its guard, then `P` holds throughout exactly the guarded ones of the allowed runs. -/
theorem always_iff_guarded_of {step : σ → α → σ} {guard A : σ → α → Prop} {I P : σ → Prop}
    (hkeep : ∀ s a, A s a → I s → I (step s a))
    (hexact : ∀ s a, A s a → I s → P s → (P (step s a) ↔ guard s a)) :
    ∀ (as : List α) (s : σ), Guarded step A s as → I s → P s →
      (Always step P s as ↔ Guarded step guard s as) := by
  intro as
  induction as with
  | nil => intro s _ _ hP; exact ⟨fun _ => trivial, fun _ => hP⟩
  | cons a as ih =>
    rintro s ⟨ha, has⟩ hI hP
    constructor
    · rintro ⟨-, halways⟩
      have hP' := halways.first
      exact ⟨(hexact s a ha hI hP).1 hP', (ih (step s a) has (hkeep s a ha hI) hP').1 halways⟩
    · rintro ⟨hg, hgs⟩
      have hP' := (hexact s a ha hI hP).2 hg
      exact ⟨hP, (ih (step s a) has (hkeep s a ha hI) hP').2 hgs⟩

/-- The exact run rule, where only some inputs are allowed. -/
theorem always_iff_guarded_of_mem {step : σ → α → σ} {guard : σ → α → Prop} {I P : σ → Prop}
    {A : α → Prop} (hkeep : ∀ s a, A a → I s → I (step s a))
    (hexact : ∀ s a, A a → I s → P s → (P (step s a) ↔ guard s a)) (as : List α) (s : σ)
    (hA : ∀ a ∈ as, A a) (hI : I s) (hP : P s) :
    Always step P s as ↔ Guarded step guard s as :=
  always_iff_guarded_of (A := fun _ a => A a) hkeep hexact as s (guarded_of_forall_mem as s hA) hI hP

theorem always_iff_guarded {step : σ → α → σ} {guard : σ → α → Prop} {I P : σ → Prop}
    (hkeep : ∀ s a, I s → I (step s a))
    (hexact : ∀ s a, I s → P s → (P (step s a) ↔ guard s a)) (as : List α) (s : σ) (hI : I s)
    (hP : P s) : Always step P s as ↔ Guarded step guard s as :=
  always_iff_guarded_of_mem (A := fun _ => True) (fun s a _ => hkeep s a)
    (fun s a _ => hexact s a) as s (fun _ _ => trivial) hI hP

/-- The exact run rule for a property that the first step has to establish. -/
theorem always_step_iff_guarded {step : σ → α → σ} {guard : σ → α → Prop} {I P : σ → Prop}
    (hkeep : ∀ s a, I s → I (step s a))
    (hexact : ∀ s a, I s → P s → (P (step s a) ↔ guard s a)) (as : List α) {s : σ} {a : α}
    (hI : I (step s a)) (hfirst : P (step s a) ↔ guard s a) :
    Always step P (step s a) as ↔ Guarded step guard s (a :: as) := by
  constructor
  · intro h
    exact ⟨hfirst.1 h.first, (always_iff_guarded hkeep hexact as _ hI h.first).1 h⟩
  · rintro ⟨hg, hgs⟩
    exact (always_iff_guarded hkeep hexact as _ hI (hfirst.2 hg)).2 hgs

/-! ## Logs -/

/-- A run whose steps append to a log appends a segment for each input, in order. -/
theorem run_segments {β : Type} {step : σ → α → σ} {log : σ → List β} {R : α → List β → Prop}
    (hstep : ∀ s a, ∃ segment, log (step s a) = log s ++ segment ∧ R a segment) :
    ∀ (as : List α) (s : σ), ∃ segments, List.Forall₂ R as segments ∧
      log (as.foldl step s) = log s ++ segments.flatten := by
  intro as
  induction as with
  | nil => intro s; exact ⟨[], .nil, by simp⟩
  | cons a as ih =>
    intro s
    obtain ⟨segment, hlog, hsegment⟩ := hstep s a
    obtain ⟨segments, hsegments, hrun⟩ := ih (step s a)
    refine ⟨segment :: segments, .cons hsegment hsegments, ?_⟩
    rw [List.foldl_cons, hrun, hlog, List.flatten_cons, List.append_assoc]

/-- The entries of a log after the last one that satisfies `p`, from the end of the log on. -/
def sinceLast (p : α → Bool) (log : List α) : List α := log.reverse.takeWhile fun a => !p a

@[simp] theorem sinceLast_nil (p : α → Bool) : sinceLast p [] = [] := rfl

theorem sinceLast_concat (p : α → Bool) (log : List α) (a : α) :
    sinceLast p (log ++ [a]) = if p a then [] else a :: sinceLast p log := by
  unfold sinceLast
  rw [List.reverse_append, List.reverse_singleton, List.singleton_append, List.takeWhile_cons]
  cases p a with
  | true => rfl
  | false => rfl

/-! ## Lists side by side -/

theorem forall₂_imp_of_mem {β : Type} {R S : α → β → Prop} {l : List α} {l' : List β}
    (h : List.Forall₂ R l l') (himp : ∀ a ∈ l, ∀ b ∈ l', R a b → S a b) : List.Forall₂ S l l' := by
  rw [List.forall₂_iff_zip] at h ⊢
  exact ⟨h.1, fun hab => himp _ (List.of_mem_zip hab).1 _ (List.of_mem_zip hab).2 (h.2 hab)⟩

theorem map_eq_of_forall₂ {β γ : Type} {R : α → β → Prop} {g : α → γ} {g' : β → γ} {l : List α}
    {l' : List β} (h : List.Forall₂ R l l') (heq : ∀ a b, R a b → g' b = g a) :
    l'.map g' = l.map g := by
  induction h with
  | nil => rfl
  | cons hab _ ih => rw [List.map_cons, List.map_cons, heq _ _ hab, ih]

end Library
