import Mathlib

/-!
# Runs of a labelled system

A system is a set of enabled labels in each state and a successor for each label; whatever is
left open about a step is part of its label.

* `Runs`, `Always` and `EachStep`: a list of labels that can be taken from a state, a property of
  every state it visits, a property of every step it takes.
* `always_of_inv` and `always_of_step` are the invariant rule; `Always.eachStep` takes what the
  invariant says of each step from it.
* `always_iff_eachStep` is its exact form for a system with a defect: if good steps keep an
  invariant and a bad step at once breaks the safety property, a run is safe exactly when all its
  steps are good.
-/

namespace Run

/-- A labelled transition system. -/
structure System (σ α : Type*) where
  enabled : σ → α → Prop
  next : σ → α → σ

namespace System

variable {σ α : Type*} (S : System σ α)

/-- The labels can be taken one after the other from `s`. -/
def Runs : σ → List α → Prop
  | _, [] => True
  | s, a :: as => S.enabled s a ∧ Runs (S.next s a) as

/-- The state a list of labels leads to. -/
def after (s : σ) (as : List α) : σ := as.foldl S.next s

/-- `P` holds in every state visited, the first and the last included. -/
def Always (P : σ → Prop) : σ → List α → Prop
  | s, [] => P s
  | s, a :: as => P s ∧ Always P (S.next s a) as

/-- `Q` holds of every step taken. -/
def EachStep (Q : σ → α → Prop) : σ → List α → Prop
  | _, [] => True
  | s, a :: as => Q s a ∧ EachStep Q (S.next s a) as

instance Runs.decidable [∀ s a, Decidable (S.enabled s a)] :
    (s : σ) → (as : List α) → Decidable (S.Runs s as)
  | _, [] => .isTrue trivial
  | s, a :: as =>
    have := Runs.decidable (S.next s a) as
    inferInstanceAs (Decidable (S.enabled s a ∧ S.Runs (S.next s a) as))

instance Always.decidable (P : σ → Prop) [DecidablePred P] :
    (s : σ) → (as : List α) → Decidable (S.Always P s as)
  | s, [] => inferInstanceAs (Decidable (P s))
  | s, a :: as =>
    have := Always.decidable P (S.next s a) as
    inferInstanceAs (Decidable (P s ∧ S.Always P (S.next s a) as))

variable {S} {s : σ} {a : α} {as : List α}

@[simp] theorem runs_nil : S.Runs s [] := trivial

@[simp] theorem runs_cons : S.Runs s (a :: as) ↔ S.enabled s a ∧ S.Runs (S.next s a) as := Iff.rfl

@[simp] theorem always_cons {P : σ → Prop} :
    S.Always P s (a :: as) ↔ P s ∧ S.Always P (S.next s a) as := Iff.rfl

@[simp] theorem eachStep_cons {Q : σ → α → Prop} :
    S.EachStep Q s (a :: as) ↔ Q s a ∧ S.EachStep Q (S.next s a) as := Iff.rfl

theorem runs_of_enabled (h : ∀ s a, S.enabled s a) (s : σ) (as : List α) : S.Runs s as := by
  induction as generalizing s with
  | nil => trivial
  | cons a as ih => exact ⟨h s a, ih _⟩

theorem Always.head {P : σ → Prop} (h : S.Always P s as) : P s := by
  cases as with
  | nil => exact h
  | cons a as => exact h.1

theorem Always.last {P : σ → Prop} (h : S.Always P s as) : P (S.after s as) := by
  induction as generalizing s with
  | nil => exact h
  | cons a as ih => exact ih h.2

theorem Always.mono {P Q : σ → Prop} (hPQ : ∀ s, P s → Q s) (h : S.Always P s as) :
    S.Always Q s as := by
  induction as generalizing s with
  | nil => exact hPQ s h
  | cons a as ih => exact ⟨hPQ s h.1, ih h.2⟩

/-- Invariant rule: what good steps keep holds along a run of good steps. -/
theorem always_of_inv {Inv : σ → Prop} {good : σ → α → Prop}
    (step : ∀ s a, Inv s → S.enabled s a → good s a → Inv (S.next s a))
    (h : Inv s) (hrun : S.Runs s as) (hgood : S.EachStep good s as) : S.Always Inv s as := by
  induction as generalizing s with
  | nil => exact h
  | cons a as ih => exact ⟨h, ih (step s a h hrun.1 hgood.1) hrun.2 hgood.2⟩

/-- Invariant rule for a system whose steps are all good. -/
theorem always_of_step {Inv : σ → Prop}
    (step : ∀ s a, Inv s → S.enabled s a → Inv (S.next s a)) (h : Inv s) (hrun : S.Runs s as) :
    S.Always Inv s as := by
  induction as generalizing s with
  | nil => exact h
  | cons a as ih => exact ⟨h, ih (step s a h hrun.1) hrun.2⟩

/-- What an invariant gives of every step possible under it holds of every step of a run. -/
theorem Always.eachStep {Inv : σ → Prop} {Q : σ → α → Prop}
    (hQ : ∀ s a, Inv s → S.enabled s a → Q s a) (h : S.Always Inv s as) (hrun : S.Runs s as) :
    S.EachStep Q s as := by
  induction as generalizing s with
  | nil => trivial
  | cons a as ih => exact ⟨hQ s a h.1 hrun.1, ih h.2 hrun.2⟩

/-- If good steps keep the invariant, the invariant gives safety, and a bad step from it breaks
safety, then a run is safe exactly when all its steps are good. -/
theorem always_iff_eachStep (Inv : σ → Prop) {Safe : σ → Prop} (good : σ → α → Prop)
    (safe : ∀ s, Inv s → Safe s)
    (step : ∀ s a, Inv s → S.enabled s a → good s a → Inv (S.next s a))
    (bad : ∀ s a, Inv s → S.enabled s a → ¬ good s a → ¬ Safe (S.next s a))
    (h : Inv s) (hrun : S.Runs s as) : S.Always Safe s as ↔ S.EachStep good s as := by
  constructor
  · intro hsafe
    induction as generalizing s with
    | nil => trivial
    | cons a as ih =>
      have hgood : good s a := by
        by_contra hbad
        exact bad s a h hrun.1 hbad hsafe.2.head
      exact ⟨hgood, ih (step s a h hrun.1 hgood) hrun.2 hsafe.2⟩
  · intro hgood
    exact (always_of_inv step h hrun hgood).mono safe

end System

end Run
