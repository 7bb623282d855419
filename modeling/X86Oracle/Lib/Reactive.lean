import Mathlib

/-!
# Components that answer calls

A component has hidden state; a caller sees the answers to its calls.

* `Reactive.Component.answers`: what a sequence of calls returns.
* `Reactive.Component.Always`: every call of a run is made in a state that allows it.
* `Reactive.Component.Unwinding`: a relation that the allowed calls keep and whose states answer
  them alike; `Unwinding.answers_eq`: no run of allowed calls can tell related states apart.
-/

namespace Reactive

/-- A deterministic component with states `σ`, calls `ι` and answers `ο`. -/
structure Component (σ ι ο : Type*) where
  call : σ → ι → ο × σ

namespace Component

variable {σ ι ο : Type*} (C : Component σ ι ο)

def after (s : σ) (is : List ι) : σ := is.foldl (fun s i => (C.call s i).2) s

/-- The answers to a sequence of calls. -/
def answers : σ → List ι → List ο
  | _, [] => []
  | s, i :: is => (C.call s i).1 :: answers (C.call s i).2 is

/-- Each call of the sequence is made where `P` allows it. -/
def Always (P : σ → ι → Prop) : σ → List ι → Prop
  | _, [] => True
  | s, i :: is => P s i ∧ Always P (C.call s i).2 is

theorem after_append (s : σ) (is js : List ι) : C.after s (is ++ js) = C.after (C.after s is) js :=
  List.foldl_append

theorem answers_append (s : σ) (is js : List ι) :
    C.answers s (is ++ js) = C.answers s is ++ C.answers (C.after s is) js := by
  induction is generalizing s with
  | nil => rfl
  | cons i is ih =>
    rw [List.cons_append, answers, ih]
    rfl

/-- Related states answer a call alike and stay related, if it is allowed in the first. -/
def Unwinding (P : σ → ι → Prop) (R : σ → σ → Prop) : Prop :=
  ∀ s t i, R s t → P s i → (C.call s i).1 = (C.call t i).1 ∧ R (C.call s i).2 (C.call t i).2

variable {C} {P : σ → ι → Prop} {R : σ → σ → Prop} {s t : σ}

theorem always_of_forall (h : ∀ s i, P s i) (s : σ) (is : List ι) : C.Always P s is := by
  induction is generalizing s with
  | nil => trivial
  | cons i is ih => exact ⟨h s i, ih _⟩

theorem Unwinding.answers_eq (h : C.Unwinding P R) (hst : R s t) {is : List ι}
    (hP : C.Always P s is) : C.answers s is = C.answers t is := by
  induction is generalizing s t with
  | nil => rfl
  | cons i is ih =>
    obtain ⟨hallowed, hrest⟩ := hP
    obtain ⟨hanswer, hnext⟩ := h s t i hst hallowed
    unfold answers
    rw [hanswer, ih hnext hrest]

end Component

end Reactive
