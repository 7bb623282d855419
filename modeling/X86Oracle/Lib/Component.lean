import Mathlib

/-!
# Handlers over a component

A machine keeps a component of its state behind an interface: handlers act on the environment as
they like, and put requests to the component.  The component can be kept in several forms.

* `Code`: a handler, as a tree of actions on the environment and of requests.
* `Machine.turn`: a handler is fetched and run; a fault is delivered in the next turn, by a handler
  again.
* `Refines`: one form of the component answers as the other does; `run_map`, `turn_map` and
  `run_turns`: then machines with either of them do the same, for ever.
-/

namespace Component

variable {P : Type → Type} {ε σ F G α β Instr : Type}

/-- A handler.  `env` acts on the environment and can fault; `ask` is a request. -/
inductive Code (P : Type → Type) (ε σ α : Type) : Type 1
  | done (a : α) : Code P ε σ α
  | env {β : Type} (m : EStateM ε σ β) (k : β → Code P ε σ α) : Code P ε σ α
  | ask {β : Type} (p : P β) (k : β → Code P ε σ α) : Code P ε σ α

namespace Code

def bind : Code P ε σ α → (α → Code P ε σ β) → Code P ε σ β
  | done a, k => k a
  | env m next, k => env m fun b => (next b).bind k
  | ask p next, k => ask p fun b => (next b).bind k

instance : Monad (Code P ε σ) where
  pure := done
  bind := bind

instance : MonadLift (EStateM ε σ) (Code P ε σ) where
  monadLift m := env m done

def request (p : P β) : Code P ε σ β := ask p done

end Code

/-- What a form of the component answers, and what becomes of it. -/
abbrev Impl (P : Type → Type) (F : Type) : Type 1 := ∀ β : Type, P β → F → β × F

/-- How a handler ends: with a value or a fault, an environment and a component. -/
structure Ended (ε σ F α : Type) where
  result : Except ε α
  env : σ
  component : F

def Ended.map (φ : F → G) (r : Ended ε σ F α) : Ended ε σ G α := ⟨r.result, r.env, φ r.component⟩

/-- Run a handler on an environment and a component. -/
def Code.run (I : Impl P F) : Code P ε σ α → σ → F → Ended ε σ F α
  | .done a, s, f => ⟨.ok a, s, f⟩
  | .env m k, s, f =>
    match m s with
    | .ok b t => (k b).run I t f
    | .error e t => ⟨.error e, t, f⟩
  | .ask p k, s, f => (k (I _ p f).1).run I s (I _ p f).2

/-! ## Machines -/

/-- The states of a machine.  A fault that is pending is delivered in the next turn. -/
structure State (ε σ F : Type) where
  env : σ
  component : F
  pending : Option ε

def State.map (φ : F → G) (s : State ε σ F) : State ε σ G := ⟨s.env, φ s.component, s.pending⟩

/-- Which instruction is next, its handler, and the handler that delivers a fault. -/
structure Machine (P : Type → Type) (ε σ Instr : Type) where
  fetch : EStateM ε σ Instr
  execute : Instr → Code P ε σ PUnit
  deliver : ε → Code P ε σ PUnit

namespace Machine

variable (M : Machine P ε σ Instr)

/-- What is run in a turn. -/
def next : Option ε → Code P ε σ PUnit
  | none => .env M.fetch M.execute
  | some e => M.deliver e

def turn (I : Impl P F) (s : State ε σ F) : State ε σ F :=
  let r := (M.next s.pending).run I s.env s.component
  ⟨r.env, r.component, match r.result with
    | .ok _ => none
    | .error e => some e⟩

end Machine

/-! ## Refinement -/

/-- `J` answers in the state `φ f` what `I` answers in `f`, and keeps up with it. -/
structure Refines (φ : F → G) (I : Impl P F) (J : Impl P G) : Prop where
  answer : ∀ (β : Type) (p : P β) (f : F), (J β p (φ f)).1 = (I β p f).1
  after : ∀ (β : Type) (p : P β) (f : F), (J β p (φ f)).2 = φ (I β p f).2

section Refinement

variable {φ : F → G} {I : Impl P F} {J : Impl P G} (h : Refines φ I J)
include h

/-- A handler cannot tell the two apart. -/
theorem Refines.run_map (c : Code P ε σ α) (s : σ) (f : F) :
    c.run J s (φ f) = (c.run I s f).map φ := by
  induction c generalizing s f with
  | done a => rfl
  | env m k ih =>
    rw [Code.run, Code.run]
    cases m s with
    | ok b t => exact ih b t f
    | error e t => rfl
  | ask p k ih =>
    rw [Code.run, Code.run, h.answer, h.after]
    exact ih _ s _

theorem Refines.turn_map (M : Machine P ε σ Instr) (s : State ε σ F) :
    M.turn J (s.map φ) = (M.turn I s).map φ := by
  have hrun := h.run_map (M.next s.pending) s.env s.component
  unfold Machine.turn State.map
  dsimp only
  rw [hrun]
  rfl

/-- Nor can a machine, in any number of turns. -/
theorem Refines.run_turns (M : Machine P ε σ Instr) (n : ℕ) (s : State ε σ F) :
    (M.turn J)^[n] (s.map φ) = ((M.turn I)^[n] s).map φ := by
  have hturn : Function.Semiconj (State.map φ) (M.turn I) (M.turn J) := by
    intro s
    exact (h.turn_map M s).symm
  exact (hturn.iterate_right n s).symm

/-- Two states of the component that look the same stay so, with the same environment. -/
theorem Refines.run_congr (M : Machine P ε σ Instr) (n : ℕ) {s t : State ε σ F}
    (hst : s.map φ = t.map φ) :
    ((M.turn I)^[n] s).map φ = ((M.turn I)^[n] t).map φ := by
  rw [← h.run_turns, ← h.run_turns, hst]

end Refinement

end Component
