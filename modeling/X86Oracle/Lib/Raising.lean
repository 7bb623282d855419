import Mathlib

/-!
# Programs that raise

A program over a state that may stop in the middle, with the state as it is at that point kept
(`EStateM`).

* `Keeps R m`: however `m` ends, the state it ends in is related to the one it started in.
* `RaisesOnly P m`: what `m` raises satisfies `P`.
* Both have one rule for each way of building a program, so that what holds of the primitives
  holds of what is built from them.
-/

namespace Raising

universe u

variable {ε σ α β : Type u}

/-- `throw` on a condition. -/
def raiseIf (b : Bool) (e : ε) : EStateM ε σ PUnit := if b then throw e else pure ⟨⟩

/-- A program that runs on a condition. -/
def doIf (b : Bool) (m : EStateM ε σ PUnit) : EStateM ε σ PUnit := if b then m else pure ⟨⟩

/-- The state a program ends in, whether it raises or not. -/
def stateOf : EStateM.Result ε σ α → σ
  | .ok _ t => t
  | .error _ t => t

@[simp] theorem stateOf_ok (a : α) (t : σ) : stateOf (.ok a t : EStateM.Result ε σ α) = t := rfl

@[simp] theorem stateOf_error (e : ε) (t : σ) :
    stateOf (.error e t : EStateM.Result ε σ α) = t := rfl

/-- However `m` ends, it has moved the state by `R`. -/
def Keeps (R : σ → σ → Prop) (m : EStateM ε σ α) : Prop := ∀ s, R s (stateOf (m s))

/-- An exception that `m` raises, from any state, satisfies `P`. -/
def RaisesOnly (P : ε → Prop) (m : EStateM ε σ α) : Prop := ∀ s e t, m s = .error e t → P e

variable {R : σ → σ → Prop} {P : ε → Prop} {m : EStateM ε σ α} {k : α → EStateM ε σ β}

/-- The second program runs from where the first ended, unless that raised. -/
theorem bind_apply (m : EStateM ε σ α) (k : α → EStateM ε σ β) (s : σ) :
    (m >>= k) s = match m s with
      | .ok a t => k a t
      | .error e t => .error e t := rfl

/-! ## States -/

/-- A program that does nothing moves the state by any reflexive relation. -/
theorem Keeps.pure (hR : ∀ s, R s s) (a : α) : Keeps R (pure a : EStateM ε σ α) := hR

/-- Raising leaves the state as it is. -/
theorem Keeps.throw (hR : ∀ s, R s s) (e : ε) : Keeps R (throw e : EStateM ε σ α) := hR

/-- So does reading it. -/
theorem Keeps.get (hR : ∀ s, R s s) : Keeps R (get : EStateM ε σ σ) := hR

/-- A check, whether it raises or not. -/
theorem Keeps.raiseIf (hR : ∀ s, R s s) (b : Bool) (e : ε) :
    Keeps R (raiseIf b e : EStateM ε σ PUnit) := by
  unfold Raising.raiseIf
  split
  · exact Keeps.throw hR e
  · exact Keeps.pure hR _

/-- One program after the other, of a transitive relation: if the first raises, its part is all. -/
theorem Keeps.bind (hR : ∀ {s t u}, R s t → R t u → R s u) (hm : Keeps R m)
    (hk : ∀ a, Keeps R (k a)) : Keeps R (m >>= k) := by
  intro s
  have hfirst := hm s
  rw [bind_apply]
  cases h : m s with
  | ok a t =>
    rw [h] at hfirst
    exact hR hfirst (hk a t)
  | error e t =>
    rw [h] at hfirst
    exact hfirst

/-- A choice, of which both sides move the state by `R`. -/
theorem Keeps.ite {b : Prop} [Decidable b] {m' : EStateM ε σ α} (hm : Keeps R m)
    (hm' : Keeps R m') : Keeps R (if b then m else m') := by
  split
  · exact hm
  · exact hm'

theorem Keeps.doIf {m : EStateM ε σ PUnit} (hR : ∀ s, R s s) (b : Bool) (hm : Keeps R m) :
    Keeps R (doIf b m) := Keeps.ite hm (Keeps.pure hR _)

/-! ## What is raised -/

theorem RaisesOnly.pure (a : α) : RaisesOnly P (pure a : EStateM ε σ α) := by
  intro s e t h
  nomatch h

/-- Raising at once raises that exception only. -/
theorem RaisesOnly.throw {e : ε} (he : P e) : RaisesOnly P (throw e : EStateM ε σ α) := by
  intro s e' t h
  cases h
  exact he

theorem RaisesOnly.get : RaisesOnly P (get : EStateM ε σ σ) := by
  intro s e t h
  nomatch h

theorem RaisesOnly.set (s : σ) : RaisesOnly P (set s : EStateM ε σ PUnit) := by
  intro s e t h
  nomatch h

theorem RaisesOnly.modify (f : σ → σ) : RaisesOnly P (modify f : EStateM ε σ PUnit) := by
  intro s e t h
  nomatch h

/-- A check raises nothing but its exception. -/
theorem RaisesOnly.raiseIf {e : ε} (b : Bool) (he : P e) :
    RaisesOnly P (raiseIf b e : EStateM ε σ PUnit) := by
  unfold Raising.raiseIf
  split
  · exact RaisesOnly.throw he
  · exact RaisesOnly.pure _

/-- What a sequence raises, one of its parts has raised, from some state. -/
theorem RaisesOnly.bind (hm : RaisesOnly P m) (hk : ∀ a, RaisesOnly P (k a)) :
    RaisesOnly P (m >>= k) := by
  intro s e t h
  rw [bind_apply] at h
  cases hms : m s with
  | ok a u =>
    rw [hms] at h
    exact hk a u e t h
  | error e' u =>
    rw [hms] at h
    cases h
    exact hm s _ _ hms

/-- A choice raises what the side taken raises. -/
theorem RaisesOnly.ite {b : Prop} [Decidable b] {m' : EStateM ε σ α} (hm : RaisesOnly P m)
    (hm' : RaisesOnly P m') : RaisesOnly P (if b then m else m') := by
  split
  · exact hm
  · exact hm'

theorem RaisesOnly.doIf {m : EStateM ε σ PUnit} (b : Bool) (hm : RaisesOnly P m) :
    RaisesOnly P (doIf b m) := RaisesOnly.ite hm (RaisesOnly.pure _)

end Raising
