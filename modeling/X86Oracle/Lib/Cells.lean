import Mathlib

/-!
# Cells

A state with named cells that can be read and written.  Several names may share a cell, and a
write may store less than it is given (a masked register).

* `Lawful`: the laws of such a family, under an invariant that writes keep: a write is read back
  through every name of its cell, and no other cell changes.
* `lastWrite`: the last entry for a cell in a log of writes.
* `Lawful.get_run`: after any log of writes a name reads as what the last write to its cell
  stored, or as it did before when there was none.
* `tracked_iff`: where cells are independent, but not every write is kept, exactly the logs of kept
  writes read back as written.
-/

namespace Cells

variable {σ ι κ ν : Type*}

/-- What is read through `get` after writes through `set`: `cell` says which names share a cell,
`stored` what a write through a name stores. -/
structure Lawful (cell : ι → κ) (stored : ι → ν → ν) (Inv : σ → Prop) (get : σ → ι → ν)
    (set : σ → ι → ν → σ) : Prop where
  keep : ∀ s i v, Inv s → Inv (set s i v)
  self : ∀ s i j v, Inv s → cell i = cell j → get (set s i v) j = stored i v
  other : ∀ s i j v, Inv s → cell i ≠ cell j → get (set s i v) j = get s j

/-- The last entry for the cell `k`. -/
def lastWrite [DecidableEq κ] (cell : ι → κ) (log : List (ι × ν)) (k : κ) : Option (ι × ν) :=
  log.reverse.find? fun w => cell w.1 = k

section LastWrite

variable [DecidableEq κ] {cell : ι → κ} {log : List (ι × ν)} {w : ι × ν} {k : κ}

@[simp] theorem lastWrite_nil : lastWrite cell ([] : List (ι × ν)) k = none := rfl

theorem lastWrite_concat :
    lastWrite cell (log ++ [w]) k = if cell w.1 = k then some w else lastWrite cell log k := by
  unfold lastWrite
  rw [List.reverse_append, List.reverse_singleton, List.singleton_append, List.find?_cons]
  by_cases h : cell w.1 = k
  · rw [decide_eq_true h, if_pos h]
  · rw [decide_eq_false h, if_neg h]

/-- There is none exactly when the cell was never written. -/
theorem lastWrite_eq_none : lastWrite cell log k = none ↔ ∀ w ∈ log, cell w.1 ≠ k := by
  unfold lastWrite
  rw [List.find?_eq_none]
  simp

end LastWrite

variable {cell : ι → κ} {stored : ι → ν → ν} {Inv : σ → Prop} {get : σ → ι → ν}
  {set : σ → ι → ν → σ}

theorem Lawful.inv_run (h : Lawful cell stored Inv get set) {s : σ} (hs : Inv s)
    (log : List (ι × ν)) : Inv (log.foldl (fun s w => set s w.1 w.2) s) := by
  induction log generalizing s with
  | nil => exact hs
  | cons w log ih => exact ih (h.keep s w.1 w.2 hs)

/-- **Reads after a log of writes.** -/
theorem Lawful.get_run [DecidableEq κ] (h : Lawful cell stored Inv get set) {s : σ} (hs : Inv s)
    (log : List (ι × ν)) (j : ι) :
    get (log.foldl (fun s w => set s w.1 w.2) s) j =
      (lastWrite cell log (cell j)).elim (get s j) fun w => stored w.1 w.2 := by
  induction log using List.reverseRecOn with
  | nil => rfl
  | append_singleton log w ih =>
    have hinv := h.inv_run hs log
    rw [List.foldl_append, List.foldl_cons, List.foldl_nil, lastWrite_concat]
    by_cases hcell : cell w.1 = cell j
    · rw [if_pos hcell, Option.elim_some]
      exact h.self _ _ _ _ hinv hcell
    · rw [if_neg hcell, ← ih]
      exact h.other _ _ _ _ hinv hcell

/-! ## Writes that are not kept -/

section Tracked

variable {view : ι → ν → ν}

/-- The write shows, through every name of its cell, up to what `view` leaves of a value. -/
def Kept (cell : ι → κ) (view : ι → ν → ν) (get : σ → ι → ν) (set : σ → ι → ν → σ) (s : σ)
    (w : ι × ν) : Prop :=
  ∀ j, cell w.1 = cell j → view j (get (set s w.1 w.2) j) = view j w.2

/-- After a log of writes a name reads as the last write to its cell, up to the view, and exactly as
before when there was none. -/
def ReadsBack [DecidableEq κ] (cell : ι → κ) (view : ι → ν → ν) (get : σ → ι → ν)
    (set : σ → ι → ν → σ) (s : σ) (log : List (ι × ν)) (j : ι) : Prop :=
  (lastWrite cell log (cell j)).elim (get (log.foldl (fun s w => set s w.1 w.2) s) j = get s j)
    fun w => view j (get (log.foldl (fun s w => set s w.1 w.2) s) j) = view j w.2

/-- **Independent cells read back as written, all along a log, exactly when every write of it is
kept.** -/
theorem tracked_iff [DecidableEq κ]
    (hother : ∀ s i j v, cell i ≠ cell j → get (set s i v) j = get s j) (s : σ)
    (log : List (ι × ν)) :
    (∀ pre, pre <+: log → ∀ j, ReadsBack cell view get set s pre j) ↔
      ∀ pre w, pre ++ [w] <+: log →
        Kept cell view get set (pre.foldl (fun s w => set s w.1 w.2) s) w := by
  constructor
  · intro h pre w hpre j hcell
    have hread := h _ hpre j
    unfold ReadsBack at hread
    rw [lastWrite_concat, if_pos hcell, List.foldl_append] at hread
    exact hread
  · intro h pre hpre j
    induction pre using List.reverseRecOn with
    | nil => rfl
    | append_singleton pre w ih =>
      have hbefore := ih ((List.prefix_append pre [w]).trans hpre)
      unfold ReadsBack at hbefore ⊢
      rw [lastWrite_concat, List.foldl_append, List.foldl_cons, List.foldl_nil]
      by_cases hcell : cell w.1 = cell j
      · rw [if_pos hcell]
        exact h pre w hpre j hcell
      · rw [if_neg hcell, hother _ _ _ _ hcell]
        exact hbefore

end Tracked

end Cells
