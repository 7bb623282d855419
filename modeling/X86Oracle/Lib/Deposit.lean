import Mathlib

/-!
# Gathering and scattering bits

The ones of a mask are places.  `gather` takes the bits of a number at those places, side by side;
`scatter` puts the bits of a number, one after the other, at those places.

* `rank`: how many places lie below a bit.
* `gather_testBit`, `gather_lt`, `scatter_testBit`: what both do, bit by bit.
* `scatter_gather`, `gather_scatter`: each undoes the other.
-/

namespace Deposit

/-- The number of ones of the mask below bit `i`. -/
def rank (m i : ℕ) : ℕ := Nat.count (fun j => m.testBit j = true) i

def gather (x m : ℕ) : ℕ :=
  if m = 0 then 0
  else if m % 2 = 1 then x % 2 + 2 * gather (x / 2) (m / 2)
  else gather (x / 2) (m / 2)
termination_by m

def scatter (x m : ℕ) : ℕ :=
  if m = 0 then 0
  else if m % 2 = 1 then x % 2 + 2 * scatter (x / 2) (m / 2)
  else 2 * scatter x (m / 2)
termination_by m

/-! ## Ranks -/

@[simp]
theorem rank_zero (m : ℕ) : rank m 0 = 0 := by
  simp [rank]

@[simp]
theorem zero_rank (i : ℕ) : rank 0 i = 0 := by
  simp [rank]

theorem rank_succ (m i : ℕ) :
    rank m (i + 1) = rank m i + if m.testBit i = true then 1 else 0 :=
  Nat.count_succ _ i

/-- The lowest bit of the mask comes first. -/
theorem rank_succ_half (m i : ℕ) :
    rank m (i + 1) = rank (m / 2) i + if m % 2 = 1 then 1 else 0 := by
  unfold rank
  rw [Nat.count_succ']
  simp [Nat.testBit_succ, Nat.testBit_zero]

/-- Every number below the rank of a bit is the rank of a place below that bit. -/
theorem exists_rank {m w k : ℕ} (h : k < rank m w) :
    ∃ i < w, m.testBit i = true ∧ rank m i = k := by
  induction w with
  | zero => simp at h
  | succ w ih =>
    rw [rank_succ] at h
    by_cases hlt : k < rank m w
    · obtain ⟨i, hi, hm, hrank⟩ := ih hlt
      exact ⟨i, hi.trans (Nat.lt_succ_self w), hm, hrank⟩
    · have hm : m.testBit w = true := by
        by_contra hno
        rw [if_neg hno] at h
        omega
      rw [if_pos hm] at h
      exact ⟨w, Nat.lt_succ_self w, hm, by omega⟩

/-! ## Bits of what is gathered and scattered -/

/-- A bit prepended moves the others up. -/
theorem testBit_double (x i : ℕ) {b : ℕ} (hb : b < 2) :
    (b + 2 * x).testBit (i + 1) = x.testBit i := by
  have hhalf : (b + 2 * x) / 2 = x := by omega
  rw [Nat.testBit_succ, hhalf]

theorem gather_testBit (x m : ℕ) {i : ℕ} (h : m.testBit i = true) :
    (gather x m).testBit (rank m i) = x.testBit i := by
  induction x, m using gather.induct generalizing i with
  | case1 x => simp at h
  | case2 x m hne hodd ih =>
    rw [gather, if_neg hne, if_pos hodd]
    cases i with
    | zero => simp [Nat.testBit_zero]
    | succ i =>
      rw [Nat.testBit_succ] at h ⊢
      rw [rank_succ_half, if_pos hodd, testBit_double _ _ (Nat.mod_lt x two_pos)]
      exact ih h
  | case3 x m hne heven ih =>
    rw [gather, if_neg hne, if_neg heven]
    cases i with
    | zero => simp [Nat.testBit_zero, heven] at h
    | succ i =>
      rw [Nat.testBit_succ] at h ⊢
      rw [rank_succ_half, if_neg heven, Nat.add_zero]
      exact ih h

/-- There are as many bits as places. -/
theorem gather_lt (x : ℕ) {m w : ℕ} (h : m < 2 ^ w) : gather x m < 2 ^ rank m w := by
  induction x, m using gather.induct generalizing w with
  | case1 x => simp [gather]
  | case2 x m hne hodd ih =>
    cases w with
    | zero => simp at h; contradiction
    | succ w =>
      rw [gather, if_neg hne, if_pos hodd, rank_succ_half, if_pos hodd, pow_succ]
      have hrest := @ih w (by omega)
      omega
  | case3 x m hne heven ih =>
    cases w with
    | zero => simp at h; contradiction
    | succ w =>
      rw [gather, if_neg hne, if_neg heven, rank_succ_half, if_neg heven]
      exact @ih w (by omega)

/-- A bit of the mask takes the next bit of `x`, the others stay clear. -/
theorem scatter_testBit (x m i : ℕ) :
    (scatter x m).testBit i = (m.testBit i && x.testBit (rank m i)) := by
  induction x, m using scatter.induct generalizing i with
  | case1 x => simp [scatter]
  | case2 x m hne hodd ih =>
    rw [scatter, if_neg hne, if_pos hodd]
    cases i with
    | zero => simp [Nat.testBit_zero, hodd]
    | succ i =>
      rw [testBit_double _ _ (Nat.mod_lt x two_pos), ih, rank_succ_half, if_pos hodd,
        Nat.testBit_succ, Nat.testBit_succ]
  | case3 x m hne heven ih =>
    rw [scatter, if_neg hne, if_neg heven]
    cases i with
    | zero => simp [Nat.testBit_zero, heven]
    | succ i =>
      rw [← Nat.zero_add (2 * scatter x (m / 2)), testBit_double _ _ two_pos, ih,
        rank_succ_half, if_neg heven, Nat.testBit_succ, Nat.add_zero]

/-! ## Round trips -/

/-- What was gathered goes back to its places. -/
theorem scatter_gather (x m : ℕ) : scatter (gather x m) m = x &&& m := by
  apply Nat.eq_of_testBit_eq
  intro i
  rw [scatter_testBit, Nat.testBit_and]
  cases h : m.testBit i with
  | false => simp
  | true => simp [gather_testBit x m h]

/-- As many of the low bits survive as there are places. -/
theorem gather_scatter (x : ℕ) {m w : ℕ} (h : m < 2 ^ w) :
    gather (scatter x m) m = x % 2 ^ rank m w := by
  apply Nat.eq_of_testBit_eq
  intro k
  rw [Nat.testBit_mod_two_pow]
  by_cases hk : k < rank m w
  · obtain ⟨i, hi, hm, rfl⟩ := exists_rank hk
    rw [gather_testBit _ _ hm, scatter_testBit, hm]
    simp [hk]
  · have hlt := (gather_lt (scatter x m) h).trans_le
      (Nat.pow_le_pow_right two_pos (not_lt.1 hk))
    simp [hk, Nat.testBit_lt_two_pow hlt]

end Deposit
