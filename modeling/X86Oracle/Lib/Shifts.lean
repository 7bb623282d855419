import Mathlib

/-!
# Shifts and rotations, one bit at a time

A shift by a count is that many shifts by one, each of which moves a bit out of the word, next to
the carry, and another one in.

* `step` is a shift by one, on a word and its carry; `doubleStep` moves the bits of a second word
  in.
* `getLsbD_shl_iterate`, …: the word after any number of steps, in closed form; for the rotations
  through the carry, `rcl_iterate` and `rcr_iterate`.
* `doubleLeft_iterate`, `doubleRight_iterate`: two words are one of twice the width, and rotate.
-/

namespace Shifts

variable {w : ℕ}

inductive Op
  | rol
  | ror
  | rcl
  | rcr
  | shl
  | shr
  | sar
deriving DecidableEq

/-- Right by one, with a bit at the top. -/
def shiftIn (b : Bool) (x : BitVec w) : BitVec w :=
  (x >>> 1) ||| ((BitVec.ofBool b).setWidth w <<< (w - 1))

/-- A shift by one: the word, and the bit that has left it. -/
def step : Op → BitVec w × Bool → BitVec w × Bool
  | .rol, (x, _) => (x.shiftConcat x.msb, x.msb)
  | .ror, (x, _) => (shiftIn (x.getLsbD 0) x, x.getLsbD 0)
  | .rcl, (x, c) => (x.shiftConcat c, x.msb)
  | .rcr, (x, c) => (shiftIn c x, x.getLsbD 0)
  | .shl, (x, _) => (x.shiftConcat false, x.msb)
  | .shr, (x, _) => (shiftIn false x, x.getLsbD 0)
  | .sar, (x, _) => (shiftIn x.msb x, x.getLsbD 0)

/-- Left by one, with the bits of a second word moving in, which takes those that leave. -/
def doubleLeft : (BitVec w × BitVec w) × Bool → (BitVec w × BitVec w) × Bool
  | ((x, y), _) => ((x.shiftConcat y.msb, y.shiftConcat x.msb), x.msb)

def doubleRight : (BitVec w × BitVec w) × Bool → (BitVec w × BitVec w) × Bool
  | ((x, y), _) => ((shiftIn (y.getLsbD 0) x, shiftIn (x.getLsbD 0) y), x.getLsbD 0)

theorem getLsbD_shiftIn (b : Bool) (x : BitVec w) {i : ℕ} (hi : i < w) :
    (shiftIn b x).getLsbD i = if i + 1 = w then b else x.getLsbD (i + 1) := by
  unfold shiftIn
  rw [BitVec.getLsbD_or, BitVec.getLsbD_ushiftRight, BitVec.getLsbD_shiftLeft, Nat.add_comm 1 i]
  by_cases hlast : i + 1 = w
  · have hzero : i - (w - 1) = 0 := by omega
    have hpos : 0 < w := by omega
    rw [if_pos hlast, BitVec.getLsbD_of_ge x _ (by omega), hzero]
    simp [hi, hpos]
    omega
  · have hlt : i < w - 1 := by omega
    rw [if_neg hlast]
    simp [hlt]

theorem getLsbD_shiftConcat_of_lt (b : Bool) (x : BitVec w) {i : ℕ} (hi : i < w) :
    (x.shiftConcat b).getLsbD i = if i = 0 then b else x.getLsbD (i - 1) := by
  rw [BitVec.getLsbD_shiftConcat, decide_eq_true hi, Bool.true_and]

/-! ## Words after any number of steps -/

section Iterate

variable (x : BitVec w) (c : Bool) {i : ℕ} (hi : i < w)

include hi

theorem getLsbD_shl_iterate (n : ℕ) :
    ((step .shl)^[n] (x, c)).1.getLsbD i = (decide (n ≤ i) && x.getLsbD (i - n)) := by
  induction n generalizing i with
  | zero => simp
  | succ n ih =>
    rw [Function.iterate_succ_apply', step, getLsbD_shiftConcat_of_lt _ _ hi]
    by_cases hzero : i = 0
    · subst hzero
      simp
    · rw [if_neg hzero, ih (by omega)]
      have hsub : i - 1 - n = i - (n + 1) := by omega
      have hle : (n ≤ i - 1) ↔ (n + 1 ≤ i) := by omega
      rw [hsub, decide_eq_decide.2 hle]

theorem getLsbD_shr_iterate (n : ℕ) :
    ((step .shr)^[n] (x, c)).1.getLsbD i = x.getLsbD (i + n) := by
  induction n generalizing i with
  | zero => rfl
  | succ n ih =>
    rw [Function.iterate_succ_apply', step, getLsbD_shiftIn _ _ hi]
    by_cases hlast : i + 1 = w
    · rw [if_pos hlast, BitVec.getLsbD_of_ge x _ (by omega)]
    · rw [if_neg hlast, ih (by omega), Nat.add_right_comm, Nat.add_assoc]

theorem getLsbD_sar_iterate (n : ℕ) :
    ((step .sar)^[n] (x, c)).1.getLsbD i = if i + n < w then x.getLsbD (i + n) else x.msb := by
  have hmsb : x.msb = x.getLsbD (w - 1) := x.msb_eq_getLsbD_last
  induction n generalizing i with
  | zero => simp [hi]
  | succ n ih =>
    rw [Function.iterate_succ_apply', step, getLsbD_shiftIn _ _ hi]
    by_cases hlast : i + 1 = w
    · rw [if_pos hlast, if_neg (by omega), BitVec.msb_eq_getLsbD_last, ih (by omega)]
      split_ifs with hn
      · have hzero : n = 0 := by omega
        rw [hzero, hmsb, Nat.add_zero]
      · rfl
    · rw [if_neg hlast, ih (by omega)]
      have hassoc : i + 1 + n = i + (n + 1) := by omega
      rw [hassoc]

/-- The bit to the right, with the last one to the right of the first. -/
theorem getLsbD_rol_step (b : Bool) :
    (step .rol (x, b)).1.getLsbD i = x.getLsbD ((i + (w - 1)) % w) := by
  rw [step, getLsbD_shiftConcat_of_lt _ _ hi]
  by_cases hzero : i = 0
  · subst hzero
    rw [if_pos rfl, Nat.zero_add, Nat.mod_eq_of_lt (by omega), BitVec.msb_eq_getLsbD_last]
  · have hwrap : i + (w - 1) = i - 1 + w := by omega
    rw [if_neg hzero, hwrap, Nat.add_mod_right, Nat.mod_eq_of_lt (by omega)]

theorem getLsbD_ror_step (b : Bool) :
    (step .ror (x, b)).1.getLsbD i = x.getLsbD ((i + 1) % w) := by
  rw [step, getLsbD_shiftIn _ _ hi]
  by_cases hlast : i + 1 = w
  · rw [if_pos hlast, hlast, Nat.mod_self]
  · rw [if_neg hlast, Nat.mod_eq_of_lt (by omega)]

theorem getLsbD_rol_iterate (n : ℕ) :
    ((step .rol)^[n] (x, c)).1.getLsbD i = x.getLsbD ((i + n * (w - 1)) % w) := by
  induction n generalizing i with
  | zero => rw [Nat.zero_mul, Nat.add_zero, Nat.mod_eq_of_lt hi, Function.iterate_zero_apply]
  | succ n ih =>
    have hpos : 0 < w := by omega
    rw [Function.iterate_succ_apply', ← Prod.mk.eta (p := (step .rol)^[n] (x, c)),
      getLsbD_rol_step _ hi, ih (Nat.mod_lt _ hpos), Nat.mod_add_mod, Nat.add_assoc,
      Nat.succ_mul, Nat.add_comm (w - 1)]

theorem getLsbD_ror_iterate (n : ℕ) :
    ((step .ror)^[n] (x, c)).1.getLsbD i = x.getLsbD ((i + n) % w) := by
  induction n generalizing i with
  | zero => rw [Nat.add_zero, Nat.mod_eq_of_lt hi, Function.iterate_zero_apply]
  | succ n ih =>
    have hpos : 0 < w := by omega
    rw [Function.iterate_succ_apply', ← Prod.mk.eta (p := (step .ror)^[n] (x, c)),
      getLsbD_ror_step _ hi, ih (Nat.mod_lt _ hpos), Nat.mod_add_mod, Nat.add_assoc,
      Nat.add_comm 1 n]

end Iterate

/-- Where a rotation to the left takes a bit from: full turns make no difference. -/
theorem rol_index {n i : ℕ} (hi : i < w) :
    (i + n * (w - 1)) % w = if n % w ≤ i then i - n % w else i + w - n % w := by
  obtain ⟨v, rfl⟩ := Nat.exists_eq_add_one_of_ne_zero (by omega : w ≠ 0)
  have hdiv := Nat.div_add_mod n (v + 1)
  have hlt := Nat.mod_lt n (Nat.succ_pos v)
  generalize n / (v + 1) = q at *
  generalize n % (v + 1) = r at *
  rw [← hdiv, Nat.add_sub_cancel]
  split_ifs with h
  · have hsplit : i + ((v + 1) * q + r) * v = (i - r) + (v + 1) * (r + q * v) := by
      obtain ⟨d, rfl⟩ := Nat.exists_eq_add_of_le h
      rw [Nat.add_sub_cancel_left]
      ring
    rw [hsplit, Nat.add_mul_mod_self_left, Nat.mod_eq_of_lt (by omega)]
  · have hsplit : i + ((v + 1) * q + r) * v = (i + (v + 1) - r) + (v + 1) * (r - 1 + q * v) := by
      obtain ⟨d, rfl⟩ := Nat.exists_eq_add_of_lt (not_le.1 h)
      have hpred : i + d + 1 - 1 = i + d := by omega
      have hrest : i + (v + 1) - (i + d + 1) = v - d := by omega
      obtain ⟨e, rfl⟩ := Nat.exists_eq_add_of_le (by omega : d ≤ v)
      rw [hpred, hrest, Nat.add_sub_cancel_left]
      ring
    rw [hsplit, Nat.add_mul_mod_self_left, Nat.mod_eq_of_lt (by omega)]

/-! ## Through the carry -/

/-- The word and the carry are a word of one more bit. -/
theorem rcl_iterate (x : BitVec w) (c : Bool) {n : ℕ} (hn : n ≤ w) :
    (∀ i < w, ((step .rcl)^[n] (x, c)).1.getLsbD i =
      if n ≤ i then x.getLsbD (i - n) else if i + 1 = n then c else x.getLsbD (w + 1 + i - n)) ∧
    ((step .rcl)^[n] (x, c)).2 = if n = 0 then c else x.getLsbD (w - n) := by
  induction n with
  | zero => simp
  | succ n ih =>
    obtain ⟨hword, hcarry⟩ := ih (by omega)
    rw [Function.iterate_succ_apply', ← Prod.mk.eta (p := (step .rcl)^[n] (x, c)), step]
    refine ⟨fun i hi => ?_, ?_⟩
    · rw [getLsbD_shiftConcat_of_lt _ _ hi, hcarry]
      by_cases hzero : i = 0
      · subst hzero
        by_cases hn0 : n = 0
        · rw [if_pos rfl, if_pos hn0, if_neg (by omega), if_pos (by omega)]
        · have hindex : w + 1 + 0 - (n + 1) = w - n := by omega
          rw [if_pos rfl, if_neg hn0, if_neg (by omega), if_neg (by omega), hindex]
      · rw [if_neg hzero, hword _ (by omega)]
        have hpred : i - 1 - n = i - (n + 1) := by omega
        have hindex : w + 1 + (i - 1) - n = w + 1 + i - (n + 1) := by omega
        rw [hpred, hindex]
        split_ifs <;> first | rfl | omega
    · have hlast : w - 1 - n = w - (n + 1) := by omega
      rw [if_neg (by omega), BitVec.msb_eq_getLsbD_last, hword _ (by omega), if_pos (by omega),
        hlast]

theorem rcr_iterate (x : BitVec w) (c : Bool) {n : ℕ} (hn : n ≤ w) :
    (∀ i < w, ((step .rcr)^[n] (x, c)).1.getLsbD i =
      if i + n < w then x.getLsbD (i + n) else if i + n = w then c
        else x.getLsbD (i + n - (w + 1))) ∧
    ((step .rcr)^[n] (x, c)).2 = if n = 0 then c else x.getLsbD (n - 1) := by
  induction n with
  | zero =>
    refine ⟨fun i hi => ?_, rfl⟩
    rw [Nat.add_zero, if_pos hi]
    rfl
  | succ n ih =>
    obtain ⟨hword, hcarry⟩ := ih (by omega)
    rw [Function.iterate_succ_apply', ← Prod.mk.eta (p := (step .rcr)^[n] (x, c)), step]
    refine ⟨fun i hi => ?_, ?_⟩
    · rw [getLsbD_shiftIn _ _ hi, hcarry]
      by_cases hlast : i + 1 = w
      · by_cases hn0 : n = 0
        · rw [if_pos hlast, if_pos hn0, if_neg (by omega), if_pos (by omega)]
        · have hindex : i + (n + 1) - (w + 1) = n - 1 := by omega
          rw [if_pos hlast, if_neg hn0, if_neg (by omega), if_neg (by omega), hindex]
      · have hnext : i + 1 + n = i + (n + 1) := by omega
        rw [if_neg hlast, hword _ (by omega), hnext]
    · rw [if_neg (by omega), hword 0 (by omega), if_pos (by omega), Nat.zero_add,
        Nat.add_sub_cancel]

/-! ## Two words -/

/-- The bits of two words, the first one below the second. -/
def pairBit (x y : BitVec w) (k : ℕ) : Bool :=
  if k < w then x.getLsbD k else y.getLsbD (k - w)

/-- The words rotate as one, with the word that is shifted above the other. -/
theorem doubleLeft_iterate (x y : BitVec w) (c : Bool) {n : ℕ} (hn : n ≤ 2 * w) :
    ∀ i < w,
      (doubleLeft^[n] ((x, y), c)).1.1.getLsbD i =
          pairBit y x (if n ≤ i + w then i + w - n else i + 3 * w - n) ∧
        (doubleLeft^[n] ((x, y), c)).1.2.getLsbD i =
          pairBit y x (if n ≤ i then i - n else i + 2 * w - n) := by
  induction n with
  | zero =>
    intro i hi
    have hwrap : ¬ i + w < w := by omega
    simp [pairBit, hi]
  | succ n ih =>
    intro i hi
    have ih := ih (by omega)
    rw [Function.iterate_succ_apply', ← Prod.mk.eta (p := doubleLeft^[n] ((x, y), c)),
      ← Prod.mk.eta (p := (doubleLeft^[n] ((x, y), c)).1), doubleLeft]
    dsimp only
    rw [getLsbD_shiftConcat_of_lt _ _ hi, getLsbD_shiftConcat_of_lt _ _ hi,
      BitVec.msb_eq_getLsbD_last, BitVec.msb_eq_getLsbD_last, (ih (w - 1) (by omega)).1,
      (ih (w - 1) (by omega)).2]
    by_cases hzero : i = 0
    · subst hzero
      rw [if_pos rfl, if_pos rfl]
      constructor <;> congr 1 <;> split_ifs <;> omega
    · rw [if_neg hzero, if_neg hzero, (ih (i - 1) (by omega)).1, (ih (i - 1) (by omega)).2]
      constructor <;> congr 1 <;> split_ifs <;> omega

/-- The words rotate as one, with the word that is shifted below the other. -/
theorem doubleRight_iterate (x y : BitVec w) (c : Bool) {n : ℕ} (hn : n ≤ 2 * w) :
    ∀ i < w,
      (doubleRight^[n] ((x, y), c)).1.1.getLsbD i =
          pairBit x y (if i + n < 2 * w then i + n else i + n - 2 * w) ∧
        (doubleRight^[n] ((x, y), c)).1.2.getLsbD i =
          pairBit x y (if i + n < w then i + w + n else i + n - w) := by
  induction n with
  | zero =>
    intro i hi
    have hlt : i < 2 * w := by omega
    simp [pairBit, hi, hlt]
  | succ n ih =>
    intro i hi
    have ih := ih (by omega)
    rw [Function.iterate_succ_apply', ← Prod.mk.eta (p := doubleRight^[n] ((x, y), c)),
      ← Prod.mk.eta (p := (doubleRight^[n] ((x, y), c)).1), doubleRight]
    dsimp only
    rw [getLsbD_shiftIn _ _ hi, getLsbD_shiftIn _ _ hi, (ih 0 (by omega)).1, (ih 0 (by omega)).2]
    by_cases hlast : i + 1 = w
    · rw [if_pos hlast, if_pos hlast]
      constructor <;> congr 1 <;> split_ifs <;> omega
    · rw [if_neg hlast, if_neg hlast, (ih (i + 1) (by omega)).1, (ih (i + 1) (by omega)).2]
      constructor <;> congr 1 <;> split_ifs <;> omega

end Shifts
