import Mathlib
import X86Oracle.Bochs.Alu
import X86Oracle.Bochs.Mult

/-!
# Bochs: scanning and counting bits

`cpu/scalar_arith.h` and the scans of `bit16.cc`, `bit32.cc` and `bit64.cc`.

* `tzcnt`, `lzcnt` and the loop of `BSR` move a mask or the word until a bit is hit; all of them
  are `firstFrom`, on the bits from below or from above.
* `popcntb`, …, `popcntq` add neighbouring fields of a word in parallel.
* `scans_exact`: the handlers find the lowest and the highest bit, and say in ZF or CF that there
  is none.
* `popcnt_exact`: what the fields add up to is the number of ones.
-/

namespace Bochs

open LazyFlags

/-! ## Scans -/

section Scans

variable {w : ℕ}

/-- The loop of `tzcntw`, `tzcntd` and `tzcntq`. -/
def tzcntLoop (val : BitVec w) : ℕ → BitVec w → ℕ → ℕ
  | 0, _, count => count
  | n + 1, mask, count =>
    if val &&& mask = 0 ∧ mask ≠ 0 then tzcntLoop val n (mask <<< 1) (count + 1) else count

/-- After `w` turns there is no bit left in the mask. -/
def tzcnt (val : BitVec w) : ℕ := tzcntLoop val w 1 0

/-- The loop of `lzcntw`, `lzcntd` and `lzcntq`. -/
def lzcntLoop (val : BitVec w) : ℕ → BitVec w → ℕ → ℕ
  | 0, _, count => count
  | n + 1, mask, count =>
    if val &&& mask = 0 ∧ mask ≠ 0 then lzcntLoop val n (mask >>> 1) (count + 1) else count

def lzcnt (val : BitVec w) : ℕ := lzcntLoop val w ((1 : BitVec w) <<< (w - 1)) 0

/-- The loop of `BSR`, for an operand that is not zero. -/
def bsrLoop : ℕ → BitVec w → ℕ → ℕ
  | 0, _, op1 => op1
  | n + 1, op2, op1 => if op2.msb = false then bsrLoop n (op2 <<< 1) (op1 - 1) else op1

/-- The first of at most `n` places, from `c` on, that has a property. -/
def firstFrom (p : ℕ → Bool) : ℕ → ℕ → ℕ
  | 0, c => c
  | n + 1, c => if p c then c else firstFrom p n (c + 1)

theorem firstFrom_spec (p : ℕ → Bool) (n c : ℕ) :
    c ≤ firstFrom p n c ∧ firstFrom p n c ≤ c + n ∧
      (∀ j, c ≤ j → j < firstFrom p n c → p j = false) ∧
      (firstFrom p n c < c + n → p (firstFrom p n c) = true) := by
  induction n generalizing c with
  | zero =>
    exact ⟨le_rfl, le_rfl, fun j h h' => absurd h (not_le.2 h'), fun h => absurd h (lt_irrefl c)⟩
  | succ n ih =>
    obtain ⟨hle, hge, hbefore, hat⟩ := ih (c + 1)
    rw [firstFrom]
    cases hc : p c with
    | true =>
      rw [if_pos rfl]
      exact ⟨le_rfl, Nat.le_add_right _ _, fun j h h' => absurd h (not_le.2 h'), fun _ => hc⟩
    | false =>
      rw [if_neg Bool.false_ne_true]
      refine ⟨by omega, by omega, fun j hj hlt => ?_, fun h => hat (by omega)⟩
      rcases Nat.eq_or_lt_of_le hj with rfl | hlt'
      · exact hc
      · exact hbefore j hlt' hlt

theorem twoPow_ne_zero {k : ℕ} (hk : k < w) : BitVec.twoPow w k ≠ 0 := by
  intro h
  have hbit := congrArg (fun x => x.getLsbD k) h
  simp [hk] at hbit

/-- A mask of one bit hits it or misses it. -/
theorem and_twoPow_eq_zero (val : BitVec w) {k : ℕ} (hk : k < w) :
    val &&& BitVec.twoPow w k = 0 ↔ val.getLsbD k = false := by
  have hne := twoPow_ne_zero hk
  rw [BitVec.and_twoPow]
  cases h : val.getLsbD k with
  | true => simpa using hne
  | false => simp

/-- The loop with the mask at bit `c`, which has found no bit below. -/
theorem tzcntLoop_eq (val : BitVec w) (n c : ℕ) (h : c + n = w) :
    tzcntLoop val n (BitVec.twoPow w c) c = firstFrom val.getLsbD n c := by
  induction n generalizing c with
  | zero => rfl
  | succ n ih =>
    have hshift : BitVec.twoPow w c <<< 1 = BitVec.twoPow w (c + 1) := by
      rw [BitVec.twoPow_eq, BitVec.twoPow_eq, BitVec.shiftLeft_add]
    have hne := twoPow_ne_zero (w := w) (k := c) (by omega)
    have hhit := and_twoPow_eq_zero val (k := c) (by omega)
    rw [tzcntLoop, firstFrom]
    cases hbit : val.getLsbD c with
    | true => rw [if_neg fun hmiss => by simp [hhit.1 hmiss.1] at hbit, if_pos rfl]
    | false =>
      rw [if_pos ⟨hhit.2 hbit, hne⟩, if_neg Bool.false_ne_true, hshift]
      exact ih (c + 1) (by omega)

theorem tzcnt_eq (val : BitVec w) : tzcnt val = firstFrom val.getLsbD w 0 := by
  have h := tzcntLoop_eq val w 0 (Nat.zero_add w)
  rw [BitVec.twoPow_zero] at h
  exact h

/-- The same from the other end. -/
theorem lzcntLoop_eq (val mask : BitVec w) (n c : ℕ) (h : c + n = w)
    (hmask : c < w → mask = BitVec.twoPow w (w - 1 - c)) :
    lzcntLoop val n mask c = firstFrom val.getMsbD n c := by
  induction n generalizing c mask with
  | zero => rfl
  | succ n ih =>
    have hc : c < w := by omega
    have hshift (hnext : c + 1 < w) : mask >>> 1 = BitVec.twoPow w (w - 1 - (c + 1)) := by
      rw [hmask hc]
      apply BitVec.eq_of_getLsbD_eq
      intro i hi
      rw [BitVec.getLsbD_ushiftRight, BitVec.getLsbD_twoPow, BitVec.getLsbD_twoPow]
      have h1 : decide (w - 1 - c < w) = true := decide_eq_true (by omega)
      have h2 : decide (w - 1 - (c + 1) < w) = true := decide_eq_true (by omega)
      rw [h1, h2]
      exact congrArg _ (decide_eq_decide.2 (by omega))
    have hne := twoPow_ne_zero (w := w) (k := w - 1 - c) (by omega)
    have hhit := and_twoPow_eq_zero val (k := w - 1 - c) (by omega)
    have hbits : val.getMsbD c = val.getLsbD (w - 1 - c) := by
      rw [BitVec.getMsbD_eq_getLsbD, decide_eq_true hc, Bool.true_and]
    rw [lzcntLoop, firstFrom, hbits, hmask hc]
    rw [hmask hc] at hshift
    cases hbit : val.getLsbD (w - 1 - c) with
    | true => rw [if_neg fun hmiss => by simp [hhit.1 hmiss.1] at hbit, if_pos rfl]
    | false =>
      rw [if_pos ⟨hhit.2 hbit, hne⟩, if_neg Bool.false_ne_true]
      exact ih _ (c + 1) (by omega) hshift

theorem lzcnt_eq (val : BitVec w) : lzcnt val = firstFrom val.getMsbD w 0 :=
  lzcntLoop_eq val _ w 0 (Nat.zero_add w) fun _ => rfl

/-- The loop of `BSR` shifts the word instead of a mask. -/
theorem bsrLoop_eq (val : BitVec w) (n c : ℕ) (h : c + n = w) :
    bsrLoop n (val <<< c) (w - 1 - c) = w - 1 - firstFrom val.getMsbD n c := by
  induction n generalizing c with
  | zero => rfl
  | succ n ih =>
    have hc : c < w := by omega
    have hmsb : (val <<< c).msb = val.getMsbD c := by
      rw [BitVec.msb_eq_getLsbD_last, BitVec.getLsbD_shiftLeft, BitVec.getMsbD_eq_getLsbD,
        decide_eq_true hc, decide_eq_true (by omega : w - 1 < w),
        decide_eq_false (by omega : ¬ w - 1 < c)]
      rfl
    have hindex : w - 1 - c - 1 = w - 1 - (c + 1) := by omega
    rw [bsrLoop, firstFrom, hmsb]
    cases hbit : val.getMsbD c with
    | true => rfl
    | false =>
      rw [if_pos rfl, if_neg Bool.false_ne_true, ← BitVec.shiftLeft_add, hindex]
      exact ih (c + 1) (by omega)

theorem firstFrom_zero_spec (p : ℕ → Bool) (n : ℕ) :
    firstFrom p n 0 ≤ n ∧ (∀ j < firstFrom p n 0, p j = false) ∧
      (firstFrom p n 0 < n → p (firstFrom p n 0) = true) := by
  obtain ⟨-, hle, hbefore, hat⟩ := firstFrom_spec p n 0
  rw [Nat.zero_add] at hle hat
  exact ⟨hle, fun j hj => hbefore j (Nat.zero_le j) hj, hat⟩

/-- A word that is not zero has a bit to find. -/
theorem tzcnt_lt {val : BitVec w} (h : val ≠ 0) : tzcnt val < w := by
  obtain ⟨hle, hbefore, -⟩ := firstFrom_zero_spec val.getLsbD w
  rw [← tzcnt_eq] at hle hbefore
  refine lt_of_le_of_ne hle fun heq => h (BitVec.eq_of_getLsbD_eq fun i hi => ?_)
  rw [hbefore i (by omega)]
  exact BitVec.getLsbD_zero.symm

theorem lzcnt_lt {val : BitVec w} (h : val ≠ 0) : lzcnt val < w := by
  obtain ⟨hle, hbefore, -⟩ := firstFrom_zero_spec val.getMsbD w
  rw [← lzcnt_eq] at hle hbefore
  refine lt_of_le_of_ne hle fun heq => h (BitVec.eq_of_getMsbD_eq fun i hi => ?_)
  rw [hbefore i (by omega)]
  exact BitVec.getMsbD_zero.symm

end Scans

/-! ## The handlers of the scans -/

section Handlers

variable (s : OpSize) (f : LazyFlags) (op : BitVec s.bits)

def TZCNT : BitVec s.bits × LazyFlags :=
  let result := BitVec.ofNat s.bits (tzcnt op)
  (result, (f.set_CF (op == 0)).set_ZF (result == 0))

def LZCNT : BitVec s.bits × LazyFlags :=
  let result := BitVec.ofNat s.bits (lzcnt op)
  (result, (f.set_CF (op == 0)).set_ZF (result == 0))

/-- There is no result for zero: the destination is not written. -/
def BSF : Option (BitVec s.bits) × LazyFlags :=
  if op = 0 then (none, f.assert_ZF)
  else
    let result := BitVec.ofNat s.bits (tzcnt op)
    (some result, (SET_FLAGS_OSZAPC_LOGIC s result).clear_ZF)

def BSR : Option (BitVec s.bits) × LazyFlags :=
  if op = 0 then (none, f.assert_ZF)
  else
    let result := BitVec.ofNat s.bits (bsrLoop s.bits op (s.bits - 1))
    (some result, (SET_FLAGS_OSZAPC_LOGIC s result).clear_ZF)

/-- CF for a zero source, ZF for a zero count; the other flags stay. -/
theorem TZCNT_gives : Gives (TZCNT s f op) (BitVec.ofNat s.bits (tzcnt op))
    { f.status with CF := op == 0, ZF := BitVec.ofNat s.bits (tzcnt op) == 0 } := by
  refine ⟨rfl, ?_⟩
  unfold TZCNT
  dsimp only
  rw [status_set_ZF, status_set_CF]

theorem LZCNT_gives : Gives (LZCNT s f op) (BitVec.ofNat s.bits (lzcnt op))
    { f.status with CF := op == 0, ZF := BitVec.ofNat s.bits (lzcnt op) == 0 } := by
  refine ⟨rfl, ?_⟩
  unfold LZCNT
  dsimp only
  rw [status_set_ZF, status_set_CF]

/-- What `BSF` and `BSR` find, and the flags. -/
def found (F : StatusFlags) (op : BitVec s.bits) (place : ℕ) :
    Option (BitVec s.bits) × StatusFlags :=
  if op = 0 then (none, { F with ZF := true })
  else
    (some (BitVec.ofNat s.bits place),
      { StatusFlags.ofResult (BitVec.ofNat s.bits place) false false false with ZF := false })

/-- A zero source sets ZF and writes no register. -/
theorem BSF_gives :
    Gives (BSF s f op) (found s f.status op (tzcnt op)).1 (found s f.status op (tzcnt op)).2 := by
  have hassert : f.assert_ZF.status = { f.status with ZF := true } := status_set_ZF f true
  unfold BSF found
  split_ifs with h
  · exact ⟨rfl, hassert⟩
  · refine ⟨rfl, ?_⟩
    have hlogic := (logic_gives s (BitVec.ofNat s.bits (tzcnt op))).2
    unfold logic at hlogic
    dsimp only at hlogic ⊢
    rw [← hlogic]
    exact status_set_ZF _ false

theorem BSR_gives : Gives (BSR s f op) (found s f.status op (s.bits - 1 - lzcnt op)).1
    (found s f.status op (s.bits - 1 - lzcnt op)).2 := by
  have hassert : f.assert_ZF.status = { f.status with ZF := true } := status_set_ZF f true
  have hloop : bsrLoop s.bits op (s.bits - 1) = s.bits - 1 - lzcnt op := by
    have h := bsrLoop_eq op s.bits 0 (Nat.zero_add _)
    rw [BitVec.shiftLeft_zero, Nat.sub_zero, ← lzcnt_eq] at h
    exact h
  unfold BSR found
  rw [hloop]
  split_ifs with h
  · exact ⟨rfl, hassert⟩
  · refine ⟨rfl, ?_⟩
    have hlogic := (logic_gives s (BitVec.ofNat s.bits (s.bits - 1 - lzcnt op))).2
    unfold logic at hlogic
    dsimp only at hlogic ⊢
    rw [← hlogic]
    exact status_set_ZF _ false

/-- The word has its lowest one at `k`. -/
def LowestAt {w : ℕ} (op : BitVec w) (k : ℕ) : Prop :=
  op.getLsbD k = true ∧ ∀ j < k, op.getLsbD j = false

def HighestAt {w : ℕ} (op : BitVec w) (k : ℕ) : Prop :=
  op.getLsbD k = true ∧ ∀ j, k < j → op.getLsbD j = false

/-- What `TZCNT` and `BSF` find. -/
theorem tzcnt_lowest {w : ℕ} {val : BitVec w} (h : val ≠ 0) : LowestAt val (tzcnt val) := by
  obtain ⟨-, hbefore, hat⟩ := firstFrom_zero_spec val.getLsbD w
  rw [← tzcnt_eq] at hbefore hat
  exact ⟨hat (tzcnt_lt h), hbefore⟩

/-- What `BSR` finds. -/
theorem lzcnt_highest {w : ℕ} {val : BitVec w} (h : val ≠ 0) :
    HighestAt val (w - 1 - lzcnt val) := by
  have hlt := lzcnt_lt h
  obtain ⟨-, hbefore, hat⟩ := firstFrom_zero_spec val.getMsbD w
  rw [← lzcnt_eq] at hbefore hat
  refine ⟨?_, fun j hj => ?_⟩
  · have hbit := hat hlt
    rwa [BitVec.getMsbD_eq_getLsbD, decide_eq_true hlt, Bool.true_and] at hbit
  · by_cases hjw : j < w
    · have hbit := hbefore (w - 1 - j) (by omega)
      have hindex : w - 1 - (w - 1 - j) = j := by omega
      rwa [BitVec.getMsbD_eq_getLsbD, decide_eq_true (by omega), Bool.true_and, hindex] at hbit
    · exact BitVec.getLsbD_of_ge val j (by omega)

theorem tzcnt_zero {w : ℕ} : tzcnt (0 : BitVec w) = w := by
  obtain ⟨hle, -, hat⟩ := firstFrom_zero_spec (0 : BitVec w).getLsbD w
  rw [← tzcnt_eq] at hle hat
  refine le_antisymm hle (not_lt.1 fun hlt => ?_)
  have hbit := hat hlt
  rw [BitVec.ofNat_eq_ofNat, BitVec.getLsbD_zero] at hbit
  exact Bool.false_ne_true hbit

theorem lzcnt_zero {w : ℕ} : lzcnt (0 : BitVec w) = w := by
  obtain ⟨hle, -, hat⟩ := firstFrom_zero_spec (0 : BitVec w).getMsbD w
  rw [← lzcnt_eq] at hle hat
  refine le_antisymm hle (not_lt.1 fun hlt => ?_)
  have hbit := hat hlt
  rw [BitVec.ofNat_eq_ofNat, BitVec.getMsbD_zero] at hbit
  exact Bool.false_ne_true hbit

/-- A place in a word is a number of that word. -/
theorem toNat_place {k : ℕ} (hk : k ≤ s.bits) : (BitVec.ofNat s.bits k).toNat = k :=
  Nat.mod_eq_of_lt (hk.trans_lt Nat.lt_two_pow_self)

end Handlers

/-- **The scans find the lowest and the highest bit.**  A word without bits is reported: by `BSF`
and `BSR`, which have no result then, in ZF, and by `TZCNT` and `LZCNT` in CF. -/
theorem scans_exact (s : OpSize) (f : LazyFlags) (op : BitVec s.bits) :
    (op = 0 →
      ((BSF s f op).1 = none ∧ (BSF s f op).2.getB_ZF = true) ∧
      ((BSR s f op).1 = none ∧ (BSR s f op).2.getB_ZF = true) ∧
      ((TZCNT s f op).1.toNat = s.bits ∧ (TZCNT s f op).2.getB_CF = true) ∧
      ((LZCNT s f op).1.toNat = s.bits ∧ (LZCNT s f op).2.getB_CF = true)) ∧
    (op ≠ 0 → ∃ low high : BitVec s.bits, LowestAt op low.toNat ∧ HighestAt op high.toNat ∧
      ((BSF s f op).1 = some low ∧ (BSF s f op).2.getB_ZF = false) ∧
      ((BSR s f op).1 = some high ∧ (BSR s f op).2.getB_ZF = false) ∧
      ((TZCNT s f op).1 = low ∧ (TZCNT s f op).2.getB_CF = false) ∧
      ((LZCNT s f op).1.toNat = s.bits - 1 - high.toNat ∧ (LZCNT s f op).2.getB_CF = false)) := by
  obtain ⟨hbsf, hbsfF⟩ := BSF_gives s f op
  obtain ⟨hbsr, hbsrF⟩ := BSR_gives s f op
  obtain ⟨htz, htzF⟩ := TZCNT_gives s f op
  obtain ⟨hlz, hlzF⟩ := LZCNT_gives s f op
  have hbsfZ := congrArg StatusFlags.ZF hbsfF
  have hbsrZ := congrArg StatusFlags.ZF hbsrF
  have htzC := congrArg StatusFlags.CF htzF
  have hlzC := congrArg StatusFlags.CF hlzF
  unfold found at hbsf hbsr hbsfZ hbsrZ
  constructor
  · rintro rfl
    rw [if_pos rfl] at hbsf hbsr hbsfZ hbsrZ
    refine ⟨⟨hbsf, hbsfZ⟩, ⟨hbsr, hbsrZ⟩, ⟨?_, htzC⟩, ⟨?_, hlzC⟩⟩
    · rw [htz, tzcnt_zero, toNat_place s le_rfl]
    · rw [hlz, lzcnt_zero, toNat_place s le_rfl]
  · intro hne
    have hlow := tzcnt_lt hne
    have hhigh := lzcnt_lt hne
    have hzero : (op == 0) = false := beq_eq_false_iff_ne.2 hne
    rw [if_neg hne] at hbsf hbsr hbsfZ hbsrZ
    refine ⟨BitVec.ofNat s.bits (tzcnt op), BitVec.ofNat s.bits (s.bits - 1 - lzcnt op), ?_, ?_,
      ⟨hbsf, hbsfZ⟩, ⟨hbsr, hbsrZ⟩, ⟨htz, htzC.trans hzero⟩, ⟨?_, hlzC.trans hzero⟩⟩
    · rw [toNat_place s hlow.le]
      exact tzcnt_lowest hne
    · rw [toNat_place s (by omega)]
      exact lzcnt_highest hne
    · rw [hlz, toNat_place s hhigh.le, toNat_place s (by omega)]
      omega

/-! ## Counts -/

section Counts

variable {w : ℕ}

/-- One step of the counts: neighbouring fields of `k` bits are added. -/
def addFields (k : ℕ) (m val : BitVec w) : BitVec w := ((val >>> k) &&& m) + (val &&& m)

def popcntb (val : BitVec 8) : BitVec 8 :=
  addFields 4 0x0F (addFields 2 0x33 (addFields 1 0x55 val))

def popcntw (val : BitVec 16) : BitVec 16 :=
  addFields 8 0x00FF (addFields 4 0x0F0F (addFields 2 0x3333 (addFields 1 0x5555 val)))

def popcntd (val : BitVec 32) : BitVec 32 :=
  addFields 16 0x0000FFFF (addFields 8 0x00FF00FF (addFields 4 0x0F0F0F0F
    (addFields 2 0x33333333 (addFields 1 0x55555555 val))))

/-- Bits in parallel: sums of ever wider fields. -/
def popcntq (val : BitVec 64) : BitVec 64 :=
  addFields 32 0x00000000FFFFFFFF (addFields 16 0x0000FFFF0000FFFF
    (addFields 8 0x00FF00FF00FF00FF (addFields 4 0x0F0F0F0F0F0F0F0F
      (addFields 2 0x3333333333333333 (addFields 1 0x5555555555555555 val)))))

/-- The masked bits of a double word, also of one that has been shifted. -/
theorem shift_and_append {k : ℕ} {m : BitVec w} (hm : m.toNat * 2 ^ k < 2 ^ w)
    (high low : BitVec w) :
    ((high ++ low) >>> k) &&& (m ++ m) = ((high >>> k) &&& m) ++ ((low >>> k) &&& m) := by
  apply BitVec.eq_of_getLsbD_eq
  intro i hi
  rw [BitVec.getLsbD_and, BitVec.getLsbD_ushiftRight, BitVec.getLsbD_append,
    BitVec.getLsbD_append, BitVec.getLsbD_append]
  split_ifs with h1 h2 h2
  · rw [BitVec.getLsbD_and, BitVec.getLsbD_ushiftRight]
  · omega
  · -- a bit of the high word is masked out of the low one
    have hmask : m.getLsbD i = false := by
      have hlt : m.toNat < 2 ^ i := by
        by_contra hle
        have hpow : 2 ^ w ≤ 2 ^ i * 2 ^ k := by
          rw [← pow_add]
          exact Nat.pow_le_pow_right two_pos (by omega)
        exact absurd hm (not_lt.2 (hpow.trans (Nat.mul_le_mul_right _ (not_lt.1 hle))))
      exact Nat.testBit_lt_two_pow hlt
    rw [BitVec.getLsbD_and, hmask, Bool.and_false, Bool.and_false]
  · have hindex : k + i - w = k + (i - w) := by omega
    rw [BitVec.getLsbD_and, BitVec.getLsbD_ushiftRight, hindex]

/-- A sum of double words without a carry between the words. -/
theorem append_add_append {a b c d : BitVec w} (h : b.toNat + d.toNat < 2 ^ w) :
    (a ++ b) + (c ++ d) = (a + c) ++ (b + d) := by
  apply BitVec.eq_of_toNat_eq
  rw [BitVec.toNat_add, toNat_double, toNat_double, toNat_double, BitVec.toNat_add,
    BitVec.toNat_add, Nat.mod_eq_of_lt h, pow_add]
  have hsplit : a.toNat * 2 ^ w + b.toNat + (c.toNat * 2 ^ w + d.toNat) =
      b.toNat + d.toNat + 2 ^ w * (a.toNat + c.toNat) := by ring
  rw [hsplit, Nat.mod_mul, Nat.add_mul_mod_self_left, Nat.mod_eq_of_lt h,
    Nat.add_mul_div_left _ _ (Nat.two_pow_pos w), Nat.div_eq_of_lt h]
  ring_nf

/-- Fields that do not reach from one half of a word into the other are added in each half. -/
theorem addFields_append {k : ℕ} {m : BitVec w} (hm : m.toNat * 2 ^ k < 2 ^ w) (hk : 0 < k)
    (high low : BitVec w) :
    addFields k (m ++ m) (high ++ low) = addFields k m high ++ addFields k m low := by
  have hle (x : BitVec w) : (x &&& m).toNat ≤ m.toNat := by
    rw [BitVec.toNat_and]
    exact Nat.and_le_right
  have htwo : 2 * m.toNat < 2 ^ w := by
    have hpow : 2 ≤ 2 ^ k := Nat.le_self_pow hk.ne' 2
    nlinarith
  unfold addFields
  rw [shift_and_append hm, BitVec.and_append]
  exact append_add_append (by linarith [hle (low >>> k), hle low])

/-- The last step adds the two halves. -/
theorem toNat_addFields_half (high low : BitVec w) :
    (addFields w (0#w ++ BitVec.allOnes w) (high ++ low)).toNat =
      (high.toNat + low.toNat) % 2 ^ (w + w) := by
  have hmask : (0#w ++ BitVec.allOnes w).toNat = 2 ^ w - 1 := by
    rw [toNat_double, BitVec.toNat_allOnes]
    simp
  have hshift : (high.toNat * 2 ^ w + low.toNat) / 2 ^ w = high.toNat := by
    rw [mul_comm, Nat.mul_add_div (Nat.two_pow_pos w), Nat.div_eq_of_lt low.isLt, add_zero]
  unfold addFields
  rw [BitVec.toNat_add, BitVec.toNat_and, BitVec.toNat_and, hmask, BitVec.toNat_ushiftRight,
    toNat_double, Nat.and_two_pow_sub_one_eq_mod, Nat.and_two_pow_sub_one_eq_mod,
    Nat.shiftRight_eq_div_pow, hshift, Nat.mod_eq_of_lt high.isLt, mul_comm, Nat.mul_add_mod,
    Nat.mod_eq_of_lt low.isLt]

/-- If the fields of the halves have been added up to the numbers of their ones, so are those of
the word. -/
theorem half_counts {w : ℕ} {x y high low : BitVec w} (hx : x.toNat = high.cpop.toNat)
    (hy : y.toNat = low.cpop.toNat) :
    (addFields w (0#w ++ BitVec.allOnes w) (x ++ y)).toNat = (high ++ low).cpop.toNat := by
  have hle := BitVec.toNat_cpop_le (high ++ low)
  have hlt : (high ++ low).cpop.toNat < 2 ^ (w + w) := hle.trans_lt Nat.lt_two_pow_self
  rw [BitVec.toNat_cpop_append] at hlt
  rw [toNat_addFields_half, hx, hy, BitVec.toNat_cpop_append, Nat.mod_eq_of_lt hlt]

theorem popcntb_eq (val : BitVec 8) : (popcntb val).toNat = val.cpop.toNat := by
  revert val
  decide +kernel

/-- Several steps. -/
def addAll (steps : List (ℕ × BitVec w)) (val : BitVec w) : BitVec w :=
  steps.foldl (fun val step => addFields step.1 step.2 val) val

theorem addAll_append (steps : List (ℕ × BitVec w))
    (h : ∀ step ∈ steps, step.2.toNat * 2 ^ step.1 < 2 ^ w ∧ 0 < step.1) (high low : BitVec w) :
    addAll (steps.map fun step => (step.1, step.2 ++ step.2)) (high ++ low) =
      addAll steps high ++ addAll steps low := by
  induction steps generalizing high low with
  | nil => rfl
  | cons step rest ih =>
    obtain ⟨hstep, hpos⟩ := h step List.mem_cons_self
    have hrest := ih (fun s hs => h s (List.mem_cons_of_mem step hs)) (addFields step.1 step.2 high)
      (addFields step.1 step.2 low)
    rw [← addFields_append hstep hpos] at hrest
    exact hrest

/-- Each half is counted on its own, then the counts are added. -/
theorem popcntw_append (high low : BitVec 8) :
    popcntw (high ++ low) =
      addFields 8 (0#8 ++ BitVec.allOnes 8) (popcntb high ++ popcntb low) :=
  congrArg (addFields 8 (0#8 ++ BitVec.allOnes 8))
    (addAll_append [(1, 0x55), (2, 0x33), (4, 0x0F)] (by decide) high low)

theorem popcntd_append (high low : BitVec 16) :
    popcntd (high ++ low) =
      addFields 16 (0#16 ++ BitVec.allOnes 16) (popcntw high ++ popcntw low) :=
  congrArg (addFields 16 (0#16 ++ BitVec.allOnes 16))
    (addAll_append [(1, 0x5555), (2, 0x3333), (4, 0x0F0F), (8, 0x00FF)] (by decide) high low)

theorem popcntq_append (high low : BitVec 32) :
    popcntq (high ++ low) =
      addFields 32 (0#32 ++ BitVec.allOnes 32) (popcntd high ++ popcntd low) :=
  congrArg (addFields 32 (0#32 ++ BitVec.allOnes 32))
    (addAll_append [(1, 0x55555555), (2, 0x33333333), (4, 0x0F0F0F0F), (8, 0x00FF00FF),
      (16, 0x0000FFFF)] (by decide) high low)

theorem popcntw_eq (val : BitVec 16) : (popcntw val).toNat = val.cpop.toNat := by
  obtain ⟨high, low, rfl⟩ : ∃ high low : BitVec 8, val = high ++ low :=
    ⟨_, _, (@words_append 8 val).symm⟩
  rw [popcntw_append]
  exact half_counts (popcntb_eq high) (popcntb_eq low)

theorem popcntd_eq (val : BitVec 32) : (popcntd val).toNat = val.cpop.toNat := by
  obtain ⟨high, low, rfl⟩ : ∃ high low : BitVec 16, val = high ++ low :=
    ⟨_, _, (@words_append 16 val).symm⟩
  rw [popcntd_append]
  exact half_counts (popcntw_eq high) (popcntw_eq low)

/-- **The parallel sums count the bits.** -/
theorem popcntq_eq (val : BitVec 64) : (popcntq val).toNat = val.cpop.toNat := by
  obtain ⟨high, low, rfl⟩ : ∃ high low : BitVec 32, val = high ++ low :=
    ⟨_, _, (@words_append 32 val).symm⟩
  rw [popcntq_append]
  exact half_counts (popcntd_eq high) (popcntd_eq low)

end Counts

/-- There is no `POPCNT` of a byte; `popcntb` counts for the byte elements of vectors. -/
def popcnt : (s : OpSize) → BitVec s.bits → BitVec s.bits
  | .byte => popcntb
  | .word => popcntw
  | .dword => popcntd
  | .qword => popcntq

def clearEFlagsOSZAPC : LazyFlags := SET_FLAGS_OSZAPC_LOGIC .dword (1 : BitVec 32)

/-- The flags of `POPCNT` and `BEXTR`. -/
def zeroFlags {w : ℕ} (op : BitVec w) : LazyFlags :=
  if op = 0 then clearEFlagsOSZAPC.assert_ZF else clearEFlagsOSZAPC

def POPCNT (s : OpSize) (op : BitVec s.bits) : BitVec s.bits × LazyFlags :=
  let op := popcnt s op
  (op, zeroFlags op)

theorem toNat_popcnt (s : OpSize) (op : BitVec s.bits) :
    (popcnt s op).toNat = op.cpop.toNat := by
  cases s with
  | byte => exact popcntb_eq op
  | word => exact popcntw_eq op
  | dword => exact popcntd_eq op
  | qword => exact popcntq_eq op

/-- A word without ones is zero. -/
theorem eq_zero_of_cpop {w : ℕ} {x : BitVec w} (h : x.cpop.toNat = 0) : x = 0 := by
  have hbits (n : ℕ) (hn : x.cpopNatRec n 0 = 0) (i : ℕ) (hi : i < n) : x.getLsbD i = false := by
    induction n with
    | zero => exact absurd hi (Nat.not_lt_zero i)
    | succ n ih =>
      rw [BitVec.cpopNatRec_succ, BitVec.cpopNatRec_eq, Nat.zero_add] at hn
      obtain ⟨hrest, hbit⟩ := Nat.add_eq_zero_iff.1 hn
      rcases Nat.lt_succ_iff_lt_or_eq.1 hi with hlt | rfl
      · exact ih hrest hlt
      · exact Bool.toNat_eq_zero.1 hbit
  rw [BitVec.toNat_cpop] at h
  apply BitVec.eq_of_getLsbD_eq
  intro i hi
  rw [hbits w h i hi]
  exact BitVec.getLsbD_zero.symm

/-- ZF is set for a zero source only. -/
theorem cpop_eq_zero {w : ℕ} {x : BitVec w} : x.cpop = 0 ↔ x = 0 := by
  constructor
  · intro h
    apply eq_zero_of_cpop
    rw [h]
    exact BitVec.toNat_zero
  · rintro rfl
    exact BitVec.cpop_zero

theorem status_zeroFlags {w : ℕ} (op : BitVec w) :
    (zeroFlags op).status = ⟨false, false, false, op == 0, false, false⟩ := by
  have hclear : clearEFlagsOSZAPC.status = ⟨false, false, false, false, false, false⟩ := by
    decide +kernel
  have hassert : clearEFlagsOSZAPC.assert_ZF.status =
      { clearEFlagsOSZAPC.status with ZF := true } := status_set_ZF clearEFlagsOSZAPC true
  unfold zeroFlags
  by_cases h : op = 0
  · rw [if_pos h, hassert, hclear, h, beq_self_eq_true]
  · rw [if_neg h, hclear, beq_eq_false_iff_ne.2 h]

/-- POPCNT clears all flags but ZF. -/
theorem POPCNT_gives (s : OpSize) (op : BitVec s.bits) :
    Gives (POPCNT s op) op.cpop ⟨false, false, false, op == 0, false, false⟩ := by
  have hcount : popcnt s op = op.cpop := BitVec.eq_of_toNat_eq (toNat_popcnt s op)
  have hzero : (op.cpop == 0) = (op == 0) := by
    rw [Bool.eq_iff_iff, beq_iff_eq, beq_iff_eq]
    exact cpop_eq_zero
  refine ⟨hcount, ?_⟩
  unfold POPCNT
  dsimp only
  rw [status_zeroFlags, hcount, hzero]

/-- **`POPCNT` counts the ones.**  Only ZF can be set: for a word without ones. -/
theorem popcnt_exact (s : OpSize) (op : BitVec s.bits) :
    (POPCNT s op).1 = op.cpop ∧
      (POPCNT s op).2.status = ⟨false, false, false, op == 0, false, false⟩ :=
  POPCNT_gives s op

end Bochs
