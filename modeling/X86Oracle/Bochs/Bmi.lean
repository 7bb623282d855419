import Mathlib
import X86Oracle.Lib.Deposit
import X86Oracle.Bochs.BitScan

/-!
# Bochs: bit manipulation

`cpu/bmi32.cc` and `cpu/bmi64.cc`, for double and quad words.  One loop is the other with the roles
of the source and of the destination exchanged: `PEXT` moves its write mask on at the ones of `op2`
only, `PDEP` its source.

* `toNat_PEXT`, `toNat_PDEP`: the loops gather and scatter, and the write mask stays in the word.
* `deposit_exact`: which bit goes where, and what the two undo.
* `lowest_exact`: `BLSI`, `BLSR` and `BLSMSK` take the lowest one apart, by a negation and a
  subtraction.
* `getLsbD_bextr`: a field of bits, also one that reaches beyond the word; `BZHI` is the field from
  bit 0 on.
-/

namespace Bochs

open Deposit

variable {w : ℕ}

/-- Why the loops end. -/
theorem shiftRight_lt {op2 : BitVec w} (h : ¬ op2 = 0) : (op2 >>> 1).toNat < op2.toNat := by
  have hne : op2.toNat ≠ 0 := fun hzero => h (BitVec.eq_of_toNat_eq hzero)
  rw [BitVec.toNat_ushiftRight, Nat.shiftRight_one]
  omega

/-- What both loops do with a bit of the source. -/
def writeBit (op1 wr_mask result : BitVec w) : BitVec w :=
  if op1.getLsbD 0 then result ||| wr_mask else result

/-- The loop of `PEXT_GdBdEdR` and `PEXT_GqBqEqR`. -/
def pextLoop (op1 op2 wr_mask result : BitVec w) : BitVec w :=
  if op2 = 0 then result
  else if op2.getLsbD 0 then
    pextLoop (op1 >>> 1) (op2 >>> 1) (wr_mask <<< 1) (writeBit op1 wr_mask result)
  else pextLoop (op1 >>> 1) (op2 >>> 1) wr_mask result
termination_by op2.toNat
decreasing_by all_goals exact shiftRight_lt ‹_›

def PEXT (op1 op2 : BitVec w) : BitVec w := pextLoop op1 op2 1 0

/-- The loop of `PDEP_GdBdEdR` and `PDEP_GqBqEqR`. -/
def pdepLoop (op1 op2 wr_mask result : BitVec w) : BitVec w :=
  if op2 = 0 then result
  else if op2.getLsbD 0 then
    pdepLoop (op1 >>> 1) (op2 >>> 1) (wr_mask <<< 1) (writeBit op1 wr_mask result)
  else pdepLoop op1 (op2 >>> 1) (wr_mask <<< 1) result
termination_by op2.toNat
decreasing_by all_goals exact shiftRight_lt ‹_›

def PDEP (op1 op2 : BitVec w) : BitVec w := pdepLoop op1 op2 1 0

/-! ## The loops -/

theorem twoPow_succ (k : ℕ) : BitVec.twoPow w k <<< 1 = BitVec.twoPow w (k + 1) := by
  rw [BitVec.twoPow_eq, BitVec.twoPow_eq, BitVec.shiftLeft_add]

theorem toNat_half (x : BitVec w) : (x >>> 1).toNat = x.toNat / 2 := by
  rw [BitVec.toNat_ushiftRight, Nat.shiftRight_one]

theorem getLsbD_zero_iff (x : BitVec w) : x.getLsbD 0 = true ↔ x.toNat % 2 = 1 := by
  have hbit : x.getLsbD 0 = decide (x.toNat % 2 = 1) := Nat.testBit_zero x.toNat
  simp [hbit]

/-- What a turn writes, as a number. -/
theorem toNat_writeBit (op1 : BitVec w) {wr_mask result : BitVec w} {k : ℕ}
    (hmask : wr_mask = BitVec.twoPow w k) (hk : k < w) (hresult : result.toNat < 2 ^ k) :
    (writeBit op1 wr_mask result).toNat = result.toNat + 2 ^ k * (op1.toNat % 2) := by
  have hplace : wr_mask.toNat = 2 ^ k := by
    rw [hmask, BitVec.toNat_twoPow, Nat.mod_eq_of_lt (Nat.pow_lt_pow_right one_lt_two hk)]
  unfold writeBit
  by_cases h : op1.getLsbD 0 = true
  · have hor := Nat.two_pow_add_eq_or_of_lt hresult 1
    rw [mul_one] at hor
    rw [if_pos h, (getLsbD_zero_iff op1).1 h, BitVec.toNat_or, hplace, Nat.or_comm, ← hor,
      mul_one, Nat.add_comm]
  · have heven : op1.toNat % 2 = 0 :=
      Nat.mod_two_ne_one.1 fun hodd => h ((getLsbD_zero_iff op1).2 hodd)
    rw [if_neg h, heven, mul_zero, add_zero]

section Turn

variable {op1 op2 wr_mask result : BitVec w} {k : ℕ} (hop2 : op2.toNat * 2 ^ k < 2 ^ w)
include hop2

/-- While there are ones left, the write mask is in the word. -/
theorem place_lt (h : ¬ op2 = 0) : k < w := by
  have hpos : 0 < op2.toNat := Nat.pos_of_ne_zero fun hzero => h (BitVec.eq_of_toNat_eq hzero)
  have hle : 2 ^ k ≤ op2.toNat * 2 ^ k := Nat.le_mul_of_pos_left _ hpos
  exact (Nat.pow_lt_pow_iff_right one_lt_two).1 (hle.trans_lt hop2)

theorem half_fits : (op2 >>> 1).toNat * 2 ^ k < 2 ^ w := by
  rw [toNat_half]
  exact (Nat.mul_le_mul_right _ (Nat.div_le_self _ 2)).trans_lt hop2

theorem half_fits_succ : (op2 >>> 1).toNat * 2 ^ (k + 1) < 2 ^ w := by
  have hdouble : op2.toNat / 2 * 2 ^ (k + 1) = op2.toNat / 2 * 2 * 2 ^ k := by
    rw [pow_succ]
    ring
  rw [toNat_half, hdouble]
  exact (Nat.mul_le_mul_right _ (Nat.div_mul_le_self _ 2)).trans_lt hop2

end Turn

theorem written_lt {r k b : ℕ} (hr : r < 2 ^ k) (hb : b < 2) : r + 2 ^ k * b < 2 ^ (k + 1) := by
  have hle : 2 ^ k * b ≤ 2 ^ k * 1 := Nat.mul_le_mul_left _ (Nat.lt_succ_iff.1 hb)
  rw [pow_succ]
  omega

/-- The bits written and the ones of `op2` that are left fit into the word. -/
theorem toNat_pextLoop (op1 op2 wr_mask result : BitVec w) {k : ℕ}
    (hmask : wr_mask = BitVec.twoPow w k) (hresult : result.toNat < 2 ^ k)
    (hop2 : op2.toNat * 2 ^ k < 2 ^ w) :
    (pextLoop op1 op2 wr_mask result).toNat =
      result.toNat + 2 ^ k * gather op1.toNat op2.toNat := by
  induction op1, op2, wr_mask, result using pextLoop.induct generalizing k with
  | case1 op1 wr_mask result =>
    rw [pextLoop, gather]
    simp
  | case2 op1 op2 wr_mask result hne hodd ih =>
    have hzero : ¬ op2.toNat = 0 := fun h => hne (BitVec.eq_of_toNat_eq h)
    have hwrite := toNat_writeBit op1 hmask (place_lt hop2 hne) hresult
    rw [pextLoop, if_neg hne, if_pos hodd, gather, if_neg hzero,
      if_pos ((getLsbD_zero_iff op2).1 hodd), ih (k := k + 1)]
    · rw [hwrite, toNat_half, toNat_half, pow_succ]
      ring
    · rw [hmask, twoPow_succ]
    · rw [hwrite]
      exact written_lt hresult (Nat.mod_lt _ two_pos)
    · exact half_fits_succ hop2
  | case3 op1 op2 wr_mask result hne heven ih =>
    have hzero : ¬ op2.toNat = 0 := fun h => hne (BitVec.eq_of_toNat_eq h)
    have hbit : ¬ op2.toNat % 2 = 1 := fun h => heven ((getLsbD_zero_iff op2).2 h)
    rw [pextLoop, if_neg hne, if_neg heven, gather, if_neg hzero, if_neg hbit,
      ih hmask hresult (half_fits hop2), toNat_half, toNat_half]

/-- The loop with the write mask at bit `k`, which has written what is below. -/
theorem toNat_pdepLoop (op1 op2 wr_mask result : BitVec w) {k : ℕ}
    (hmask : wr_mask = BitVec.twoPow w k) (hresult : result.toNat < 2 ^ k)
    (hop2 : op2.toNat * 2 ^ k < 2 ^ w) :
    (pdepLoop op1 op2 wr_mask result).toNat =
      result.toNat + 2 ^ k * scatter op1.toNat op2.toNat := by
  induction op1, op2, wr_mask, result using pdepLoop.induct generalizing k with
  | case1 op1 wr_mask result =>
    rw [pdepLoop, scatter]
    simp
  | case2 op1 op2 wr_mask result hne hodd ih =>
    have hzero : ¬ op2.toNat = 0 := fun h => hne (BitVec.eq_of_toNat_eq h)
    have hwrite := toNat_writeBit op1 hmask (place_lt hop2 hne) hresult
    rw [pdepLoop, if_neg hne, if_pos hodd, scatter, if_neg hzero,
      if_pos ((getLsbD_zero_iff op2).1 hodd), ih (k := k + 1)]
    · rw [hwrite, toNat_half, toNat_half, pow_succ]
      ring
    · rw [hmask, twoPow_succ]
    · rw [hwrite]
      exact written_lt hresult (Nat.mod_lt _ two_pos)
    · exact half_fits_succ hop2
  | case3 op1 op2 wr_mask result hne heven ih =>
    have hzero : ¬ op2.toNat = 0 := fun h => hne (BitVec.eq_of_toNat_eq h)
    have hbit : ¬ op2.toNat % 2 = 1 := fun h => heven ((getLsbD_zero_iff op2).2 h)
    have hlt : result.toNat < 2 ^ (k + 1) := by
      rw [pow_succ]
      omega
    rw [pdepLoop, if_neg hne, if_neg heven, scatter, if_neg hzero, if_neg hbit,
      ih (k := k + 1) (by rw [hmask, twoPow_succ]) hlt (half_fits_succ hop2), toNat_half,
      pow_succ]
    ring

/-- **PEXT gathers the bits under the mask.** -/
theorem toNat_PEXT (op1 op2 : BitVec w) : (PEXT op1 op2).toNat = gather op1.toNat op2.toNat := by
  have h := toNat_pextLoop op1 op2 1 0 (k := 0) BitVec.twoPow_zero.symm (by simp)
    (by simpa using op2.isLt)
  simpa [PEXT] using h

/-- **PDEP scatters the low bits to the mask.** -/
theorem toNat_PDEP (op1 op2 : BitVec w) : (PDEP op1 op2).toNat = scatter op1.toNat op2.toNat := by
  have h := toNat_pdepLoop op1 op2 1 0 (k := 0) BitVec.twoPow_zero.symm (by simp)
    (by simpa using op2.isLt)
  simpa [PDEP] using h

/-- **`PEXT` and `PDEP` move each bit to the place of its rank, and back.**  The bit at a one of the
mask and the bit at that one's rank are exchanged; all others are clear.  After one another they
leave the bits at the ones of the mask, or as many low bits as it has ones. -/
theorem deposit_exact (x m : BitVec w) :
    (∀ i, m.getLsbD i = true → (PEXT x m).getLsbD (rank m.toNat i) = x.getLsbD i) ∧
    (∀ k, rank m.toNat w ≤ k → (PEXT x m).getLsbD k = false) ∧
    (∀ i, (PDEP x m).getLsbD i = (m.getLsbD i && x.getLsbD (rank m.toNat i))) ∧
    PDEP (PEXT x m) m = x &&& m ∧
    (PEXT (PDEP x m) m).toNat = x.toNat % 2 ^ rank m.toNat w := by
  have hpext (k : ℕ) : (PEXT x m).getLsbD k = (gather x.toNat m.toNat).testBit k := by
    rw [← toNat_PEXT]
    rfl
  have hpdep (k : ℕ) : (PDEP x m).getLsbD k = (scatter x.toNat m.toNat).testBit k := by
    rw [← toNat_PDEP]
    rfl
  refine ⟨?_, ?_, ?_, ?_, ?_⟩
  · intro i hi
    rw [hpext, gather_testBit _ _ hi]
    rfl
  · intro k hk
    have hlt := (gather_lt x.toNat m.isLt).trans_le (Nat.pow_le_pow_right two_pos hk)
    rw [hpext, Nat.testBit_lt_two_pow hlt]
  · intro i
    rw [hpdep, scatter_testBit]
    rfl
  · apply BitVec.eq_of_toNat_eq
    rw [toNat_PDEP, toNat_PEXT, scatter_gather, BitVec.toNat_and]
  · rw [toNat_PEXT, toNat_PDEP, gather_scatter _ m.isLt]

/-! ## The lowest one -/

section Lowest

variable (s : OpSize) (f : LazyFlags) (op1 op2 : BitVec s.bits)

def ANDN : BitVec s.bits × LazyFlags :=
  let result := ~~~op1 &&& op2
  (result, f.SET_FLAGS_OSZAxC_LOGIC s result)

/-- What `BLSI`, `BLSMSK`, `BLSR` and `BZHI` do with their result; PF is left. -/
def logicCF (result : BitVec s.bits) (tmpCF : Bool) : BitVec s.bits × LazyFlags :=
  (result, (f.SET_FLAGS_OSZAxC_LOGIC s result).set_CF tmpCF)

def BLSI : BitVec s.bits × LazyFlags := logicCF s f (-op1 &&& op1) (op1 != 0)

def BLSMSK : BitVec s.bits × LazyFlags := logicCF s f ((op1 - 1) ^^^ op1) (op1 == 0)

def BLSR : BitVec s.bits × LazyFlags := logicCF s f ((op1 - 1) &&& op1) (op1 == 0)

/-- `BZHI`; `control` is a byte. -/
def BZHI (control : ℕ) : BitVec s.bits × LazyFlags :=
  if control < s.bits then logicCF s f (op1 &&& (((1 : BitVec s.bits) <<< control) - 1)) false
  else logicCF s f op1 true

/-- `bextrd` and `bextrq`. -/
def bextr (start len : ℕ) : BitVec s.bits :=
  if start < s.bits ∧ 0 < len then
    let result := op1 >>> start
    if len < s.bits then result &&& (((1 : BitVec s.bits) <<< len) - 1) else result
  else 0

/-- `BEXTR`; `control` is a word. -/
def BEXTR (control : ℕ) : BitVec s.bits × LazyFlags :=
  let op1 := bextr s op1 (control &&& 0xff) (control >>> 8)
  (op1, zeroFlags op1)

theorem ANDN_gives : Gives (ANDN s f op1 op2) (~~~op1 &&& op2)
    { StatusFlags.ofResult (~~~op1 &&& op2) false false false with PF := f.status.PF } := by
  refine ⟨rfl, ?_⟩
  unfold ANDN
  dsimp only
  rw [LazyFlags.status_OSZAxC_LOGIC, BitVec.setWidth_eq]

/-- CF is given; PF stays, and AF and OF are clear. -/
theorem logicCF_gives (result : BitVec s.bits) (tmpCF : Bool) :
    Gives (logicCF s f result tmpCF) result
      { StatusFlags.ofResult result tmpCF false false with PF := f.status.PF } := by
  refine ⟨rfl, ?_⟩
  unfold logicCF
  dsimp only
  rw [LazyFlags.status_set_CF, LazyFlags.status_OSZAxC_LOGIC, BitVec.setWidth_eq]
  rfl

/-- What a subtraction of one borrows: a bit changes if there is no one below it. -/
theorem getLsbD_sub_one {w : ℕ} (x : BitVec w) {i : ℕ} (hi : i < w) :
    (x - 1).getLsbD i = !(x.getLsbD i ^^ decide (∃ j < i, x.getLsbD j = true)) := by
  have h := BitVec.not_neg x
  rw [BitVec.ofNat_eq_ofNat, ← h, BitVec.getLsbD_not, BitVec.getLsbD_neg]
  simp [hi]

/-- The idioms with `-x` and `x - 1` isolate and reset the lowest bit set. -/
theorem getLsbD_lowest {w : ℕ} (x : BitVec w) {i : ℕ} (hi : i < w) :
    ((-x &&& x).getLsbD i = true ↔ LowestAt x i) ∧
    (((x - 1) &&& x).getLsbD i = true ↔ x.getLsbD i = true ∧ ¬ LowestAt x i) ∧
    (((x - 1) ^^^ x).getLsbD i = true ↔ ∀ j < i, x.getLsbD j = false) := by
  have hbelow : (∀ j < i, x.getLsbD j = false) ↔ ¬ ∃ j < i, x.getLsbD j = true := by
    simp
  unfold LowestAt
  rw [BitVec.getLsbD_and, BitVec.getLsbD_and, BitVec.getLsbD_xor, getLsbD_sub_one x hi,
    BitVec.getLsbD_neg, hbelow, decide_eq_true hi, Bool.true_and]
  by_cases hsome : ∃ j < i, x.getLsbD j = true
  · simp [hsome]
  · simp [hsome]

end Lowest

/-- **The lowest one is isolated, cleared and masked.**  CF says that there is none, or for `BLSI`
that there is one, and PF is left as it is. -/
theorem lowest_exact (s : OpSize) (f : LazyFlags) (op1 : BitVec s.bits) :
    (∀ i < s.bits,
      ((BLSI s f op1).1.getLsbD i = true ↔ LowestAt op1 i) ∧
      ((BLSR s f op1).1.getLsbD i = true ↔ op1.getLsbD i = true ∧ ¬ LowestAt op1 i) ∧
      ((BLSMSK s f op1).1.getLsbD i = true ↔ ∀ j < i, op1.getLsbD j = false)) ∧
    (BLSI s f op1).2.status =
      { StatusFlags.ofResult (BLSI s f op1).1 (op1 != 0) false false with PF := f.status.PF } ∧
    (BLSR s f op1).2.status =
      { StatusFlags.ofResult (BLSR s f op1).1 (op1 == 0) false false with PF := f.status.PF } ∧
    (BLSMSK s f op1).2.status =
      { StatusFlags.ofResult (BLSMSK s f op1).1 (op1 == 0) false false with
        PF := f.status.PF } := by
  refine ⟨?_, ?_, ?_, ?_⟩
  · intro i hi
    exact getLsbD_lowest op1 hi
  · exact (logicCF_gives s f _ _).2
  · exact (logicCF_gives s f _ _).2
  · exact (logicCF_gives s f _ _).2

/-! ## Fields -/

/-- The ones below a place. -/
theorem getLsbD_ones {w n i : ℕ} (hn : n < w) (hi : i < w) :
    (((1 : BitVec w) <<< n) - 1).getLsbD i = decide (i < n) := by
  have hone : (1 : BitVec w) <<< n = BitVec.twoPow w n := (BitVec.twoPow_eq w n).symm
  have hplace (j : ℕ) : (BitVec.twoPow w n).getLsbD j = decide (n = j) := by
    rw [BitVec.getLsbD_twoPow, decide_eq_true hn, Bool.true_and]
  have hbelow : (∃ j < i, (BitVec.twoPow w n).getLsbD j = true) ↔ n < i := by
    simp [hplace]
  rw [hone, getLsbD_sub_one _ hi, hplace]
  simp only [hbelow]
  rcases lt_trichotomy n i with h | rfl | h
  · simp [h, h.ne, h.le]
  · simp
  · simp [h, h.ne', h.le]

/-- Bits past the end read as zero. -/
theorem getLsbD_bextr (s : OpSize) (op1 : BitVec s.bits) (start len : ℕ) {i : ℕ}
    (hi : i < s.bits) :
    (bextr s op1 start len).getLsbD i = (decide (i < len) && op1.getLsbD (start + i)) := by
  unfold bextr
  by_cases h : start < s.bits ∧ 0 < len
  · rw [if_pos h]
    dsimp only
    by_cases hlen : len < s.bits
    · rw [if_pos hlen, BitVec.getLsbD_and, getLsbD_ones hlen hi, BitVec.getLsbD_ushiftRight,
        Bool.and_comm]
    · rw [if_neg hlen, BitVec.getLsbD_ushiftRight, decide_eq_true (by omega), Bool.true_and]
  · rw [if_neg h, BitVec.ofNat_eq_ofNat, BitVec.getLsbD_zero]
    by_cases hlen : i < len
    · rw [BitVec.getLsbD_of_ge op1 _ (by omega), Bool.and_false]
    · rw [decide_eq_false hlen, Bool.false_and]

theorem BEXTR_gives (s : OpSize) (op1 : BitVec s.bits) (control : ℕ) :
    Gives (BEXTR s op1 control) (bextr s op1 (control &&& 0xff) (control >>> 8))
      ⟨false, false, false, bextr s op1 (control &&& 0xff) (control >>> 8) == 0, false, false⟩ :=
  ⟨rfl, status_zeroFlags _⟩

theorem BZHI_gives (s : OpSize) (f : LazyFlags) (op1 : BitVec s.bits) (control : ℕ) :
    Gives (BZHI s f op1 control) (bextr s op1 0 control)
      { StatusFlags.ofResult (bextr s op1 0 control) (decide (s.bits ≤ control)) false false with
        PF := f.status.PF } := by
  have hbits := s.bits_pos
  have hfield (i : ℕ) (hi : i < s.bits) :
      (BZHI s f op1 control).1.getLsbD i = (bextr s op1 0 control).getLsbD i := by
    rw [getLsbD_bextr s op1 0 control hi, Nat.zero_add]
    unfold BZHI
    by_cases h : control < s.bits
    · rw [if_pos h]
      unfold logicCF
      rw [BitVec.getLsbD_and, getLsbD_ones h hi, Bool.and_comm]
    · rw [if_neg h, decide_eq_true (by omega), Bool.true_and]
      rfl
  have hword : (BZHI s f op1 control).1 = bextr s op1 0 control :=
    BitVec.eq_of_getLsbD_eq fun i hi => hfield i hi
  refine ⟨hword, ?_⟩
  rw [← hword]
  unfold BZHI
  by_cases h : control < s.bits
  · rw [if_pos h, decide_eq_false (by omega)]
    exact (logicCF_gives s f _ _).2
  · rw [if_neg h, decide_eq_true (by omega)]
    exact (logicCF_gives s f _ _).2

end Bochs
