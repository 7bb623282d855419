import Mathlib

/-!
# Bit masks as arithmetic

The code under study packs and rounds machine words with `&`, `|` and shifts; the proofs reason
about them with `/`, `%` and `+`.  These are the bridges: an `or` of disjoint fields is a sum,
an `and` with a high mask rounds down to a power of two, an `or` with a low mask rounds up to
the last address of a block.  `bitAt` is one flag at its position in a word.
-/

namespace Words

/-- The `or` of a multiple of `2 ^ k` with a number below `2 ^ k` is their sum. -/
theorem mul_or_eq_add {k a b : ℕ} (hb : b < 2 ^ k) : 2 ^ k * a ||| b = 2 ^ k * a + b :=
  (Nat.two_pow_add_eq_or_of_lt hb a).symm

/-- Clearing the `k` low bits of a `w`-bit word rounds it down to a multiple of `2 ^ k`. -/
theorem and_highMask {k w x : ℕ} (hk : k ≤ w) (hx : x < 2 ^ w) :
    x &&& (2 ^ w - 2 ^ k) = 2 ^ k * (x / 2 ^ k) := by
  have hmask : 2 ^ w - 2 ^ k = 2 ^ k * (2 ^ (w - k) - 1) := by
    rw [Nat.mul_sub, mul_one, ← pow_add, Nat.add_sub_cancel' hk]
  have hhigh : x / 2 ^ k < 2 ^ (w - k) := by
    rw [Nat.div_lt_iff_lt_mul (by positivity), ← pow_add, Nat.sub_add_cancel hk]
    exact hx
  apply Nat.eq_of_testBit_eq
  intro i
  rw [Nat.testBit_and, hmask, Nat.testBit_two_pow_mul, Nat.testBit_two_pow_mul,
    Nat.testBit_div_two_pow]
  by_cases hi : k ≤ i
  · rw [Nat.testBit_two_pow_sub_one, decide_eq_true hi, Bool.true_and, Bool.true_and,
      Nat.sub_add_cancel hi]
    by_cases hw : i - k < w - k
    · rw [decide_eq_true hw, Bool.and_true]
    · have hzero : x.testBit i = false := by
        apply Nat.testBit_eq_false_of_lt
        exact hx.trans_le (Nat.pow_le_pow_right (by norm_num) (by omega))
      rw [hzero, Bool.false_and]
  · simp [hi]

/-- A field of `w` bits above `k` others, left in its place. -/
theorem and_midMask (k w x : ℕ) : x &&& 2 ^ k * (2 ^ w - 1) = 2 ^ k * (x / 2 ^ k % 2 ^ w) := by
  apply Nat.eq_of_testBit_eq
  intro i
  rw [Nat.testBit_and, Nat.testBit_two_pow_mul, Nat.testBit_two_pow_mul, Nat.testBit_mod_two_pow,
    Nat.testBit_div_two_pow, Nat.testBit_two_pow_sub_one]
  by_cases hi : k ≤ i
  · rw [Nat.sub_add_cancel hi, decide_eq_true hi, Bool.true_and, Bool.true_and, Bool.and_comm]
  · rw [decide_eq_false hi, Bool.false_and, Bool.false_and, Bool.and_false]

/-- Setting the `k` low bits of a word moves it to the end of its block of `2 ^ k`. -/
theorem or_lowMask (k x : ℕ) : x ||| (2 ^ k - 1) = 2 ^ k * (x / 2 ^ k) + (2 ^ k - 1) := by
  have hpos : 0 < 2 ^ k := by positivity
  have hsplit : x ||| (2 ^ k - 1) = 2 ^ k * (x / 2 ^ k) ||| (2 ^ k - 1) := by
    apply Nat.eq_of_testBit_eq
    intro i
    rw [Nat.testBit_or, Nat.testBit_or, Nat.testBit_two_pow_mul, Nat.testBit_div_two_pow,
      Nat.testBit_two_pow_sub_one]
    by_cases hi : k ≤ i
    · rw [decide_eq_true hi, Bool.true_and, Nat.sub_add_cancel hi]
    · rw [decide_eq_true (by omega : i < k), Bool.or_true, Bool.or_true]
  rw [hsplit, mul_or_eq_add (by omega)]

/-! ## Single bits -/

/-- The bit `b` at position `i` of a word. -/
def bitAt (w : ℕ) (b : Bool) (i : ℕ) : BitVec w := (BitVec.ofBool b).setWidth w <<< i

theorem getLsbD_bitAt (w : ℕ) (b : Bool) (i j : ℕ) :
    (bitAt w b i).getLsbD j = (decide (j < w) && decide (j = i) && b) := by
  unfold bitAt
  rw [BitVec.getLsbD_shiftLeft]
  rcases lt_trichotomy j i with h | rfl | h
  · simp [h, h.ne]
  · by_cases hj : j < w <;> simp [hj]
    intro
    omega
  · have hsub : ¬ j - i = 0 := by omega
    simp [h.ne', hsub]

@[simp] theorem getElem_bitAt {w : ℕ} (b : Bool) (i j : ℕ) (hj : j < w) :
    (bitAt w b i)[j] = (decide (j = i) && b) := by
  rw [BitVec.getElem_eq_testBit_toNat, ← BitVec.getLsbD, getLsbD_bitAt]
  simp [hj]

/-- A word with no bit outside a mask is what the mask leaves of it. -/
theorem and_eq_self_of_and_not_eq_zero {a b : UInt64} (h : a &&& ~~~b = 0) : a &&& b = a := by
  apply UInt64.toBitVec_inj.1
  apply BitVec.eq_of_getLsbD_eq
  intro i hi
  have hbit := congrArg (fun x : UInt64 => x.toBitVec.getLsbD i) h
  simp only [UInt64.toBitVec_and, UInt64.toBitVec_not, BitVec.getLsbD_and, BitVec.getLsbD_not, hi,
    decide_true, Bool.true_and, UInt64.toBitVec_zero, BitVec.getLsbD_zero] at hbit
  rw [UInt64.toBitVec_and, BitVec.getLsbD_and]
  revert hbit
  cases a.toBitVec.getLsbD i <;> cases b.toBitVec.getLsbD i <;> simp

/-- A value cut to its low bits looks the same under a mask of them. -/
theorem setWidth_and_mask (v : BitVec 64) {w : ℕ} {mask : BitVec 64} (hmask : mask.toNat < 2 ^ w) :
    (v.setWidth w).setWidth 64 &&& mask = v &&& mask := by
  apply BitVec.eq_of_getLsbD_eq
  intro i hi
  simp only [BitVec.getLsbD_and, BitVec.getLsbD_setWidth]
  by_cases hbit : mask.getLsbD i = true
  · have hle : 2 ^ i ≤ mask.toNat := Nat.ge_two_pow_of_testBit hbit
    have hiw : i < w := (Nat.pow_lt_pow_iff_right (by norm_num)).1 (hle.trans_lt hmask)
    simp [hi, hiw]
  · simp [hbit]

theorem toUInt16_and_mask (v : UInt64) : v.toUInt16.toUInt64 &&& 0xFFFF = v &&& 0xFFFF := by
  apply UInt64.toBitVec_inj.1
  simp only [UInt64.toBitVec_and, UInt16.toBitVec_toUInt64, UInt64.toBitVec_toUInt16]
  exact setWidth_and_mask v.toBitVec (by decide)

theorem toUInt32_and_mask (v : UInt64) : v.toUInt32.toUInt64 &&& 0xFFFFFFFF = v &&& 0xFFFFFFFF := by
  apply UInt64.toBitVec_inj.1
  simp only [UInt64.toBitVec_and, UInt32.toBitVec_toUInt64, UInt64.toBitVec_toUInt32]
  exact setWidth_and_mask v.toBitVec (by decide)

/-- Adding a bit to a number flips the next bit exactly when it carries. -/
theorem testBit_add_two_pow (n i : ℕ) :
    (n + 2 ^ i).testBit (i + 1) = (n.testBit (i + 1) ^^ n.testBit i) := by
  have hlow : n / 2 ^ (i + 1) = n / 2 ^ i / 2 := by rw [pow_succ, Nat.div_div_eq_div_mul]
  have hadd : (n + 2 ^ i) / 2 ^ (i + 1) = (n / 2 ^ i + 1) / 2 := by
    rw [pow_succ, ← Nat.div_div_eq_div_mul, Nat.add_div_right _ (by positivity)]
  simp only [Nat.testBit_eq_decide_div_mod_eq, hlow, hadd]
  obtain ⟨m, hm⟩ : ∃ m, m = n / 2 ^ i := ⟨_, rfl⟩
  rw [← hm]
  rcases Nat.mod_two_eq_zero_or_one m with h | h
  · have hstay : (m + 1) / 2 = m / 2 := by omega
    simp [hstay, h]
  · have hflip : (m + 1) / 2 % 2 = (m / 2 + 1) % 2 := by omega
    rcases Nat.mod_two_eq_zero_or_one (m / 2) with h' | h' <;> simp [hflip, h, h', Nat.add_mod]

end Words
