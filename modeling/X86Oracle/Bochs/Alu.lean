import Mathlib
import X86Oracle.Bochs.StatusFlags

/-!
# Bochs: arithmetic and logic

`cpu/arith8.cc` to `arith64.cc`, `logical8.cc` to `logical64.cc` and the conditions of
`cpu/bit.cc` and `ctrl_xfer64.cc`.

* `ADD`, …, `CMPXCHG` are the handlers, for operands that have been read.  They compute in the
  variable that holds an operand, which is wider than a byte or a word, and only then cut the
  result off.
* `ADD_gives`, …: the word and the flags are those of the operands in their size.
* `Condition.holds` are the conditions of `Jcc`, `SETcc` and `CMOVcc`; `condition_after_CMP`: after
  a comparison each of them says what its name says, for all sizes.
-/

namespace Bochs

open Carries LazyFlags

/-! ## The handlers -/

section Handlers

variable (s : OpSize) (f : LazyFlags) (op1 op2 : BitVec s.bits)

/-- An operand in the variable that holds it. -/
def held (x : BitVec s.bits) : BitVec s.container := x.setWidth _

/-- The part of a variable that is written back. -/
def stored (x : BitVec s.container) : BitVec s.bits := x.setWidth _

/-- CF as a number. -/
def heldCF : BitVec s.container := carryIn _ f.getB_CF

def ADD : BitVec s.bits × LazyFlags :=
  let sum := held s op1 + held s op2
  (stored s sum, SET_FLAGS_OSZAPC_ADD s (held s op1) (held s op2) sum)

def ADC : BitVec s.bits × LazyFlags :=
  let sum := held s op1 + held s op2 + heldCF s f
  (stored s sum, SET_FLAGS_OSZAPC_ADD s (held s op1) (held s op2) sum)

def SUB : BitVec s.bits × LazyFlags :=
  let diff := held s op1 - held s op2
  (stored s diff, SET_FLAGS_OSZAPC_SUB s (held s op1) (held s op2) diff)

def SBB : BitVec s.bits × LazyFlags :=
  let diff := held s op1 - (held s op2 + heldCF s f)
  (stored s diff, SET_FLAGS_OSZAPC_SUB s (held s op1) (held s op2) diff)

def CMP : LazyFlags :=
  SET_FLAGS_OSZAPC_SUB s (held s op1) (held s op2) (held s op1 - held s op2)

/-- `INC`.  Only in `INC_EwR` is the sum cut off before the flags are set. -/
def INC (reg : Bool) : BitVec s.bits × LazyFlags :=
  let sum := if s = .word ∧ reg = true then held s (op1 + 1) else held s op1 + 1
  (stored s sum, f.SET_FLAGS_OSZAP_ADD s (sum - 1) 0 sum)

def DEC (reg : Bool) : BitVec s.bits × LazyFlags :=
  let diff := if s = .word ∧ reg = true then held s (op1 - 1) else held s op1 - 1
  (stored s diff, f.SET_FLAGS_OSZAP_SUB s (diff + 1) 0 diff)

def NEG : BitVec s.bits × LazyFlags :=
  let diff := -held s op1
  (stored s diff, SET_FLAGS_OSZAPC_SUB s 0 (0 - diff) diff)

def NOT : BitVec s.bits × LazyFlags := (~~~op1, f)

/-- What `AND`, `OR` and `XOR` do with their result, and `TEST` with the conjunction. -/
def logic (result : BitVec s.bits) : BitVec s.bits × LazyFlags :=
  (result, SET_FLAGS_OSZAPC_LOGIC s result)

def AND : BitVec s.bits × LazyFlags := logic s (op1 &&& op2)

def OR : BitVec s.bits × LazyFlags := logic s (op1 ||| op2)

def XOR : BitVec s.bits × LazyFlags := logic s (op1 ^^^ op2)

def TEST : LazyFlags := (logic s (op1 &&& op2)).2

/-- The comparison of `CMPXCHG`: whether the accumulator is equal to the destination.  The
difference of words is a word. -/
def CMPXCHG (accumulator : BitVec s.bits) : Bool × LazyFlags :=
  let diff :=
    if s = .word then held s (accumulator - op1) else held s accumulator - held s op1
  (diff == 0, SET_FLAGS_OSZAPC_SUB s (held s accumulator) (held s op1) diff)

/-- `ADCX`: a sum that leaves all flags but CF. -/
def ADCX : BitVec s.bits × LazyFlags :=
  let sum := held s op1 + held s op2 + heldCF s f
  (stored s sum, f.set_CF ((addCarries (held s op1) (held s op2) sum).getLsbD (s.bits - 1)))

/-- `ADOX`: the same with OF. -/
def ADOX : BitVec s.bits × LazyFlags :=
  let sum := held s op1 + held s op2 + carryIn _ f.getB_OF
  (stored s sum, f.set_OF ((addCarries (held s op1) (held s op2) sum).getLsbD (s.bits - 1)))

end Handlers

/-! ## What they compute -/

/-- A handler gives this word, and these flags to read. -/
def Gives {α : Type} (r : α × LazyFlags) (v : α) (F : StatusFlags) : Prop :=
  r.1 = v ∧ r.2.status = F

section Results

variable (s : OpSize) (f : LazyFlags) (op1 op2 : BitVec s.bits)

theorem stored_held : stored s (held s op1) = op1 :=
  (BitVec.setWidth_setWidth_of_le op1 s.bits_le_container).trans (BitVec.setWidth_eq op1)

theorem stored_add (x y : BitVec s.container) :
    stored s (x + y) = stored s x + stored s y := BitVec.setWidth_add _ _ s.bits_le_container

theorem stored_one : stored s 1 = 1 := by cases s <;> rfl

theorem stored_zero : stored s 0 = 0 := by cases s <;> rfl

/-- What is stored of a difference at the container is the difference at the size. -/
theorem stored_sub (x y : BitVec s.container) :
    stored s (x - y) = stored s x - stored s y := by
  have h := stored_add s (x - y) y
  rw [BitVec.sub_add_cancel] at h
  rw [h, BitVec.add_sub_cancel]

/-- The carry of the pair is the carry in. -/
theorem ADC_gives : Gives (ADC s f op1 op2) (op1 + op2 + carryIn _ f.getB_CF)
    (.add op1 op2 f.getB_CF) := by
  have hstatus := status_ADD s (held s op1) (held s op2) f.getB_CF
  have hstored := setWidth_sum s.bits_le_container (held s op1) (held s op2) f.getB_CF
  have h1 := stored_held s op1
  have h2 := stored_held s op2
  unfold stored at h1 h2
  rw [h1, h2] at hstatus hstored
  exact ⟨hstored, hstatus⟩

/-- The carry of the pair is the borrow in. -/
theorem SBB_gives : Gives (SBB s f op1 op2) (op1 - (op2 + carryIn _ f.getB_CF))
    (.sub op1 op2 f.getB_CF) := by
  have hstatus := status_SUB s (held s op1) (held s op2) f.getB_CF
  have hstored := setWidth_diff s.bits_le_container (held s op1) (held s op2) f.getB_CF
  have h1 := stored_held s op1
  have h2 := stored_held s op2
  unfold stored at h1 h2
  rw [h1, h2] at hstatus hstored
  exact ⟨hstored, hstatus⟩

theorem ADD_gives : Gives (ADD s op1 op2) (op1 + op2) (.add op1 op2 false) := by
  have hstatus := status_ADD s (held s op1) (held s op2) false
  have h1 := stored_held s op1
  have h2 := stored_held s op2
  unfold stored at h1 h2
  rw [h1, h2, carryIn_false, BitVec.add_zero] at hstatus
  refine ⟨?_, hstatus⟩
  exact (stored_add s _ _).trans (congrArg₂ (· + ·) (stored_held s op1) (stored_held s op2))

theorem SUB_gives : Gives (SUB s op1 op2) (op1 - op2) (.sub op1 op2 false) := by
  have hstatus := status_SUB s (held s op1) (held s op2) false
  have h1 := stored_held s op1
  have h2 := stored_held s op2
  unfold stored at h1 h2
  rw [h1, h2, carryIn_false, BitVec.add_zero] at hstatus
  refine ⟨?_, hstatus⟩
  exact (stored_sub s _ _).trans (congrArg₂ (· - ·) (stored_held s op1) (stored_held s op2))

/-- CMP is SUB without the result. -/
theorem CMP_gives : (CMP s op1 op2).status = .sub op1 op2 false := (SUB_gives s op1 op2).2

/-- One more, as a carry and as an operand. -/
theorem add_one_flags {w : ℕ} (hw : 8 ≤ w) (a : BitVec w) (c : Bool) :
    { StatusFlags.add a 0 true with CF := c } = { StatusFlags.add a 1 false with CF := c } := by
  have hzero : (0 : BitVec w).toInt = 0 := BitVec.toInt_zero
  have hone : (1 : BitVec w).toInt = 1 := BitVec.toInt_one (by omega)
  have hmod : 1 % 2 ^ w = 1 := Nat.mod_eq_of_lt (Nat.one_lt_two_pow (by omega))
  have hnat : (1 : BitVec w).toNat = 1 := hmod
  have hnat' : (0 : BitVec w).toNat = 0 := rfl
  unfold StatusFlags.add StatusFlags.ofResult
  rw [hzero, hone, hnat, hnat', carryIn_true, carryIn_false]
  simp

/-- Subtracting a borrow gives the flags of subtracting one, but for CF. -/
theorem sub_one_flags {w : ℕ} (hw : 8 ≤ w) (a : BitVec w) (c : Bool) :
    { StatusFlags.sub a 0 true with CF := c } = { StatusFlags.sub a 1 false with CF := c } := by
  have hzero : (0 : BitVec w).toInt = 0 := BitVec.toInt_zero
  have hone : (1 : BitVec w).toInt = 1 := BitVec.toInt_one (by omega)
  have hmod : 1 % 2 ^ w = 1 := Nat.mod_eq_of_lt (Nat.one_lt_two_pow (by omega))
  have hnat : (1 : BitVec w).toNat = 1 := hmod
  have hnat' : (0 : BitVec w).toNat = 0 := rfl
  unfold StatusFlags.sub StatusFlags.ofResult
  rw [hzero, hone, hnat, hnat', carryIn_true, carryIn_false]
  simp

/-- INC keeps CF; of a word in a register the sum is cut before its flags are stored. -/
theorem INC_gives (reg : Bool) : Gives (INC s f op1 reg) (op1 + 1)
    { StatusFlags.add op1 1 false with CF := f.status.CF } := by
  have hsum : stored s (if s = .word ∧ reg = true then held s (op1 + 1) else held s op1 + 1) =
      op1 + 1 := by
    split_ifs
    · exact stored_held s (op1 + 1)
    · rw [stored_add, stored_held, stored_one]
  unfold INC
  dsimp only
  generalize (if s = .word ∧ reg = true then held s (op1 + 1) else held s op1 + 1) = sum at hsum ⊢
  refine ⟨hsum, ?_⟩
  have hstatus := status_OSZAP_ADD s f (sum - 1) 0 true
  have hback : sum - 1 + 0 + carryIn s.container true = sum := by
    simp only [carryIn_true, BitVec.ofNat_eq_ofNat, BitVec.add_zero, BitVec.sub_add_cancel]
  have hop1 : (sum - 1).setWidth s.bits = op1 := by
    have h := stored_sub s sum 1
    rw [hsum, stored_one, BitVec.add_sub_cancel] at h
    exact h
  rw [hback, hop1] at hstatus
  have hzero : (0 : BitVec s.container).setWidth s.bits = 0 := stored_zero s
  rw [hzero, add_one_flags s.eight_le_bits] at hstatus
  exact hstatus

theorem DEC_gives (reg : Bool) : Gives (DEC s f op1 reg) (op1 - 1)
    { StatusFlags.sub op1 1 false with CF := f.status.CF } := by
  have hdiff : stored s (if s = .word ∧ reg = true then held s (op1 - 1) else held s op1 - 1) =
      op1 - 1 := by
    split_ifs
    · exact stored_held s (op1 - 1)
    · rw [stored_sub, stored_held, stored_one]
  unfold DEC
  dsimp only
  generalize (if s = .word ∧ reg = true then held s (op1 - 1) else held s op1 - 1) = diff at hdiff ⊢
  refine ⟨hdiff, ?_⟩
  have hstatus := status_OSZAP_SUB s f (diff + 1) 0 true
  have hback : diff + 1 - (0 + carryIn s.container true) = diff := by
    simp only [carryIn_true, BitVec.ofNat_eq_ofNat, BitVec.zero_add, BitVec.add_sub_cancel]
  have hop1 : (diff + 1).setWidth s.bits = op1 := by
    have h := stored_add s diff 1
    rw [hdiff, stored_one, BitVec.sub_add_cancel] at h
    exact h
  rw [hback, hop1] at hstatus
  have hzero : (0 : BitVec s.container).setWidth s.bits = 0 := stored_zero s
  rw [hzero, sub_one_flags s.eight_le_bits] at hstatus
  exact hstatus

/-- NEG is a difference from zero. -/
theorem NEG_gives : Gives (NEG s op1) (-op1) (.sub 0 op1 false) := by
  have hzero := stored_zero s
  have hneg : stored s (-held s op1) = -op1 := by
    have h := stored_sub s 0 (held s op1)
    rwa [hzero, stored_held, zero_sub, zero_sub] at h
  have hback : (0 : BitVec s.container) - -held s op1 = held s op1 := by
    rw [zero_sub, BitVec.neg_neg]
  have hstatus := status_SUB s 0 (held s op1) false
  have hop1 := stored_held s op1
  unfold stored at hop1 hzero
  rw [carryIn_false, BitVec.add_zero, zero_sub, hop1, hzero] at hstatus
  unfold NEG
  dsimp only
  rw [hback]
  exact ⟨hneg, hstatus⟩

/-- A logical result clears CF, AF and OF. -/
theorem logic_gives (result : BitVec s.bits) :
    Gives (logic s result) result (.ofResult result false false false) := by
  have hstatus := status_LOGIC s result
  rw [BitVec.setWidth_eq] at hstatus
  exact ⟨rfl, hstatus⟩

/-- The flags of a difference depend on its low part only. -/
theorem status_SUB_congr (x y : BitVec s.container) {d d' : BitVec s.container}
    (h : stored s d = stored s d') :
    (SET_FLAGS_OSZAPC_SUB s x y d).status = (SET_FLAGS_OSZAPC_SUB s x y d').status := by
  have hbits := s.eight_le_bits
  have hbit (i : ℕ) (hi : i < s.bits) : d.getLsbD i = d'.getLsbD i := by
    have hset := congrArg (fun b => b.getLsbD i) h
    unfold stored at hset
    simpa only [BitVec.getLsbD_setWidth, hi, decide_true, Bool.true_and] using hset
  have hborrow (i : ℕ) (hi : i < s.bits) :
      (subBorrows x y d).getLsbD i = (subBorrows x y d').getLsbD i := by
    unfold subBorrows
    rw [BitVec.getLsbD_or, BitVec.getLsbD_and, BitVec.getLsbD_and, hbit i hi, BitVec.getLsbD_or,
      BitVec.getLsbD_and, BitVec.getLsbD_and]
  unfold stored at h
  unfold SET_FLAGS_OSZAPC_SUB
  rw [status_OSZAPC, status_OSZAPC, h, hborrow _ (by omega), hborrow _ (by omega),
    hborrow _ (by omega)]

/-- The flags are those of the comparison, whether or not the word is exchanged. -/
theorem CMPXCHG_gives (accumulator : BitVec s.bits) :
    Gives (CMPXCHG s op1 accumulator) (accumulator == op1) (.sub accumulator op1 false) := by
  have hstored : stored s (held s accumulator - held s op1) = accumulator - op1 := by
    rw [stored_sub, stored_held, stored_held]
  have hdiff : stored s (if s = .word then held s (accumulator - op1)
      else held s accumulator - held s op1) = accumulator - op1 := by
    split_ifs
    · exact stored_held s _
    · exact hstored
  have hzero : (if s = .word then held s (accumulator - op1)
      else held s accumulator - held s op1) = 0 ↔ accumulator = op1 := by
    constructor
    · intro h
      rw [h, stored_zero] at hdiff
      exact BitVec.sub_eq_iff_eq_add.1 hdiff.symm |>.trans (BitVec.zero_add op1)
    · rintro rfl
      split_ifs
      · rw [BitVec.sub_self]
        exact BitVec.setWidth_zero ..
      · exact BitVec.sub_self _
  unfold CMPXCHG
  dsimp only
  refine ⟨?_, ?_⟩
  · rw [Bool.eq_iff_iff, beq_iff_eq, beq_iff_eq]
    exact hzero
  · exact (status_SUB_congr s _ _ (hdiff.trans hstored.symm)).trans (SUB_gives s accumulator op1).2

/-- The last carry of a sum. -/
theorem last_carry (c : Bool) :
    (addCarries (held s op1) (held s op2) (held s op1 + held s op2 + carryIn _ c)).getLsbD
      (s.bits - 1) = decide (2 ^ s.bits ≤ op1.toNat + op2.toNat + c.toNat) := by
  have hbits := s.eight_le_bits
  have hlast : s.bits - 1 + 1 = s.bits := by omega
  have h1 := stored_held s op1
  have h2 := stored_held s op2
  unfold stored at h1 h2
  rw [carry_addCarries s _ _ c (by omega), h1, h2, hlast, carry_self]

/-- ADCX writes CF alone. -/
theorem ADCX_gives : Gives (ADCX s f op1 op2) (op1 + op2 + carryIn _ f.getB_CF)
    { f.status with CF := decide (2 ^ s.bits ≤ op1.toNat + op2.toNat + f.getB_CF.toNat) } := by
  refine ⟨(ADC_gives s f op1 op2).1, ?_⟩
  unfold ADCX
  dsimp only
  rw [status_set_CF, heldCF, last_carry]

/-- ADOX writes OF alone. -/
theorem ADOX_gives : Gives (ADOX s f op1 op2) (op1 + op2 + carryIn _ f.getB_OF)
    { f.status with OF := decide (2 ^ s.bits ≤ op1.toNat + op2.toNat + f.getB_OF.toNat) } := by
  have hstored := setWidth_sum s.bits_le_container (held s op1) (held s op2) f.getB_OF
  have h1 := stored_held s op1
  have h2 := stored_held s op2
  unfold stored at h1 h2
  rw [h1, h2] at hstored
  refine ⟨hstored, ?_⟩
  unfold ADOX
  dsimp only
  rw [status_set_OF, last_carry]

end Results

/-! ## Conditions -/

/-- The conditions of `Jcc`, `SETcc` and `CMOVcc`. -/
inductive Condition
  | O | NO | B | NB | Z | NZ | BE | NBE | S | NS | P | NP | L | NL | LE | NLE
deriving DecidableEq, Repr

namespace Condition

/-- The sixteen conditions, each off the lazy pair. -/
def holds (f : LazyFlags) : Condition → Bool
  | O => f.getB_OF
  | NO => !f.getB_OF
  | B => f.getB_CF
  | NB => !f.getB_CF
  | Z => f.getB_ZF
  | NZ => !f.getB_ZF
  | BE => f.getB_CF || f.getB_ZF
  | NBE => !(f.getB_CF || f.getB_ZF)
  | S => f.getB_SF
  | NS => !f.getB_SF
  | P => f.getB_PF
  | NP => !f.getB_PF
  | L => f.getB_SF ^^ f.getB_OF
  | NL => !(f.getB_SF ^^ f.getB_OF)
  | LE => f.getB_ZF || (f.getB_SF ^^ f.getB_OF)
  | NLE => !(f.getB_ZF || (f.getB_SF ^^ f.getB_OF))

/-- What a condition says about the operands of a comparison. -/
def compares {w : ℕ} (a b : BitVec w) : Condition → Prop
  | O => overflows (w - 1) (a.toInt - b.toInt) = true
  | NO => overflows (w - 1) (a.toInt - b.toInt) = false
  | B => a.toNat < b.toNat
  | NB => b.toNat ≤ a.toNat
  | Z => a = b
  | NZ => a ≠ b
  | BE => a.toNat ≤ b.toNat
  | NBE => b.toNat < a.toNat
  | S => (a - b).msb = true
  | NS => (a - b).msb = false
  | P => evenOnes ((a - b).setWidth 8) = true
  | NP => evenOnes ((a - b).setWidth 8) = false
  | L => a.toInt < b.toInt
  | NL => b.toInt ≤ a.toInt
  | LE => a.toInt ≤ b.toInt
  | NLE => b.toInt < a.toInt

/-- The sign of a difference is wrong exactly if it overflows. -/
theorem sign_xor_overflow {w : ℕ} (hw : 0 < w) (a b : BitVec w) :
    ((a - b).msb ^^ overflows (w - 1) (a.toInt - b.toInt)) = decide (a.toInt < b.toInt) := by
  obtain ⟨k, rfl⟩ : ∃ k, w = k + 1 := ⟨w - 1, by omega⟩
  have ha := BitVec.two_mul_toInt_lt (x := a)
  have ha' := BitVec.le_two_mul_toInt (x := a)
  have hb := BitVec.two_mul_toInt_lt (x := b)
  have hb' := BitVec.le_two_mul_toInt (x := b)
  have hpos : 0 < (2 : ℤ) ^ k := by positivity
  have hpow : (2 : ℤ) ^ (k + 1) = 2 * 2 ^ k := pow_succ' 2 k
  have hcast : ((2 ^ (k + 1) : ℕ) : ℤ) = 2 * 2 ^ k := by
    push_cast
    exact hpow
  have hmsb : (a - b).msb = decide ((a.toInt - b.toInt).bmod (2 ^ (k + 1)) < 0) := by
    rw [← BitVec.toInt_sub]
    cases h : (a - b).msb with
    | true => exact (decide_eq_true (BitVec.toInt_neg_of_msb_true h)).symm
    | false => exact (decide_eq_false (not_lt.2 (BitVec.toInt_nonneg_of_msb_false h))).symm
  rw [hpow] at ha ha' hb hb'
  rw [hmsb, Nat.add_sub_cancel]
  unfold overflows
  by_cases hlow : a.toInt - b.toInt < -2 ^ k
  · have hmod : (a.toInt - b.toInt).bmod (2 ^ (k + 1)) = a.toInt - b.toInt + 2 * 2 ^ k := by
      rw [← Int.add_bmod_right, hcast]
      exact Int.bmod_eq_of_le (by rw [hcast]; omega) (by rw [hcast]; omega)
    have hover : a.toInt - b.toInt < -2 ^ k ∨ 2 ^ k ≤ a.toInt - b.toInt := .inl hlow
    rw [hmod, decide_eq_false (by omega : ¬ a.toInt - b.toInt + 2 * 2 ^ k < 0),
      decide_eq_true hover, decide_eq_true (by omega : a.toInt < b.toInt)]
    rfl
  · by_cases hhigh : 2 ^ k ≤ a.toInt - b.toInt
    · have hmod : (a.toInt - b.toInt).bmod (2 ^ (k + 1)) = a.toInt - b.toInt - 2 * 2 ^ k := by
        rw [← Int.sub_bmod_right, hcast]
        exact Int.bmod_eq_of_le (by rw [hcast]; omega) (by rw [hcast]; omega)
      have hover : a.toInt - b.toInt < -2 ^ k ∨ 2 ^ k ≤ a.toInt - b.toInt := .inr hhigh
      rw [hmod, decide_eq_true (by omega : a.toInt - b.toInt - 2 * 2 ^ k < 0),
        decide_eq_true hover, decide_eq_false (by omega : ¬ a.toInt < b.toInt)]
      rfl
    · have hmod : (a.toInt - b.toInt).bmod (2 ^ (k + 1)) = a.toInt - b.toInt :=
        Int.bmod_eq_of_le (by rw [hcast]; omega) (by rw [hcast]; omega)
      rw [hmod, decide_eq_false (not_or.2 ⟨hlow, hhigh⟩), Bool.xor_false]
      exact decide_eq_decide.2 sub_neg

/-- After a comparison the conditions compare its operands. -/
theorem holds_of_sub {f : LazyFlags} {w : ℕ} (hw : 0 < w) {a b : BitVec w}
    (h : f.status = .sub a b false) (c : Condition) : c.holds f = true ↔ c.compares a b := by
  have hresult : a - (b + carryIn w false) = a - b := by rw [carryIn_false, BitVec.add_zero]
  have hC : f.getB_CF = decide (a.toNat < b.toNat) := congrArg StatusFlags.CF h
  have hO : f.getB_OF = overflows (w - 1) (a.toInt - b.toInt) :=
    (congrArg StatusFlags.OF h).trans (congrArg (overflows (w - 1)) (sub_zero _))
  have hS : f.getB_SF = (a - b).msb :=
    (congrArg StatusFlags.SF h).trans (congrArg BitVec.msb hresult)
  have hP : f.getB_PF = evenOnes ((a - b).setWidth 8) :=
    (congrArg StatusFlags.PF h).trans
      (congrArg (fun r : BitVec w => evenOnes (r.setWidth 8)) hresult)
  have hZ : f.getB_ZF = decide (a = b) := by
    have hzero : f.getB_ZF = (a - b == 0) :=
      (congrArg StatusFlags.ZF h).trans (congrArg (fun r : BitVec w => r == 0) hresult)
    rw [hzero, Bool.eq_iff_iff, beq_iff_eq, decide_eq_true_eq]
    exact ⟨fun he => by simpa using BitVec.sub_eq_iff_eq_add.1 he, fun he => he ▸ BitVec.sub_self a⟩
  have hL : (f.getB_SF ^^ f.getB_OF) = decide (a.toInt < b.toInt) := by
    rw [hS, hO, sign_xor_overflow hw]
  have hnat : a = b ↔ a.toNat = b.toNat := BitVec.toNat_eq
  have hint : a = b ↔ a.toInt = b.toInt := BitVec.toInt_inj.symm
  cases c <;> unfold holds compares <;> dsimp only
  case O => rw [hO]
  case NO => rw [hO, Bool.not_eq_true']
  case B => rw [hC, decide_eq_true_eq]
  case NB => rw [hC, Bool.not_eq_true', decide_eq_false_iff_not, not_lt]
  case Z => rw [hZ, decide_eq_true_eq]
  case NZ => rw [hZ, Bool.not_eq_true', decide_eq_false_iff_not]
  case BE =>
    rw [hC, hZ, Bool.or_eq_true, decide_eq_true_eq, decide_eq_true_eq, hnat]
    omega
  case NBE =>
    rw [hC, hZ, Bool.not_eq_true', Bool.or_eq_false_iff, decide_eq_false_iff_not,
      decide_eq_false_iff_not, hnat]
    omega
  case S => rw [hS]
  case NS => rw [hS, Bool.not_eq_true']
  case P => rw [hP]
  case NP => rw [hP, Bool.not_eq_true']
  case L => rw [hL, decide_eq_true_eq]
  case NL => rw [hL, Bool.not_eq_true', decide_eq_false_iff_not, not_lt]
  case LE =>
    rw [hL, hZ, Bool.or_eq_true, decide_eq_true_eq, decide_eq_true_eq, hint]
    omega
  case NLE =>
    rw [hL, hZ, Bool.not_eq_true', Bool.or_eq_false_iff, decide_eq_false_iff_not,
      decide_eq_false_iff_not, hint]
    omega

end Condition

/-- **Conditions compare.**  After a comparison, at any size, each of the sixteen conditions holds
exactly if the operands are as its name says. -/
theorem condition_after_CMP (s : OpSize) (op1 op2 : BitVec s.bits) (c : Condition) :
    c.holds (CMP s op1 op2) = true ↔ c.compares op1 op2 :=
  c.holds_of_sub s.bits_pos (CMP_gives s op1 op2)

end Bochs
