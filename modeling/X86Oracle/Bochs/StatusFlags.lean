import Mathlib
import X86Oracle.Lib.Carries
import X86Oracle.Bochs.LazyFlags

/-!
# Bochs: the status flags of an instruction

`cpu/lazy_flags.h` from the side of the instructions: the macros `SET_FLAGS_…` store a result and
a vector of carries, and `set_flags_OxxxxC` and the setters correct single flags.

* `StatusFlags` is what the manuals have: six bits, worked out at once.
* `LazyFlags.status` reads them; each writer has one law that says what it does to them
  (`status_set_CF`, …, `status_OSZAPC`, `status_OSZAP`, `status_OSZAxC_LOGIC`).
* `status_ADD`, `status_SUB` and their `OSZAP` forms: the carries of the macros give the flags of
  the sum and of the difference, for all operand sizes and with a carry coming in.
-/

namespace Bochs

open Words Carries

/-! ## The flags of the manuals -/

/-- The six flags that arithmetic sets. -/
structure StatusFlags where
  CF : Bool
  PF : Bool
  AF : Bool
  ZF : Bool
  SF : Bool
  OF : Bool
deriving DecidableEq, Repr

/-- The number of ones is even. -/
def evenOnes (b : BitVec 8) : Bool :=
  ((List.range 8).filter fun i => b.getLsbD i).length % 2 == 0

/-- The operand size of an instruction. -/
inductive OpSize
  | byte
  | word
  | dword
  | qword
deriving DecidableEq, Repr

namespace OpSize

abbrev bits : OpSize → ℕ
  | .byte => 8
  | .word => 16
  | .dword => 32
  | .qword => 64

/-- The width of the variables that hold an operand: `Bit32u`, or `Bit64u`. -/
abbrev container : OpSize → ℕ
  | .qword => 64
  | _ => 32

theorem bits_le_container (s : OpSize) : s.bits ≤ s.container := by cases s <;> decide

theorem eight_le_bits (s : OpSize) : 8 ≤ s.bits := by cases s <;> decide

theorem bits_pos (s : OpSize) : 0 < s.bits := by cases s <;> decide

end OpSize

namespace StatusFlags

variable {w : ℕ}

/-- ZF, SF and PF of a result. -/
def ofResult (r : BitVec w) (CF AF OF : Bool) : StatusFlags where
  CF := CF
  PF := evenOnes (r.setWidth 8)
  AF := AF
  ZF := r == 0
  SF := r.msb
  OF := OF

/-- The sum of two operands and a carry. -/
def add (a b : BitVec w) (c : Bool) : StatusFlags :=
  ofResult (a + b + carryIn w c) (decide (2 ^ w ≤ a.toNat + b.toNat + c.toNat))
    (decide (16 ≤ a.toNat % 16 + b.toNat % 16 + c.toNat))
    (overflows (w - 1) (a.toInt + b.toInt + c.toNat))

/-- The difference of two operands, less a borrow. -/
def sub (a b : BitVec w) (c : Bool) : StatusFlags :=
  ofResult (a - (b + carryIn w c)) (decide (a.toNat < b.toNat + c.toNat))
    (decide (a.toNat % 16 < b.toNat % 16 + c.toNat))
    (overflows (w - 1) (a.toInt - b.toInt - c.toNat))

end StatusFlags

namespace LazyFlags

/-- What the flags read as. -/
def status (f : LazyFlags) : StatusFlags where
  CF := f.getB_CF
  PF := f.getB_PF
  AF := f.getB_AF
  ZF := f.getB_ZF
  SF := f.getB_SF
  OF := f.getB_OF

/-! ## The setters -/

section Setters

variable (f : LazyFlags) (val new_of new_cf : Bool)

theorem status_set_flags_OxxxxC :
    (f.set_flags_OxxxxC new_of new_cf).status = { f.status with CF := new_cf, OF := new_of } := by
  have hPF : (f.set_flags_OxxxxC new_of new_cf).getB_PF = f.getB_PF := by
    apply getB_PF_congr
    intro i hi
    interval_cases i <;> simp [set_flags_OxxxxC]
  have hOF : (f.set_flags_OxxxxC new_of new_cf).getB_OF = new_of := by
    rw [getB_OF_eq]
    cases new_of <;> cases new_cf <;> simp [set_flags_OxxxxC]
  unfold status
  rw [hPF, hOF]
  simp [getB_CF, getB_AF, getB_ZF, getB_SF, set_flags_OxxxxC]

/-- Each setter changes its flag, and no other of the six. -/
theorem status_set_CF : (f.set_CF val).status = { f.status with CF := val } :=
  status_set_flags_OxxxxC f f.getB_OF val

theorem status_set_OF : (f.set_OF val).status = { f.status with OF := val } :=
  status_set_flags_OxxxxC f val f.getB_CF

theorem status_set_SF : (f.set_SF val).status = { f.status with SF := val } := by
  have hPF : (f.set_SF val).getB_PF = f.getB_PF := by
    apply getB_PF_congr
    intro i hi
    interval_cases i <;> simp [set_SF]
  unfold status
  rw [hPF, getB_SF_set_SF, getB_OF_set_SF]
  simp [getB_CF, getB_AF, getB_ZF, set_SF]

theorem status_set_ZF : (f.set_ZF val).status = { f.status with ZF := val } := by
  have hPF : (f.set_ZF val).getB_PF = f.getB_PF := by
    apply getB_PF_congr
    intro i hi
    unfold set_ZF
    cases val
    · interval_cases i <;> simp [clear_ZF]
    · interval_cases i <;> simp [assert_ZF, Bool.xor_comm]
  have hrest : (f.set_ZF val).getB_CF = f.getB_CF ∧ (f.set_ZF val).getB_AF = f.getB_AF := by
    unfold set_ZF
    cases val <;> simp [getB_CF, getB_AF, clear_ZF, assert_ZF]
  unfold status
  rw [hPF, hrest.1, hrest.2, getB_ZF_set_ZF, getB_SF_set_ZF, getB_OF_set_ZF]

theorem status_set_AF : (f.set_AF val).status = { f.status with AF := val } := by
  have hPF : (f.set_AF val).getB_PF = f.getB_PF := by
    apply getB_PF_congr
    intro i hi
    interval_cases i <;> simp [set_AF]
  unfold status
  rw [hPF, getB_AF_set_AF, getB_SF_set_AF, getB_OF_set_AF, getB_ZF_set_AF]
  simp [getB_CF, set_AF]

/-- PF is the parity of the result and of a byte of the auxiliary bits. -/
theorem status_set_PF : (f.set_PF val).status = { f.status with PF := val } := by
  unfold status
  rw [getB_PF_set_PF, getB_SF_set_PF, getB_OF_set_PF, getB_ZF_set_PF, getB_AF_set_PF]
  simp [getB_CF, set_PF]

end Setters

/-! ## The macros -/

variable {n : ℕ}

/-- The auxiliary bits of a vector of carries: the last two at their places, and bit 3. -/
def lf_temp (s : OpSize) (lf_carries : BitVec n) : BitVec 32 :=
  match s with
  | .byte => ((lf_carries &&& 8) ||| (lf_carries <<< 24)).setWidth 32
  | .word => ((lf_carries &&& 8) ||| (lf_carries <<< 16)).setWidth 32
  | .dword => (lf_carries &&& ~~~0xFF01).setWidth 32
  | .qword => ((lf_carries &&& 8) ||| ((lf_carries >>> 62) <<< 30)).setWidth 32

/-- `SET_FLAGS_OSZAPC_SIZE`. -/
def SET_FLAGS_OSZAPC (s : OpSize) (lf_carries lf_result : BitVec n) : LazyFlags where
  result := (lf_result.setWidth s.bits).signExtend 64
  auxbits := (lf_temp s lf_carries).setWidth 64

/-- The auxiliary bits `temp` with the carry flag of others. -/
def keep_CF (auxbits temp : BitVec 32) : BitVec 32 :=
  let delta_c := (auxbits ^^^ temp) &&& 0x80000000
  temp ^^^ (delta_c ^^^ (delta_c >>> 1))

/-- `SET_FLAGS_OSZAP_SIZE`: as above, with CF kept. -/
def SET_FLAGS_OSZAP (f : LazyFlags) (s : OpSize) (lf_carries lf_result : BitVec n) : LazyFlags where
  result := (lf_result.setWidth s.bits).signExtend 64
  auxbits := (keep_CF (f.auxbits.setWidth 32) (lf_temp s lf_carries)).setWidth 64

/-- `SET_FLAGS_OSZAxC_LOGIC_SIZE`: those of a logical operation, with PF kept. -/
def SET_FLAGS_OSZAxC_LOGIC (f : LazyFlags) (s : OpSize) (lf_result : BitVec n) : LazyFlags :=
  (SET_FLAGS_OSZAPC s 0 lf_result).set_PF f.getB_PF

def SET_FLAGS_OSZAPC_LOGIC (s : OpSize) (result : BitVec n) : LazyFlags :=
  SET_FLAGS_OSZAPC s 0 result

def SET_FLAGS_OSZAPC_ADD (s : OpSize) (op1 op2 sum : BitVec n) : LazyFlags :=
  SET_FLAGS_OSZAPC s (addCarries op1 op2 sum) sum

def SET_FLAGS_OSZAPC_SUB (s : OpSize) (op1 op2 diff : BitVec n) : LazyFlags :=
  SET_FLAGS_OSZAPC s (subBorrows op1 op2 diff) diff

def SET_FLAGS_OSZAP_ADD (f : LazyFlags) (s : OpSize) (op1 op2 sum : BitVec n) : LazyFlags :=
  f.SET_FLAGS_OSZAP s (addCarries op1 op2 sum) sum

def SET_FLAGS_OSZAP_SUB (f : LazyFlags) (s : OpSize) (op1 op2 diff : BitVec n) : LazyFlags :=
  f.SET_FLAGS_OSZAP s (subBorrows op1 op2 diff) diff

/-! ## What the macros store -/

/-- The table of nibbles is the parity. -/
theorem evenParity_eq (b : BitVec 8) : evenParity (b.setWidth 64) = evenOnes b := by
  revert b
  decide +kernel

/-- The carries are in their places, and the deltas are clear. -/
structure Placed (bits : ℕ) (c : BitVec n) (temp : BitVec 32) : Prop where
  carry : temp.getLsbD 31 = c.getLsbD (bits - 1)
  overflow : temp.getLsbD 30 = c.getLsbD (bits - 2)
  adjust : temp.getLsbD 3 = c.getLsbD 3
  sign : temp.getLsbD 0 = false
  parity : ∀ i < 8, temp.getLsbD (8 + i) = false

theorem placed_byte (c : BitVec 32) : Placed 8 c (lf_temp .byte c) := by
  refine ⟨?_, ?_, ?_, ?_, fun i hi => ?_⟩
  case refine_5 => interval_cases i <;> simp [lf_temp]
  all_goals simp [lf_temp]

theorem placed_word (c : BitVec 32) : Placed 16 c (lf_temp .word c) := by
  refine ⟨?_, ?_, ?_, ?_, fun i hi => ?_⟩
  case refine_5 => interval_cases i <;> simp [lf_temp]
  all_goals simp [lf_temp]

theorem placed_dword (c : BitVec 32) : Placed 32 c (lf_temp .dword c) := by
  refine ⟨?_, ?_, ?_, ?_, fun i hi => ?_⟩
  case refine_5 => interval_cases i <;> simp [lf_temp]
  all_goals simp [lf_temp]

theorem placed_qword (c : BitVec 64) : Placed 64 c (lf_temp .qword c) := by
  refine ⟨?_, ?_, ?_, ?_, fun i hi => ?_⟩
  case refine_5 => interval_cases i <;> simp [lf_temp]
  all_goals simp [lf_temp]

/-- `lf_temp` places the carries of any size where the accessors look. -/
theorem placed (s : OpSize) (c : BitVec s.container) : Placed s.bits c (lf_temp s c) := by
  cases s with
  | byte => exact placed_byte c
  | word => exact placed_word c
  | dword => exact placed_dword c
  | qword => exact placed_qword c

theorem getLsbD_signExtend_of_lt {w v i : ℕ} (r : BitVec w) (hv : i < v) (hw : i < w) :
    (r.signExtend v).getLsbD i = r.getLsbD i := by
  rw [BitVec.getLsbD_signExtend, decide_eq_true hv, if_pos hw, Bool.true_and]

/-- ZF may be read off the extended result. -/
theorem signExtend_eq_zero_iff {w v : ℕ} (hwv : w ≤ v) (r : BitVec w) :
    r.signExtend v = 0#v ↔ r = 0#w := by
  constructor
  · intro h
    apply BitVec.eq_of_getLsbD_eq
    intro i hi
    rw [← getLsbD_signExtend_of_lt r (hi.trans_le hwv) hi, h]
    simp
  · rintro rfl
    apply BitVec.eq_of_getLsbD_eq
    intro i hi
    simp [BitVec.getLsbD_signExtend]

/-- The flags of a result with its sign extended and of auxiliary bits whose deltas are clear. -/
theorem status_of_temp (s : OpSize) (r : BitVec s.bits) (temp : BitVec 32)
    (hsign : temp.getLsbD 0 = false) (hparity : ∀ i < 8, temp.getLsbD (8 + i) = false) :
    (⟨r.signExtend 64, temp.setWidth 64⟩ : LazyFlags).status =
      .ofResult r (temp.getLsbD 31) (temp.getLsbD 3)
        (temp.getLsbD 31 ^^ temp.getLsbD 30) := by
  have hsize : s.bits ≤ 64 := by cases s <;> decide
  have hbits := s.eight_le_bits
  have haux (i : ℕ) (hi : i < 32) : (temp.setWidth 64).getLsbD i = temp.getLsbD i := by
    rw [BitVec.getLsbD_setWidth, decide_eq_true (by omega), Bool.true_and]
  have hbyte : (⟨r.signExtend 64, temp.setWidth 64⟩ : LazyFlags).parityByte =
      (r.setWidth 8).setWidth 64 := by
    apply BitVec.eq_of_getLsbD_eq
    intro i hi64
    rw [getLsbD_parityByte]
    by_cases hi : i < 8
    · rw [getLsbD_signExtend_of_lt r hi64 (by omega), haux _ (by omega), hparity i hi]
      simp [hi, hi64]
    · simp [hi]
  have hPF : (⟨r.signExtend 64, temp.setWidth 64⟩ : LazyFlags).getB_PF =
      evenOnes (r.setWidth 8) := by
    unfold getB_PF
    rw [hbyte, evenParity_eq]
  have hOF : (⟨r.signExtend 64, temp.setWidth 64⟩ : LazyFlags).getB_OF =
      (temp.getLsbD 31 ^^ temp.getLsbD 30) := by
    rw [getB_OF_eq]
    dsimp only
    rw [haux 31 (by norm_num), haux 30 (by norm_num)]
  have hZF : (⟨r.signExtend 64, temp.setWidth 64⟩ : LazyFlags).getB_ZF = (r == 0) := by
    unfold getB_ZF
    rw [Bool.eq_iff_iff, beq_iff_eq, beq_iff_eq]
    exact signExtend_eq_zero_iff hsize r
  have hSF : (⟨r.signExtend 64, temp.setWidth 64⟩ : LazyFlags).getB_SF = r.msb := by
    have hmsb : (r.signExtend 64).getLsbD 63 = r.msb := by
      rw [BitVec.getLsbD_signExtend]
      by_cases h : 63 < s.bits
      · rw [if_pos h, BitVec.msb_eq_getLsbD_last]
        have hlast : s.bits - 1 = 63 := by omega
        rw [hlast]
        rfl
      · rw [if_neg h]
        rfl
    unfold getB_SF
    dsimp only
    rw [hmsb, haux 0 (by norm_num), hsign, Bool.xor_false]
  unfold status StatusFlags.ofResult
  rw [hPF, hOF, hZF, hSF]
  unfold getB_CF getB_AF
  dsimp only
  rw [haux 31 (by norm_num), haux 3 (by norm_num)]

/-! ## Results without carries -/

theorem lf_temp_zero (s : OpSize) : lf_temp s (0 : BitVec n) = 0 := by
  cases s <;> simp [lf_temp]

/-- A result without carries. -/
theorem status_LOGIC (s : OpSize) (r : BitVec n) : (SET_FLAGS_OSZAPC_LOGIC s r).status =
    .ofResult (r.setWidth s.bits) false false false := by
  unfold SET_FLAGS_OSZAPC_LOGIC SET_FLAGS_OSZAPC
  rw [lf_temp_zero]
  exact status_of_temp s (r.setWidth s.bits) 0 rfl fun i _ => by simp

theorem status_OSZAxC_LOGIC (s : OpSize) (f : LazyFlags) (r : BitVec n) :
    (f.SET_FLAGS_OSZAxC_LOGIC s r).status =
      { StatusFlags.ofResult (r.setWidth s.bits) false false false with PF := f.status.PF } := by
  unfold SET_FLAGS_OSZAxC_LOGIC
  rw [status_set_PF]
  have hlogic := status_LOGIC s r
  unfold SET_FLAGS_OSZAPC_LOGIC at hlogic
  rw [hlogic]
  rfl

/-! ## Results with carries -/

section Results

variable (s : OpSize) (f : LazyFlags) (c r : BitVec s.container)

/-- The flags by the vector of carries. -/
theorem status_OSZAPC : (SET_FLAGS_OSZAPC s c r).status =
    .ofResult (r.setWidth s.bits) (c.getLsbD (s.bits - 1)) (c.getLsbD 3)
      (c.getLsbD (s.bits - 1) ^^ c.getLsbD (s.bits - 2)) := by
  have h := placed s c
  have hstatus := status_of_temp s (r.setWidth s.bits) (lf_temp s c) h.sign h.parity
  rw [h.carry, h.overflow, h.adjust] at hstatus
  exact hstatus

/-- The carry flag moves, and the overflow flag, which is stored as a difference to it, stays. -/
theorem getLsbD_keep_CF (old temp : BitVec 32) {i : ℕ} (hi : i < 32) :
    (keep_CF old temp).getLsbD i =
      if i = 31 then old.getLsbD 31
      else if i = 30 then (temp.getLsbD 30 ^^ (old.getLsbD 31 ^^ temp.getLsbD 31))
      else temp.getLsbD i := by
  unfold keep_CF
  interval_cases i <;> simp
  rw [Bool.xor_comm, Bool.xor_assoc, Bool.xor_self, Bool.xor_false]

/-- The same, except for the carry flag. -/
theorem status_OSZAP : (f.SET_FLAGS_OSZAP s c r).status =
    { (SET_FLAGS_OSZAPC s c r).status with CF := f.status.CF } := by
  have h := placed s c
  have hcf : f.status.CF = f.auxbits.getLsbD 31 := rfl
  have hsign : (keep_CF (f.auxbits.setWidth 32) (lf_temp s c)).getLsbD 0 = false := by
    rw [getLsbD_keep_CF _ _ (by norm_num)]
    exact h.sign
  have hparity (i : ℕ) (hi : i < 8) :
      (keep_CF (f.auxbits.setWidth 32) (lf_temp s c)).getLsbD (8 + i) = false := by
    rw [getLsbD_keep_CF _ _ (by omega), if_neg (by omega), if_neg (by omega)]
    exact h.parity i hi
  have hstatus := status_of_temp s (r.setWidth s.bits) _ hsign hparity
  rw [getLsbD_keep_CF _ _ (by norm_num), getLsbD_keep_CF _ _ (by norm_num),
    getLsbD_keep_CF _ _ (by norm_num)] at hstatus
  simp only [if_true, Nat.reduceEqDiff, if_false] at hstatus
  rw [status_OSZAPC, hcf]
  refine hstatus.trans ?_
  have hcancel (a b x : Bool) : (a ^^ (b ^^ (a ^^ x))) = (x ^^ b) := by
    cases a <;> cases b <;> cases x <;> rfl
  rw [h.carry, h.overflow, h.adjust, hcancel, BitVec.getLsbD_setWidth]
  rfl

end Results

/-! ## Sums and differences -/

section Arithmetic

variable (s : OpSize) (f : LazyFlags) (op1 op2 : BitVec s.container) (cin : Bool)

/-- The carries of a sum, and so of the operands in their size. -/
theorem carry_addCarries {i : ℕ} (hi : i < s.bits) :
    (addCarries op1 op2 (op1 + op2 + carryIn s.container cin)).getLsbD i =
      BitVec.carry (i + 1) (op1.setWidth s.bits) (op2.setWidth s.bits) cin := by
  rw [getLsbD_addCarries op1 op2 cin (hi.trans_le s.bits_le_container), carry_setWidth _ _ _ hi]

theorem borrow_subBorrows {i : ℕ} (hi : i < s.bits) :
    (subBorrows op1 op2 (op1 - (op2 + carryIn s.container cin))).getLsbD i =
      borrow (i + 1) (op1.setWidth s.bits) (op2.setWidth s.bits) cin := by
  rw [getLsbD_subBorrows op1 op2 cin (hi.trans_le s.bits_le_container), borrow_setWidth _ _ _ hi]

/-- The vector `add_carries` of a sum gives its flags. -/
theorem status_ADD :
    (SET_FLAGS_OSZAPC_ADD s op1 op2 (op1 + op2 + carryIn s.container cin)).status =
      .add (op1.setWidth s.bits) (op2.setWidth s.bits) cin := by
  have h8 := s.eight_le_bits
  have hlast : s.bits - 1 + 1 = s.bits := by omega
  have hprev : s.bits - 2 + 1 = s.bits - 1 := by omega
  unfold SET_FLAGS_OSZAPC_ADD StatusFlags.add
  rw [status_OSZAPC, setWidth_sum s.bits_le_container, carry_addCarries s op1 op2 cin (by omega),
    carry_addCarries s op1 op2 cin (by omega), carry_addCarries s op1 op2 cin (by omega), hlast,
    hprev, overflow_add (by omega), carry_self]
  rfl

/-- The vector of borrows of a difference gives its flags. -/
theorem status_SUB :
    (SET_FLAGS_OSZAPC_SUB s op1 op2 (op1 - (op2 + carryIn s.container cin))).status =
      .sub (op1.setWidth s.bits) (op2.setWidth s.bits) cin := by
  have h8 := s.eight_le_bits
  have hlast : s.bits - 1 + 1 = s.bits := by omega
  have hprev : s.bits - 2 + 1 = s.bits - 1 := by omega
  unfold SET_FLAGS_OSZAPC_SUB StatusFlags.sub
  rw [status_OSZAPC, setWidth_diff s.bits_le_container, borrow_subBorrows s op1 op2 cin (by omega),
    borrow_subBorrows s op1 op2 cin (by omega), borrow_subBorrows s op1 op2 cin (by omega), hlast,
    hprev, overflow_sub (by omega), borrow_self]
  rfl

theorem status_OSZAP_ADD :
    (f.SET_FLAGS_OSZAP_ADD s op1 op2 (op1 + op2 + carryIn s.container cin)).status =
      { StatusFlags.add (op1.setWidth s.bits) (op2.setWidth s.bits) cin with
        CF := f.status.CF } := by
  rw [← status_ADD]
  exact status_OSZAP s f _ _

theorem status_OSZAP_SUB :
    (f.SET_FLAGS_OSZAP_SUB s op1 op2 (op1 - (op2 + carryIn s.container cin))).status =
      { StatusFlags.sub (op1.setWidth s.bits) (op2.setWidth s.bits) cin with
        CF := f.status.CF } := by
  rw [← status_SUB]
  exact status_OSZAP s f _ _

end Arithmetic

end LazyFlags

end Bochs
