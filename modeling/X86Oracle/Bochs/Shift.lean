import Mathlib
import X86Oracle.Lib.Shifts
import X86Oracle.Bochs.StatusFlags

/-!
# Bochs: shifts and rotations

`cpu/shift8.cc`, `shift16.cc`, `shift32.cc` and `shift64.cc`.  The handlers compute the word and
the flags of a count at once; the manuals define them by a loop that shifts by one.

* `ROL`, …, `SAR`, `SHLD` and `SHRD` are the handlers, for an operand that has been read.
* `shift1` and `doubleShift1` are one turn of the loop, with its flags.
* `shift_by_count` and `double_shift_by_count`: the handlers do what the loop does.
-/

namespace Bochs

open Shifts

/-! ## The loop of the manuals -/

namespace StatusFlags

variable {w : ℕ}

/-- The flags after a word has been shifted by one.  OF says that the sign has changed. -/
def shifted (F : StatusFlags) (op : Op) (x x' : BitVec w) (cf : Bool) : StatusFlags :=
  match op with
  | .shl | .shr | .sar => .ofResult x' cf false (x.msb ^^ x'.msb)
  | .rol | .ror | .rcl | .rcr => { F with CF := cf, OF := x.msb ^^ x'.msb }

end StatusFlags

/-- A shift by one. -/
def shift1 {w : ℕ} (op : Op) (z : BitVec w × StatusFlags) : BitVec w × StatusFlags :=
  let r := step op (z.1, z.2.CF)
  (r.1, z.2.shifted op z.1 r.1 r.2)

/-- Two words by one. -/
def doubleStep {w : ℕ} (left : Bool) (z : (BitVec w × BitVec w) × Bool) :
    (BitVec w × BitVec w) × Bool :=
  if left then doubleLeft z else doubleRight z

/-- A shift of two words by one; the flags are those of the first. -/
def doubleShift1 {w : ℕ} (left : Bool) (z : (BitVec w × BitVec w) × StatusFlags) :
    (BitVec w × BitVec w) × StatusFlags :=
  let r := doubleStep left (z.1, z.2.CF)
  (r.1, .ofResult r.1.1 r.2 false (z.1.1.msb ^^ r.1.1.msb))

/-! ## The handlers -/

/-- The bits of a count that are used. -/
def masked (s : OpSize) (count : ℕ) : ℕ :=
  match s with
  | .qword => count &&& 0x3f
  | _ => count &&& 0x1f

/-- The bits of a count that turn a byte or a word around once more. -/
def turns (s : OpSize) (count : ℕ) : ℕ :=
  match s with
  | .byte => count &&& 0x18
  | .word => count &&& 0x10
  | _ => 0

/-- The count of a rotation through the carry: a byte turns in nine steps, a word in seventeen. -/
def carryCount (s : OpSize) (count : ℕ) : ℕ :=
  match s with
  | .byte => masked s count % 9
  | .word => masked s count % 17
  | _ => masked s count

section Handlers

variable (s : OpSize) (f : LazyFlags) (op1 : BitVec s.bits) (count : ℕ)

/-- `rol8`, …, `rol64`. -/
def rol (v : BitVec s.bits) (count : ℕ) : BitVec s.bits :=
  (v <<< count) ||| (v >>> (s.bits - count))

def ror (v : BitVec s.bits) (count : ℕ) : BitVec s.bits :=
  (v >>> count) ||| (v <<< (s.bits - count))

def ROL : BitVec s.bits × LazyFlags :=
  if count &&& (s.bits - 1) = 0 then
    if turns s count = 0 then (op1, f)
    else (op1, f.set_flags_OxxxxC (op1.getLsbD 0 ^^ op1.msb) (op1.getLsbD 0))
  else
    let result := rol s op1 (count &&& (s.bits - 1))
    (result, f.set_flags_OxxxxC (result.getLsbD 0 ^^ result.msb) (result.getLsbD 0))

def ROR : BitVec s.bits × LazyFlags :=
  if count &&& (s.bits - 1) = 0 then
    if turns s count = 0 then (op1, f)
    else (op1, f.set_flags_OxxxxC (op1.getLsbD (s.bits - 2) ^^ op1.msb) op1.msb)
  else
    let result := ror s op1 (count &&& (s.bits - 1))
    (result, f.set_flags_OxxxxC (result.getLsbD (s.bits - 2) ^^ result.msb) result.msb)

/-- CF as a number. -/
def temp_CF : BitVec s.bits := Carries.carryIn s.bits f.getB_CF

def RCL : BitVec s.bits × LazyFlags :=
  let n := carryCount s count
  if n = 0 then (op1, f)
  else
    let result :=
      if n = 1 then (op1 <<< 1) ||| temp_CF s f
      else if s = .word ∧ n = 16 then (temp_CF s f <<< 15) ||| (op1 >>> 1)
      else (op1 <<< n) ||| (temp_CF s f <<< (n - 1)) ||| (op1 >>> (s.bits + 1 - n))
    let cf := op1.getLsbD (s.bits - n)
    (result, f.set_flags_OxxxxC (cf ^^ result.msb) cf)

def RCR : BitVec s.bits × LazyFlags :=
  let n := carryCount s count
  if n = 0 then (op1, f)
  else
    let result :=
      if (s = .dword ∨ s = .qword) ∧ n = 1 then (op1 >>> 1) ||| (temp_CF s f <<< (s.bits - 1))
      else (op1 >>> n) ||| (temp_CF s f <<< (s.bits - n)) ||| (op1 <<< (s.bits + 1 - n))
    (result, f.set_flags_OxxxxC ((result <<< 1) ^^^ result).msb (op1.getLsbD (n - 1)))

/-- The masked count of a wider operand is less than its width. -/
def SHL : BitVec s.bits × LazyFlags :=
  let n := masked s count
  if n = 0 then (op1, f)
  else if n ≤ s.bits then
    let result := op1 <<< n
    let cf := op1.getLsbD (s.bits - n)
    (result, (LazyFlags.SET_FLAGS_OSZAPC_LOGIC s result).set_flags_OxxxxC (cf ^^ result.msb) cf)
  else (0, (LazyFlags.SET_FLAGS_OSZAPC_LOGIC s (0 : BitVec s.bits)).set_flags_OxxxxC false false)

def SHR : BitVec s.bits × LazyFlags :=
  let n := masked s count
  if n = 0 then (op1, f)
  else
    let result := op1 >>> n
    (result, (LazyFlags.SET_FLAGS_OSZAPC_LOGIC s result).set_flags_OxxxxC
      ((result <<< 1) ^^^ result).msb (op1.getLsbD (n - 1)))

def SAR : BitVec s.bits × LazyFlags :=
  let n := masked s count
  if n = 0 then (op1, f)
  else
    let result := op1.sshiftRight n
    let cf :=
      if s = .dword ∨ s = .qword then op1.getLsbD (n - 1)
      else (op1.sshiftRight (n - 1)).getLsbD 0
    (result, (LazyFlags.SET_FLAGS_OSZAPC_LOGIC s result).set_flags_OxxxxC false cf)

/-- The handler of an operation. -/
def shiftHandler : Op → BitVec s.bits × LazyFlags
  | .rol => ROL s f op1 count
  | .ror => ROR s f op1 count
  | .rcl => RCL s f op1 count
  | .rcr => RCR s f op1 count
  | .shl => SHL s f op1 count
  | .shr => SHR s f op1 count
  | .sar => SAR s f op1 count

variable (op2 : BitVec s.bits)

/-- The double formed by two words. -/
def double (high low : BitVec s.bits) : BitVec 32 := (high.setWidth 32 <<< 16) ||| low.setWidth 32

/-- `SHLD`.  A word is shifted with the other one in a doubleword, and beyond its width with its
own bits behind them. -/
def SHLD : BitVec s.bits × LazyFlags :=
  let n := masked s count
  if n = 0 then (op1, f)
  else
    let result :=
      if s = .word then
        let result_32 := double s op1 op2 <<< n
        let result_32 :=
          if 16 < n then result_32 ||| (op1.setWidth 32 <<< (n - 16)) else result_32
        (result_32 >>> 16).setWidth s.bits
      else (op1 <<< n) ||| (op2 >>> (s.bits - n))
    let cf :=
      if s = .word then (double s op1 op2).getLsbD (32 - n) else op1.getLsbD (s.bits - n)
    (result, (LazyFlags.SET_FLAGS_OSZAPC_LOGIC s result).set_flags_OxxxxC (cf ^^ result.msb) cf)

def SHRD : BitVec s.bits × LazyFlags :=
  let n := masked s count
  if n = 0 then (op1, f)
  else
    let result :=
      if s = .word then
        let result_32 := double s op2 op1 >>> n
        let result_32 :=
          if 16 < n then result_32 ||| (op1.setWidth 32 <<< (32 - n)) else result_32
        result_32.setWidth s.bits
      else (op2 <<< (s.bits - n)) ||| (op1 >>> n)
    let cf :=
      if s = .word ∧ 16 < n then op2.getLsbD (n - 17) else op1.getLsbD (n - 1)
    (result, (LazyFlags.SET_FLAGS_OSZAPC_LOGIC s result).set_flags_OxxxxC
      ((result <<< 1) ^^^ result).msb cf)

end Handlers

/-! ## The loop after any number of turns -/

section Loop

variable {w : ℕ} (op : Op) (x : BitVec w) (F : StatusFlags)

theorem shifted_CF (x' : BitVec w) (cf : Bool) : (F.shifted op x x' cf).CF = cf := by
  cases op <;> rfl

/-- The flags of the last step are the flags of all. -/
theorem shifted_shifted (x' y y' : BitVec w) (cf cf' : Bool) :
    (F.shifted op x x' cf).shifted op y y' cf' = F.shifted op y y' cf' := by
  cases op <;> rfl

/-- Only the last turn shows in the flags. -/
theorem shift1_iterate (n : ℕ) : (shift1 op)^[n + 1] (x, F) =
    (((step op)^[n + 1] (x, F.CF)).1,
      F.shifted op ((step op)^[n] (x, F.CF)).1 ((step op)^[n + 1] (x, F.CF)).1
        ((step op)^[n + 1] (x, F.CF)).2) := by
  induction n with
  | zero => rfl
  | succ n ih =>
    rw [Function.iterate_succ_apply', ih, Function.iterate_succ_apply' (step op) (n + 1)]
    generalize (step op)^[n + 1] (x, F.CF) = z
    unfold shift1
    dsimp only
    rw [shifted_CF, shifted_shifted]

end Loop

/-! ## Counts -/

theorem and_bits (s : OpSize) (count : ℕ) : count &&& (s.bits - 1) = count % s.bits := by
  cases s
  · exact Nat.and_two_pow_sub_one_eq_mod count 3
  · exact Nat.and_two_pow_sub_one_eq_mod count 4
  · exact Nat.and_two_pow_sub_one_eq_mod count 5
  · exact Nat.and_two_pow_sub_one_eq_mod count 6

/-- The whole turns of a count, and what is left of it. -/
theorem masked_split (s : OpSize) (count : ℕ) :
    masked s count = turns s count + count % s.bits ∧ s.bits ∣ turns s count := by
  have hmask : count &&& 0x1f = count % 2 ^ 5 := Nat.and_two_pow_sub_one_eq_mod count 5
  cases s with
  | byte =>
    have hturns : turns .byte count = 2 ^ 3 * (count / 2 ^ 3 % 2 ^ 2) :=
      Words.and_midMask 3 2 count
    have hlow : masked .byte count = count &&& 0x1f := rfl
    have hmod : count % OpSize.byte.bits = count % 8 := rfl
    refine ⟨?_, hturns ▸ Dvd.intro _ rfl⟩
    rw [hturns, hmod, hlow, hmask]
    omega
  | word =>
    have hturns : turns .word count = 2 ^ 4 * (count / 2 ^ 4 % 2 ^ 1) :=
      Words.and_midMask 4 1 count
    have hlow : masked .word count = count &&& 0x1f := rfl
    have hmod : count % OpSize.word.bits = count % 16 := rfl
    refine ⟨?_, hturns ▸ Dvd.intro _ rfl⟩
    rw [hturns, hmod, hlow, hmask]
    omega
  | dword => exact ⟨hmask.trans (Nat.zero_add _).symm, dvd_zero _⟩
  | qword =>
    have hwide : masked .qword count = count % 2 ^ 6 := Nat.and_two_pow_sub_one_eq_mod count 6
    exact ⟨hwide.trans (Nat.zero_add _).symm, dvd_zero _⟩

/-- The mask of the count does not change where a rotation ends. -/
theorem masked_mod (s : OpSize) (count : ℕ) : masked s count % s.bits = count % s.bits := by
  obtain ⟨hsplit, k, hk⟩ := masked_split s count
  rw [hsplit, hk, Nat.mul_add_mod, Nat.mod_mod]

theorem masked_lt (s : OpSize) (count : ℕ) : masked s count < 64 := by
  cases s
  case qword => exact Nat.lt_of_le_of_lt Nat.and_le_right (by norm_num)
  all_goals exact Nat.lt_of_le_of_lt Nat.and_le_right (by norm_num)

/-! ## Flags -/

section Flags

variable (s : OpSize) (f : LazyFlags) (op : Op) (op1 : BitVec s.bits)

/-- The handler leaves what the loop leaves. -/
def Computes (op : Op) (f : LazyFlags) (op1 : BitVec s.bits) (n : ℕ)
    (r : BitVec s.bits × LazyFlags) : Prop :=
  (r.1, r.2.status) = (shift1 op)^[n] (op1, f.status)

variable {s f op op1} {n : ℕ} {result : BitVec s.bits} {cf ofl : Bool}

/-- A count of zero changes nothing, flags included. -/
theorem computes_zero : Computes s op f op1 0 (op1, f) := rfl

/-- What a rotation has to show: result, CF, and OF of the last step. -/
theorem computes_rotate (hop : op = .rol ∨ op = .ror ∨ op = .rcl ∨ op = .rcr)
    (hresult : result = ((step op)^[n + 1] (op1, f.getB_CF)).1)
    (hcf : cf = ((step op)^[n + 1] (op1, f.getB_CF)).2)
    (hof : ofl = (((step op)^[n] (op1, f.getB_CF)).1.msb ^^ result.msb)) :
    Computes s op f op1 (n + 1) (result, f.set_flags_OxxxxC ofl cf) := by
  unfold Computes
  rw [shift1_iterate, LazyFlags.status_set_flags_OxxxxC, hof, hcf]
  have hCF : f.status.CF = f.getB_CF := rfl
  rw [hCF, ← hresult]
  rcases hop with rfl | rfl | rfl | rfl <;> rfl

/-- What a shift has to show: the result, CF, and OF of the last step. -/
theorem computes_shift (hop : op = .shl ∨ op = .shr ∨ op = .sar)
    (hresult : result = ((step op)^[n + 1] (op1, f.getB_CF)).1)
    (hcf : cf = ((step op)^[n + 1] (op1, f.getB_CF)).2)
    (hof : ofl = (((step op)^[n] (op1, f.getB_CF)).1.msb ^^ result.msb)) :
    Computes s op f op1 (n + 1)
      (result, (LazyFlags.SET_FLAGS_OSZAPC_LOGIC s result).set_flags_OxxxxC ofl cf) := by
  unfold Computes
  rw [shift1_iterate, LazyFlags.status_set_flags_OxxxxC, LazyFlags.status_LOGIC, hof, hcf,
    BitVec.setWidth_eq]
  have hCF : f.status.CF = f.getB_CF := rfl
  rw [hCF, ← hresult]
  rcases hop with rfl | rfl | rfl <;> rfl

/-- The last two bits of a word that has moved to the right: its sign before and after. -/
theorem sign_right {w : ℕ} (hw : 2 ≤ w) (z : BitVec w × Bool)
    (hop : op = .ror ∨ op = .rcr ∨ op = .shr ∨ op = .sar) :
    (step op z).1.getLsbD (w - 2) = z.1.msb := by
  have hlast : w - 2 + 1 = w - 1 := by omega
  rw [BitVec.msb_eq_getLsbD_last]
  obtain ⟨x, c⟩ := z
  rcases hop with rfl | rfl | rfl | rfl <;>
    rw [step, getLsbD_shiftIn _ _ (by omega), if_neg (by omega), hlast]

/-- OF after a left shift, as the handlers compute it. -/
theorem msb_shl_xor {w : ℕ} (hw : 2 ≤ w) (r : BitVec w) :
    ((r <<< 1) ^^^ r).msb = (r.getLsbD (w - 2) ^^ r.msb) := by
  have hpred : w - 1 - 1 = w - 2 := by omega
  have hpos : w - 1 < w := by omega
  have hone : ¬ w - 1 < 1 := by omega
  rw [BitVec.msb_eq_getLsbD_last, BitVec.getLsbD_xor, BitVec.getLsbD_shiftLeft,
    decide_eq_true hpos, decide_eq_false hone, hpred, BitVec.msb_eq_getLsbD_last]
  rfl

end Flags

/-! ## What the handlers leave -/

section Main

variable (s : OpSize) (f : LazyFlags) (op1 : BitVec s.bits)

/-- A rotation by the size is none. -/
theorem rol_iterate (n : ℕ) (c : Bool) : ((step .rol)^[n] (op1, c)).1 =
    if n % s.bits = 0 then op1 else rol s op1 (n % s.bits) := by
  have hlt := Nat.mod_lt n s.bits_pos
  apply BitVec.eq_of_getLsbD_eq
  intro i hi
  rw [getLsbD_rol_iterate _ _ hi, rol_index hi]
  by_cases hzero : n % s.bits = 0
  · rw [if_pos hzero, hzero, if_pos (Nat.zero_le i), Nat.sub_zero]
  · rw [if_neg hzero, rol, BitVec.getLsbD_or, BitVec.getLsbD_shiftLeft,
      BitVec.getLsbD_ushiftRight, decide_eq_true hi]
    split_ifs with h
    · rw [BitVec.getLsbD_of_ge _ (s.bits - n % s.bits + i) (by omega),
        decide_eq_false (by omega)]
      simp
    · have hindex : s.bits - n % s.bits + i = i + s.bits - n % s.bits := by omega
      rw [decide_eq_true (by omega : i < n % s.bits), hindex]
      simp

theorem ror_iterate (n : ℕ) (c : Bool) : ((step .ror)^[n] (op1, c)).1 =
    if n % s.bits = 0 then op1 else ror s op1 (n % s.bits) := by
  have hlt := Nat.mod_lt n s.bits_pos
  apply BitVec.eq_of_getLsbD_eq
  intro i hi
  rw [getLsbD_ror_iterate _ _ hi, ← Nat.add_mod_mod]
  by_cases hzero : n % s.bits = 0
  · rw [if_pos hzero, hzero, Nat.add_zero, Nat.mod_eq_of_lt hi]
  · rw [if_neg hzero, ror, BitVec.getLsbD_or, BitVec.getLsbD_shiftLeft,
      BitVec.getLsbD_ushiftRight, decide_eq_true hi]
    by_cases h : i + n % s.bits < s.bits
    · rw [Nat.mod_eq_of_lt h, decide_eq_true (by omega), Nat.add_comm i]
      simp
    · have hindex : i + n % s.bits - s.bits = i - (s.bits - n % s.bits) := by omega
      rw [Nat.mod_eq_sub_mod (by omega), Nat.mod_eq_of_lt (by omega), hindex,
        decide_eq_false (by omega), BitVec.getLsbD_of_ge _ (n % s.bits + i) (by omega)]
      simp

theorem computes_ROL (count : ℕ) : Computes s .rol f op1 (masked s count) (ROL s f op1 count) := by
  obtain ⟨hsplit, -⟩ := masked_split s count
  have hword := rol_iterate s op1 (masked s count) f.getB_CF
  rw [masked_mod] at hword
  -- the bit that has left the word is at its bottom
  have hcf (n : ℕ) : ((step .rol)^[n + 1] (op1, f.getB_CF)).2 =
      ((step .rol)^[n + 1] (op1, f.getB_CF)).1.getLsbD 0 := by
    rw [Function.iterate_succ_apply']
    exact (getLsbD_shiftConcat_of_lt _ _ s.bits_pos).symm
  have hof (n : ℕ) : ((step .rol)^[n] (op1, f.getB_CF)).1.msb =
      ((step .rol)^[n + 1] (op1, f.getB_CF)).1.getLsbD 0 := by
    rw [← hcf, Function.iterate_succ_apply']
    rfl
  unfold ROL
  rw [and_bits]
  generalize masked s count = m at *
  cases m with
  | zero =>
    rw [if_pos (by omega), if_pos (by omega)]
    exact computes_zero
  | succ n =>
    split_ifs with hzero hturns
    · omega
    · rw [if_pos hzero] at hword
      refine computes_rotate (.inl rfl) hword.symm ?_ ?_
      · rw [hcf, hword]
      · rw [hof, hword]
    · rw [if_neg hzero] at hword
      refine computes_rotate (.inl rfl) hword.symm ?_ ?_
      · rw [hcf, hword]
      · rw [hof, hword]

theorem computes_ROR (count : ℕ) : Computes s .ror f op1 (masked s count) (ROR s f op1 count) := by
  obtain ⟨hsplit, -⟩ := masked_split s count
  have hbits : 2 ≤ s.bits := by
    have := s.eight_le_bits
    omega
  have hword := ror_iterate s op1 (masked s count) f.getB_CF
  rw [masked_mod] at hword
  -- the bit that has left the word is at its top
  have hcf (n : ℕ) : ((step .ror)^[n + 1] (op1, f.getB_CF)).2 =
      ((step .ror)^[n + 1] (op1, f.getB_CF)).1.msb := by
    have hlast : s.bits - 1 + 1 = s.bits := by omega
    rw [Function.iterate_succ_apply', BitVec.msb_eq_getLsbD_last]
    exact ((getLsbD_shiftIn _ _ (by omega)).trans (if_pos hlast)).symm
  have hof (n : ℕ) : ((step .ror)^[n] (op1, f.getB_CF)).1.msb =
      ((step .ror)^[n + 1] (op1, f.getB_CF)).1.getLsbD (s.bits - 2) := by
    rw [Function.iterate_succ_apply']
    exact (sign_right hbits _ (.inl rfl)).symm
  unfold ROR
  rw [and_bits]
  generalize masked s count = m at *
  cases m with
  | zero =>
    rw [if_pos (by omega), if_pos (by omega)]
    exact computes_zero
  | succ n =>
    split_ifs with hzero hturns
    · omega
    · rw [if_pos hzero] at hword
      refine computes_rotate (.inr (.inl rfl)) hword.symm ?_ ?_
      · rw [hcf, hword]
      · rw [hof, hword]
    · rw [if_neg hzero] at hword
      refine computes_rotate (.inr (.inl rfl)) hword.symm ?_ ?_
      · rw [hcf, hword]
      · rw [hof, hword]

theorem computes_SHL (count : ℕ) : Computes s .shl f op1 (masked s count) (SHL s f op1 count) := by
  have hpos := s.bits_pos
  have hword (n : ℕ) : ((step .shl)^[n] (op1, f.getB_CF)).1 = op1 <<< n := by
    apply BitVec.eq_of_getLsbD_eq
    intro i hi
    have hdec : decide (n ≤ i) = !decide (i < n) := by
      rw [← decide_not]
      exact decide_eq_decide.2 not_lt.symm
    rw [getLsbD_shl_iterate _ _ hi, BitVec.getLsbD_shiftLeft, decide_eq_true hi, hdec,
      Bool.true_and]
  unfold SHL
  generalize masked s count = m
  cases m with
  | zero => exact computes_zero
  | succ n =>
    have hout : ((step .shl)^[n + 1] (op1, f.getB_CF)).2 = (op1 <<< n).msb := by
      rw [Function.iterate_succ_apply', ← hword]
      rfl
    have hmsb : (op1 <<< n).msb = (decide (n + 1 ≤ s.bits) && op1.getLsbD (s.bits - (n + 1))) := by
      have hindex : s.bits - 1 - n = s.bits - (n + 1) := by omega
      have hdec : decide (n + 1 ≤ s.bits) = !decide (s.bits - 1 < n) := by
        rw [← decide_not]
        exact decide_eq_decide.2 (by omega)
      rw [BitVec.msb_eq_getLsbD_last, BitVec.getLsbD_shiftLeft, decide_eq_true (by omega), hindex,
        hdec, Bool.true_and]
    dsimp only
    rw [if_neg (Nat.succ_ne_zero n)]
    split_ifs with hle
    · rw [decide_eq_true hle, Bool.true_and] at hmsb
      refine computes_shift (.inl rfl) (hword _).symm (hmsb.symm.trans hout.symm) ?_
      rw [hword, hmsb]
    · -- nothing is left of the operand
      rw [decide_eq_false hle, Bool.false_and] at hmsb
      have hgone : (0 : BitVec s.bits) = op1 <<< (n + 1) :=
        (BitVec.shiftLeft_eq_zero (by omega)).symm
      refine computes_shift (.inl rfl) (hgone.trans (hword _).symm) (hmsb.symm.trans hout.symm) ?_
      rw [hword, hmsb]
      simp

theorem computes_SHR (count : ℕ) : Computes s .shr f op1 (masked s count) (SHR s f op1 count) := by
  have hbits : 2 ≤ s.bits := by
    have := s.eight_le_bits
    omega
  have hword (n : ℕ) : ((step .shr)^[n] (op1, f.getB_CF)).1 = op1 >>> n := by
    apply BitVec.eq_of_getLsbD_eq
    intro i hi
    rw [getLsbD_shr_iterate _ _ hi, BitVec.getLsbD_ushiftRight, Nat.add_comm]
  unfold SHR
  generalize masked s count = m
  cases m with
  | zero => exact computes_zero
  | succ n =>
    dsimp only
    rw [if_neg (Nat.succ_ne_zero n)]
    refine computes_shift (.inr (.inl rfl)) (hword _).symm ?_ ?_
    · rw [Function.iterate_succ_apply', ← Prod.mk.eta (p := (step .shr)^[n] (op1, f.getB_CF)),
        hword]
      exact (BitVec.getLsbD_ushiftRight op1 n 0).symm
    · rw [msb_shl_xor hbits, ← hword (n + 1), Function.iterate_succ_apply',
        sign_right hbits _ (.inr (.inr (.inl rfl)))]

theorem computes_SAR (count : ℕ) : Computes s .sar f op1 (masked s count) (SAR s f op1 count) := by
  have hpos := s.bits_pos
  have hword (n : ℕ) : ((step .sar)^[n] (op1, f.getB_CF)).1 = op1.sshiftRight n := by
    apply BitVec.eq_of_getLsbD_eq
    intro i hi
    rw [getLsbD_sar_iterate _ _ hi, BitVec.getLsbD_sshiftRight, decide_eq_false (by omega),
      Nat.add_comm]
    rfl
  have hlt := masked_lt s count
  have hwide : s = .dword ∨ s = .qword → masked s count < s.bits := by
    rintro (rfl | rfl)
    · exact Nat.lt_of_le_of_lt Nat.and_le_right (by norm_num)
    · exact hlt
  unfold SAR
  generalize masked s count = m at *
  cases m with
  | zero => exact computes_zero
  | succ n =>
    have hcf : (if s = .dword ∨ s = .qword then op1.getLsbD (n + 1 - 1)
        else (op1.sshiftRight (n + 1 - 1)).getLsbD 0) = (op1.sshiftRight n).getLsbD 0 := by
      split_ifs with hs
      · have hn := hwide hs
        rw [BitVec.getLsbD_sshiftRight, decide_eq_false (by omega), if_pos (by omega)]
        rfl
      · rfl
    dsimp only
    rw [if_neg (Nat.succ_ne_zero n), hcf]
    refine computes_shift (.inr (.inr rfl)) (hword _).symm ?_ ?_
    · rw [Function.iterate_succ_apply', ← Prod.mk.eta (p := (step .sar)^[n] (op1, f.getB_CF)),
        hword]
      rfl
    · rw [hword, BitVec.msb_sshiftRight, BitVec.msb_sshiftRight, Bool.xor_self]

/-! ### Through the carry -/

/-- RCL and RCR reduce the count by the size and one. -/
theorem carryCount_le (count : ℕ) : carryCount s count ≤ s.bits := by
  have hlt := masked_lt s count
  cases s with
  | byte => exact Nat.le_of_lt_succ (Nat.mod_lt _ (by norm_num))
  | word => exact Nat.le_of_lt_succ (Nat.mod_lt _ (by norm_num))
  | dword => exact Nat.le_trans Nat.and_le_right (by norm_num)
  | qword => exact hlt.le

theorem getLsbD_temp_CF (i : ℕ) : (temp_CF s f).getLsbD i = (decide (i = 0) && f.getB_CF) := by
  have hpos := s.bits_pos
  have hbit : temp_CF s f = Words.bitAt s.bits f.getB_CF 0 := by
    unfold temp_CF Carries.carryIn Words.bitAt
    rw [BitVec.shiftLeft_zero]
  rw [hbit, Words.getLsbD_bitAt]
  by_cases hi : i = 0
  · rw [hi, decide_eq_true hpos, Bool.true_and]
  · rw [decide_eq_false hi, Bool.and_false, Bool.false_and]

/-- The carry among the bits of the operand, which come from both sides of it. -/
theorem getLsbD_rcl {n : ℕ} (hn : 0 < n) (hle : n ≤ s.bits) {i : ℕ} (hi : i < s.bits) :
    ((op1 <<< n) ||| (temp_CF s f <<< (n - 1)) ||| (op1 >>> (s.bits + 1 - n))).getLsbD i =
      if n ≤ i then op1.getLsbD (i - n) else if i + 1 = n then f.getB_CF
        else op1.getLsbD (s.bits + 1 + i - n) := by
  rw [BitVec.getLsbD_or, BitVec.getLsbD_or, BitVec.getLsbD_shiftLeft, BitVec.getLsbD_shiftLeft,
    BitVec.getLsbD_ushiftRight, getLsbD_temp_CF, decide_eq_true hi]
  have hindex : s.bits + 1 - n + i = s.bits + 1 + i - n := by omega
  rw [hindex]
  split_ifs with h hcarry
  · rw [decide_eq_false (by omega : ¬ i < n), decide_eq_false (by omega : ¬ i - (n - 1) = 0),
      BitVec.getLsbD_of_ge _ (s.bits + 1 + i - n) (by omega)]
    simp
  · rw [decide_eq_true (by omega : i < n), decide_eq_false (by omega : ¬ i < n - 1),
      decide_eq_true (by omega : i - (n - 1) = 0),
      BitVec.getLsbD_of_ge _ (s.bits + 1 + i - n) (by omega)]
    simp
  · rw [decide_eq_true (by omega : i < n), decide_eq_true (by omega : i < n - 1)]
    simp

theorem computes_RCL (count : ℕ) :
    Computes s .rcl f op1 (carryCount s count) (RCL s f op1 count) := by
  have hpos := s.bits_pos
  have hle := carryCount_le s count
  unfold RCL
  generalize carryCount s count = m at *
  cases m with
  | zero => exact computes_zero
  | succ n =>
    obtain ⟨hword, hcarry⟩ := rcl_iterate op1 f.getB_CF hle
    rw [if_neg (Nat.succ_ne_zero n)] at hcarry
    -- the cases of the source are the same word
    have hcases : (if n + 1 = 1 then (op1 <<< 1) ||| temp_CF s f
        else if s = .word ∧ n + 1 = 16 then (temp_CF s f <<< 15) ||| (op1 >>> 1)
        else (op1 <<< (n + 1)) ||| (temp_CF s f <<< (n + 1 - 1)) |||
          (op1 >>> (s.bits + 1 - (n + 1)))) =
        (op1 <<< (n + 1)) ||| (temp_CF s f <<< (n + 1 - 1)) |||
          (op1 >>> (s.bits + 1 - (n + 1))) := by
      split_ifs with hone hword
      · obtain rfl : n = 0 := by omega
        rw [BitVec.ushiftRight_eq_zero (by omega), BitVec.or_zero, Nat.zero_add, Nat.sub_self,
          BitVec.shiftLeft_zero]
      · obtain ⟨rfl, hn⟩ := hword
        obtain rfl : n = 15 := by omega
        rw [BitVec.shiftLeft_eq_zero (x := op1) (le_refl 16), BitVec.zero_or]
        rfl
      · rfl
    have hresult : (op1 <<< (n + 1)) ||| (temp_CF s f <<< (n + 1 - 1)) |||
        (op1 >>> (s.bits + 1 - (n + 1))) = ((step .rcl)^[n + 1] (op1, f.getB_CF)).1 := by
      apply BitVec.eq_of_getLsbD_eq
      intro i hi
      rw [getLsbD_rcl s f op1 (Nat.succ_pos n) hle hi, hword i hi]
    have hout : ((step .rcl)^[n + 1] (op1, f.getB_CF)).2 =
        ((step .rcl)^[n] (op1, f.getB_CF)).1.msb := by
      rw [Function.iterate_succ_apply']
      rfl
    dsimp only
    rw [if_neg (Nat.succ_ne_zero n), hcases, hresult]
    refine computes_rotate (.inr (.inr (.inl rfl))) rfl hcarry.symm ?_
    rw [← hout, hcarry]

/-- The same, to the right. -/
theorem getLsbD_rcr {n : ℕ} (hle : n ≤ s.bits) {i : ℕ} (hi : i < s.bits) :
    ((op1 >>> n) ||| (temp_CF s f <<< (s.bits - n)) ||| (op1 <<< (s.bits + 1 - n))).getLsbD i =
      if i + n < s.bits then op1.getLsbD (i + n) else if i + n = s.bits then f.getB_CF
        else op1.getLsbD (i + n - (s.bits + 1)) := by
  rw [BitVec.getLsbD_or, BitVec.getLsbD_or, BitVec.getLsbD_shiftLeft, BitVec.getLsbD_shiftLeft,
    BitVec.getLsbD_ushiftRight, getLsbD_temp_CF, decide_eq_true hi, Nat.add_comm n i]
  have hindex : i - (s.bits + 1 - n) = i + n - (s.bits + 1) := by omega
  rw [hindex]
  split_ifs with h hcarry
  · rw [decide_eq_true (by omega : i < s.bits - n), decide_eq_true (by omega : i < s.bits + 1 - n)]
    simp
  · rw [decide_eq_false (by omega : ¬ i < s.bits - n),
      decide_eq_true (by omega : i < s.bits + 1 - n),
      decide_eq_true (by omega : i - (s.bits - n) = 0), BitVec.getLsbD_of_ge _ (i + n) (by omega)]
    simp
  · rw [decide_eq_false (by omega : ¬ i < s.bits + 1 - n),
      decide_eq_false (by omega : ¬ i - (s.bits - n) = 0),
      BitVec.getLsbD_of_ge _ (i + n) (by omega)]
    simp

theorem computes_RCR (count : ℕ) :
    Computes s .rcr f op1 (carryCount s count) (RCR s f op1 count) := by
  have hpos := s.bits_pos
  have hbits : 2 ≤ s.bits := by
    have := s.eight_le_bits
    omega
  have hle := carryCount_le s count
  unfold RCR
  generalize carryCount s count = m at *
  cases m with
  | zero => exact computes_zero
  | succ n =>
    obtain ⟨hword, hcarry⟩ := rcr_iterate op1 f.getB_CF hle
    rw [if_neg (Nat.succ_ne_zero n)] at hcarry
    have hcases : (if (s = .dword ∨ s = .qword) ∧ n + 1 = 1 then
          (op1 >>> 1) ||| (temp_CF s f <<< (s.bits - 1))
        else (op1 >>> (n + 1)) ||| (temp_CF s f <<< (s.bits - (n + 1))) |||
          (op1 <<< (s.bits + 1 - (n + 1)))) =
        (op1 >>> (n + 1)) ||| (temp_CF s f <<< (s.bits - (n + 1))) |||
          (op1 <<< (s.bits + 1 - (n + 1))) := by
      split_ifs with hone
      · obtain rfl : n = 0 := by omega
        rw [BitVec.shiftLeft_eq_zero (x := op1) (by omega), BitVec.or_zero]
      · rfl
    have hresult : (op1 >>> (n + 1)) ||| (temp_CF s f <<< (s.bits - (n + 1))) |||
        (op1 <<< (s.bits + 1 - (n + 1))) = ((step .rcr)^[n + 1] (op1, f.getB_CF)).1 := by
      apply BitVec.eq_of_getLsbD_eq
      intro i hi
      rw [getLsbD_rcr s f op1 hle hi, hword i hi]
    dsimp only
    rw [if_neg (Nat.succ_ne_zero n), hcases, hresult]
    refine computes_rotate (.inr (.inr (.inr rfl))) rfl hcarry.symm ?_
    rw [msb_shl_xor hbits, Function.iterate_succ_apply', sign_right hbits _ (.inr (.inl rfl))]

end Main

/-- How often the loop turns. -/
def tempCount (op : Op) (s : OpSize) (count : ℕ) : ℕ :=
  match op with
  | .rcl | .rcr => carryCount s count
  | _ => masked s count

theorem computes_handler (op : Op) (s : OpSize) (f : LazyFlags) (op1 : BitVec s.bits)
    (count : ℕ) : Computes s op f op1 (tempCount op s count) (shiftHandler s f op1 count op) := by
  cases op with
  | rol => exact computes_ROL s f op1 count
  | ror => exact computes_ROR s f op1 count
  | rcl => exact computes_RCL s f op1 count
  | rcr => exact computes_RCR s f op1 count
  | shl => exact computes_SHL s f op1 count
  | shr => exact computes_SHR s f op1 count
  | sar => exact computes_SAR s f op1 count

/-- **A shift by a count is that many shifts by one**: for every operation, size, operand and
count, and whatever lazy state the flags are in, the handler leaves the word and the flags of the
loop. -/
theorem shift_by_count (op : Op) (s : OpSize) (f : LazyFlags) (op1 : BitVec s.bits) (count : ℕ) :
    ((shiftHandler s f op1 count op).1, (shiftHandler s f op1 count op).2.status) =
      (shift1 op)^[tempCount op s count] (op1, f.status) :=
  computes_handler op s f op1 count

/-! ## Two words -/

section Double

variable {w : ℕ} (left : Bool) (x y : BitVec w) (F : StatusFlags)

theorem doubleShift1_iterate (n : ℕ) : (doubleShift1 left)^[n + 1] ((x, y), F) =
    (((doubleStep left)^[n + 1] ((x, y), F.CF)).1,
      .ofResult ((doubleStep left)^[n + 1] ((x, y), F.CF)).1.1
        ((doubleStep left)^[n + 1] ((x, y), F.CF)).2 false
        (((doubleStep left)^[n] ((x, y), F.CF)).1.1.msb ^^
          ((doubleStep left)^[n + 1] ((x, y), F.CF)).1.1.msb)) := by
  induction n with
  | zero => rfl
  | succ n ih =>
    rw [Function.iterate_succ_apply', ih, Function.iterate_succ_apply' (doubleStep left) (n + 1)]
    generalize (doubleStep left)^[n + 1] ((x, y), F.CF) = z
    rfl

end Double

section DoubleHandlers

variable {s : OpSize} {f : LazyFlags} {op1 op2 : BitVec s.bits} {left : Bool} {n : ℕ}
  {result : BitVec s.bits} {cf ofl : Bool}

/-- The handler leaves what the loop leaves in the first word. -/
def DoubleComputes (left : Bool) (f : LazyFlags) (op1 op2 : BitVec s.bits) (n : ℕ)
    (r : BitVec s.bits × LazyFlags) : Prop :=
  (r.1, r.2.status) =
    (((doubleShift1 left)^[n] ((op1, op2), f.status)).1.1,
      ((doubleShift1 left)^[n] ((op1, op2), f.status)).2)

/-- What a double shift has to show, for a count that is not zero. -/
theorem doubleComputes_succ
    (hresult : result = ((doubleStep left)^[n + 1] ((op1, op2), f.getB_CF)).1.1)
    (hcf : cf = ((doubleStep left)^[n + 1] ((op1, op2), f.getB_CF)).2)
    (hof : ofl = (((doubleStep left)^[n] ((op1, op2), f.getB_CF)).1.1.msb ^^ result.msb)) :
    DoubleComputes left f op1 op2 (n + 1)
      (result, (LazyFlags.SET_FLAGS_OSZAPC_LOGIC s result).set_flags_OxxxxC ofl cf) := by
  unfold DoubleComputes
  have hCF : f.status.CF = f.getB_CF := rfl
  rw [doubleShift1_iterate, LazyFlags.status_set_flags_OxxxxC, LazyFlags.status_LOGIC, hof, hcf,
    BitVec.setWidth_eq, hCF, ← hresult]
  rfl

theorem getLsbD_double (op1 op2 : BitVec OpSize.word.bits) {k : ℕ} (hk : k < 32) :
    (double .word op1 op2).getLsbD k = pairBit op2 op1 k := by
  unfold double pairBit
  rw [BitVec.getLsbD_or, BitVec.getLsbD_shiftLeft, BitVec.getLsbD_setWidth,
    BitVec.getLsbD_setWidth, decide_eq_true hk, decide_eq_true (by omega : k - 16 < 32)]
  split_ifs with h
  · rw [decide_eq_true (by exact h)]
    simp
  · rw [decide_eq_false (by exact h), BitVec.getLsbD_of_ge op2 k (by omega)]
    simp

/-- The first word after some turns to the left, and after some turns to the right. -/
theorem getLsbD_left (op1 op2 : BitVec s.bits) (c : Bool) (hn : n ≤ 2 * s.bits) {i : ℕ}
    (hi : i < s.bits) :
    ((doubleStep true)^[n] ((op1, op2), c)).1.1.getLsbD i =
      pairBit op2 op1 (if n ≤ i + s.bits then i + s.bits - n else i + 3 * s.bits - n) :=
  (doubleLeft_iterate op1 op2 c hn i hi).1

theorem getLsbD_right (op1 op2 : BitVec s.bits) (c : Bool) (hn : n ≤ 2 * s.bits) {i : ℕ}
    (hi : i < s.bits) :
    ((doubleStep false)^[n] ((op1, op2), c)).1.1.getLsbD i =
      pairBit op1 op2 (if i + n < 2 * s.bits then i + n else i + n - 2 * s.bits) :=
  (doubleRight_iterate op1 op2 c hn i hi).1

end DoubleHandlers

section DoubleMain

variable (s : OpSize) (f : LazyFlags) (op1 op2 : BitVec s.bits)

theorem masked_lt_double (hs : s ≠ .byte) (count : ℕ) :
    masked s count < 2 * s.bits ∧ (s ≠ .word → masked s count < s.bits) := by
  have hmask : count &&& 0x1f < 32 := Nat.lt_of_le_of_lt Nat.and_le_right (by norm_num)
  cases s with
  | byte => exact absurd rfl hs
  | word => exact ⟨hmask, fun h => absurd rfl h⟩
  | dword => exact ⟨hmask.trans (by norm_num), fun _ => hmask⟩
  | qword =>
    have hlt := masked_lt .qword count
    exact ⟨hlt.trans (by norm_num), fun _ => hlt⟩

/-- A word takes counts past its size: the other operand is shifted in, then the first again. -/
theorem word_left (op1 op2 : BitVec OpSize.word.bits) {n : ℕ} (hn : n < 32) (c : Bool) :
    ((if 16 < n then (double .word op1 op2 <<< n) ||| (op1.setWidth 32 <<< (n - 16))
        else double .word op1 op2 <<< n) >>> 16).setWidth OpSize.word.bits =
      ((doubleStep true)^[n] ((op1, op2), c)).1.1 := by
  apply BitVec.eq_of_getLsbD_eq
  intro i hi
  have hi16 : i < 16 := hi
  have hloop : ((doubleStep true)^[n] ((op1, op2), c)).1.1.getLsbD i =
      pairBit op2 op1 (if n ≤ 16 + i then 16 + i - n else 16 + i + 32 - n) := by
    have hleft := getLsbD_left op1 op2 (n := n) c (by exact hn.le) hi
    have hadd : 16 + i + 32 = i + 3 * 16 := by omega
    rw [hadd, Nat.add_comm 16 i]
    exact hleft
  have hhigh : (double .word op1 op2 <<< n).getLsbD (16 + i) =
      (decide (n ≤ 16 + i) && pairBit op2 op1 (16 + i - n)) := by
    have hdec : decide (n ≤ 16 + i) = !decide (16 + i < n) := by
      rw [← decide_not]
      exact decide_eq_decide.2 not_lt.symm
    rw [BitVec.getLsbD_shiftLeft, decide_eq_true (by omega), hdec, getLsbD_double _ _ (by omega),
      Bool.true_and]
  rw [hloop, BitVec.getLsbD_setWidth, BitVec.getLsbD_ushiftRight, decide_eq_true hi, Bool.true_and]
  split_ifs with hbeyond hle hle
  · -- its own bits are behind the second word
    rw [BitVec.getLsbD_or, hhigh, BitVec.getLsbD_shiftLeft, BitVec.getLsbD_setWidth,
      BitVec.getLsbD_of_ge op1 _ (by show 16 ≤ _; omega), decide_eq_true hle]
    simp
  · have hindex : 16 + i - (n - 16) = 16 + i + 32 - n - 16 := by omega
    have hown : pairBit op2 op1 (16 + i + 32 - n) = op1.getLsbD (16 + i + 32 - n - 16) :=
      if_neg (by show ¬ _ < 16; omega)
    rw [hown, BitVec.getLsbD_or, hhigh, BitVec.getLsbD_shiftLeft, BitVec.getLsbD_setWidth, hindex,
      decide_eq_false hle, decide_eq_true (by omega : 16 + i < 32),
      decide_eq_false (by omega : ¬ 16 + i < n - 16),
      decide_eq_true (by omega : 16 + i + 32 - n - 16 < 32)]
    rfl
  · rw [hhigh, decide_eq_true hle, Bool.true_and]
  · omega

/-- The longer operands take counts below their size only. -/
theorem wide_left {n : ℕ} (hn : n < s.bits) (c : Bool) :
    (op1 <<< n) ||| (op2 >>> (s.bits - n)) = ((doubleStep true)^[n] ((op1, op2), c)).1.1 := by
  apply BitVec.eq_of_getLsbD_eq
  intro i hi
  rw [getLsbD_left op1 op2 c (by omega) hi, if_pos (by omega), BitVec.getLsbD_or,
    BitVec.getLsbD_shiftLeft, BitVec.getLsbD_ushiftRight, decide_eq_true hi, pairBit]
  by_cases h : i < n
  · have hindex : s.bits - n + i = i + s.bits - n := by omega
    rw [decide_eq_true h, if_pos (by omega), hindex]
    simp
  · have hindex : i + s.bits - n - s.bits = i - n := by omega
    rw [decide_eq_false h, if_neg (by omega), hindex, BitVec.getLsbD_of_ge op2 _ (by omega)]
    simp

theorem computes_SHLD (hs : s ≠ .byte) (count : ℕ) :
    DoubleComputes true f op1 op2 (masked s count) (SHLD s f op1 count op2) := by
  have hpos := s.bits_pos
  obtain ⟨hlt, hwide⟩ := masked_lt_double s hs count
  unfold SHLD
  generalize masked s count = m at *
  cases m with
  | zero => rfl
  | succ n =>
    have hout : ((doubleStep true)^[n + 1] ((op1, op2), f.getB_CF)).2 =
        ((doubleStep true)^[n] ((op1, op2), f.getB_CF)).1.1.msb := by
      rw [Function.iterate_succ_apply']
      rfl
    have hmsb : ((doubleStep true)^[n] ((op1, op2), f.getB_CF)).1.1.msb =
        pairBit op2 op1 (2 * s.bits - (n + 1)) := by
      have hindex : s.bits - 1 + s.bits - n = 2 * s.bits - (n + 1) := by omega
      rw [BitVec.msb_eq_getLsbD_last, getLsbD_left _ _ _ (by omega) (by omega), if_pos (by omega),
        hindex]
    dsimp only
    rw [if_neg (Nat.succ_ne_zero n)]
    by_cases hword : s = .word
    · subst hword
      have hcf := getLsbD_double op1 op2 (k := 32 - (n + 1)) (by omega)
      rw [if_pos rfl, if_pos rfl, word_left op1 op2 hlt f.getB_CF, hcf]
      refine doubleComputes_succ rfl ?_ ?_
      · exact (hout.trans hmsb).symm
      · rw [hmsb]
        rfl
    · have hn := hwide hword
      have hcf : op1.getLsbD (s.bits - (n + 1)) = pairBit op2 op1 (2 * s.bits - (n + 1)) := by
        have hindex : 2 * s.bits - (n + 1) - s.bits = s.bits - (n + 1) := by omega
        rw [pairBit, if_neg (by omega), hindex]
      rw [if_neg hword, if_neg hword, wide_left s op1 op2 hn f.getB_CF, hcf]
      refine doubleComputes_succ rfl ?_ ?_
      · exact (hout.trans hmsb).symm
      · rw [hmsb]

theorem word_right (op1 op2 : BitVec OpSize.word.bits) {n : ℕ} (hn : n < 32) (c : Bool) :
    (if 16 < n then (double .word op2 op1 >>> n) ||| (op1.setWidth 32 <<< (32 - n))
        else double .word op2 op1 >>> n).setWidth OpSize.word.bits =
      ((doubleStep false)^[n] ((op1, op2), c)).1.1 := by
  apply BitVec.eq_of_getLsbD_eq
  intro i hi
  have hi16 : i < 16 := hi
  have hloop : ((doubleStep false)^[n] ((op1, op2), c)).1.1.getLsbD i =
      pairBit op1 op2 (if i + n < 32 then i + n else i + n - 32) :=
    getLsbD_right op1 op2 (n := n) c (by exact hn.le) hi
  have hlow : (double .word op2 op1 >>> n).getLsbD i =
      (decide (i + n < 32) && pairBit op1 op2 (i + n)) := by
    rw [BitVec.getLsbD_ushiftRight, Nat.add_comm n i]
    by_cases h : i + n < 32
    · rw [getLsbD_double _ _ h, decide_eq_true h, Bool.true_and]
    · rw [BitVec.getLsbD_of_ge _ _ (by omega), decide_eq_false h, Bool.false_and]
  rw [hloop, BitVec.getLsbD_setWidth, decide_eq_true hi, Bool.true_and]
  split_ifs with hbeyond hle hle
  · rw [BitVec.getLsbD_or, hlow, BitVec.getLsbD_shiftLeft, decide_eq_true hle,
      decide_eq_true (by omega : i < 32 - n)]
    simp
  · have hindex : i - (32 - n) = i + n - 32 := by omega
    have hown : pairBit op1 op2 (i + n - 32) = op1.getLsbD (i + n - 32) :=
      if_pos (by show _ < 16; omega)
    rw [hown, BitVec.getLsbD_or, hlow, BitVec.getLsbD_shiftLeft, BitVec.getLsbD_setWidth, hindex,
      decide_eq_false hle, decide_eq_true (by omega : i < 32),
      decide_eq_false (by omega : ¬ i < 32 - n), decide_eq_true (by omega : i + n - 32 < 32)]
    rfl
  · rw [hlow, decide_eq_true hle, Bool.true_and]
  · omega

theorem wide_right {n : ℕ} (hn : n < s.bits) (c : Bool) :
    (op2 <<< (s.bits - n)) ||| (op1 >>> n) = ((doubleStep false)^[n] ((op1, op2), c)).1.1 := by
  apply BitVec.eq_of_getLsbD_eq
  intro i hi
  rw [getLsbD_right op1 op2 c (by omega) hi, if_pos (by omega), BitVec.getLsbD_or,
    BitVec.getLsbD_shiftLeft, BitVec.getLsbD_ushiftRight, decide_eq_true hi, pairBit,
    Nat.add_comm n i]
  by_cases h : i + n < s.bits
  · rw [decide_eq_true (by omega : i < s.bits - n), if_pos h]
    simp
  · have hindex : i - (s.bits - n) = i + n - s.bits := by omega
    rw [decide_eq_false (by omega : ¬ i < s.bits - n), if_neg h, hindex,
      BitVec.getLsbD_of_ge op1 _ (by omega)]
    simp

theorem computes_SHRD (hs : s ≠ .byte) (count : ℕ) :
    DoubleComputes false f op1 op2 (masked s count) (SHRD s f op1 count op2) := by
  have hpos := s.bits_pos
  have hbits : 2 ≤ s.bits := by
    have := s.eight_le_bits
    omega
  obtain ⟨hlt, hwide⟩ := masked_lt_double s hs count
  unfold SHRD
  generalize masked s count = m at *
  cases m with
  | zero => rfl
  | succ n =>
    have hout : ((doubleStep false)^[n + 1] ((op1, op2), f.getB_CF)).2 = pairBit op1 op2 n := by
      have hbit := getLsbD_right op1 op2 f.getB_CF (by omega : n ≤ 2 * s.bits) hpos
      rw [Nat.zero_add, if_pos (by omega)] at hbit
      rw [Function.iterate_succ_apply', ← hbit]
      rfl
    have hmsb : ((doubleStep false)^[n + 1] ((op1, op2), f.getB_CF)).1.1.getLsbD (s.bits - 2) =
        ((doubleStep false)^[n] ((op1, op2), f.getB_CF)).1.1.msb := by
      have hlast : s.bits - 2 + 1 = s.bits - 1 := by omega
      rw [Function.iterate_succ_apply', BitVec.msb_eq_getLsbD_last]
      exact (getLsbD_shiftIn _ _ (by omega)).trans ((if_neg (by omega)).trans (by rw [hlast]))
    have hcf : (if s = .word ∧ 16 < n + 1 then op2.getLsbD (n + 1 - 17)
        else op1.getLsbD (n + 1 - 1)) = pairBit op1 op2 n := by
      rw [Nat.add_sub_cancel]
      by_cases hword : s = .word
      · subst hword
        have hindex : n + 1 - 17 = n - 16 := by omega
        rw [hindex]
        by_cases hbeyond : 16 < n + 1
        · exact (if_pos ⟨rfl, hbeyond⟩).trans (if_neg (by show ¬ n < 16; omega)).symm
        · exact (if_neg fun h => hbeyond h.2).trans (if_pos (by show n < 16; omega)).symm
      · have hn := hwide hword
        exact (if_neg fun h => hword h.1).trans (if_pos (by omega)).symm
    dsimp only
    rw [if_neg (Nat.succ_ne_zero n), hcf]
    by_cases hword : s = .word
    · subst hword
      rw [if_pos rfl, word_right op1 op2 hlt f.getB_CF]
      refine doubleComputes_succ rfl hout.symm ?_
      rw [msb_shl_xor hbits, hmsb]
    · rw [if_neg hword, wide_right s op1 op2 (hwide hword) f.getB_CF]
      refine doubleComputes_succ rfl hout.symm ?_
      rw [msb_shl_xor hbits, hmsb]

end DoubleMain

/-- **A shift of two words by a count is that many shifts by one**, a word beyond its width
included: then the bits of the first word follow those of the second. -/
theorem double_shift_by_count (left : Bool) (s : OpSize) (hs : s ≠ .byte) (f : LazyFlags)
    (op1 op2 : BitVec s.bits) (count : ℕ) :
    let r := if left then SHLD s f op1 count op2 else SHRD s f op1 count op2
    let z := (doubleShift1 left)^[masked s count] ((op1, op2), f.status)
    (r.1, r.2.status) = (z.1.1, z.2) := by
  cases left with
  | true => exact computes_SHLD s f op1 op2 hs count
  | false => exact computes_SHRD s f op1 op2 hs count

theorem double_shift_by_count_word :
    let f := LazyFlags.SET_FLAGS_OSZAPC_LOGIC .word (0 : BitVec 16)
    let r := SHLD .word f 0x1234#16 20 0xabcd#16
    let z := (doubleShift1 true)^[masked .word 20] ((0x1234#16, 0xabcd#16), f.status)
    (r.1, r.2.status) = (z.1.1, z.2) :=
  double_shift_by_count true .word (by decide) (LazyFlags.SET_FLAGS_OSZAPC_LOGIC .word 0#16)
    0x1234#16 0xabcd#16 20

end Bochs
