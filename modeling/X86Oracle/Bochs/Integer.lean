import Mathlib
import X86Oracle.Lib.Component
import X86Oracle.Bochs.FlagUnit
import X86Oracle.Bochs.FlagControl

/-!
# Bochs: programs that set and read flags

`cpu/arith*.cc`, `logical*.cc`, `shift*.cc`, `mult*.cc`, `bit*.cc`, `bmi*.cc`, `flag_ctrl*.cc`,
`data_xfer*.cc` and `ctrl_xfer64.cc`, by what their handlers do with the flags.  The rest of the
machine is an environment: registers, memory, what is fetched next.

* `Instr.handler`: the handlers, on operands that are read from the environment and results that
  are written to it.  Whatever does not touch the flags is one `data` action.
* `Program`: how instructions are fetched, and the handler that delivers a fault.
* `lazy_flags_run`: a program runs as it does with the six flags of the manuals.
* `restored_flags_run`: it cannot be seen that the flags have been read and loaded back.
-/

namespace Bochs

open Component

open Handler

variable {ε σ : Type}

/-! ## Handlers -/

inductive BitTest
  | BT | BTS | BTR | BTC
deriving DecidableEq, Repr

/-- The word a bit test writes back. -/
def BitTest.result {w : ℕ} (op1 : BitVec w) (n : ℕ) : BitTest → Option (BitVec w)
  | BT => none
  | BTS => some (op1 ||| BitVec.twoPow w n)
  | BTR => some (op1 &&& ~~~BitVec.twoPow w n)
  | BTC => some (op1 ^^^ BitVec.twoPow w n)

/-- A shift in memory writes only if it shifts; a register is written in any case, which clears
the high half behind a double word. -/
def shiftWrites (op : Shifts.Op) (s : OpSize) (count : ℕ) : Bool :=
  match op with
  | .rol | .ror => count &&& (s.bits - 1) != 0
  | .rcl | .rcr => carryCount s count != 0
  | .shl | .shr | .sar => masked s count != 0

/-- The instructions, by their handlers.  `op1`, `op2`, … read operands, `dst`, … write results. -/
inductive Instr (ε σ : Type)
  | binary (op : Binary) (s : OpSize) (op1 op2 : EStateM ε σ (BitVec s.bits))
      (dst : BitVec s.bits → σ → σ)
  | compare (op : Comparison) (s : OpSize) (op1 op2 : EStateM ε σ (BitVec s.bits))
  | unary (op : Unary) (s : OpSize) (op1 : EStateM ε σ (BitVec s.bits))
      (dst : BitVec s.bits → σ → σ)
  | scan (op : Scan) (s : OpSize) (op1 : EStateM ε σ (BitVec s.bits))
      (dst : BitVec s.bits → σ → σ)
  | field (op : Field) (s : OpSize) (op1 : EStateM ε σ (BitVec s.bits)) (control : EStateM ε σ ℕ)
      (dst : BitVec s.bits → σ → σ)
  | shift (op : Shifts.Op) (s : OpSize) (memory : Bool) (op1 : EStateM ε σ (BitVec s.bits))
      (count : EStateM ε σ ℕ) (dst : BitVec s.bits → σ → σ)
  | doubleShift (left : Bool) (s : OpSize) (hs : s ≠ .byte) (memory : Bool)
      (op1 op2 : EStateM ε σ (BitVec s.bits)) (count : EStateM ε σ ℕ)
      (dst : BitVec s.bits → σ → σ)
  /-- `MUL` and `IMUL` with one operand. -/
  | multiply (signed : Bool) (s : OpSize) (op1 op2 : EStateM ε σ (BitVec s.bits))
      (low high : BitVec s.bits → σ → σ)
  /-- `IMUL` with two or three operands. -/
  | multiplyLow (s : OpSize) (op1 op2 : EStateM ε σ (BitVec s.bits)) (dst : BitVec s.bits → σ → σ)
  /-- `XADD`.  Of two registers, which may be the same, the sum is written last. -/
  | xadd (s : OpSize) (memory : Bool) (op1 op2 : EStateM ε σ (BitVec s.bits))
      (dst src : BitVec s.bits → σ → σ)
  | cmpxchg (s : OpSize) (memory : Bool) (op1 op2 accumulator : EStateM ε σ (BitVec s.bits))
      (dst acc : BitVec s.bits → σ → σ)
  | bitTest (op : BitTest) (s : OpSize) (op1 : EStateM ε σ (BitVec s.bits))
      (index : EStateM ε σ ℕ) (dst : BitVec s.bits → σ → σ)
  /-- `CLC`, `STC`, and whatever sets flags to what it finds in the environment. -/
  | set (flags : EStateM ε σ (List (Flag × Bool)))
  | CMC
  | SAHF (AH : EStateM ε σ (BitVec 8))
  | LAHF (AH : BitVec 8 → σ → σ)
  | CLD
  | STD
  | CLI
  | STI
  | CLAC
  | STAC
  | PUSHF_Fw (push_16 : BitVec 16 → EStateM ε σ PUnit)
  | PUSHF_Fd (push_32 : BitVec 32 → EStateM ε σ PUnit)
  | PUSHF_Fq (push_64 : BitVec 64 → EStateM ε σ PUnit)
  | POPF_Fw (pop_16 : EStateM ε σ (BitVec 16))
  | POPF_Fd (pop_32 : EStateM ε σ (BitVec 32))
  | POPF_Fq (pop_64 : EStateM ε σ (BitVec 64))
  /-- `IRET`, `SYSRET` and the like: by the flags as they are, what to load and the bits to
  change. -/
  | load (image : BitVec 32 → EStateM ε σ (BitVec 32 × BitVec 32))
  /-- `Jcc`, `SETcc`, `CMOVcc` and `LOOPcc`: what is done if the condition holds, or not. -/
  | condition (c : Condition) (yes no : EStateM ε σ PUnit)
  | data (m : EStateM ε σ PUnit)

def Instr.handler (C : Surroundings ε σ) : Instr ε σ → Handler ε σ PUnit
  | .binary op s op1 op2 dst => do
    let op1 ← op1
    let op2 ← op2
    let result ← alu (.binary op s op1 op2)
    act (dst result)
  | .compare op s op1 op2 => do
    let op1 ← op1
    let op2 ← op2
    alu (.compare op s op1 op2)
  | .unary op s op1 dst => do
    let op1 ← op1
    let result ← alu (.unary op s op1)
    act (dst result)
  | .scan op s op1 dst => do
    let op1 ← op1
    match ← alu (.scan op s op1) with
    | some result => act (dst result)
    | none => pure ⟨⟩
  | .field op s op1 control dst => do
    let op1 ← op1
    let control ← control
    let result ← alu (.field op s op1 control)
    act (dst result)
  | .shift op s memory op1 count dst => do
    let op1 ← op1
    let count ← count
    let result ← alu (.shift op s op1 count)
    if !memory || shiftWrites op s count then act (dst result) else pure ⟨⟩
  | .doubleShift left s hs memory op1 op2 count dst => do
    let op1 ← op1
    let op2 ← op2
    let count ← count
    let result ← alu (.doubleShift left s hs op1 op2 count)
    if !memory || masked s count != 0 then act (dst result) else pure ⟨⟩
  | .multiply signed s op1 op2 low high => do
    let op1 ← op1
    let op2 ← op2
    let product ← alu (.multiply signed s op1 op2)
    act (low product.1)
    act (high product.2)
  | .multiplyLow s op1 op2 dst => do
    let op1 ← op1
    let op2 ← op2
    let product ← alu (.multiply true s op1 op2)
    act (dst product.1)
  | .xadd s memory op1 op2 dst src => do
    let op1 ← op1
    let op2 ← op2
    let sum ← alu (.binary .ADD s op1 op2)
    if memory then
      act (dst sum)
      act (src op1)
    else
      act (src op1)
      act (dst sum)
  | .cmpxchg s memory op1 op2 accumulator dst acc => do
    let op1 ← op1
    let accumulator ← accumulator
    if ← alu (.cmpxchg s op1 accumulator) then
      let op2 ← op2
      act (dst op2)
    else
      if memory then act (dst op1) else pure ⟨⟩
      act (acc op1)
  | .bitTest op s op1 index dst => do
    let op1 ← op1
    let index ← index
    let n := index &&& (s.bits - 1)
    alu (.set .CF (op1.getLsbD n))
    match op.result op1 n with
    | some result => act (dst result)
    | none => pure ⟨⟩
  | .set flags => do
    let flags ← flags
    flags.forM fun flag => alu (.set flag.1 flag.2)
  | .CMC => Bochs.CMC
  | .SAHF AH => Bochs.SAHF AH
  | .LAHF AH => Bochs.LAHF AH
  | .CLD => Bochs.CLD
  | .STD => Bochs.STD
  | .CLI => Bochs.CLI C
  | .STI => Bochs.STI C
  | .CLAC => Bochs.CLAC C
  | .STAC => Bochs.STAC C
  | .PUSHF_Fw push_16 => Bochs.PUSHF_Fw C push_16
  | .PUSHF_Fd push_32 => Bochs.PUSHF_Fd C push_32
  | .PUSHF_Fq push_64 => Bochs.PUSHF_Fq push_64
  | .POPF_Fw pop_16 => Bochs.POPF_Fw C pop_16
  | .POPF_Fd pop_32 => Bochs.POPF_Fd C pop_32
  | .POPF_Fq pop_64 => Bochs.POPF_Fq C pop_64
  | .load image => do
    let eflags ← word .force_flags
    let (flags, changeMask) ← image eflags
    writeEFlags C flags changeMask
  | .condition c yes no => do
    if ← alu (.test c) then yes else no
  | .data m => do m

/-! ## Programs -/

/-- How instructions are fetched and decoded, and the handler that delivers a fault. -/
structure Program (ε σ : Type) where
  surroundings : Surroundings ε σ
  fetch : EStateM ε σ (Instr ε σ)
  exception : ε → Handler ε σ PUnit

def Program.machine (M : Program ε σ) : Machine FlagOp ε σ (Instr ε σ) where
  fetch := M.fetch
  execute := Instr.handler M.surroundings
  deliver := M.exception

/-- **The flags are evaluated lazily, and it cannot be seen.**  Whatever a program computes,
branches on, stores of its flags or faults on, it does in any number of turns what it does on a
machine that works its six flags out at once: the environments are the same, so are the pending
faults, and the lazy state stands for the flags. -/
theorem lazy_flags_run (M : Program ε σ) (n : ℕ) (s : State ε σ Flags) :
    (M.machine.turn eagerly)^[n] (s.map Flags.eager) =
      ((M.machine.turn lazily)^[n] s).map Flags.eager :=
  lazily_refines.run_turns M.machine n s

/-! ## Loading the flags back -/

theorem ofWord_read_eflags (f : Flags) : StatusFlags.ofWord f.read_eflags = f.oszapc.status := by
  simp [StatusFlags.ofWord, LazyFlags.status, Flags.read_eflags, LazyFlags.newflags,
    EFlagsOSZAPCMask]

theorem VM_read_eflags (f : Flags) : f.read_eflags.getLsbD 17 = f.eflags.getLsbD 17 := by
  simp [Flags.read_eflags, LazyFlags.newflags, EFlagsOSZAPCMask]

theorem and_not_VM {v : BitVec 32} (hvm : v.getLsbD 17 = false) : v &&& ~~~EFlagsVMMask = v := by
  have hmask : EFlagsVMMask = BitVec.twoPow 32 17 := rfl
  apply BitVec.eq_of_getLsbD_eq
  intro i hi
  rw [BitVec.getLsbD_and, BitVec.getLsbD_not, hmask, BitVec.getLsbD_twoPow, decide_eq_true hi]
  by_cases h : 17 = i
  · subst h
    rw [hvm, Bool.false_and]
  · simp [h]

/-- A flags word that is loaded back stands for the same flags. -/
theorem eager_setEFlags_read (f : Flags) (longMode : Bool)
    (hvm : longMode = true → f.eflags.getLsbD 17 = false) :
    (f.setEFlags longMode f.read_eflags).eager = f.eager := by
  have hword : (if longMode then f.read_eflags &&& ~~~EFlagsVMMask else f.read_eflags) =
      f.read_eflags := by
    split_ifs with h
    · exact and_not_VM ((VM_read_eflags f).trans (hvm h))
    · rfl
  unfold Flags.setEFlags Flags.eager
  dsimp only
  rw [hword, WordOp.status_setEFlagsOSZAPC, ofWord_read_eflags, WordOp.read_eflags_others]

/-- **Flags that have been read and loaded back make no difference** to any later run. -/
theorem restored_flags_run (M : Program ε σ) (n : ℕ) (s : State ε σ Flags) (longMode : Bool)
    (hvm : longMode = true → s.component.eflags.getLsbD 17 = false) :
    ((M.machine.turn lazily)^[n]
      { s with component := s.component.setEFlags longMode s.component.read_eflags }).map
        Flags.eager =
      ((M.machine.turn lazily)^[n] s).map Flags.eager := by
  apply lazily_refines.run_congr
  unfold State.map
  dsimp only
  rw [eager_setEFlags_read s.component longMode hvm]

/-- `DEC RCX`, `JNZ` back, on the instruction pointer and RCX; a fault beyond. -/
def countdown : Program PUnit (ℕ × BitVec 64) where
  surroundings := {
    cpu_mode _ := .long64, long_mode _ := true, CPL _ := 0, VME _ := false, PVI _ := false
    isa486 := true, isaVME := true, GP := ⟨⟩, UD := ⟨⟩
    panic := id, RSP_COMMIT := id, inhibit_interrupts := id, invalidate_prefetch_q := id
    raiseAsync := id, handleInterruptMaskChange _ := id, handleAlignmentCheck _ := id
    handleCpuModeChange _ := id }
  fetch := do
    let (rip, _) ← get
    modify fun c => (rip + 1, c.2)
    match rip with
    | 0 => pure (.unary (.DEC true) .qword (do return (← get).2) fun v c => (c.1, v))
    | 1 => pure (.condition .NZ (modify fun c => (0, c.2)) (pure ⟨⟩))
    | _ => throw ⟨⟩
  exception _ := pure ⟨⟩

example : ((countdown.machine.turn lazily)^[4] ⟨(0, 2), ⟨2, ⟨0, 0⟩⟩, none⟩).env = (2, 0) := rfl

theorem restored_flags_run_countdown :
    let f : Flags := ⟨2, ⟨0, 0⟩⟩
    let s : State PUnit (ℕ × BitVec 64) Flags := ⟨(0, 2), f, none⟩
    ((countdown.machine.turn lazily)^[4]
      { s with component := f.setEFlags true f.read_eflags }).map Flags.eager =
      ((countdown.machine.turn lazily)^[4] s).map Flags.eager :=
  restored_flags_run countdown 4 ⟨(0, 2), ⟨2, ⟨0, 0⟩⟩, none⟩ true fun _ => rfl

end Bochs
