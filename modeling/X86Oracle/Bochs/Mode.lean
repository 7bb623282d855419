import Mathlib
import X86Oracle.Lib.Run
import X86Oracle.Bochs.AddressSpace

/-!
# Bochs: CPU mode state derived from the control registers

The emulator caches what CR0, CR4, EFER, XCR0, CS and the flags imply for instruction fetch: the
CPU mode, the units that may be used, the fetch mode mask and the alignment check mask.

* The `handle…` functions recompute parts of the cache (`cpu/proc_ctrl.cc`).
* The guest changes the registers through `SetCR0`, `SetCR4`, `SetEFER`, `CLTS`, `XSETBV`,
  `load_cs`, `setup_flat_CS`, `load_seg_reg_CS`, `writeEFlags`, `set_AC`, `clear_VM`,
  `stack_return_to_v86` and `task_switch`, each with its own recomputation; `contextChange` is
  what VM entry, VM exit, SMI delivery, RSM and INIT have in common, and `vmexitAborted` a VM exit
  that does not get that far.
* The shim writes the registers itself (`csrc/bochs_shim.cpp`): `set_cr`, `set_msr`,
  `set_rflags`, `enable_shadow_stack`.
* `derive` is the cache as a function of the registers; `recompute_derived` connects it to
  `handleCpuContextChange` and `updateFetchModeMask`.
* `consistent_iff_eachStep`: over every run the cache is what the registers say, exactly when
  every register write meets `Good`.
-/

namespace Bochs

namespace Mode

/-! ## State -/

inductive CpuMode
  | real
  | v8086
  | protectedMode
  | longCompat
  | long64
deriving DecidableEq, Repr

/-- The registers the cache depends on, and the other control registers the shim writes. -/
structure Regs where
  cr0 : BitVec 32
  cr2 : UInt64
  cr3 : UInt64
  cr4 : BitVec 64
  efer : BitVec 32
  xcr0 : BitVec 32
  eflags : BitVec 32
  /-- The `l` and `d_b` bits of the cached CS descriptor, and the RPL of its selector. -/
  csL : Bool
  csDb : Bool
  cpl : ℕ
deriving DecidableEq, Repr

namespace Regs

variable (r : Regs)

def get_PE : Bool := r.cr0.getLsbD 0
def get_EM : Bool := r.cr0.getLsbD 2
def get_TS : Bool := r.cr0.getLsbD 3
def get_WP : Bool := r.cr0.getLsbD 16
def get_AM : Bool := r.cr0.getLsbD 18
def get_PG : Bool := r.cr0.getLsbD 31
def get_PAE : Bool := r.cr4.getLsbD 5
def get_OSFXSR : Bool := r.cr4.getLsbD 9
def get_LA57 : Bool := r.cr4.getLsbD 12
def get_PCIDE : Bool := r.cr4.getLsbD 17
def get_OSXSAVE : Bool := r.cr4.getLsbD 18
def get_CET : Bool := r.cr4.getLsbD 23
def get_LME : Bool := r.efer.getLsbD 8
def get_LMA : Bool := r.efer.getLsbD 10
def get_VM : Bool := r.eflags.getLsbD 17
def get_AC : Bool := r.eflags.getLsbD 18

/-- XCR0 enables the SSE and YMM state. -/
def ymmState : Bool := r.xcr0.getLsbD 1 && r.xcr0.getLsbD 2

/-- XCR0 enables the opmask and both ZMM states. -/
def zmmState : Bool := r.xcr0.getLsbD 5 && r.xcr0.getLsbD 6 && r.xcr0.getLsbD 7

/-- XCR0 enables the tile configuration and the tile data. -/
def tileState : Bool := r.xcr0.getLsbD 17 && r.xcr0.getLsbD 18

end Regs

/-- `cpu_state_use_ok`, one bit for each unit. -/
structure UseOk where
  fpu_mmx : Bool
  sse : Bool
  avx : Bool
  evex : Bool
  amx : Bool
deriving DecidableEq, Repr

/-- `fetchModeMask`. -/
structure FetchModeMask where
  is32 : Bool
  is64 : Bool
  protectedMode : Bool
  use : UseOk
deriving DecidableEq, Repr

/-- The cached state. -/
structure Derived where
  cpu_mode : CpuMode
  cpu_state_use_ok : UseOk
  fetchModeMask : FetchModeMask
  alignment_check_mask : ℕ
deriving DecidableEq, Repr

structure Cpu where
  regs : Regs
  derived : Derived
  user_pl : Bool
deriving DecidableEq, Repr

/-! ## Recomputation -/

def CpuMode.isProtected : CpuMode → Bool
  | .real | .v8086 => false
  | _ => true

def CpuMode.isLong64 : CpuMode → Bool
  | .long64 => true
  | _ => false

/-- The units and the mode, as the fetch mode mask holds them. -/
def fetchMask (use : UseOk) (mode : CpuMode) (csDb : Bool) : FetchModeMask :=
  { is32 := csDb, is64 := mode.isLong64, protectedMode := mode.isProtected, use }

def updateFetchModeMask (s : Cpu) : Cpu :=
  { s with
    derived.fetchModeMask := fetchMask s.derived.cpu_state_use_ok s.derived.cpu_mode s.regs.csDb
    user_pl := s.regs.cpl == 3 }

def handleAlignmentCheck (s : Cpu) : Cpu :=
  { s with
    derived.alignment_check_mask :=
      if s.regs.cpl = 3 ∧ s.regs.get_AM = true ∧ s.regs.get_AC = true then 0xF else 0 }

def handleFpuMmxModeChange (s : Cpu) : Cpu :=
  let ok := !(s.regs.get_EM || s.regs.get_TS)
  updateFetchModeMask { s with derived.cpu_state_use_ok.fpu_mmx := ok }

def handleSseModeChange (s : Cpu) : Cpu :=
  let ok := if s.regs.get_TS then false
    else if s.regs.get_EM || !s.regs.get_OSFXSR then false else true
  updateFetchModeMask { s with derived.cpu_state_use_ok.sse := ok }

/-- `clear_avx_ok` clears the EVEX bit too. -/
def clear_avx_ok (u : UseOk) : UseOk := { u with avx := false, evex := false }

def handleAvxModeChange (s : Cpu) : Cpu :=
  let u := s.derived.cpu_state_use_ok
  let u :=
    if s.regs.get_TS then clear_avx_ok u
    else if !s.derived.cpu_mode.isProtected || !s.regs.get_OSXSAVE || !s.regs.ymmState then
      clear_avx_ok u
    else { u with avx := true, evex := s.regs.zmmState }
  let u := { u with
    amx := !(!s.derived.cpu_mode.isLong64 || !s.regs.get_OSXSAVE || !s.regs.tileState) }
  updateFetchModeMask { s with derived.cpu_state_use_ok := u }

/-- Outside long mode a change to V8086 or real mode also changes CPL. -/
def handleCpuModeChange (s : Cpu) : Cpu :=
  let s :=
    if s.regs.get_LMA then
      { s with derived.cpu_mode := if s.regs.csL then .long64 else .longCompat }
    else if s.regs.get_PE then
      if s.regs.get_VM then { s with derived.cpu_mode := .v8086, regs.cpl := 3 }
      else { s with derived.cpu_mode := .protectedMode }
    else { s with derived.cpu_mode := .real, regs.cpl := 0 }
  handleAvxModeChange (updateFetchModeMask s)

def handleCpuContextChange (s : Cpu) : Cpu :=
  let s := handleAlignmentCheck s
  let s := handleCpuModeChange s
  let s := handleFpuMmxModeChange s
  let s := handleSseModeChange s
  handleAvxModeChange s

/-! ## Guest register writes -/

/-- `setEFlags`; the arithmetic flags are kept elsewhere. -/
def setEFlags (new_eflags : BitVec 32) (s : Cpu) : Cpu :=
  let eflags := s.regs.eflags
  let new_eflags := if s.regs.get_LMA then new_eflags &&& ~~~0x20000 else new_eflags
  let s := handleAlignmentCheck { s with regs.eflags := new_eflags }
  if (eflags ^^^ new_eflags).getLsbD 17 then handleCpuModeChange s else s

/-- The flags `writeEFlags` can change. -/
def supportMask : BitVec 32 := 0x003f7fd5

def writeEFlags (flags changeMask : BitVec 32) (s : Cpu) : Cpu :=
  let changeMask := changeMask &&& supportMask
  setEFlags ((s.regs.eflags &&& ~~~changeMask) ||| (flags &&& changeMask)) s

/-- `assert_AC`, `clear_AC` and `set_AC`. -/
def set_AC (val : Bool) (s : Cpu) : Cpu :=
  let ac : BitVec 32 := if val then 0x40000 else 0
  handleAlignmentCheck { s with regs.eflags := (s.regs.eflags &&& ~~~0x40000) ||| ac }

/-- `clear_VM`, which protected mode interrupts and SYSENTER call; outside protected mode they
do not get there. -/
def clear_VM (s : Cpu) : Cpu :=
  if s.regs.get_PE && !s.regs.get_LMA then
    handleCpuModeChange { s with regs.eflags := s.regs.eflags &&& ~~~0x20000 }
  else s

/-- `check_CR0`, outside VMX operation. -/
def check_CR0 (val : BitVec 32) : Bool :=
  !(val.getLsbD 31 && !val.getLsbD 0) && !(val.getLsbD 29 && !val.getLsbD 30)

/-- The LMA bit after paging is turned on or off; `none` where `SetCR0` refuses the change. -/
def SetCR0_LMA (r : Regs) (cpu_mode : CpuMode) (pg : Bool) : Option (BitVec 32) :=
  if !r.get_PG && pg then
    if r.get_LME then
      if !r.get_PAE || r.csL then none else some (r.efer ||| 0x400)
    else some r.efer
  else if r.get_PG && !pg then
    if cpu_mode = .long64 then none
    else if r.get_LMA then
      if r.get_PCIDE then none else some (r.efer &&& ~~~0x400)
    else some r.efer
  else some r.efer

/-- MOV CR0 and LMSW. A refused write changes nothing. -/
def SetCR0 (val : BitVec 32) (s : Cpu) : Cpu :=
  if s.regs.cpl ≠ 0 ∨ check_CR0 val = false ∨
      (val.getLsbD 16 = false ∧ s.regs.get_CET = true) then s
  else match SetCR0_LMA s.regs s.derived.cpu_mode (val.getLsbD 31) with
    | none => s
    | some efer =>
      let val_32 := (val &&& 0xe005003f) ||| 0x10
      let s := { s with regs.efer := efer, regs.cr0 := val_32 ||| 0x10 }
      let s := handleAlignmentCheck s
      let s := handleCpuModeChange s
      let s := handleFpuMmxModeChange s
      let s := handleSseModeChange s
      handleAvxModeChange s

def SetCR4 (val : BitVec 64) (s : Cpu) : Cpu :=
  if s.regs.cpl ≠ 0 then s
  else if s.regs.get_LMA && !val.getLsbD 5 then s
  else if !s.regs.get_LMA && val.getLsbD 17 then s
  else if val.getLsbD 23 && !s.regs.get_WP then s
  else if s.regs.get_LMA && (val.getLsbD 12 != s.regs.get_LA57) then s
  else
    let s := { s with regs.cr4 := val }
    let s := handleFpuMmxModeChange s
    let s := handleSseModeChange s
    handleAvxModeChange s

/-- WRMSR of EFER; LMA is kept. -/
def SetEFER (val suppmask : BitVec 32) (s : Cpu) : Cpu :=
  if s.regs.cpl ≠ 0 then s
  else if (s.regs.get_LME != val.getLsbD 8) && s.regs.get_PG then s
  else { s with regs.efer := (val &&& suppmask &&& ~~~0x400) ||| (s.regs.efer &&& 0x400) }

def CLTS (s : Cpu) : Cpu :=
  if s.regs.cpl ≠ 0 then s
  else
    let s := { s with regs.cr0 := s.regs.cr0 &&& ~~~0x8 }
    let s := handleFpuMmxModeChange s
    let s := handleSseModeChange s
    handleAvxModeChange s

/-- The checks `XSETBV` makes on EAX besides the support mask. -/
def xsetbvOk (eax : BitVec 32) : Bool :=
  eax.getLsbD 0 && !(eax &&& 0x6 == 0x4) && (eax &&& 0xe0 == 0 || eax &&& 0xe7 == 0xe7) &&
    (eax &&& 0x60000 == 0 || eax &&& 0x60000 == 0x60000)

def XSETBV (eax : BitVec 32) (s : Cpu) : Cpu :=
  if s.regs.get_OSXSAVE = false ∨ s.regs.cpl ≠ 0 ∨ xsetbvOk eax = false then s
  else handleAvxModeChange { s with regs.xcr0 := eax }

/-- `load_cs` with the bits of the new descriptor it caches. -/
def load_cs (l d_b : Bool) (cpl : ℕ) (s : Cpu) : Cpu :=
  let s := { s with regs.csL := l, regs.csDb := d_b, regs.cpl := cpl }
  let s := if s.regs.get_LMA then handleCpuModeChange s else s
  handleAlignmentCheck (updateFetchModeMask s)

/-- `setup_flat_CS`, after the caller has loaded the selector with this RPL. -/
def setup_flat_CS (rpl : ℕ) (longmode : Bool) (s : Cpu) : Cpu :=
  let s := { s with regs.cpl := rpl, regs.csDb := !longmode, regs.csL := longmode }
  handleAlignmentCheck (handleCpuModeChange s)

/-- `load_seg_reg` of CS in real and V8086 mode. -/
def load_seg_reg_CS (s : Cpu) : Cpu :=
  match s.derived.cpu_mode with
  | .real => handleAlignmentCheck (updateFetchModeMask { s with regs.cpl := 0 })
  | .v8086 =>
    handleAlignmentCheck (updateFetchModeMask
      { s with regs.cpl := 3, regs.csDb := false, regs.csL := false })
  | _ => s

/-- `init_v8086_mode`. -/
def init_v8086_mode (s : Cpu) : Cpu :=
  handleAlignmentCheck (handleCpuModeChange { s with regs.csDb := false, regs.cpl := 3 })

/-- `stack_return_to_v86`, which IRET calls in protected mode at CPL 0 with VM set in the new
flags. -/
def stack_return_to_v86 (flags32 : BitVec 32) (s : Cpu) : Cpu :=
  if s.derived.cpu_mode = .protectedMode ∧ s.regs.cpl = 0 ∧ flags32.getLsbD 17 = true then
    init_v8086_mode (writeEFlags flags32 supportMask s)
  else s

/-- How a hardware task switch ends: an exception after the commit point, raised for CR3 or the page
directory pointers, or while CPL is forced to 3, or after it has been restored; or a loaded CS. -/
inductive TaskEnd
  | cr3Refused
  | cplForced
  | cplRestored
  | loaded (l d_b : Bool)
deriving DecidableEq, Repr

/-- `task_switch` from its commit point to the units it recomputes. -/
def taskUnits (newEFLAGS : BitVec 32) (rpl : ℕ) (s : Cpu) : Cpu :=
  let s := { s with regs.cr0 := s.regs.cr0 ||| 0x8 }
  let s := writeEFlags newEFLAGS supportMask s
  let s := { s with regs.cpl := rpl }
  handleAvxModeChange (handleSseModeChange (handleFpuMmxModeChange s))

/-- The segment registers of the new task, and what `task_switch` does with CPL meanwhile. -/
def taskSegments (e : TaskEnd) (s : Cpu) : Cpu :=
  match e with
  -- before CPL is saved, also for a task in V8086 mode
  | .cr3Refused => s
  | .cplForced => { s with regs.cpl := 3 }
  | .cplRestored =>
    if s.derived.cpu_mode = .v8086 then load_seg_reg_CS { s with regs.cpl := 3 } else s
  | .loaded l d_b =>
    if s.derived.cpu_mode = .v8086 then load_seg_reg_CS { s with regs.cpl := 3 }
    else handleAlignmentCheck (updateFetchModeMask { s with regs.csL := l, regs.csDb := d_b })

/-- `task_switch` from its commit point; long mode has none. -/
def task_switch (newEFLAGS : BitVec 32) (rpl : ℕ) (e : TaskEnd) (s : Cpu) : Cpu :=
  if s.regs.get_LMA || !s.regs.get_PE then s
  else taskSegments e (taskUnits newEFLAGS rpl s)

/-- VM entry and VM exit, `enter_system_management_mode`, RSM and the reset of an INIT: the
registers are loaded, then everything is recomputed.  A VM entry checks its state before it loads
any; an RSM that refuses its image panics, which ends the process. -/
def contextChange (r : Regs) (s : Cpu) : Cpu :=
  handleCpuContextChange { s with regs := r }

/-- `VMexitLoadHostState` where the host's page directory pointers are corrupt: `VMabort` leaves it
with the control registers of the host loaded and nothing recomputed. -/
def vmexitAborted (efer cr0 : BitVec 32) (cr4 : BitVec 64) (cr3 : UInt64) (s : Cpu) : Cpu :=
  let s := { s with regs.efer := efer, regs.cr0 := cr0 ||| 0x10, regs.cr4 := cr4, regs.cr3 := cr3 }
  -- `shutdown` clears IF
  { s with regs.eflags := s.regs.eflags &&& ~~~0x200 }

/-! ## Register writes of the shim -/

/-- `x86oracle_bochs_set_cr`. -/
def set_cr (n : ℕ) (v : UInt64) (s : Cpu) : Cpu :=
  match n with
  | 0 => updateFetchModeMask { s with regs.cr0 := v.toBitVec.setWidth 32 ||| 0x10 }
  | 2 => { s with regs.cr2 := v }
  | 3 => { s with regs.cr3 := v }
  | 4 => { s with regs.cr4 := v.toBitVec }
  | _ => s

/-- `x86oracle_bochs_set_msr`; the other MSRs are not among the registers here. -/
def set_msr (msr : ℕ) (v : UInt64) (s : Cpu) : Cpu :=
  if msr = 0xC0000080 then { s with regs.efer := v.toBitVec.setWidth 32 } else s

/-- `x86oracle_bochs_set_rflags`. -/
def set_rflags (v : UInt64) (s : Cpu) : Cpu :=
  setEFlags ((v.toBitVec.setWidth 32 &&& ~~~0x10100) ||| 0x2) s

/-- `x86oracle_bochs_enable_shadow_stack`; a refused range (`mapped = false`) changes nothing. -/
def enable_shadow_stack (mapped : Bool) (s : Cpu) : Cpu :=
  if !mapped then s
  else
    let s := { s with regs.cr0 := (s.regs.cr0 ||| 0x10000) ||| 0x10 }
    let s := { s with regs.cr4 := s.regs.cr4 ||| 0x800000 }
    updateFetchModeMask s

/-- `enter_long_mode`, from the state `reset` leaves. -/
def enter_long_mode (s : Cpu) : Cpu :=
  let s := { s with
    regs.cr0 := 0x80050033, regs.cr4 := 0x40220, regs.cr3 := ptPml4, regs.efer := 0xD00
    regs.xcr0 := 0x600E7, regs.csL := true, regs.csDb := false, regs.cpl := 0 }
  let s := setEFlags 0x2 s
  let s := handleCpuModeChange s
  let s := handleCpuContextChange s
  let s := handleSseModeChange s
  updateFetchModeMask s

/-! ## Runs -/

/-- What a guest instruction does to these registers. -/
inductive GuestOp
  | SetCR0 (val : BitVec 32)
  | SetCR4 (val : BitVec 64)
  | SetEFER (val suppmask : BitVec 32)
  | CLTS
  | XSETBV (eax : BitVec 32)
  | load_cs (l d_b : Bool) (cpl : ℕ)
  | setup_flat_CS (rpl : ℕ) (longmode : Bool)
  | load_seg_reg_CS
  | writeEFlags (flags changeMask : BitVec 32)
  | set_AC (val : Bool)
  | clear_VM
  | stack_return_to_v86 (flags32 : BitVec 32)
  | task_switch (newEFLAGS : BitVec 32) (rpl : ℕ) (e : TaskEnd)
  | contextChange (r : Regs)
  | vmexitAborted (efer cr0 : BitVec 32) (cr4 : BitVec 64) (cr3 : UInt64)

def GuestOp.run (s : Cpu) : GuestOp → Cpu
  | .SetCR0 val => Mode.SetCR0 val s
  | .SetCR4 val => Mode.SetCR4 val s
  | .SetEFER val suppmask => Mode.SetEFER val suppmask s
  | .CLTS => Mode.CLTS s
  | .XSETBV eax => Mode.XSETBV eax s
  | .load_cs l d_b cpl => Mode.load_cs l d_b cpl s
  | .setup_flat_CS rpl longmode => Mode.setup_flat_CS rpl longmode s
  | .load_seg_reg_CS => Mode.load_seg_reg_CS s
  | .writeEFlags flags changeMask => Mode.writeEFlags flags changeMask s
  | .set_AC val => Mode.set_AC val s
  | .clear_VM => Mode.clear_VM s
  | .stack_return_to_v86 flags32 => Mode.stack_return_to_v86 flags32 s
  | .task_switch newEFLAGS rpl e => Mode.task_switch newEFLAGS rpl e s
  | .contextChange r => Mode.contextChange r s
  | .vmexitAborted efer cr0 cr4 cr3 => Mode.vmexitAborted efer cr0 cr4 cr3 s

/-- The calls of the shim that reach these registers; a step is the register writes of its
instruction, one after the other. -/
inductive Call
  | new (reset : Cpu)
  | set_cr (n : ℕ) (v : UInt64)
  | set_msr (msr : ℕ) (v : UInt64)
  | set_rflags (v : UInt64)
  | enable_shadow_stack (mapped : Bool)
  | step (op : GuestOp)

def Call.run (s : Cpu) : Call → Cpu
  | .new reset => enter_long_mode reset
  | .set_cr n v => Mode.set_cr n v s
  | .set_msr msr v => Mode.set_msr msr v s
  | .set_rflags v => Mode.set_rflags v s
  | .enable_shadow_stack mapped => Mode.enable_shadow_stack mapped s
  | .step op => op.run s

/-- Every call is possible in every state; a refused register write changes nothing. -/
def system : Run.System Cpu Call where
  enabled _ _ := True
  next := Call.run

/-! ## Consistency -/

/-- Everything recomputed from the registers. -/
def recompute (s : Cpu) : Cpu := updateFetchModeMask (handleCpuContextChange s)

/-- The cache is what the recomputation gives. -/
def Consistent (s : Cpu) : Prop := s.derived = (recompute s).derived

namespace Regs

variable (r : Regs)

def mode : CpuMode :=
  if r.get_LMA then (if r.csL then .long64 else .longCompat)
  else if r.get_PE then (if r.get_VM then .v8086 else .protectedMode)
  else .real

def fpuOk : Bool := !(r.get_EM || r.get_TS)

def sseOk : Bool := !r.get_TS && !(r.get_EM || !r.get_OSFXSR)

def avxOk : Bool := !r.get_TS && !(!r.mode.isProtected || !r.get_OSXSAVE || !r.ymmState)

def evexOk : Bool := r.avxOk && r.zmmState

def amxOk : Bool := !(!r.mode.isLong64 || !r.get_OSXSAVE || !r.tileState)

def useOk : UseOk :=
  { fpu_mmx := r.fpuOk, sse := r.sseOk, avx := r.avxOk, evex := r.evexOk, amx := r.amxOk }

def alignMask : ℕ := if r.cpl = 3 ∧ r.get_AM = true ∧ r.get_AC = true then 0xF else 0

/-- CPL after `handleCpuModeChange`. -/
def modeCpl : ℕ :=
  if r.get_LMA then r.cpl else if r.get_PE then (if r.get_VM then 3 else r.cpl) else 0

end Regs

/-- The cache as a function of the registers. -/
def derive (r : Regs) : Derived :=
  { cpu_mode := r.mode
    cpu_state_use_ok := r.useOk
    fetchModeMask := fetchMask r.useOk r.mode r.csDb
    alignment_check_mask := r.alignMask }

@[simp] theorem updateFetchModeMask_regs (s : Cpu) : (updateFetchModeMask s).regs = s.regs := rfl

@[simp] theorem handleAlignmentCheck_regs (s : Cpu) : (handleAlignmentCheck s).regs = s.regs := rfl

@[simp] theorem handleFpuMmxModeChange_regs (s : Cpu) :
    (handleFpuMmxModeChange s).regs = s.regs := rfl

@[simp] theorem handleSseModeChange_regs (s : Cpu) : (handleSseModeChange s).regs = s.regs := rfl

@[simp] theorem handleAvxModeChange_regs (s : Cpu) : (handleAvxModeChange s).regs = s.regs := rfl

/-- The registers with the CPL that `handleCpuModeChange` gives them. -/
def Regs.withModeCpl (r : Regs) : Regs := { r with cpl := r.modeCpl }

@[simp] theorem Regs.withModeCpl_mode (r : Regs) : r.withModeCpl.mode = r.mode := rfl

theorem handleCpuModeChange_eq (s : Cpu) :
    handleCpuModeChange s =
      handleAvxModeChange (updateFetchModeMask
        { s with regs := s.regs.withModeCpl, derived.cpu_mode := s.regs.mode }) := by
  unfold handleCpuModeChange Regs.withModeCpl Regs.modeCpl Regs.mode
  split_ifs <;> rfl

@[simp] theorem handleCpuModeChange_regs (s : Cpu) :
    (handleCpuModeChange s).regs = s.regs.withModeCpl := by
  rw [handleCpuModeChange_eq]
  rfl

@[simp] theorem updateFetchModeMask_derived (s : Cpu) :
    (updateFetchModeMask s).derived =
      { s.derived with
        fetchModeMask :=
          fetchMask s.derived.cpu_state_use_ok s.derived.cpu_mode s.regs.csDb } := rfl

@[simp] theorem handleAlignmentCheck_derived (s : Cpu) :
    (handleAlignmentCheck s).derived =
      { s.derived with alignment_check_mask := s.regs.alignMask } := rfl

/-- A unit's bits are replaced and the fetch mode mask follows. -/
def Derived.withUse (d : Derived) (u : UseOk) (csDb : Bool) : Derived :=
  { d with cpu_state_use_ok := u, fetchModeMask := fetchMask u d.cpu_mode csDb }

@[simp] theorem handleFpuMmxModeChange_derived (s : Cpu) :
    (handleFpuMmxModeChange s).derived =
      s.derived.withUse { s.derived.cpu_state_use_ok with fpu_mmx := s.regs.fpuOk } s.regs.csDb :=
  rfl

@[simp] theorem handleSseModeChange_derived (s : Cpu) :
    (handleSseModeChange s).derived =
      s.derived.withUse { s.derived.cpu_state_use_ok with sse := s.regs.sseOk } s.regs.csDb := by
  unfold handleSseModeChange Regs.sseOk
  cases s.regs.get_TS <;> cases s.regs.get_EM <;> cases s.regs.get_OSFXSR <;> rfl

theorem handleAvxModeChange_derived {s : Cpu} (h : s.derived.cpu_mode = s.regs.mode) :
    (handleAvxModeChange s).derived =
      s.derived.withUse
        { s.derived.cpu_state_use_ok with
          avx := s.regs.avxOk, evex := s.regs.evexOk, amx := s.regs.amxOk } s.regs.csDb := by
  unfold handleAvxModeChange Regs.evexOk Regs.avxOk Regs.amxOk
  rw [h]
  cases s.regs.get_TS <;> cases s.regs.mode.isProtected <;> cases s.regs.get_OSXSAVE <;>
    cases s.regs.ymmState <;> rfl

/-- FPU, SSE and AVX one after the other recompute every unit. -/
theorem units_derived {s : Cpu} (h : s.derived.cpu_mode = s.regs.mode) :
    (handleAvxModeChange (handleSseModeChange (handleFpuMmxModeChange s))).derived =
      s.derived.withUse s.regs.useOk s.regs.csDb := by
  rw [handleAvxModeChange_derived (by simpa [Derived.withUse] using h)]
  simp [Derived.withUse, Regs.useOk]

theorem handleCpuModeChange_derived (s : Cpu) :
    (handleCpuModeChange s).derived =
      { s.derived with cpu_mode := s.regs.mode }.withUse
        { s.derived.cpu_state_use_ok with
          avx := s.regs.avxOk, evex := s.regs.evexOk, amx := s.regs.amxOk } s.regs.csDb := by
  rw [handleCpuModeChange_eq, handleAvxModeChange_derived (by simp)]
  rfl

/-- The recomputation is `derive` of the registers it starts from. -/
theorem recompute_derived (s : Cpu) : (recompute s).derived = derive s.regs := by
  have hmode : ∀ t : Cpu, (handleCpuModeChange t).derived.cpu_mode = t.regs.mode := by
    intro t
    rw [handleCpuModeChange_derived]
    rfl
  unfold recompute handleCpuContextChange
  rw [updateFetchModeMask_derived, units_derived (by rw [hmode]; simp)]
  simp only [handleCpuModeChange_derived, handleAvxModeChange_regs, handleSseModeChange_regs,
    handleFpuMmxModeChange_regs, handleCpuModeChange_regs, handleAlignmentCheck_regs,
    handleAlignmentCheck_derived]
  rfl

theorem consistent_iff (s : Cpu) : Consistent s ↔ s.derived = derive s.regs := by
  unfold Consistent
  rw [recompute_derived]

/-! ## One call -/

/-- `handleCpuModeChange` moves CPL into or out of ring 3. -/
def Regs.MovesRing3 (r : Regs) : Prop :=
  r.get_LMA = false ∧
    (r.get_PE = true ∧ r.get_VM = true ∧ r.cpl ≠ 3 ∨ r.get_PE = false ∧ r.cpl = 3)

instance (r : Regs) : Decidable r.MovesRing3 := by unfold Regs.MovesRing3; infer_instance

/-- Everything but the alignment check mask is what the registers say. -/
def Current (s : Cpu) : Prop :=
  { s.derived with alignment_check_mask := s.regs.alignMask } = derive s.regs

theorem consistent_iff_current (s : Cpu) :
    Consistent s ↔ Current s ∧ s.derived.alignment_check_mask = s.regs.alignMask := by
  rw [consistent_iff]
  unfold Current
  constructor
  · intro h
    rw [h]
    exact ⟨rfl, rfl⟩
  · rintro ⟨h, hmask⟩
    rw [← h, ← hmask]

/-- An alignment check last makes the cache consistent if the rest already is. -/
theorem consistent_handleAlignmentCheck {s : Cpu} (h : Current s) :
    Consistent (handleAlignmentCheck s) :=
  (consistent_iff _).mpr h

/-- `handleCpuModeChange` leaves the FPU and SSE bits to be right already. -/
theorem current_handleCpuModeChange {s : Cpu}
    (hfpu : s.derived.cpu_state_use_ok.fpu_mmx = s.regs.fpuOk)
    (hsse : s.derived.cpu_state_use_ok.sse = s.regs.sseOk) : Current (handleCpuModeChange s) := by
  unfold Current
  simp only [handleCpuModeChange_derived, handleCpuModeChange_regs, hfpu, hsse]
  rfl

theorem Current.fpu {s : Cpu} (h : Current s) :
    s.derived.cpu_state_use_ok.fpu_mmx = s.regs.fpuOk :=
  congrArg (·.cpu_state_use_ok.fpu_mmx) h

theorem Current.sse {s : Cpu} (h : Current s) : s.derived.cpu_state_use_ok.sse = s.regs.sseOk :=
  congrArg (·.cpu_state_use_ok.sse) h

theorem Current.use {s : Cpu} (h : Current s) : s.derived.cpu_state_use_ok = s.regs.useOk :=
  congrArg (·.cpu_state_use_ok) h

theorem Current.mode {s : Cpu} (h : Current s) : s.derived.cpu_mode = s.regs.mode :=
  congrArg (·.cpu_mode) h

/-- After the units the cache is right if the mode already was. -/
theorem current_units {s : Cpu} (h : s.derived.cpu_mode = s.regs.mode) :
    Current (handleAvxModeChange (handleSseModeChange (handleFpuMmxModeChange s))) := by
  unfold Current
  rw [units_derived h]
  simp [Derived.withUse, derive, h]

theorem current_handleAvxModeChange {s : Cpu} (hmode : s.derived.cpu_mode = s.regs.mode)
    (hfpu : s.derived.cpu_state_use_ok.fpu_mmx = s.regs.fpuOk)
    (hsse : s.derived.cpu_state_use_ok.sse = s.regs.sseOk) : Current (handleAvxModeChange s) := by
  unfold Current
  simp only [handleAvxModeChange_derived hmode, hfpu, hsse, handleAvxModeChange_regs]
  simp [Derived.withUse, derive, Regs.useOk, hmode]

theorem current_updateFetchModeMask {s : Cpu} (hmode : s.derived.cpu_mode = s.regs.mode)
    (huse : s.derived.cpu_state_use_ok = s.regs.useOk) : Current (updateFetchModeMask s) := by
  unfold Current
  simp [derive, hmode, huse]

theorem Regs.withModeCpl_alignMask (r : Regs) :
    r.withModeCpl.alignMask = r.alignMask ↔
      ¬ (r.get_AM = true ∧ r.get_AC = true ∧ r.MovesRing3) := by
  unfold Regs.alignMask Regs.MovesRing3 Regs.withModeCpl Regs.modeCpl Regs.get_AM Regs.get_AC
    Regs.get_LMA Regs.get_PE Regs.get_VM
  grind

/-- The mode change comes after the alignment check, so a CPL it changes is missed. -/
theorem consistent_handleCpuModeChange {s : Cpu}
    (hfpu : s.derived.cpu_state_use_ok.fpu_mmx = s.regs.fpuOk)
    (hsse : s.derived.cpu_state_use_ok.sse = s.regs.sseOk) :
    Consistent (handleCpuModeChange (handleAlignmentCheck s)) ↔
      ¬ (s.regs.get_AM = true ∧ s.regs.get_AC = true ∧ s.regs.MovesRing3) := by
  rw [consistent_iff_current, ← Regs.withModeCpl_alignMask]
  have hcur : Current (handleCpuModeChange (handleAlignmentCheck s)) :=
    current_handleCpuModeChange hfpu hsse
  have hmask : (handleCpuModeChange (handleAlignmentCheck s)).derived.alignment_check_mask =
      s.regs.alignMask := by
    rw [handleCpuModeChange_derived]
    rfl
  rw [hmask, handleCpuModeChange_regs]
  simp only [hcur, true_and, handleAlignmentCheck_regs]
  exact eq_comm

/-- The registers with the flags `setEFlags` stores. -/
def Regs.withEFlags (r : Regs) (v : BitVec 32) : Regs :=
  { r with eflags := if r.get_LMA then v &&& ~~~0x20000 else v }

/-- `setEFlags v` leaves the cache consistent: VM keeps its value, or no alignment check applies,
or the new mode keeps ring 3. -/
def EFlagsGood (r : Regs) (v : BitVec 32) : Prop :=
  (r.withEFlags v).get_VM = r.get_VM ∨
    ¬ (r.get_AM = true ∧ (r.withEFlags v).get_AC = true ∧ (r.withEFlags v).MovesRing3)

/-- `setEFlags` in terms of the flags it stores. -/
theorem setEFlags_eq (v : BitVec 32) (s : Cpu) :
    setEFlags v s =
      if (s.regs.withEFlags v).get_VM = s.regs.get_VM then
        handleAlignmentCheck { s with regs := s.regs.withEFlags v }
      else handleCpuModeChange (handleAlignmentCheck { s with regs := s.regs.withEFlags v }) := by
  unfold setEFlags Regs.withEFlags Regs.get_VM
  simp only [BitVec.getLsbD_xor]
  grind

/-- The mode depends on LMA, PE, VM and CS.L only. -/
theorem Regs.mode_congr {r r' : Regs} (hlma : r'.get_LMA = r.get_LMA) (hpe : r'.get_PE = r.get_PE)
    (hvm : r'.get_VM = r.get_VM) (hl : r'.csL = r.csL) : r'.mode = r.mode := by
  unfold Regs.mode
  rw [hlma, hpe, hvm, hl]

/-- The units depend on the mode, CR0, CR4 and XCR0 only. -/
theorem Regs.useOk_congr {r r' : Regs} (hmode : r'.mode = r.mode) (hcr0 : r'.cr0 = r.cr0)
    (hcr4 : r'.cr4 = r.cr4) (hxcr0 : r'.xcr0 = r.xcr0) : r'.useOk = r.useOk := by
  unfold Regs.useOk Regs.evexOk Regs.avxOk Regs.amxOk Regs.fpuOk Regs.sseOk Regs.get_EM
    Regs.get_TS Regs.get_OSFXSR Regs.get_OSXSAVE Regs.ymmState Regs.zmmState Regs.tileState
  rw [hmode, hcr0, hcr4, hxcr0]

/-- Registers with the same mode, units and code size keep the cache right. -/
theorem Current.withRegs {s : Cpu} (h : Current s) {r : Regs} (hmode : r.mode = s.regs.mode)
    (huse : r.useOk = s.regs.useOk) (hdb : r.csDb = s.regs.csDb) :
    Current { s with regs := r } := by
  have hd : derive r = { derive s.regs with alignment_check_mask := r.alignMask } := by
    unfold derive
    rw [hmode, huse, hdb]
  unfold Current at h ⊢
  rw [hd, ← h]

/-- A change of the flags that keeps VM keeps the mode. -/
theorem Current.withEFlags {s : Cpu} (h : Current s) {v : BitVec 32}
    (hvm : (s.regs.withEFlags v).get_VM = s.regs.get_VM) :
    Current { s with regs := s.regs.withEFlags v } := by
  have hmode : (s.regs.withEFlags v).mode = s.regs.mode := Regs.mode_congr rfl rfl hvm rfl
  exact h.withRegs hmode (Regs.useOk_congr hmode rfl rfl rfl) rfl

theorem consistent_setEFlags {s : Cpu} (h : Current s) (v : BitVec 32) :
    Consistent (setEFlags v s) ↔ EFlagsGood s.regs v := by
  rw [setEFlags_eq]
  unfold EFlagsGood
  split_ifs with hvm
  · exact iff_of_true (consistent_handleAlignmentCheck (h.withEFlags hvm)) (Or.inl hvm)
  · have hmc := consistent_handleCpuModeChange (s := { s with regs := s.regs.withEFlags v })
      h.fpu h.sse
    exact hmc.trans (or_iff_right hvm).symm

/-- Whatever it does to ring 3, `setEFlags` keeps the rest of the cache. -/
theorem Current.setEFlags {s : Cpu} (h : Current s) (v : BitVec 32) : Current (setEFlags v s) := by
  rw [setEFlags_eq]
  split_ifs with hvm
  · exact h.withEFlags hvm
  · exact current_handleCpuModeChange h.fpu h.sse

theorem consistent_set_AC {s : Cpu} (h : Current s) (val : Bool) : Consistent (set_AC val s) := by
  unfold set_AC
  refine consistent_handleAlignmentCheck ?_
  have hmode : ({ s.regs with
      eflags := (s.regs.eflags &&& ~~~0x40000) ||| if val then 0x40000 else 0 } : Regs).mode =
        s.regs.mode := by
    refine Regs.mode_congr rfl rfl ?_ rfl
    cases val <;> simp [Regs.get_VM]
  exact h.withRegs hmode (Regs.useOk_congr hmode rfl rfl rfl) rfl

theorem consistent_clear_VM {s : Cpu} (h : Consistent s) : Consistent (clear_VM s) := by
  unfold clear_VM
  split_ifs with hpe
  · rw [consistent_iff_current] at h ⊢
    refine ⟨current_handleCpuModeChange h.1.fpu h.1.sse, ?_⟩
    rw [handleCpuModeChange_derived, handleCpuModeChange_regs]
    refine h.2.trans ?_
    unfold Regs.alignMask Regs.withModeCpl Regs.modeCpl Regs.get_VM Regs.get_AC
    simp_all [Regs.get_PE, Regs.get_LMA, Regs.get_AM]
  · exact h

theorem consistent_CLTS {s : Cpu} (h : Consistent s) : Consistent (CLTS s) := by
  unfold CLTS
  split_ifs with hcpl
  · exact h
  · rw [consistent_iff_current] at h ⊢
    have hmode : ({ s.regs with cr0 := s.regs.cr0 &&& ~~~0x8 } : Regs).mode = s.regs.mode := by
      refine Regs.mode_congr rfl ?_ rfl rfl
      simp [Regs.get_PE]
    refine ⟨current_units (h.1.mode.trans hmode.symm), ?_⟩
    refine h.2.trans ?_
    simp [Regs.alignMask, Regs.get_AM, Regs.get_AC]

theorem consistent_SetCR4 {s : Cpu} (h : Consistent s) (val : BitVec 64) :
    Consistent (SetCR4 val s) := by
  unfold SetCR4
  split_ifs
  all_goals first
    | exact h
    | rw [consistent_iff_current] at h ⊢
      exact ⟨current_units h.1.mode, h.2⟩

theorem consistent_SetEFER {s : Cpu} (h : Consistent s) (val suppmask : BitVec 32) :
    Consistent (SetEFER val suppmask s) := by
  unfold SetEFER
  split_ifs with hcpl hlme
  · exact h
  · exact h
  · rw [consistent_iff_current] at h ⊢
    have hmode : ({ s.regs with
        efer := (val &&& suppmask &&& ~~~0x400) ||| (s.regs.efer &&& 0x400) } : Regs).mode =
          s.regs.mode := by
      refine Regs.mode_congr ?_ rfl rfl rfl
      simp [Regs.get_LMA]
    exact ⟨h.1.withRegs hmode (Regs.useOk_congr hmode rfl rfl rfl) rfl, h.2⟩

theorem consistent_XSETBV {s : Cpu} (h : Consistent s) (eax : BitVec 32) :
    Consistent (XSETBV eax s) := by
  unfold XSETBV
  split_ifs
  · exact h
  · rw [consistent_iff_current] at h ⊢
    exact ⟨current_handleAvxModeChange h.1.mode h.1.fpu h.1.sse, h.2⟩

/-- Mode and units survive a change of CS outside long mode. -/
theorem Current.withCs {s : Cpu} (h : Current s) (hlma : s.regs.get_LMA = false) (l d_b : Bool)
    (cpl : ℕ) :
    Current (updateFetchModeMask
      { s with regs := { s.regs with csL := l, csDb := d_b, cpl } }) := by
  have hmode : ({ s.regs with csL := l, csDb := d_b, cpl } : Regs).mode = s.regs.mode := by
    have hlma' : ({ s.regs with csL := l, csDb := d_b, cpl } : Regs).get_LMA = false := hlma
    unfold Regs.mode
    rw [hlma, hlma']
    rfl
  exact current_updateFetchModeMask (h.mode.trans hmode.symm)
    (h.use.trans (Regs.useOk_congr hmode rfl rfl rfl).symm)

theorem consistent_load_cs {s : Cpu} (h : Current s) (l d_b : Bool) (cpl : ℕ) :
    Consistent (load_cs l d_b cpl s) := by
  unfold load_cs
  refine consistent_handleAlignmentCheck ?_
  split_ifs with hlma
  · have hcur : Current (handleCpuModeChange
        { s with regs := { s.regs with csL := l, csDb := d_b, cpl } }) :=
      current_handleCpuModeChange h.fpu h.sse
    exact current_updateFetchModeMask hcur.mode hcur.use
  · exact h.withCs (Bool.eq_false_iff.mpr hlma) l d_b cpl

theorem consistent_setup_flat_CS {s : Cpu} (h : Current s) (rpl : ℕ) (longmode : Bool) :
    Consistent (setup_flat_CS rpl longmode s) := by
  unfold setup_flat_CS
  exact consistent_handleAlignmentCheck (current_handleCpuModeChange h.fpu h.sse)

theorem Regs.LMA_of_mode_v8086 {r : Regs} (h : r.mode = .v8086) : r.get_LMA = false := by
  unfold Regs.mode at h
  grind

theorem Regs.LMA_of_mode_real {r : Regs} (h : r.mode = .real) : r.get_LMA = false := by
  unfold Regs.mode at h
  grind

theorem consistent_load_seg_reg_CS_v8086 {s : Cpu} (h : Current s)
    (hm : s.derived.cpu_mode = .v8086) : Consistent (load_seg_reg_CS s) := by
  have hlma := Regs.LMA_of_mode_v8086 (h.mode.symm.trans hm)
  unfold load_seg_reg_CS
  rw [hm]
  exact consistent_handleAlignmentCheck (h.withCs hlma false false 3)

theorem consistent_load_seg_reg_CS {s : Cpu} (h : Consistent s) :
    Consistent (load_seg_reg_CS s) := by
  have hcur := ((consistent_iff_current s).mp h).1
  by_cases hm : s.derived.cpu_mode = .v8086
  · exact consistent_load_seg_reg_CS_v8086 hcur hm
  · unfold load_seg_reg_CS
    split
    · next hreal =>
      have hlma := Regs.LMA_of_mode_real (hcur.mode.symm.trans hreal)
      exact consistent_handleAlignmentCheck (hcur.withCs hlma s.regs.csL s.regs.csDb 0)
    · next hv => exact absurd hv hm
    · exact h

theorem consistent_stack_return_to_v86 {s : Cpu} (h : Consistent s) (flags32 : BitVec 32) :
    Consistent (stack_return_to_v86 flags32 s) := by
  have hcur := ((consistent_iff_current s).mp h).1
  unfold stack_return_to_v86
  split_ifs
  · have hflags : Current (writeEFlags flags32 supportMask s) := hcur.setEFlags _
    exact consistent_handleAlignmentCheck (current_handleCpuModeChange hflags.fpu hflags.sse)
  · exact h

/-- The recomputation from these registers keeps ring 3, or no alignment check applies. -/
def TransitionGood (r : Regs) : Prop :=
  ¬ (r.get_AM = true ∧ r.get_AC = true ∧ r.MovesRing3)

theorem consistent_handleCpuContextChange (s : Cpu) :
    Consistent (handleCpuContextChange s) ↔ TransitionGood s.regs := by
  unfold handleCpuContextChange TransitionGood
  rw [← Regs.withModeCpl_alignMask, consistent_iff_current]
  have hmode : ∀ t : Cpu, (handleCpuModeChange t).derived.cpu_mode =
      (handleCpuModeChange t).regs.mode := by
    intro t
    rw [handleCpuModeChange_derived, handleCpuModeChange_regs]
    rfl
  have hcur := current_units (hmode (handleAlignmentCheck s))
  simp only [hcur, true_and]
  rw [units_derived (hmode _)]
  simp only [handleCpuModeChange_derived, handleAvxModeChange_regs, handleSseModeChange_regs,
    handleFpuMmxModeChange_regs, handleCpuModeChange_regs]
  exact eq_comm

/-- A CR0 write that is accepted does not put CPL 0 into V8086 mode with alignment checks on. -/
def SetCR0Good (s : Cpu) (val : BitVec 32) : Prop :=
  ∀ efer, SetCR0_LMA s.regs s.derived.cpu_mode (val.getLsbD 31) = some efer →
    ¬ (s.regs.cpl ≠ 0 ∨ check_CR0 val = false ∨
      (val.getLsbD 16 = false ∧ s.regs.get_CET = true)) →
    TransitionGood { s.regs with efer, cr0 := (val &&& 0xe005003f) ||| 0x10 ||| 0x10 }

theorem consistent_SetCR0 {s : Cpu} (h : Consistent s) (val : BitVec 32) :
    Consistent (SetCR0 val s) ↔ SetCR0Good s val := by
  unfold SetCR0 SetCR0Good
  split_ifs with hrefused
  · exact iff_of_true h fun _ _ haccepted => absurd hrefused haccepted
  · cases hefer : SetCR0_LMA s.regs s.derived.cpu_mode (val.getLsbD 31) with
    | none => simp [h]
    | some efer =>
      have hctx := consistent_handleCpuContextChange
        { s with regs := { s.regs with
          efer, cr0 := (val &&& 0xe005003f) ||| 0x10 ||| 0x10 } }
      constructor
      · rintro hcons _ ⟨⟩ -
        exact hctx.mp hcons
      · intro hgood
        exact hctx.mpr (hgood efer rfl hrefused)

/-- `setEFlags` keeps the mode right. -/
theorem setEFlags_mode {s : Cpu} (h : s.derived.cpu_mode = s.regs.mode) (v : BitVec 32) :
    (setEFlags v s).derived.cpu_mode = (s.regs.withEFlags v).mode := by
  rw [setEFlags_eq]
  split_ifs with hvm
  · have hmode : (s.regs.withEFlags v).mode = s.regs.mode := Regs.mode_congr rfl rfl hvm rfl
    exact h.trans hmode.symm
  · rw [handleCpuModeChange_derived]
    rfl

theorem setEFlags_alignMask (v : BitVec 32) (s : Cpu) :
    (setEFlags v s).derived.alignment_check_mask = (s.regs.withEFlags v).alignMask := by
  rw [setEFlags_eq]
  split_ifs with hvm
  · rfl
  · rw [handleCpuModeChange_derived]
    rfl

/-- `setEFlags` changes the flags and CPL only. -/
theorem setEFlags_regs (v : BitVec 32) (s : Cpu) :
    (setEFlags v s).regs = { s.regs.withEFlags v with cpl := (setEFlags v s).regs.cpl } := by
  rw [setEFlags_eq]
  split_ifs with hvm
  · rfl
  · rw [handleCpuModeChange_regs]
    rfl

/-- The registers of a task switch after its flags are written, but for CPL. -/
def Regs.task (r : Regs) (newEFLAGS : BitVec 32) : Regs :=
  ({ r with cr0 := r.cr0 ||| 0x8 } : Regs).withEFlags
    ((r.eflags &&& ~~~(supportMask &&& supportMask)) |||
      (newEFLAGS &&& (supportMask &&& supportMask)))

/-- A task switch that an exception cuts short has not checked the alignment for its last CPL. -/
def TaskGood (r : Regs) (newEFLAGS : BitVec 32) (rpl : ℕ) (e : TaskEnd) : Prop :=
  r.get_LMA = true ∨ r.get_PE = false ∨
    match e with
    | .cr3Refused =>
      ¬ (r.get_AM = true ∧ newEFLAGS.getLsbD 18 = true ∧ (r.cpl = 3 ↔ rpl ≠ 3))
    | .cplForced => ¬ (r.get_AM = true ∧ newEFLAGS.getLsbD 18 = true ∧ r.cpl ≠ 3)
    | .cplRestored =>
      newEFLAGS.getLsbD 17 = true ∨
        ¬ (r.get_AM = true ∧ newEFLAGS.getLsbD 18 = true ∧ (r.cpl = 3 ↔ rpl ≠ 3))
    | .loaded _ _ => True

section TaskSwitch

variable {s : Cpu} (newEFLAGS : BitVec 32) (rpl : ℕ)

theorem taskUnits_regs :
    (taskUnits newEFLAGS rpl s).regs = { s.regs.task newEFLAGS with cpl := rpl } := by
  unfold taskUnits writeEFlags Regs.task
  simp only [handleAvxModeChange_regs, handleSseModeChange_regs, handleFpuMmxModeChange_regs]
  rw [setEFlags_regs]

theorem current_taskUnits (h : s.derived.cpu_mode = s.regs.mode) :
    Current (taskUnits newEFLAGS rpl s) := by
  refine current_units ?_
  have hmode : ({ s.regs with cr0 := s.regs.cr0 ||| 0x8 } : Regs).mode = s.regs.mode := by
    refine Regs.mode_congr rfl ?_ rfl rfl
    simp [Regs.get_PE]
  have hset := setEFlags_mode (s := { s with regs := { s.regs with cr0 := s.regs.cr0 ||| 0x8 } })
    (h.trans hmode.symm)
  simp only [writeEFlags]
  rw [setEFlags_regs]
  exact hset _

theorem taskUnits_alignMask :
    (taskUnits newEFLAGS rpl s).derived.alignment_check_mask =
      (s.regs.task newEFLAGS).alignMask := by
  exact setEFlags_alignMask _ { s with regs := { s.regs with cr0 := s.regs.cr0 ||| 0x8 } }

theorem task_get_AM (r : Regs) : (r.task newEFLAGS).get_AM = r.get_AM := by
  simp [Regs.task, Regs.withEFlags, Regs.get_AM]

theorem task_get_PE (r : Regs) : (r.task newEFLAGS).get_PE = r.get_PE := by
  simp [Regs.task, Regs.withEFlags, Regs.get_PE]

theorem task_eflags {r : Regs} (hlma : r.get_LMA = false) :
    (r.task newEFLAGS).eflags = (r.eflags &&& ~~~supportMask) ||| (newEFLAGS &&& supportMask) := by
  have hlma' : ({ r with cr0 := r.cr0 ||| 0x8 } : Regs).get_LMA = false := hlma
  unfold Regs.task Regs.withEFlags
  simp only [hlma', BitVec.and_self]
  rfl

theorem task_get_AC {r : Regs} (hlma : r.get_LMA = false) :
    (r.task newEFLAGS).get_AC = newEFLAGS.getLsbD 18 := by
  unfold Regs.get_AC
  rw [task_eflags newEFLAGS hlma]
  simp [supportMask]

theorem task_get_VM {r : Regs} (hlma : r.get_LMA = false) :
    (r.task newEFLAGS).get_VM = newEFLAGS.getLsbD 17 := by
  unfold Regs.get_VM
  rw [task_eflags newEFLAGS hlma]
  simp [supportMask]

/-- Another CPL after the alignment check leaves the mask right, or not. -/
theorem consistent_withCpl {t : Cpu} (h : Current t) {r : Regs} (cpl : ℕ)
    (hregs : t.regs = { r with cpl := rpl })
    (hmask : t.derived.alignment_check_mask = r.alignMask) :
    Consistent { t with regs := { t.regs with cpl } } ↔
      ¬ (r.get_AM = true ∧ r.get_AC = true ∧ (r.cpl = 3 ↔ cpl ≠ 3)) := by
  have hcur : Current { t with regs := { t.regs with cpl } } := h.withRegs rfl rfl rfl
  rw [consistent_iff_current]
  rw [and_iff_right hcur]
  simp only [hmask, hregs]
  unfold Regs.alignMask Regs.get_AM Regs.get_AC
  grind

theorem taskUnits_mode (h : s.derived.cpu_mode = s.regs.mode) (hlma : s.regs.get_LMA = false)
    (hpe : s.regs.get_PE = true) :
    (taskUnits newEFLAGS rpl s).derived.cpu_mode =
      if newEFLAGS.getLsbD 17 then .v8086 else .protectedMode := by
  have hlma' : (s.regs.task newEFLAGS).get_LMA = false := hlma
  have hpe' := (task_get_PE newEFLAGS s.regs).trans hpe
  have hvm' := task_get_VM newEFLAGS hlma
  have hmode : ({ s.regs.task newEFLAGS with cpl := rpl } : Regs).mode =
      (s.regs.task newEFLAGS).mode := rfl
  rw [(current_taskUnits newEFLAGS rpl h).mode, taskUnits_regs, hmode]
  unfold Regs.mode
  rw [hlma', hpe', hvm']
  rfl

theorem consistent_task_switch (h : Consistent s) (e : TaskEnd) :
    Consistent (task_switch newEFLAGS rpl e s) ↔ TaskGood s.regs newEFLAGS rpl e := by
  have hcur := ((consistent_iff_current s).mp h).1
  have ht := current_taskUnits newEFLAGS rpl hcur.mode
  have hregs := taskUnits_regs (s := s) newEFLAGS rpl
  have hmask := taskUnits_alignMask (s := s) newEFLAGS rpl
  unfold TaskGood
  cases hlma : s.regs.get_LMA with
  | true =>
    refine iff_of_true ?_ (Or.inl rfl)
    unfold task_switch
    simpa [hlma] using h
  | false =>
    cases hpe : s.regs.get_PE with
    | false =>
      refine iff_of_true ?_ (Or.inr (Or.inl rfl))
      unfold task_switch
      simpa [hlma, hpe] using h
    | true =>
      have hmode := taskUnits_mode newEFLAGS rpl hcur.mode hlma hpe
      have hAM := task_get_AM newEFLAGS s.regs
      have hAC := task_get_AC newEFLAGS hlma
      have hgo : ¬ (s.regs.get_LMA || !s.regs.get_PE) = true := by simp [hlma, hpe]
      have hcpl := fun cpl => consistent_withCpl rpl ht cpl hregs hmask
      have hC : (s.regs.task newEFLAGS).cpl = s.regs.cpl := rfl
      rw [hAM, hAC, hC] at hcpl
      -- CPL as the new CS selector has it
      have hrest := hcpl rpl
      have hsame : { taskUnits newEFLAGS rpl s with
          regs := { (taskUnits newEFLAGS rpl s).regs with cpl := rpl } } =
            taskUnits newEFLAGS rpl s := by
        rw [hregs, ← hregs]
      rw [hsame] at hrest
      have hv86 : (taskUnits newEFLAGS rpl s).derived.cpu_mode = .v8086 →
          Consistent (load_seg_reg_CS { taskUnits newEFLAGS rpl s with
            regs := { (taskUnits newEFLAGS rpl s).regs with cpl := 3 } }) := by
        intro hv
        exact consistent_load_seg_reg_CS_v8086
          (s := { taskUnits newEFLAGS rpl s with
            regs := { (taskUnits newEFLAGS rpl s).regs with cpl := 3 } })
          (ht.withRegs rfl rfl rfl) hv
      unfold task_switch taskSegments
      rw [if_neg hgo]
      simp only [Bool.true_eq_false, Bool.false_eq_true, false_or]
      cases e with
      | cr3Refused => exact hrest
      | cplForced =>
        refine (hcpl 3).trans ?_
        simp
      | cplRestored =>
        cases hvm : newEFLAGS.getLsbD 17 with
        | true =>
          rw [hvm] at hmode
          simp only [hmode, if_true]
          exact iff_of_true (hv86 hmode) (Or.inl trivial)
        | false =>
          rw [hvm] at hmode
          simpa [hmode] using hrest
      | loaded l d_b =>
        refine iff_of_true ?_ trivial
        split_ifs with hv
        · exact hv86 hv
        · have hlma' : (taskUnits newEFLAGS rpl s).regs.get_LMA = false := by
            rw [hregs]
            exact hlma
          exact consistent_handleAlignmentCheck
            (ht.withCs hlma' l d_b (taskUnits newEFLAGS rpl s).regs.cpl)

end TaskSwitch

/-! ## Register writes that recompute nothing -/

/-- Registers written under an unchanged cache: every part must keep its value. -/
theorem consistent_sameCache {s : Cpu} (h : Consistent s) {r : Regs} (hdb : r.csDb = s.regs.csDb)
    (b : Bool) :
    Consistent { s with regs := r, user_pl := b } ↔
      r.mode = s.regs.mode ∧ r.useOk = s.regs.useOk ∧ r.alignMask = s.regs.alignMask := by
  rw [consistent_iff] at h ⊢
  simp only [h]
  unfold derive
  rw [hdb]
  constructor
  · intro heq
    injection heq with hm hu _ ha
    exact ⟨hm.symm, hu.symm, ha.symm⟩
  · rintro ⟨hm, hu, ha⟩
    rw [hm, hu, ha]

/-- On a consistent cache `updateFetchModeMask` after a register write that keeps CS changes
nothing that is cached. -/
theorem updateFetchModeMask_sameCache {s : Cpu} (h : Consistent s) {r : Regs}
    (hdb : r.csDb = s.regs.csDb) :
    updateFetchModeMask { s with regs := r } = { s with regs := r, user_pl := r.cpl == 3 } := by
  rw [consistent_iff] at h
  unfold updateFetchModeMask
  simp only [hdb, h]
  rfl

/-- A value of CR0 whose mode, FPU, AVX and alignment bits are those in force. -/
def Cr0Good (r : Regs) (cr0 : BitVec 32) : Prop :=
  (cr0.getLsbD 2 || cr0.getLsbD 3) = (r.get_EM || r.get_TS) ∧
    (r.mode.isProtected = true → r.get_OSXSAVE = true → r.ymmState = true →
      cr0.getLsbD 3 = r.get_TS) ∧
    (r.get_LMA = false → cr0.getLsbD 0 = r.get_PE) ∧
    (r.cpl = 3 → r.get_AC = true → cr0.getLsbD 18 = r.get_AM)

/-- A value of CR4 whose OSFXSR and OSXSAVE bits are those in force wherever a unit depends on
them. -/
def Cr4Good (r : Regs) (cr4 : BitVec 64) : Prop :=
  (r.get_TS = false → r.get_EM = false → cr4.getLsbD 9 = r.get_OSFXSR) ∧
    (r.get_TS = false → r.mode.isProtected = true → r.ymmState = true →
      cr4.getLsbD 18 = r.get_OSXSAVE) ∧
    (r.mode.isLong64 = true → r.tileState = true → cr4.getLsbD 18 = r.get_OSXSAVE)

/-- Values of EFER, CR0 and CR4, loaded together, whose mode, unit and alignment bits are those in
force. -/
def ControlGood (r : Regs) (efer cr0 : BitVec 32) (cr4 : BitVec 64) : Prop :=
  (efer.getLsbD 10 = r.get_LMA ∧ (r.get_LMA = false → cr0.getLsbD 0 = r.get_PE)) ∧
    ((cr0.getLsbD 2 || cr0.getLsbD 3) = (r.get_EM || r.get_TS) ∧
      (r.get_EM = false → r.get_TS = false → cr4.getLsbD 9 = r.get_OSFXSR) ∧
      (r.mode.isProtected = true → r.ymmState = true →
        (!cr0.getLsbD 3 && cr4.getLsbD 18) = (!r.get_TS && r.get_OSXSAVE)) ∧
      (r.mode.isLong64 = true → r.tileState = true → cr4.getLsbD 18 = r.get_OSXSAVE)) ∧
    (r.cpl = 3 → r.get_AC = true → cr0.getLsbD 18 = r.get_AM)

theorem cr0_useOk {r : Regs} {cr0 : BitVec 32} (hmode : ({ r with cr0 } : Regs).mode = r.mode) :
    ({ r with cr0 } : Regs).useOk = r.useOk ↔
      (cr0.getLsbD 2 || cr0.getLsbD 3) = (r.get_EM || r.get_TS) ∧
        (r.mode.isProtected = true → r.get_OSXSAVE = true → r.ymmState = true →
          cr0.getLsbD 3 = r.get_TS) := by
  have hEM : ({ r with cr0 } : Regs).get_EM = cr0.getLsbD 2 := rfl
  have hTS : ({ r with cr0 } : Regs).get_TS = cr0.getLsbD 3 := rfl
  have hrest : ({ r with cr0 } : Regs).get_OSFXSR = r.get_OSFXSR ∧
      ({ r with cr0 } : Regs).get_OSXSAVE = r.get_OSXSAVE ∧
      ({ r with cr0 } : Regs).ymmState = r.ymmState ∧
      ({ r with cr0 } : Regs).zmmState = r.zmmState ∧
      ({ r with cr0 } : Regs).tileState = r.tileState := ⟨rfl, rfl, rfl, rfl, rfl⟩
  obtain ⟨hfx, hos, hymm, hzmm, htile⟩ := hrest
  unfold Regs.useOk Regs.fpuOk Regs.sseOk Regs.evexOk Regs.avxOk Regs.amxOk
  rw [hmode, hEM, hTS, hfx, hos, hymm, hzmm, htile, UseOk.mk.injEq]
  cases cr0.getLsbD 2 <;> cases cr0.getLsbD 3 <;> cases r.get_EM <;> cases r.get_TS <;> simp
  all_goals
    intro h hp ho hy
    simp [h hp ho] at hy

theorem cr0_sameCache (r : Regs) (cr0 : BitVec 32) :
    (({ r with cr0 } : Regs).mode = r.mode ∧ ({ r with cr0 } : Regs).useOk = r.useOk ∧
      ({ r with cr0 } : Regs).alignMask = r.alignMask) ↔ Cr0Good r cr0 := by
  have hmode : ({ r with cr0 } : Regs).mode = r.mode ↔
      (r.get_LMA = false → cr0.getLsbD 0 = r.get_PE) := by
    unfold Regs.mode Regs.get_LMA Regs.get_PE Regs.get_VM
    grind
  have halign : ({ r with cr0 } : Regs).alignMask = r.alignMask ↔
      (r.cpl = 3 → r.get_AC = true → cr0.getLsbD 18 = r.get_AM) := by
    unfold Regs.alignMask Regs.get_AM Regs.get_AC
    grind
  unfold Cr0Good
  rw [halign]
  constructor
  · rintro ⟨hm, hu, ha⟩
    obtain ⟨hfpu, hts⟩ := (cr0_useOk hm).mp hu
    exact ⟨hfpu, hts, hmode.mp hm, ha⟩
  · rintro ⟨hfpu, hts, hm, ha⟩
    exact ⟨hmode.mpr hm, (cr0_useOk (hmode.mpr hm)).mpr ⟨hfpu, hts⟩, ha⟩

theorem cr4_sameCache (r : Regs) (cr4 : BitVec 64) :
    (({ r with cr4 } : Regs).mode = r.mode ∧ ({ r with cr4 } : Regs).useOk = r.useOk ∧
      ({ r with cr4 } : Regs).alignMask = r.alignMask) ↔ Cr4Good r cr4 := by
  have hmode : ({ r with cr4 } : Regs).mode = r.mode := rfl
  have halign : ({ r with cr4 } : Regs).alignMask = r.alignMask := rfl
  have hfx : ({ r with cr4 } : Regs).get_OSFXSR = cr4.getLsbD 9 := rfl
  have hos : ({ r with cr4 } : Regs).get_OSXSAVE = cr4.getLsbD 18 := rfl
  have hrest : ({ r with cr4 } : Regs).get_EM = r.get_EM ∧
      ({ r with cr4 } : Regs).get_TS = r.get_TS ∧
      ({ r with cr4 } : Regs).ymmState = r.ymmState ∧
      ({ r with cr4 } : Regs).zmmState = r.zmmState ∧
      ({ r with cr4 } : Regs).tileState = r.tileState := ⟨rfl, rfl, rfl, rfl, rfl⟩
  obtain ⟨hEM, hTS, hymm, hzmm, htile⟩ := hrest
  rw [and_iff_right hmode, iff_true_intro halign, and_true]
  unfold Cr4Good Regs.useOk Regs.fpuOk Regs.sseOk Regs.evexOk Regs.avxOk Regs.amxOk
  rw [hmode, hfx, hos, hEM, hTS, hymm, hzmm, htile, UseOk.mk.injEq]
  cases r.get_EM <;> cases r.get_TS <;> cases r.mode.isLong64 <;> cases r.tileState <;>
    cases r.mode.isProtected <;> cases r.ymmState <;> simp
  all_goals tauto

/-- A change of LMA always changes the mode. -/
theorem efer_sameCache (r : Regs) (efer : BitVec 32) :
    (({ r with efer } : Regs).mode = r.mode ∧ ({ r with efer } : Regs).useOk = r.useOk ∧
      ({ r with efer } : Regs).alignMask = r.alignMask) ↔ efer.getLsbD 10 = r.get_LMA := by
  constructor
  · rintro ⟨hm, -⟩
    unfold Regs.mode Regs.get_LMA Regs.get_PE Regs.get_VM at hm
    unfold Regs.get_LMA
    grind
  · intro hlma
    have hmode : ({ r with efer } : Regs).mode = r.mode := Regs.mode_congr hlma rfl rfl rfl
    exact ⟨hmode, Regs.useOk_congr hmode rfl rfl rfl, rfl⟩

section HostControl

variable (r : Regs) (efer cr0 : BitVec 32) (cr4 : BitVec 64) (cr3 : UInt64)

/-- The registers after a VM exit that was aborted. -/
def Regs.withHostControl : Regs :=
  { r with efer, cr0 := cr0 ||| 0x10, cr4, cr3, eflags := r.eflags &&& ~~~0x200 }

theorem hostControl_mode :
    (r.withHostControl efer cr0 cr4 cr3).mode = r.mode ↔
      efer.getLsbD 10 = r.get_LMA ∧ (r.get_LMA = false → cr0.getLsbD 0 = r.get_PE) := by
  have hLMA : (r.withHostControl efer cr0 cr4 cr3).get_LMA = efer.getLsbD 10 := rfl
  have hPE : (r.withHostControl efer cr0 cr4 cr3).get_PE = cr0.getLsbD 0 := by
    simp [Regs.get_PE, Regs.withHostControl]
  have hVM : (r.withHostControl efer cr0 cr4 cr3).get_VM = r.get_VM := by
    simp [Regs.get_VM, Regs.withHostControl]
  have hL : (r.withHostControl efer cr0 cr4 cr3).csL = r.csL := rfl
  unfold Regs.mode
  rw [hLMA, hPE, hVM, hL]
  cases efer.getLsbD 10 <;> cases r.get_LMA <;> cases cr0.getLsbD 0 <;> cases r.get_PE <;>
    cases r.get_VM <;> cases r.csL <;> simp

theorem hostControl_alignMask :
    (r.withHostControl efer cr0 cr4 cr3).alignMask = r.alignMask ↔
      (r.cpl = 3 → r.get_AC = true → cr0.getLsbD 18 = r.get_AM) := by
  have hAM : (r.withHostControl efer cr0 cr4 cr3).get_AM = cr0.getLsbD 18 := by
    simp [Regs.get_AM, Regs.withHostControl]
  have hAC : (r.withHostControl efer cr0 cr4 cr3).get_AC = r.get_AC := by
    simp [Regs.get_AC, Regs.withHostControl]
  have hC : (r.withHostControl efer cr0 cr4 cr3).cpl = r.cpl := rfl
  unfold Regs.alignMask
  rw [hAM, hAC, hC]
  grind

/-- In the same mode the units compare one by one; EVEX follows AVX. -/
theorem hostControl_useOk (hmode : (r.withHostControl efer cr0 cr4 cr3).mode = r.mode) :
    (r.withHostControl efer cr0 cr4 cr3).useOk = r.useOk ↔
      (cr0.getLsbD 2 || cr0.getLsbD 3) = (r.get_EM || r.get_TS) ∧
        (r.get_EM = false → r.get_TS = false → cr4.getLsbD 9 = r.get_OSFXSR) ∧
        (r.mode.isProtected = true → r.ymmState = true →
          (!cr0.getLsbD 3 && cr4.getLsbD 18) = (!r.get_TS && r.get_OSXSAVE)) ∧
        (r.mode.isLong64 = true → r.tileState = true → cr4.getLsbD 18 = r.get_OSXSAVE) := by
  have hEM : (r.withHostControl efer cr0 cr4 cr3).get_EM = cr0.getLsbD 2 := by
    simp [Regs.get_EM, Regs.withHostControl]
  have hTS : (r.withHostControl efer cr0 cr4 cr3).get_TS = cr0.getLsbD 3 := by
    simp [Regs.get_TS, Regs.withHostControl]
  have hcr4 : (r.withHostControl efer cr0 cr4 cr3).get_OSFXSR = cr4.getLsbD 9 ∧
      (r.withHostControl efer cr0 cr4 cr3).get_OSXSAVE = cr4.getLsbD 18 := ⟨rfl, rfl⟩
  have hxcr0 : (r.withHostControl efer cr0 cr4 cr3).ymmState = r.ymmState ∧
      (r.withHostControl efer cr0 cr4 cr3).zmmState = r.zmmState ∧
      (r.withHostControl efer cr0 cr4 cr3).tileState = r.tileState := ⟨rfl, rfl, rfl⟩
  obtain ⟨hfx, hos⟩ := hcr4
  obtain ⟨hymm, hzmm, htile⟩ := hxcr0
  have hfpu : (r.withHostControl efer cr0 cr4 cr3).fpuOk = r.fpuOk ↔
      (cr0.getLsbD 2 || cr0.getLsbD 3) = (r.get_EM || r.get_TS) := by
    unfold Regs.fpuOk
    rw [hEM, hTS, Bool.not_inj_iff]
  have hsse : (cr0.getLsbD 2 || cr0.getLsbD 3) = (r.get_EM || r.get_TS) →
      ((r.withHostControl efer cr0 cr4 cr3).sseOk = r.sseOk ↔
        (r.get_EM = false → r.get_TS = false → cr4.getLsbD 9 = r.get_OSFXSR)) := by
    unfold Regs.sseOk
    rw [hEM, hTS, hfx]
    cases cr0.getLsbD 2 <;> cases cr0.getLsbD 3 <;> cases r.get_EM <;> cases r.get_TS <;> simp
  have havx : (r.withHostControl efer cr0 cr4 cr3).avxOk = r.avxOk ↔
      (r.mode.isProtected = true → r.ymmState = true →
        (!cr0.getLsbD 3 && cr4.getLsbD 18) = (!r.get_TS && r.get_OSXSAVE)) := by
    unfold Regs.avxOk
    rw [hTS, hos, hymm, hmode]
    cases r.mode.isProtected <;> cases r.ymmState <;> simp
  have hevex : (r.withHostControl efer cr0 cr4 cr3).avxOk = r.avxOk →
      (r.withHostControl efer cr0 cr4 cr3).evexOk = r.evexOk := by
    intro h
    unfold Regs.evexOk
    rw [h, hzmm]
  have hamx : (r.withHostControl efer cr0 cr4 cr3).amxOk = r.amxOk ↔
      (r.mode.isLong64 = true → r.tileState = true → cr4.getLsbD 18 = r.get_OSXSAVE) := by
    unfold Regs.amxOk
    rw [hos, htile, hmode]
    cases r.mode.isLong64 <;> cases r.tileState <;> simp
  unfold Regs.useOk
  rw [UseOk.mk.injEq, hfpu, havx, hamx]
  constructor
  · rintro ⟨h, hs, ha, -, hx⟩
    exact ⟨h, (hsse h).1 hs, ha, hx⟩
  · rintro ⟨h, hs, ha, hx⟩
    exact ⟨h, (hsse h).2 hs, ha, hevex (havx.2 ha), hx⟩

theorem hostControl_sameCache :
    ((r.withHostControl efer cr0 cr4 cr3).mode = r.mode ∧
      (r.withHostControl efer cr0 cr4 cr3).useOk = r.useOk ∧
      (r.withHostControl efer cr0 cr4 cr3).alignMask = r.alignMask) ↔
        ControlGood r efer cr0 cr4 := by
  unfold ControlGood
  rw [hostControl_alignMask, ← hostControl_mode r efer cr0 cr4 cr3]
  exact and_congr_right fun hmode =>
    and_congr_left fun _ => hostControl_useOk r efer cr0 cr4 cr3 hmode

end HostControl

theorem consistent_vmexitAborted {s : Cpu} (h : Consistent s) (efer cr0 : BitVec 32)
    (cr4 : BitVec 64) (cr3 : UInt64) :
    Consistent (vmexitAborted efer cr0 cr4 cr3 s) ↔ ControlGood s.regs efer cr0 cr4 := by
  rw [← hostControl_sameCache s.regs efer cr0 cr4 cr3]
  exact consistent_sameCache (r := s.regs.withHostControl efer cr0 cr4 cr3) h rfl s.user_pl

theorem consistent_set_cr_zero {s : Cpu} (h : Consistent s) (v : UInt64) :
    Consistent (set_cr 0 v s) ↔ Cr0Good s.regs (v.toBitVec.setWidth 32) := by
  have hbits : Cr0Good s.regs (v.toBitVec.setWidth 32 ||| 0x10) ↔
      Cr0Good s.regs (v.toBitVec.setWidth 32) := by
    unfold Cr0Good
    simp
  rw [← hbits, ← cr0_sameCache]
  have hsame := updateFetchModeMask_sameCache h
    (r := { s.regs with cr0 := v.toBitVec.setWidth 32 ||| 0x10 }) rfl
  unfold set_cr
  simp only [hsame]
  exact consistent_sameCache (r := { s.regs with cr0 := v.toBitVec.setWidth 32 ||| 0x10 }) h rfl _

theorem consistent_set_cr_four {s : Cpu} (h : Consistent s) (v : UInt64) :
    Consistent (set_cr 4 v s) ↔ Cr4Good s.regs v.toBitVec := by
  rw [← cr4_sameCache]
  exact consistent_sameCache (r := { s.regs with cr4 := v.toBitVec }) h rfl s.user_pl

theorem consistent_set_msr {s : Cpu} (h : Consistent s) (msr : ℕ) (v : UInt64) :
    Consistent (set_msr msr v s) ↔
      (msr = 0xC0000080 → (v.toBitVec.setWidth 32).getLsbD 10 = s.regs.get_LMA) := by
  unfold set_msr
  split_ifs with hmsr
  · rw [forall_prop_of_true hmsr, ← efer_sameCache]
    exact consistent_sameCache (r := { s.regs with efer := v.toBitVec.setWidth 32 }) h rfl s.user_pl
  · exact iff_of_true h fun hefer => absurd hefer hmsr

theorem consistent_enable_shadow_stack {s : Cpu} (h : Consistent s) (mapped : Bool) :
    Consistent (enable_shadow_stack mapped s) := by
  unfold enable_shadow_stack
  cases mapped with
  | false => exact h
  | true =>
    have hcr0 := (cr0_sameCache s.regs ((s.regs.cr0 ||| 0x10000) ||| 0x10)).mpr (by
      unfold Cr0Good Regs.get_EM Regs.get_TS Regs.get_PE Regs.get_AM
      simp)
    have hcr4 := (cr4_sameCache { s.regs with cr0 := (s.regs.cr0 ||| 0x10000) ||| 0x10 }
      (s.regs.cr4 ||| 0x800000)).mpr (by
        unfold Cr4Good Regs.get_OSFXSR Regs.get_OSXSAVE
        simp)
    obtain ⟨hm0, hu0, ha0⟩ := hcr0
    obtain ⟨hm4, hu4, ha4⟩ := hcr4
    have hsame := updateFetchModeMask_sameCache h
      (r := { s.regs with
        cr0 := (s.regs.cr0 ||| 0x10000) ||| 0x10, cr4 := s.regs.cr4 ||| 0x800000 }) rfl
    simp only [Bool.not_true, Bool.false_eq_true, if_false, hsame]
    exact (consistent_sameCache (r := { s.regs with
        cr0 := (s.regs.cr0 ||| 0x10000) ||| 0x10, cr4 := s.regs.cr4 ||| 0x800000 }) h rfl _).mpr
      ⟨hm4.trans hm0, hu4.trans hu0, ha4.trans ha0⟩

theorem consistent_handleSseModeChange {s : Cpu} (h : Consistent s) :
    Consistent (handleSseModeChange s) := by
  rw [consistent_iff] at h ⊢
  rw [handleSseModeChange_derived, h]
  rfl

theorem consistent_updateFetchModeMask {s : Cpu} (h : Consistent s) :
    Consistent (updateFetchModeMask s) := by
  rw [consistent_iff] at h ⊢
  rw [updateFetchModeMask_derived, h]
  rfl

/-- Whatever state the reset leaves, `enter_long_mode` recomputes everything. -/
theorem consistent_enter_long_mode (reset : Cpu) : Consistent (enter_long_mode reset) := by
  refine consistent_updateFetchModeMask (consistent_handleSseModeChange
    ((consistent_handleCpuContextChange _).mpr ?_))
  rw [handleCpuModeChange_regs, setEFlags_regs]
  rintro ⟨-, -, hlma, -⟩
  unfold Regs.get_LMA Regs.withModeCpl Regs.withEFlags at hlma
  simp at hlma

/-! ## Every run -/

/-- The register writes that leave the cache what the registers say. -/
def Good (s : Cpu) : Call → Prop
  | .set_cr 0 v => Cr0Good s.regs (v.toBitVec.setWidth 32)
  | .set_cr 4 v => Cr4Good s.regs v.toBitVec
  | .set_msr msr v =>
    msr = 0xC0000080 → (v.toBitVec.setWidth 32).getLsbD 10 = s.regs.get_LMA
  | .set_rflags v => EFlagsGood s.regs ((v.toBitVec.setWidth 32 &&& ~~~0x10100) ||| 0x2)
  | .step (.SetCR0 val) => SetCR0Good s val
  | .step (.writeEFlags flags changeMask) =>
    EFlagsGood s.regs ((s.regs.eflags &&& ~~~(changeMask &&& supportMask)) |||
      (flags &&& (changeMask &&& supportMask)))
  | .step (.task_switch newEFLAGS rpl e) => TaskGood s.regs newEFLAGS rpl e
  | .step (.contextChange r) => TransitionGood r
  | .step (.vmexitAborted efer cr0 cr4 _) => ControlGood s.regs efer cr0 cr4
  | _ => True

theorem consistent_set_cr {s : Cpu} (h : Consistent s) (n : ℕ) (v : UInt64) :
    Consistent (set_cr n v s) ↔ Good s (.set_cr n v) := by
  match n with
  | 0 => exact consistent_set_cr_zero h v
  | 1 => exact iff_of_true h trivial
  | 2 =>
    have hsame := consistent_sameCache (r := { s.regs with cr2 := v }) h rfl s.user_pl
    exact iff_of_true (hsame.mpr ⟨rfl, rfl, rfl⟩) trivial
  | 3 =>
    have hsame := consistent_sameCache (r := { s.regs with cr3 := v }) h rfl s.user_pl
    exact iff_of_true (hsame.mpr ⟨rfl, rfl, rfl⟩) trivial
  | 4 => exact consistent_set_cr_four h v
  | n + 5 => exact iff_of_true h trivial

/-- One call keeps a consistent cache consistent exactly when it is good. -/
theorem consistent_call_iff {s : Cpu} (h : Consistent s) (c : Call) :
    Consistent (c.run s) ↔ Good s c := by
  have hcur := ((consistent_iff_current s).mp h).1
  cases c with
  | new reset => exact iff_of_true (consistent_enter_long_mode reset) trivial
  | set_cr n v => exact consistent_set_cr h n v
  | set_msr msr v => exact consistent_set_msr h msr v
  | set_rflags v => exact consistent_setEFlags hcur _
  | enable_shadow_stack mapped =>
    exact iff_of_true (consistent_enable_shadow_stack h mapped) trivial
  | step op =>
    cases op with
    | SetCR0 val => exact consistent_SetCR0 h val
    | SetCR4 val => exact iff_of_true (consistent_SetCR4 h val) trivial
    | SetEFER val suppmask => exact iff_of_true (consistent_SetEFER h val suppmask) trivial
    | CLTS => exact iff_of_true (consistent_CLTS h) trivial
    | XSETBV eax => exact iff_of_true (consistent_XSETBV h eax) trivial
    | load_cs l d_b cpl => exact iff_of_true (consistent_load_cs hcur l d_b cpl) trivial
    | setup_flat_CS rpl longmode =>
      exact iff_of_true (consistent_setup_flat_CS hcur rpl longmode) trivial
    | load_seg_reg_CS => exact iff_of_true (consistent_load_seg_reg_CS h) trivial
    | writeEFlags flags changeMask => exact consistent_setEFlags hcur _
    | set_AC val => exact iff_of_true (consistent_set_AC hcur val) trivial
    | clear_VM => exact iff_of_true (consistent_clear_VM h) trivial
    | stack_return_to_v86 flags32 =>
      exact iff_of_true (consistent_stack_return_to_v86 h flags32) trivial
    | task_switch newEFLAGS rpl e => exact consistent_task_switch newEFLAGS rpl h e
    | contextChange r => exact consistent_handleCpuContextChange _
    | vmexitAborted efer cr0 cr4 cr3 => exact consistent_vmexitAborted h efer cr0 cr4 cr3

/-- The cache and registers after a hardware reset. -/
def resetCpu : Cpu :=
  let regs : Regs :=
    { cr0 := 0x60000010, cr2 := 0, cr3 := 0, cr4 := 0, efer := 0, xcr0 := 1, eflags := 2
      csL := false, csDb := false, cpl := 0 }
  { regs, derived := derive regs, user_pl := false }

end Mode

end Bochs
