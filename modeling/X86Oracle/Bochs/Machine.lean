import Mathlib
import X86Oracle.Hw.Layout
import X86Oracle.Bochs.Clock
import X86Oracle.Bochs.ICache
import X86Oracle.Bochs.Mode
import X86Oracle.Bochs.RegisterFile

/-!
# The process globals behind a Bochs oracle

`bx_cpu` with its local APIC and its AMX unit, the trace cache, the clock, the guest memory and the
shim's own globals, as one record; and what constructing an oracle does to them: `BX_CPU_C::reset`
(`cpu/init.cc`), `enter_long_mode` and `x86oracle_bochs_new` of the shim, `BochsOracle::init`.

* `Core` and the clock are what a later step can depend on. `Scratch` is written before it is read.
* Members that no instruction changes (the CPUID tables and the masks derived from them) are left
  out, as are members that this configuration of the emulator does not have.
* `toCore_construct`: a construction leaves one fixed core, up to `Leftover`.
* `clock_construct`: it leaves the clock where it stands.
-/

namespace Bochs

open Oracle

/-! ## Parts of the CPU -/

/-- What `bx_segment_reg_t` has besides the selector, base and limit. -/
structure Descriptor where
  index : ℕ
  ti : Bool
  rpl : ℕ
  valid : ℕ
  p : Bool
  dpl : ℕ
  segment : Bool
  type : ℕ
  g : Bool
  d_b : Bool
  l : Bool
  avl : Bool
deriving DecidableEq

/-- LDTR and TR.  Nothing writes the `l` of a system segment. -/
structure SystemSegment extends Segment where
  index : ℕ
  ti : Bool
  rpl : ℕ
  valid : ℕ
  p : Bool
  dpl : ℕ
  segment : Bool
  type : ℕ
  g : Bool
  d_b : Bool
  avl : Bool

/-- `bx_global_segment_reg_t`. -/
structure TableRegister where
  base : UInt64
  limit : UInt16

/-- `i387_t`. -/
structure I387 where
  cwd : UInt16
  swd : UInt16
  twd : UInt16
  foo : UInt16
  fip : UInt64
  fdp : UInt64
  fcs : UInt16
  fds : UInt16
  st_space : Fin 8 → UInt16 × UInt64
  tos : UInt8

/-- `i387_t::reset`. -/
def I387.reset : I387 :=
  { cwd := 0x0040, swd := 0, twd := 0x5555, foo := 0, fip := 0, fdp := 0, fcs := 0, fds := 0
    st_space := fun _ => (0, 0), tos := 0 }

/-- `AMX`. -/
structure Amx where
  palette_id : ℕ
  start_row : ℕ
  /-- Rows and bytes in a row. -/
  tilecfg : Fin 8 → ℕ × ℕ
  tile : Fin 8 → Fin 16 → Fin 16 → UInt32
  tile_use_tracker : UInt32

/-- `AMX::clear`. -/
def Amx.clear : Amx :=
  { palette_id := 0, start_row := 0, tile_use_tracker := 0
    tile := fun _ _ _ => 0, tilecfg := fun _ => (0, 0) }

/-- The MSRs that no accessor of the shim reaches. -/
structure Msrs where
  apicbase : UInt64
  cstar : UInt64
  tsc_aux : UInt32
  sysenter_cs_msr : UInt32
  sysenter_esp_msr : UInt64
  sysenter_eip_msr : UInt64
  pat : UInt64
  mtrrphys : Fin 16 → UInt64
  mtrrfix64k : UInt64
  mtrrfix16k : Fin 2 → UInt64
  mtrrfix4k : Fin 8 → UInt64
  mtrr_deftype : UInt32
  ia32_feature_ctrl : UInt32
  ia32_xss : UInt64
  ia32_pl_ssp : Fin 4 → UInt64
  ia32_interrupt_ssp_table : UInt64
  ia32_umwait_ctrl : UInt32
  ia32_spec_ctrl : UInt32
  ia32_user_msr_ctrl : UInt64

/-- `bx_local_apic_c`, without its identity and its timer handles. -/
structure LocalApic where
  base_addr : UInt64
  mode : ℕ
  xapic_ext : UInt32
  apic_version_id : UInt32
  software_enabled : Bool
  spurious_vector : UInt8
  focus_disable : Bool
  task_priority : UInt32
  ldr : UInt32
  dest_format : UInt32
  isr : Fin 8 → UInt32
  tmr : Fin 8 → UInt32
  irr : Fin 8 → UInt32
  ier : Fin 8 → UInt32
  error_status : UInt32
  shadow_error_status : UInt32
  icr_hi : UInt32
  icr_lo : UInt32
  lvt : ℕ → UInt32
  timer_initial : UInt32
  timer_current : UInt32
  ticksInitial : UInt64
  timer_divconf : UInt32
  timer_divide_factor : UInt32
  timer_active : Bool
  vmx_timer_active : Bool
  mwaitx_timer_active : Bool

/-- `BX_LAPIC_BASE_ADDR`. -/
def lapicBaseAddr : UInt64 := 0xFEE00000

/-- `bx_local_apic_c::reset`; a timer that is active is deactivated. -/
def LocalApic.reset : LocalApic :=
  { base_addr := lapicBaseAddr, error_status := 0, shadow_error_status := 0, ldr := 0
    dest_format := 0xF, icr_hi := 0, icr_lo := 0, task_priority := 0
    irr := fun _ => 0, isr := fun _ => 0, tmr := fun _ => 0, ier := fun _ => 0xFFFFFFFF
    timer_divconf := 0, timer_divide_factor := 1, timer_initial := 0, timer_current := 0
    ticksInitial := 0, timer_active := false, vmx_timer_active := false
    mwaitx_timer_active := false, lvt := fun _ => 0x10000, spurious_vector := 0xFF
    software_enabled := false, focus_disable := false, mode := 2, apic_version_id := 0x00050014
    xapic_ext := 0 }

/-- `bx_local_apic_c::set_base`, with the APIC not in x2APIC mode and not disabled. -/
def LocalApic.set_base (a : LocalApic) (newbase : UInt64) : LocalApic :=
  { a with mode := newbase.toNat / 2 ^ 10 % 4, base_addr := newbase &&& ~~~0xFFF }

/-- The VMX members an instruction may look at outside of guest mode. -/
structure Vmx where
  in_vmx : Bool
  in_vmx_guest : Bool
  in_smm_vmx : Bool
  in_smm_vmx_guest : Bool
  vmcsptr : UInt64
  vmcshostptr : Option UInt64
  vmxonptr : UInt64
  nmi_unblocking_iret : Bool

/-- `BX_INVALID_VMCSPTR`. -/
def invalidVmcsptr : UInt64 := 0xFFFFFFFFFFFFFFFF

def Vmx.reset : Vmx :=
  { in_vmx := false, in_vmx_guest := false, in_smm_vmx := false, in_smm_vmx_guest := false
    vmcsptr := invalidVmcsptr, vmcshostptr := none, vmxonptr := invalidVmcsptr
    nmi_unblocking_iret := false }

/-- `VMCS_CACHE`, which a VM entry fills: the control a change of IF looks at, and the other words;
with `tsc_offset` and the values of the preemption timer, which it fills as well. -/
structure VmcsCache where
  externalInterruptVmexit : Bool
  words : ℕ → UInt64

/-- A valid `bx_TLB_entry`; its host pointer is the page at `ppf`. -/
structure TlbEntry where
  lpf : UInt64
  ppf : UInt64
  accessBits : UInt32
  lpf_mask : UInt32

/-- `TLB`; an invalid entry is none. -/
structure Tlb where
  entry : ℕ → Option TlbEntry
  split_large : Bool

/-- `TLB::flush`. -/
def Tlb.flush : Tlb := { entry := fun _ => none, split_large := false }

/-- `CPU_Activity_State`. -/
inductive ActivityState
  | active
  | hlt
  | shutdown
  | waitForSipi
  | waitForX87
  | mwait
  | mwaitIf
deriving DecidableEq, Repr

/-- `activity_state >= BX_ACTIVITY_STATE_MWAIT`. -/
def ActivityState.waits : ActivityState → Bool
  | mwait | mwaitIf => true
  | _ => false

/-- `StepCtl`. -/
structure StepCtl where
  armed : Bool
  retired : Bool
  faulted : Bool
  vector : UInt32
  error_code : UInt32
  halted : Bool

/-- `StepCtl()`. -/
def StepCtl.init : StepCtl :=
  { armed := false, retired := false, faulted := false, vector := 0, error_code := 0
    halted := false }

/-! ## The globals -/

/-- Everything a later step may depend on, but for the trace cache and the clock. -/
structure Core where
  mem : GuestMemory
  g_step : StepCtl
  regs : RegisterFile
  nil : UInt64
  desc : Fin 6 → Descriptor
  gdtr : TableRegister
  idtr : TableRegister
  ldtr : SystemSegment
  tr : SystemSegment
  dr : Fin 4 → UInt64
  dr6 : UInt32
  dr7 : UInt32
  debug_trap : UInt32
  linaddr_width : ℕ
  xcr0 : BitVec 32
  i387 : I387
  mxcsr : UInt32
  mxcsr_mask : UInt32
  opmask : Fin 8 → UInt64
  /-- What armed the monitor, 0 if it is not armed. -/
  armed_by : ℕ
  lapic : LocalApic
  smbase : UInt32
  msr : Msrs
  amx : Amx
  vmx : Vmx
  in_event : Bool
  EXT : Bool
  activity_state : ActivityState
  pending_event : UInt32
  event_mask : UInt32
  in_smm : Bool
  derived : Mode.Derived
  user_pl : Bool
  /-- `BX_ET_NONE` is -1. -/
  last_exception_type : ℤ
  speculative_rsp : Bool
  icount : UInt64
  icount_last_sync : UInt64
  inhibit_mask : UInt32
  inhibit_icount : UInt64
  eipPageBias : UInt64
  eipPageWindowSize : UInt32
  eipFetchPtr : Option UInt64
  espPageBias : UInt64
  espPageWindowSize : UInt32
  espHostPtr : Option UInt64
  espPageFineGranularityMapping : UInt32
  DTLB : Tlb
  ITLB : Tlb
  PDPTR_CACHE : Fin 4 → UInt64

/-- Members that are written before they are read: by `prefetch`, by the instruction that uses
them, or by a VM entry. -/
structure Scratch where
  prev_rsp : UInt64
  prev_ssp : UInt64
  tmp : UInt64
  vtmp : Fin 8 → UInt64
  monitor_addr : UInt64
  pAddrFetchPage : UInt64
  pAddrStackPage : UInt64
  far_branch_cs : UInt16
  far_branch_rip : UInt64
  address_xlation : ℕ → UInt64

structure Machine extends Core where
  /-- Written by every step before it runs, as is the next one. -/
  async_event : UInt32
  kill_bochs_request : Bool
  clock : Clock
  traces : TraceCache
  vmcs : VmcsCache
  scratch : Scratch

namespace Machine

def setRegs (m : Machine) (regs : RegisterFile) : Machine := { m with regs }

/-- `BX_ASYNC_EVENT_STOP_TRACE`. -/
def stopTrace : UInt32 := 0x80000000

/-! ### The cached mode -/

/-- What `Bochs.Mode` is about. -/
def mode (m : Machine) : Mode.Cpu where
  regs :=
    { cr0 := m.regs.cr0.toBitVec, cr2 := m.regs.cr2, cr3 := m.regs.cr3, cr4 := m.regs.cr4.toBitVec
      efer := m.regs.efer.toBitVec, xcr0 := m.xcr0, eflags := m.regs.flags.eflags
      csL := (m.desc segCs).l, csDb := (m.desc segCs).d_b, cpl := (m.desc segCs).rpl }
  derived := m.derived
  user_pl := m.user_pl

/-- The outcome of a recomputation: the derived state, and CPL. -/
def setMode (m : Machine) (s : Mode.Cpu) : Machine :=
  { m with
    derived := s.derived
    user_pl := s.user_pl
    desc := Function.update m.desc segCs { m.desc segCs with rpl := s.regs.cpl } }

def mapMode (m : Machine) (f : Mode.Cpu → Mode.Cpu) : Machine := m.setMode (f m.mode)

/-! ### Flushing -/

def invalidate_prefetch_q (m : Machine) : Machine := { m with eipPageWindowSize := 0 }

def invalidate_stack_cache (m : Machine) : Machine := { m with espPageWindowSize := 0 }

def wakeup_monitor (m : Machine) : Machine :=
  { m with
    activity_state := if m.activity_state.waits then .active else m.activity_state
    armed_by := 0
    lapic.mwaitx_timer_active := false }

def TLB_flush (m : Machine) : Machine :=
  let m := m.invalidate_prefetch_q.invalidate_stack_cache
  let m := { m with DTLB := .flush, ITLB := .flush }
  let m := m.wakeup_monitor
  { m with traces.icache := m.traces.icache.breakLinks.1 }

def flushICaches (m : Machine) : Machine :=
  { m with traces := m.traces.flushICaches, async_event := m.async_event ||| stopTrace }

/-! ### Flags -/

def raiseAsync (m : Machine) : Machine := { m with async_event := 1 }

def mask_event (m : Machine) (event : UInt32) : Machine :=
  { m with event_mask := m.event_mask ||| event }

def unmask_event (m : Machine) (event : UInt32) : Machine :=
  { m with
    event_mask := m.event_mask &&& ~~~event
    async_event := if m.pending_event &&& event ≠ 0 then 1 else m.async_event }

/-- `handleInterruptMaskChange`: the events that IF masks. -/
def handleInterruptMaskChange (m : Machine) : Machine :=
  if m.regs.flags.eflags.getLsbD 9 then m.unmask_event 0xE40
  else if m.vmx.in_vmx_guest && m.vmcs.externalInterruptVmexit then
    (m.mask_event 0x240).unmask_event 0xC00
  else m.mask_event 0x1F40

/-- `setEFlags`, on the registers; the old flags in long mode with VM set are a panic. -/
def loadFlags (regs : RegisterFile) (new_eflags : BitVec 32) : RegisterFile :=
  { regs with
    flags := regs.flags.setEFlags regs.longMode new_eflags
    panics := regs.panics + if regs.longMode && regs.flags.eflags.getLsbD 17 then 1 else 0
    long := regs.long }

def setEFlags (m : Machine) (new_eflags : BitVec 32) : Machine :=
  let mode := Mode.setEFlags new_eflags m.mode
  let regs := loadFlags m.regs new_eflags
  let changed := m.regs.flags.eflags ^^^ regs.flags.eflags
  let m := m.setRegs regs
  let m := if regs.flags.eflags.getLsbD 16 then m.invalidate_prefetch_q else m
  let m := if regs.flags.eflags.getLsbD 8 then m.raiseAsync else m
  let m := if changed.getLsbD 9 then m.handleInterruptMaskChange else m
  m.setMode mode

/-! ### Reset -/

/-- The registers after a reset in real mode. -/
def resetRegs : RegisterFile where
  gen_reg _ := 0
  rip := 0xFFF0
  prev_rip := 0xFFF0
  -- `clearEFlagsOSZAPC` after the lazy state was zeroed
  flags := { eflags := 2, oszapc := { result := 1, auxbits := 0 } }
  longMode := false
  vmm _ _ := 0
  ssp := 0
  sregs n :=
    if n = segCs then { selector := 0xF000, base := 0xFFFF0000, limit_scaled := 0xFFFF }
    else { selector := 0, base := 0, limit_scaled := 0xFFFF }
  cr0 := 0x60000010
  cr2 := 0
  cr3 := 0
  cr4 := 0
  efer := 0
  star := 0
  lstar := 0
  fmask := 0x00020200
  kernelgsbase := 0
  ia32_cet_control _ := 0
  panics := 0
  long := rfl

/-- The descriptor cache of a data segment, and of CS, in real mode. -/
def resetDescriptor (selector : ℕ) : Descriptor :=
  { index := selector / 8, ti := false, rpl := 0, valid := 7, p := true, dpl := 0, segment := true
    type := 3, g := false, d_b := false, l := false, avl := false }

/-- What `reset` writes of LDTR and TR: all but the `d_b` of the descriptor cache. -/
def resetSystemSegment (type : ℕ) (seg : SystemSegment) : SystemSegment :=
  { seg with
    selector := 0, index := 0, ti := false, rpl := 0, valid := 1, p := true, dpl := 0
    segment := false, type, base := 0, limit_scaled := 0xFFFF, avl := false, g := false }

def resetMsrs : Msrs where
  apicbase := lapicBaseAddr ||| 0x900
  cstar := 0
  tsc_aux := 0
  sysenter_cs_msr := 0
  sysenter_esp_msr := 0
  sysenter_eip_msr := 0
  pat := 0x0007040600070406
  mtrrphys _ := 0
  mtrrfix64k := 0
  mtrrfix16k _ := 0
  mtrrfix4k _ := 0
  mtrr_deftype := 0
  ia32_feature_ctrl := 0
  ia32_xss := 0
  ia32_pl_ssp _ := 0
  ia32_interrupt_ssp_table := 0
  ia32_umwait_ctrl := 0
  ia32_spec_ctrl := 0
  ia32_user_msr_ctrl := 0

/-- `BX_CPU_C::reset(BX_RESET_HARDWARE)`. -/
def reset (m : Machine) : Machine :=
  let m := { m with
    regs := resetRegs
    nil := 0
    icount := 0
    icount_last_sync := 0
    inhibit_mask := 0
    inhibit_icount := 0
    activity_state := .active
    debug_trap := 0
    async_event := 0
    speculative_rsp := false }
  let m := m.flushICaches
  let m := { m with
    desc := fun n => resetDescriptor (if n = segCs then 0xF000 else 0)
    gdtr := { base := 0, limit := 0xFFFF }
    idtr := { base := 0, limit := 0xFFFF }
    ldtr := resetSystemSegment 0x2 m.ldtr
    tr := resetSystemSegment 0xB m.tr
    derived.cpu_mode := .real
    dr := fun _ => 0
    dr6 := 0xFFFF0FF0
    dr7 := 0x400
    in_smm := false
    pending_event := 0
    event_mask := 0
    smbase := 0x30000
    linaddr_width := 48
    xcr0 := 1
    msr := resetMsrs
    lapic := LocalApic.reset.set_base (lapicBaseAddr ||| 0x900)
    EXT := false
    last_exception_type := -1
    eipPageBias := 0
    eipPageWindowSize := 0
    eipFetchPtr := none
    espPageBias := 0
    espPageWindowSize := 0
    espHostPtr := none
    espPageFineGranularityMapping := 0
    i387 := .reset
    derived.cpu_state_use_ok :=
      { fpu_mmx := false, sse := false, avx := false, evex := false, amx := false }
    mxcsr := 0x1F80
    mxcsr_mask := 0xFFFF
    opmask := fun _ => 0
    vmx := .reset
    in_event := false
    clock := m.clock.set_TSC 0 }
  m.mapMode Mode.handleCpuContextChange

/-! ### Long mode -/

/-- `load_segment`, by the bits of the attribute word. -/
def load_segment (selector : UInt16) (attr : BitVec 16) : Descriptor :=
  { index := selector.toNat / 8, ti := selector.toBitVec.getLsbD 2, rpl := selector.toNat % 4
    valid := 1, p := attr.getLsbD 7, dpl := attr.toNat / 2 ^ 5 % 4, segment := attr.getLsbD 4
    type := attr.toNat % 16, g := attr.getLsbD 15, d_b := attr.getLsbD 14, l := attr.getLsbD 13
    avl := attr.getLsbD 12 }

def attrCode64 : BitVec 16 := 0xA09B
def attrData : BitVec 16 := 0xC093

/-- The control and segment registers of `enter_long_mode`. -/
def longModeRegs (regs : RegisterFile) : RegisterFile :=
  { regs with
    cr0 := 0x80050033
    cr3 := ptPml4
    cr4 := 0x00040220
    efer := 0xD00
    longMode := true
    sregs := fun n =>
      { selector := if n = segCs then 0x10 else 0x18, base := 0, limit_scaled := 0xFFFFFFFF }
    long := rfl }

/-- The registers that `enter_long_mode` clears. -/
def clearRegs (regs : RegisterFile) : RegisterFile :=
  { regs with
    gen_reg := fun _ => 0, rip := 0, prev_rip := 0, vmm := fun _ _ => 0, long := regs.long }

def loadLongMode (m : Machine) : Machine :=
  { m with
    regs := longModeRegs m.regs
    xcr0 := 0x600E7
    desc := fun n =>
      if n = segCs then load_segment 0x10 attrCode64 else load_segment 0x18 attrData }

def clearRegisters (m : Machine) : Machine := { m.setRegs (clearRegs m.regs) with amx := .clear }

def enter_long_mode (m : Machine) : Machine :=
  let m := m.loadLongMode
  let m := m.setEFlags 0x2
  let m := m.clearRegisters.invalidate_prefetch_q
  let m := m.mapMode Mode.handleCpuModeChange
  let m := m.mapMode Mode.handleCpuContextChange
  let m := m.mapMode Mode.handleSseModeChange
  let m := m.mapMode Mode.updateFetchModeMask
  m.TLB_flush

/-! ### Construction -/

/-- `x86oracle_bochs_new`, past the checks and the start-up of the process. -/
def new (m : Machine) : Machine :=
  let m := reset { m with mem := .empty }
  let m := { m with mem := buildIdentityMap m.mem }
  let m := m.enter_long_mode
  { m with g_step := .init }

def set_dtr (m : Machine) (which : ℕ) (base limit : UInt64) : Machine :=
  if which ≠ 0 then { m with idtr := { base, limit := limit.toUInt16 } }
  else { m with gdtr := { base, limit := limit.toUInt16 } }

def set_tr_selector (m : Machine) (v : UInt64) : Machine :=
  { m with tr := { m.tr with selector := v.toUInt16 } }

/-- `BochsOracle::init`. -/
def construct (m : Machine) : Machine :=
  let m := m.new
  let m := m.set_dtr 0 Hw.gdtAddr Hw.gdtLimit.toUInt64
  let m := m.set_dtr 1 Hw.idtAddr Hw.idtLimit.toUInt64
  m.set_tr_selector Hw.selTss.toUInt64

end Machine

/-! ## The state a construction leaves -/

/-- What a construction does not write of the core. -/
structure Leftover where
  PDPTR_CACHE : Fin 4 → UInt64
  ldtr_d_b : Bool
  tr_d_b : Bool

def Machine.leftover (m : Machine) : Leftover :=
  { PDPTR_CACHE := m.PDPTR_CACHE, ldtr_d_b := m.ldtr.d_b, tr_d_b := m.tr.d_b }

/-- The mode of the state `enter_long_mode` leaves: every unit may be used. -/
def longModeDerived : Mode.Derived :=
  let use : Mode.UseOk := { fpu_mmx := true, sse := true, avx := true, evex := true, amx := true }
  { cpu_mode := .long64
    cpu_state_use_ok := use
    fetchModeMask := { is32 := false, is64 := true, protectedMode := true, use }
    alignment_check_mask := 0 }

/-- The core a construction leaves. -/
def Core.fresh (left : Leftover) : Core where
  mem := buildIdentityMap .empty
  g_step := .init
  regs := .fresh
  nil := 0
  desc n :=
    if n = segCs then Machine.load_segment 0x10 Machine.attrCode64
    else Machine.load_segment 0x18 Machine.attrData
  gdtr := { base := Hw.gdtAddr, limit := Hw.gdtLimit }
  idtr := { base := Hw.idtAddr, limit := Hw.idtLimit }
  ldtr :=
    { selector := 0, index := 0, ti := false, rpl := 0, valid := 1, p := true, dpl := 0
      segment := false, type := 0x2, base := 0, limit_scaled := 0xFFFF, avl := false, g := false
      d_b := left.ldtr_d_b }
  tr :=
    { selector := Hw.selTss, index := 0, ti := false, rpl := 0, valid := 1, p := true, dpl := 0
      segment := false, type := 0xB, base := 0, limit_scaled := 0xFFFF, avl := false, g := false
      d_b := left.tr_d_b }
  dr _ := 0
  dr6 := 0xFFFF0FF0
  dr7 := 0x400
  debug_trap := 0
  linaddr_width := 48
  xcr0 := 0x600E7
  i387 := .reset
  mxcsr := 0x1F80
  mxcsr_mask := 0xFFFF
  opmask _ := 0
  armed_by := 0
  lapic := LocalApic.reset.set_base (lapicBaseAddr ||| 0x900)
  smbase := 0x30000
  msr := Machine.resetMsrs
  amx := .clear
  vmx := .reset
  in_event := false
  EXT := false
  activity_state := .active
  pending_event := 0
  event_mask := 0
  in_smm := false
  derived := longModeDerived
  user_pl := false
  last_exception_type := -1
  speculative_rsp := false
  icount := 0
  icount_last_sync := 0
  inhibit_mask := 0
  inhibit_icount := 0
  eipPageBias := 0
  eipPageWindowSize := 0
  eipFetchPtr := none
  espPageBias := 0
  espPageWindowSize := 0
  espHostPtr := none
  espPageFineGranularityMapping := 0
  DTLB := .flush
  ITLB := .flush
  PDPTR_CACHE := left.PDPTR_CACHE

/-! ### The mode -/

/-- In long mode CPL is what it was. -/
theorem Mode.Regs.withModeCpl_of_LMA {r : Mode.Regs} (h : r.get_LMA = true) :
    r.withModeCpl = r := by
  unfold Mode.Regs.withModeCpl Mode.Regs.modeCpl
  rw [if_pos h]

theorem Mode.Regs.withEFlags_of_LMA {r : Mode.Regs} (h : r.get_LMA = true) (v : BitVec 32) :
    r.withEFlags v = { r with eflags := v &&& ~~~0x20000 } := by
  unfold Mode.Regs.withEFlags
  rw [if_pos h]

/-- The registers `enter_long_mode` loads. -/
def longModeView (cr2 : UInt64) (eflags : BitVec 32) : Mode.Regs :=
  { cr0 := 0x80050033, cr2, cr3 := ptPml4, cr4 := 0x40220, efer := 0xD00, xcr0 := 0x600E7, eflags
    csL := true, csDb := false, cpl := 0 }

theorem longModeView_LMA (cr2 : UInt64) (eflags : BitVec 32) :
    (longModeView cr2 eflags).get_LMA = true := by
  simp [longModeView, Mode.Regs.get_LMA]

/-- The mode `enter_long_mode` leaves. -/
theorem Mode.enter_long_mode_eq (s : Mode.Cpu) :
    Mode.enter_long_mode s =
      { regs := longModeView s.regs.cr2 2
        derived := longModeDerived
        user_pl := false } := by
  have hregs : (Mode.enter_long_mode s).regs = longModeView s.regs.cr2 2 := by
    have hset : (longModeView s.regs.cr2 s.regs.eflags).withEFlags 2 =
        longModeView s.regs.cr2 2 :=
      Mode.Regs.withEFlags_of_LMA (longModeView_LMA ..) 2
    have hcpl := Mode.Regs.withModeCpl_of_LMA (longModeView_LMA s.regs.cr2 2)
    unfold Mode.enter_long_mode Mode.handleCpuContextChange
    dsimp only
    simp only [Mode.updateFetchModeMask_regs, Mode.handleSseModeChange_regs,
      Mode.handleAvxModeChange_regs, Mode.handleFpuMmxModeChange_regs,
      Mode.handleCpuModeChange_regs, Mode.handleAlignmentCheck_regs]
    rw [Mode.setEFlags_eq]
    unfold longModeView at hset hcpl
    split_ifs
    · simp only [Mode.handleAlignmentCheck_regs, hset, hcpl, longModeView]
    · simp only [Mode.handleCpuModeChange_regs, Mode.handleAlignmentCheck_regs, hset, hcpl,
        longModeView]
  have hderived := (Mode.consistent_iff _).1 (Mode.consistent_enter_long_mode s)
  have hpl : (Mode.enter_long_mode s).user_pl = ((Mode.enter_long_mode s).regs.cpl == 3) := rfl
  rw [hregs] at hderived hpl
  generalize Mode.enter_long_mode s = t at hregs hderived hpl ⊢
  obtain ⟨regs, derived, user_pl⟩ := t
  dsimp only at hregs hderived hpl
  have hfixed : Mode.derive (longModeView 0 2) = longModeDerived := by decide
  rw [hregs, hderived, hpl, ← hfixed]
  rfl

namespace Machine

/-- `setEFlags` where neither TF nor RF is loaded and IF keeps its value. -/
theorem setEFlags_eq {m : Machine} {v : BitVec 32}
    (hRF : (loadFlags m.regs v).flags.eflags.getLsbD 16 = false)
    (hTF : (loadFlags m.regs v).flags.eflags.getLsbD 8 = false)
    (hIF : (m.regs.flags.eflags ^^^ (loadFlags m.regs v).flags.eflags).getLsbD 9 = false) :
    m.setEFlags v = (m.setRegs (loadFlags m.regs v)).setMode (Mode.setEFlags v m.mode) := by
  unfold setEFlags
  simp only [hRF, hTF, hIF, Bool.false_eq_true, if_false]

/-- A recomputation changes CPL at most. -/
def Recomputes (f : Mode.Cpu → Mode.Cpu) : Prop :=
  ∀ s, (f s).regs = { s.regs with cpl := (f s).regs.cpl }

/-- A mode that a recomputation of the machine's may have led to. -/
def Fits (m : Machine) (s : Mode.Cpu) : Prop :=
  s.regs = { m.mode.regs with cpl := s.regs.cpl }

theorem mode_setMode {m : Machine} {s : Mode.Cpu} (h : m.Fits s) : (m.setMode s).mode = s := by
  unfold Fits mode at h
  unfold mode
  cases s
  simp [setMode] at *
  exact h.symm

theorem mapMode_setMode {m : Machine} {s : Mode.Cpu} (h : m.Fits s) (f : Mode.Cpu → Mode.Cpu) :
    (m.setMode s).mapMode f = m.setMode (f s) := by
  unfold mapMode
  rw [mode_setMode h]
  simp [setMode]

theorem Fits.map {m : Machine} {s : Mode.Cpu} (h : m.Fits s) {f : Mode.Cpu → Mode.Cpu}
    (hf : Recomputes f) : m.Fits (f s) := by
  unfold Fits at *
  rw [hf s, h]

/-- A machine in long mode, with the registers `x86oracle_bochs_new` gives it. -/
def entered (m : Machine) : Machine :=
  { m with
    regs := RegisterFile.fresh
    xcr0 := 0x600E7
    desc := fun n => if n = segCs then load_segment 0x10 attrCode64 else load_segment 0x18 attrData
    amx := .clear
    eipPageWindowSize := 0
    derived := longModeDerived
    user_pl := false }

theorem recomputes_modeChange : Recomputes Mode.handleCpuModeChange := by
  intro s
  rw [Mode.handleCpuModeChange_regs]
  rfl

theorem recomputes_contextChange : Recomputes Mode.handleCpuContextChange := by
  intro s
  unfold Mode.handleCpuContextChange
  simp only [Mode.handleSseModeChange_regs, Mode.handleAvxModeChange_regs,
    Mode.handleFpuMmxModeChange_regs, Mode.handleCpuModeChange_regs,
    Mode.handleAlignmentCheck_regs]
  rfl

theorem recomputes_sseModeChange : Recomputes Mode.handleSseModeChange := fun _ => rfl

/-- The mode after the control registers are loaded is what `Mode.enter_long_mode` starts with. -/
theorem mode_loadLongMode {m : Machine} (h : m.regs = resetRegs) :
    m.loadLongMode.mode.regs = longModeView 0 2 := by
  unfold mode loadLongMode longModeView
  rw [h]
  rfl

theorem enter_long_mode_eq {m : Machine} (h : m.regs = resetRegs) :
    m.enter_long_mode = m.entered.TLB_flush := by
  have hregs := mode_loadLongMode h
  obtain ⟨s, hs⟩ : ∃ s, s = Mode.setEFlags 2 m.loadLongMode.mode := ⟨_, rfl⟩
  have hold : m.loadLongMode.regs = longModeRegs resetRegs := congrArg longModeRegs h
  have hnew : (loadFlags (longModeRegs resetRegs) 2).flags.eflags = 2 := by decide
  have hset := setEFlags_eq (m := m.loadLongMode) (v := 2) (by rw [hold, hnew]; decide)
    (by rw [hold, hnew]; decide) (by rw [hold, hnew]; decide)
  rw [← hs] at hset
  obtain ⟨b, hb⟩ : ∃ b, b = (m.loadLongMode.setRegs (loadFlags m.loadLongMode.regs
    2)).clearRegisters.invalidate_prefetch_q := ⟨_, rfl⟩
  have hclear :
      (m.loadLongMode.setEFlags 2).clearRegisters.invalidate_prefetch_q = b.setMode s := by
    rw [hset, hb]
    rfl
  have hbregs : b.regs = RegisterFile.fresh := by
    have hfresh : clearRegs (loadFlags (longModeRegs resetRegs) 2) = RegisterFile.fresh := rfl
    rw [hb, ← hfresh, ← hold]
    rfl
  have hfits : b.Fits s := by
    have hview : b.mode.regs = longModeView 0 2 := by
      unfold mode longModeView
      rw [hbregs, hb]
      rfl
    unfold Fits
    rw [hview, hs, Mode.setEFlags_regs, hregs, Mode.Regs.withEFlags_of_LMA (longModeView_LMA ..)]
    rfl
  have hmode : Mode.updateFetchModeMask (Mode.handleSseModeChange (Mode.handleCpuContextChange
      (Mode.handleCpuModeChange s))) = Mode.enter_long_mode m.loadLongMode.mode := by
    rw [hs]
    generalize m.loadLongMode.mode = t at hregs
    obtain ⟨regs, derived, user_pl⟩ := t
    subst hregs
    rfl
  unfold enter_long_mode
  dsimp only
  rw [hclear, mapMode_setMode hfits, mapMode_setMode (hfits.map recomputes_modeChange),
    mapMode_setMode ((hfits.map recomputes_modeChange).map recomputes_contextChange),
    mapMode_setMode (((hfits.map recomputes_modeChange).map recomputes_contextChange).map
      recomputes_sseModeChange), hmode, Mode.enter_long_mode_eq]
  congr 1
  have hdesc : Function.update b.desc segCs { b.desc segCs with rpl := 0 } = b.desc := by
    rw [hb]
    funext n
    by_cases hn : n = segCs
    · rw [hn, Function.update_self]
      rfl
    · rw [Function.update_of_ne hn]
  unfold entered setMode
  simp only [longModeView, hdesc]
  rw [← hbregs, hb]
  rfl

/-- A reset machine with the page tables built: `x86oracle_bochs_new` before it enters long mode. -/
def resetMapped (m : Machine) : Machine :=
  { ({ m with mem := .empty } : Machine).reset with mem := buildIdentityMap .empty }

theorem new_eq (m : Machine) :
    m.new = { m.resetMapped.entered.TLB_flush with g_step := .init } := by
  have hbuild : ({ m with mem := .empty } : Machine).reset.mem = .empty := rfl
  unfold Machine.new
  dsimp only
  rw [hbuild, Machine.enter_long_mode_eq (by rfl)]
  rfl

/-- `BochsOracle::init` writes the descriptor tables and TR besides. -/
theorem construct_eq (m : Machine) :
    m.construct = { m.new with
      gdtr := { base := Hw.gdtAddr, limit := Hw.gdtLimit }
      idtr := { base := Hw.idtAddr, limit := Hw.idtLimit }
      tr := { m.new.tr with selector := Hw.selTss } } := by
  have hgdt : Hw.gdtLimit.toUInt64.toUInt16 = Hw.gdtLimit := UInt16.toUInt16_toUInt64 _
  have hidt : Hw.idtLimit.toUInt64.toUInt16 = Hw.idtLimit := UInt16.toUInt16_toUInt64 _
  have htss : Hw.selTss.toUInt64.toUInt16 = Hw.selTss := UInt16.toUInt16_toUInt64 _
  unfold construct set_dtr set_tr_selector
  simp only [hgdt, hidt, htss, ne_eq, not_true_eq_false, if_false, one_ne_zero, not_false_eq_true,
    if_true]

/-- A construction drops every trace and every stamp. -/
theorem traces_construct (m : Machine) :
    m.construct.traces =
      { m.traces.flushICaches with icache := m.traces.flushICaches.icache.breakLinks.1 } := by
  rw [construct_eq, new_eq]
  rfl

/-- Of the flags of a step, a construction writes the first. -/
theorem async_event_construct (m : Machine) : m.construct.async_event = stopTrace := by
  rw [construct_eq, new_eq]
  exact UInt32.zero_or

theorem kill_bochs_request_construct (m : Machine) :
    m.construct.kill_bochs_request = m.kill_bochs_request := by
  have hreset (m : Machine) : m.reset.kill_bochs_request = m.kill_bochs_request := rfl
  have hflush (m : Machine) : m.entered.TLB_flush.kill_bochs_request = m.kill_bochs_request := rfl
  rw [construct_eq, new_eq]
  dsimp only
  rw [hflush]
  unfold resetMapped
  dsimp only
  rw [hreset]

/-- A construction gives the time-stamp counter another offset; the clock goes on. -/
theorem clock_construct (m : Machine) : m.construct.clock = m.clock.set_TSC 0 := by
  have hreset (m : Machine) : m.reset.clock = m.clock.set_TSC 0 := rfl
  have hflush (m : Machine) : m.entered.TLB_flush.clock = m.clock := rfl
  rw [construct_eq, new_eq]
  dsimp only
  rw [hflush]
  unfold resetMapped
  dsimp only
  rw [hreset]

end Machine

/-- **A construction leaves one fixed core**, but for what it does not write. -/
theorem toCore_construct (m : Machine) : m.construct.toCore = Core.fresh m.leftover := by
  rw [Machine.construct_eq, Machine.new_eq]
  unfold Core.fresh Machine.resetMapped
  generalize buildIdentityMap .empty = mem
  rfl

end Bochs
