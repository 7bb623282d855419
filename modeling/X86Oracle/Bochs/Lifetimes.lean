import Mathlib
import X86Oracle.Lib.Reactive
import X86Oracle.Bochs.HostMemory
import X86Oracle.Bochs.Machine
import X86Oracle.Oracle.FaultMsg

/-!
# Oracles one after the other

Every Bochs oracle of a process runs on the same globals. This module has the calls of the trait on
them, with `cpu_loop` as a parameter, and the lifetimes of earlier oracles. The numbers `RDRAND` and
`RDSEED` draw from `rand` are left out.

* `Machine.Alike`: states that differ in what is written before it is read, and in the clock.
* `unwinding`, `unwinding_clock`: alike states answer alike every call that does not look at the
  clock, and every call at all if their clocks stand alike.
-/

namespace Bochs

open Oracle Oracle.FaultMsg Reactive

/-! ## Trace caches that work alike -/

namespace ICache

/-- Caches that differ in dead traces and free slots only. -/
structure Alike (c d : ICache) : Prop where
  entry : ∀ i, (c.entry i).live = (d.entry i).live ∧
    ((c.entry i).live = true → c.entry i = d.entry i)
  slot : ∀ k, (c.pageSplitIndex k).ppf = (d.pageSplitIndex k).ppf ∧
    ((c.pageSplitIndex k).ppf ≠ invalidPhyAddress →
      (c.pageSplitIndex k).e = (d.pageSplitIndex k).e)
  mpindex : c.mpindex = d.mpindex
  stamp : c.traceLinkTimeStamp = d.traceLinkTimeStamp
  next : c.nextPageSplitIndex = d.nextPageSplitIndex

variable {c d : ICache} {i k : ℕ}

theorem Alike.refl (c : ICache) : c.Alike c :=
  ⟨fun _ => ⟨rfl, fun _ => rfl⟩, fun _ => ⟨rfl, fun _ => rfl⟩, rfl, rfl, rfl⟩

theorem alike_flushICacheEntries (c d : ICache) :
    c.flushICacheEntries.Alike d.flushICacheEntries where
  entry i := by simp [flushICacheEntries, Trace.live]
  slot k := by simp [flushICacheEntries]
  mpindex := rfl
  stamp := rfl
  next := rfl

/-- A trace that is flushed is dead on both sides. -/
theorem Alike.flushSMC (h : c.Alike d) (i : ℕ) : (c.flushSMC i).Alike (d.flushSMC i) where
  entry j := by
    by_cases hj : j = i
    · subst hj
      rw [entry_flushSMC_self, entry_flushSMC_self, Trace.live_dead, Trace.live_dead]
      exact ⟨rfl, fun hlive => absurd hlive Bool.false_ne_true⟩
    · rw [entry_flushSMC_of_ne hj, entry_flushSMC_of_ne hj]
      exact h.entry j
  slot := h.slot
  mpindex := h.mpindex
  stamp := h.stamp
  next := h.next

/-- Flushing a dead trace makes no difference. -/
theorem Alike.flushSMC_dead (h : c.Alike d) (hdead : (d.entry i).live = false) :
    c.Alike (d.flushSMC i) where
  entry j := by
    by_cases hj : j = i
    · subst hj
      rw [entry_flushSMC_self, Trace.live_dead, (h.entry j).1, hdead]
      exact ⟨rfl, fun hlive => absurd hlive Bool.false_ne_true⟩
    · rw [entry_flushSMC_of_ne hj]
      exact h.entry j
  slot := h.slot
  mpindex := h.mpindex
  stamp := h.stamp
  next := h.next

theorem Alike.symm (h : c.Alike d) : d.Alike c where
  entry i := ⟨(h.entry i).1.symm, fun hlive => ((h.entry i).2 ((h.entry i).1.trans hlive)).symm⟩
  slot k := ⟨(h.slot k).1.symm, fun hused => ((h.slot k).2 ((h.slot k).1 ▸ hused)).symm⟩
  mpindex := h.mpindex.symm
  stamp := h.stamp.symm
  next := h.next.symm

/-- A slot of `pageSplitIndex` is freed. -/
theorem Alike.freeSlot (h : c.Alike d) (k : ℕ) :
    Alike
      { c with
        pageSplitIndex := Function.update c.pageSplitIndex k
          { c.pageSplitIndex k with ppf := invalidPhyAddress } }
      { d with
        pageSplitIndex := Function.update d.pageSplitIndex k
          { d.pageSplitIndex k with ppf := invalidPhyAddress } } where
  entry := h.entry
  slot j := by
    by_cases hj : j = k
    · subst hj
      simp
    · simp only [Function.update_of_ne hj]
      exact h.slot j
  mpindex := h.mpindex
  stamp := h.stamp
  next := h.next

theorem Alike.dropSplit (h : c.Alike d) (hused : (c.pageSplitIndex k).ppf ≠ invalidPhyAddress) :
    (c.dropSplit k).Alike (d.dropSplit k) := by
  unfold ICache.dropSplit
  rw [← (h.slot k).2 hused]
  exact (h.freeSlot k).flushSMC _

theorem Alike.dropUsed (h : c.Alike d) (k : ℕ) : (c.dropUsed k).Alike (d.dropUsed k) := by
  unfold ICache.dropUsed
  rw [← (h.slot k).1]
  split_ifs with hused
  · exact h.dropSplit hused
  · exact h

theorem Alike.foldl {f : ICache → ℕ → ICache}
    (hf : ∀ {c d : ICache}, c.Alike d → ∀ k, (f c k).Alike (f d k)) (h : c.Alike d)
    (ks : List ℕ) : (ks.foldl f c).Alike (ks.foldl f d) := by
  induction ks generalizing c d with
  | nil => exact h
  | cons k ks ih => exact ih (hf h k)

theorem Alike.setNext (h : c.Alike d) (n : ℕ) :
    Alike { c with nextPageSplitIndex := n } { d with nextPageSplitIndex := n } :=
  ⟨h.entry, h.slot, h.mpindex, h.stamp, rfl⟩

theorem Alike.setStamp (h : c.Alike d) (n : BitVec 32) :
    Alike { c with traceLinkTimeStamp := n } { d with traceLinkTimeStamp := n } :=
  ⟨h.entry, h.slot, h.mpindex, rfl, h.next⟩

theorem Alike.invalidatePageSplits (h : c.Alike d) :
    c.invalidatePageSplitICacheEntries.Alike d.invalidatePageSplitICacheEntries := by
  unfold invalidatePageSplitICacheEntries
  exact (h.foldl Alike.dropUsed (List.range 8)).setNext 0

theorem Alike.breakLinks (h : c.Alike d) :
    c.breakLinks.1.Alike d.breakLinks.1 ∧ c.breakLinks.2 = d.breakLinks.2 := by
  have hsplit := h.invalidatePageSplits
  unfold ICache.breakLinks
  generalize c.invalidatePageSplitICacheEntries = c' at hsplit ⊢
  generalize d.invalidatePageSplitICacheEntries = d' at hsplit ⊢
  simp only [hsplit.stamp]
  split_ifs
  · exact ⟨alike_flushICacheEntries _ _, rfl⟩
  · exact ⟨hsplit.setStamp _, rfl⟩

/-- The walk flushes alike traces alike; of the dead ones it may flush others. -/
theorem Alike.flushIf (h : c.Alike d) (P : Trace → Prop) [DecidablePred P] (i : ℕ) :
    Alike (if P (c.entry i) then c.flushSMC i else c)
      (if P (d.entry i) then d.flushSMC i else d) := by
  by_cases hlive : (c.entry i).live = true
  · rw [(h.entry i).2 hlive]
    split_ifs
    · exact h.flushSMC i
    · exact h
  · rw [Bool.not_eq_true] at hlive
    have hlive' : (d.entry i).live = false := (h.entry i).1 ▸ hlive
    have hleft : Alike (if P (c.entry i) then c.flushSMC i else c) d := by
      split_ifs
      · exact (h.symm.flushSMC_dead hlive).symm
      · exact h
    split_ifs with hc hd hd
    · exact h.flushSMC i
    · rw [if_pos hc] at hleft
      exact hleft
    · exact h.flushSMC_dead hlive'
    · exact h

/-- The walk looks at stamps and live traces only. -/
theorem Alike.handleSMC (h : c.Alike d) (pAddr : UInt64) (mask : BitVec 32) :
    (c.handleSMC pAddr mask).Alike (d.handleSMC pAddr mask) := by
  obtain ⟨hlinks, hflushed⟩ := h.breakLinks
  unfold ICache.handleSMC
  generalize c.breakLinks = c' at hlinks hflushed ⊢
  generalize d.breakLinks = d' at hlinks hflushed ⊢
  obtain ⟨c, flushed⟩ := c'
  obtain ⟨d, flushed'⟩ := d'
  dsimp only at hlinks hflushed ⊢
  subst hflushed
  by_cases hflush : flushed = true
  · rw [if_pos hflush, if_pos hflush]
    exact hlinks
  · rw [if_neg hflush, if_neg hflush]
    -- the listed page-crossing traces, then the walk
    refine Alike.foldl (fun h i => h.flushIf
      (fun e => stampHash pAddr = stampHash e.pAddr ∧ e.traceMask &&& mask ≠ 0) i) ?_ _
    split_ifs
    · refine hlinks.foldl (fun {c d} h k => ?_) _
      rw [← (h.slot k).1]
      split_ifs with hdrop
      · exact h.dropSplit hdrop.1
      · exact h
    · exact hlinks

end ICache

/-- Trace caches that differ in dead traces and free slots only. -/
structure TraceCache.Alike (s t : TraceCache) : Prop where
  icache : s.icache.Alike t.icache
  stamps : s.stamps = t.stamps

namespace TraceCache

variable {s t : TraceCache}

theorem alike_flushICaches (s t : TraceCache) : s.flushICaches.Alike t.flushICaches :=
  ⟨ICache.alike_flushICacheEntries _ _, rfl⟩

theorem Alike.decWriteStamp (h : s.Alike t) (pAddr : UInt64) (len : ℕ) :
    (s.decWriteStamp pAddr len).Alike (t.decWriteStamp pAddr len) := by
  unfold TraceCache.decWriteStamp
  simp only [h.stamps]
  split_ifs
  · exact ⟨h.icache.handleSMC pAddr _, rfl⟩
  · exact h

end TraceCache

/-! ## Calls -/

namespace Machine

/-- The setter of a register: what it writes, and what it recomputes or flushes. -/
def set (m : Machine) (r : Reg) (v : UInt64) : Machine :=
  match r with
  | .rip => (m.setRegs (m.regs.set .rip v)).invalidate_prefetch_q
  | .rflags => m.setEFlags ((v.toBitVec.setWidth 32 &&& ~~~kHarnessFlags) ||| 2)
  | .cr .cr0 => (m.setRegs (m.regs.set (.cr .cr0) v)).mapMode Mode.updateFetchModeMask
  | .cr .cr3 => (m.setRegs (m.regs.set (.cr .cr3) v)).TLB_flush
  | .cr .cr4 => (m.setRegs (m.regs.set (.cr .cr4) v)).TLB_flush
  | r => m.setRegs (m.regs.set r v)

/-- `pageWriteStampTable.decWriteStamp(addr, 1)`; it stops the running trace if that is the page
written. -/
def decWriteStamp (m : Machine) (addr : UInt64) : Machine :=
  let mask := TraceCache.writeMask addr 1
  let stamp := m.traces.stamps (stampHash addr)
  { m with
    traces := m.traces.decWriteStamp addr 1
    async_event :=
      if stamp ≠ 0 ∧ stamp &&& mask ≠ 0 ∧ m.scratch.pAddrFetchPage = lpfOf addr then
        m.async_event ||| stopTrace
      else m.async_event }

/-- `x86oracle_bochs_write_mem`, one byte of a slice. -/
def writeByte (m : Machine) (addr : UInt64) (byte : UInt8) : Machine :=
  ({ m with mem := m.mem.writeMem addr byte }.decWriteStamp addr).invalidate_prefetch_q

def write (m : Machine) (w : HostWrite) : Machine :=
  w.stores.foldl (fun m s => m.writeByte s.1 s.2) m

/-- `x86oracle_bochs_enable_shadow_stack`, on a CPU with CET.  Its loop ends whatever memory
holds. -/
def enable_shadow_stack (m : Machine) (base len : UInt64) : UInt32 × Machine :=
  let (ok, mem) := (mapShadowStack m.mem base len).getD (false, m.mem)
  let m := { m with mem }
  if !ok then (2, m)
  else
    let m := m.setRegs { m.regs with
      cr0 := (m.regs.cr0 ||| 0x10000) ||| 0x10
      cr4 := m.regs.cr4 ||| 0x800000
      ia32_cet_control := fun _ => 3
      long := m.regs.long }
    (0, (m.mapMode Mode.updateFetchModeMask).TLB_flush)

/-- The loop of `x86oracle_bochs_step`, for at most so many turns. -/
def stepLoop (cpu_loop : Machine → Machine) : ℕ → Machine → Machine
  | 0, m => m
  | n + 1, m => if m.kill_bochs_request then m else stepLoop cpu_loop n (cpu_loop m)

/-- Some turn of the loop looks at the clock. -/
def LooksWithin (cpu_loop : Machine → Machine) (looks : Machine → Prop) : ℕ → Machine → Prop
  | 0, _ => False
  | n + 1, m =>
    m.kill_bochs_request = false ∧ (looks m ∨ LooksWithin cpu_loop looks n (cpu_loop m))

/-- The state a step runs in. -/
def armed (m : Machine) : Machine :=
  { m with
    g_step := { StepCtl.init with armed := true }
    async_event := 0
    kill_bochs_request := false }

/-- `x86oracle_bochs_step`. -/
def step (cpu_loop : Machine → Machine) (m : Machine) : BochsAnswer Machine :=
  let m := { m with
    g_step := { StepCtl.init with armed := true }, async_event := 0, kill_bochs_request := false }
  let m := m.stepLoop cpu_loop 1024
  let m := { m with g_step.armed := false, kill_bochs_request := false, async_event := 0 }
  { status := if m.g_step.faulted then 1 else if m.g_step.halted then 2 else 0
    vector := m.g_step.vector, error := m.g_step.error_code, machine := m }

/-- `x86oracle_bochs_free`. -/
def free (m : Machine) : Machine := { m with mem := .empty }

end Machine

/-- A call of the trait, or of the accessors `BochsOracle` has besides. -/
inductive Call
  | set (r : Reg) (v : UInt64)
  | get (r : Reg)
  | write (w : HostWrite)
  | read (addr : UInt64)
  | readSlice (addr : UInt64) (len : ℕ)
  | isMapped (addr : UInt64)
  | enableShadowStack (base len : UInt64)
  | step
  | cpuMode
  | lastFault

/-- What a call returns to the caller. -/
inductive Answer
  | done
  | word (v : UInt64)
  | bytes (data : List UInt8)
  | bool (b : Bool)
  | code (c : UInt32)
  | outcome (o : Hw.StepOutcome)
  | mode (m : Mode.CpuMode)
  | fault (f : Option (UInt32 × UInt32)) (msg : String)
deriving DecidableEq

/-- `BochsOracle`, with the globals it works on. -/
structure BochsOracle where
  machine : Machine
  last_fault : Option (UInt32 × UInt32)

namespace BochsOracle

def new (m : Machine) : BochsOracle := { machine := m.construct, last_fault := none }

def call (cpu_loop : Machine → Machine) (o : BochsOracle) : Call → Answer × BochsOracle
  | .set r v => (.done, { o with machine := o.machine.set r v })
  | .get r => (.word (o.machine.regs.get r), o)
  | .write w => (.done, { o with machine := o.machine.write w })
  | .read addr => (.bytes [o.machine.mem.readMem addr], o)
  | .readSlice addr len => (.bytes (o.machine.mem.readMemSlice addr len), o)
  | .isMapped addr => (.bool (o.machine.mem.mapped addr), o)
  | .enableShadowStack base len =>
    let (code, machine) := o.machine.enable_shadow_stack base len
    (.code code, { o with machine })
  | .step =>
    let (outcome, last_fault, machine) := bochsStep (o.machine.step cpu_loop)
    (.outcome outcome, { machine, last_fault })
  | .cpuMode => (.mode o.machine.derived.cpu_mode, o)
  | .lastFault => (.fault o.last_fault (bochsFaultMsg o.last_fault), o)

def component (cpu_loop : Machine → Machine) : Component BochsOracle Call Answer :=
  { call := call cpu_loop }

/-- A call leaves the clock alone, or is a step no turn of which looks at it. -/
def Timeless (cpu_loop : Machine → Machine) (looks : Machine → Prop) (o : BochsOracle) :
    Call → Prop
  | .step => ¬ o.machine.armed.LooksWithin cpu_loop looks 1024
  | _ => True

end BochsOracle

/-- The globals after the oracles that made these calls, each dropped before the next. -/
def afterLifetimes (cpu_loop : Machine → Machine) (boot : Machine) (past : List (List Call)) :
    Machine :=
  past.foldl (fun m calls =>
    ((BochsOracle.component cpu_loop).after (.new m) calls).machine.free) boot

/-! ## Machines that work alike -/

namespace Machine

/-- Machines that differ in what is written before it is read (the flags a step sets first, dead
traces, and scratch members outside of what makes them valid), and in their clocks. -/
structure Alike (s t : Machine) : Prop where
  core : s.toCore = t.toCore
  traces : s.traces.Alike t.traces
  vmcs : s.vmx.in_vmx_guest = true → s.vmcs = t.vmcs
  fetchPage : s.eipPageWindowSize ≠ 0 → s.scratch.pAddrFetchPage = t.scratch.pAddrFetchPage
  stackPage : s.espPageWindowSize ≠ 0 → s.scratch.pAddrStackPage = t.scratch.pAddrStackPage
  monitor : s.armed_by ≠ 0 → s.scratch.monitor_addr = t.scratch.monitor_addr

/-- The same, with the flags that a step sets first. -/
structure Ready (s t : Machine) : Prop extends Alike s t where
  async : s.async_event = t.async_event
  kill : s.kill_bochs_request = t.kill_bochs_request

variable {s t : Machine}

theorem Alike.regs (h : s.Alike t) : s.regs = t.regs := congrArg Core.regs h.core

theorem Alike.mem (h : s.Alike t) : s.mem = t.mem := congrArg Core.mem h.core

theorem Alike.mode (h : s.Alike t) : s.mode = t.mode := by
  unfold Machine.mode
  rw [h.core]

/-- A change of the core that leaves alone what makes scratch members valid. -/
theorem Alike.mapCore (h : s.Alike t) (f : Core → Core)
    (hvmx : (f s.toCore).vmx = s.vmx) (heip : (f s.toCore).eipPageWindowSize = s.eipPageWindowSize)
    (hesp : (f s.toCore).espPageWindowSize = s.espPageWindowSize)
    (harmed : (f s.toCore).armed_by = s.armed_by) :
    Alike { s with toCore := f s.toCore } { t with toCore := f t.toCore } where
  core := congrArg f h.core
  traces := h.traces
  vmcs hguest := h.vmcs (hvmx ▸ hguest)
  fetchPage hne := h.fetchPage (heip ▸ hne)
  stackPage hne := h.stackPage (hesp ▸ hne)
  monitor hne := h.monitor (harmed ▸ hne)

/-- Every step sets these flags first. -/
theorem Alike.setFlags (h : s.Alike t) (a b : UInt32) (k l : Bool) :
    Alike { s with async_event := a, kill_bochs_request := k }
      { t with async_event := b, kill_bochs_request := l } :=
  ⟨h.core, h.traces, h.vmcs, h.fetchPage, h.stackPage, h.monitor⟩

theorem Alike.setClock (h : s.Alike t) (c d : Clock) :
    Alike { s with clock := c } { t with clock := d } :=
  ⟨h.core, h.traces, h.vmcs, h.fetchPage, h.stackPage, h.monitor⟩

theorem Alike.setRegs (h : s.Alike t) (regs : RegisterFile) :
    (s.setRegs regs).Alike (t.setRegs regs) :=
  h.mapCore (fun c => { c with regs }) rfl rfl rfl rfl

theorem Alike.setMode (h : s.Alike t) (c : Mode.Cpu) : (s.setMode c).Alike (t.setMode c) :=
  h.mapCore (fun core => { core with
    derived := c.derived
    user_pl := c.user_pl
    desc := Function.update core.desc segCs { core.desc segCs with rpl := c.regs.cpl } })
    rfl rfl rfl rfl

theorem Alike.mapMode (h : s.Alike t) (f : Mode.Cpu → Mode.Cpu) :
    (s.mapMode f).Alike (t.mapMode f) := by
  unfold Machine.mapMode
  rw [h.mode]
  exact h.setMode _

theorem Alike.invalidatePrefetch (h : s.Alike t) :
    s.invalidate_prefetch_q.Alike t.invalidate_prefetch_q where
  core := congrArg (fun c : Core => { c with eipPageWindowSize := 0 }) h.core
  traces := h.traces
  vmcs := h.vmcs
  fetchPage hne := absurd rfl hne
  stackPage := h.stackPage
  monitor := h.monitor

theorem Alike.mask_event (h : s.Alike t) (event : UInt32) :
    (s.mask_event event).Alike (t.mask_event event) :=
  h.mapCore (fun c => { c with event_mask := c.event_mask ||| event }) rfl rfl rfl rfl

/-- `async_event` may be raised on either side, since a step sets it first. -/
theorem Alike.unmask_event (h : s.Alike t) (event : UInt32) :
    (s.unmask_event event).Alike (t.unmask_event event) where
  core := congrArg (fun c : Core => { c with event_mask := c.event_mask &&& ~~~event }) h.core
  traces := h.traces
  vmcs := h.vmcs
  fetchPage := h.fetchPage
  stackPage := h.stackPage
  monitor := h.monitor

theorem Alike.invalidateStack (h : s.Alike t) :
    s.invalidate_stack_cache.Alike t.invalidate_stack_cache where
  core := congrArg (fun c : Core => { c with espPageWindowSize := 0 }) h.core
  traces := h.traces
  vmcs := h.vmcs
  fetchPage := h.fetchPage
  stackPage hne := absurd rfl hne
  monitor := h.monitor

theorem Alike.flushTlbs (h : s.Alike t) :
    Alike { s with DTLB := .flush, ITLB := .flush } { t with DTLB := .flush, ITLB := .flush } :=
  h.mapCore (fun c => { c with DTLB := .flush, ITLB := .flush }) rfl rfl rfl rfl

theorem Alike.wakeupMonitor (h : s.Alike t) : s.wakeup_monitor.Alike t.wakeup_monitor where
  core := congrArg (fun c : Core => { c with
    activity_state := if c.activity_state.waits then .active else c.activity_state
    armed_by := 0
    lapic.mwaitx_timer_active := false }) h.core
  traces := h.traces
  vmcs := h.vmcs
  fetchPage := h.fetchPage
  stackPage := h.stackPage
  monitor hne := absurd rfl hne

theorem Alike.setIcache (h : s.Alike t) {c d : ICache} (hcd : c.Alike d) :
    Alike { s with traces.icache := c } { t with traces.icache := d } :=
  ⟨h.core, ⟨hcd, h.traces.stamps⟩, h.vmcs, h.fetchPage, h.stackPage, h.monitor⟩

theorem Alike.tlbFlush (h : s.Alike t) : s.TLB_flush.Alike t.TLB_flush := by
  have hwoken := h.invalidatePrefetch.invalidateStack.flushTlbs.wakeupMonitor
  have hlinks := hwoken.traces.icache.breakLinks.1
  unfold TLB_flush
  dsimp only at hlinks ⊢
  exact hwoken.setIcache hlinks

theorem Alike.raiseAsync (h : s.Alike t) : s.raiseAsync.Alike t.raiseAsync :=
  ⟨h.core, h.traces, h.vmcs, h.fetchPage, h.stackPage, h.monitor⟩

/-- It looks at the VMCS in guest mode only. -/
theorem Alike.handleInterruptMaskChange (h : s.Alike t) :
    s.handleInterruptMaskChange.Alike t.handleInterruptMaskChange := by
  have hvmx : s.vmx = t.vmx := congrArg Core.vmx h.core
  have hexit : (s.vmx.in_vmx_guest && s.vmcs.externalInterruptVmexit) =
      (t.vmx.in_vmx_guest && t.vmcs.externalInterruptVmexit) := by
    cases hguest : s.vmx.in_vmx_guest with
    | false => rw [← hvmx, hguest, Bool.false_and, Bool.false_and]
    | true => rw [← hvmx, hguest, h.vmcs hguest]
  unfold Machine.handleInterruptMaskChange
  rw [h.regs, hexit]
  split_ifs
  · exact h.unmask_event _
  · exact (h.mask_event _).unmask_event _
  · exact h.mask_event _

/-- What alike machines do under the same condition. -/
theorem Alike.ite {f : Machine → Machine} (h : s.Alike t)
    (hf : ∀ {s t : Machine}, s.Alike t → (f s).Alike (f t)) (b : Bool) :
    Alike (if b then f s else s) (if b then f t else t) := by
  cases b with
  | false => exact h
  | true => exact hf h

theorem Alike.setEFlags (h : s.Alike t) (v : BitVec 32) :
    (s.setEFlags v).Alike (t.setEFlags v) := by
  unfold Machine.setEFlags
  rw [h.mode, h.regs]
  have hregs := h.setRegs (loadFlags t.regs v)
  have hRF := hregs.ite Alike.invalidatePrefetch ((loadFlags t.regs v).flags.eflags.getLsbD 16)
  have hTF := hRF.ite Alike.raiseAsync ((loadFlags t.regs v).flags.eflags.getLsbD 8)
  have hIF := hTF.ite Alike.handleInterruptMaskChange
    ((t.regs.flags.eflags ^^^ (loadFlags t.regs v).flags.eflags).getLsbD 9)
  exact hIF.setMode _

/-- Every setter keeps machines alike. -/
theorem Alike.set (h : s.Alike t) (r : Reg) (v : UInt64) : (s.set r v).Alike (t.set r v) := by
  unfold Machine.set
  rw [h.regs]
  split
  · exact (h.setRegs _).invalidatePrefetch
  · exact h.setEFlags _
  · exact (h.setRegs _).mapMode _
  · exact (h.setRegs _).tlbFlush
  · exact (h.setRegs _).tlbFlush
  · exact h.setRegs _

theorem Alike.decWriteStamp (h : s.Alike t) (addr : UInt64) :
    (s.decWriteStamp addr).Alike (t.decWriteStamp addr) :=
  ⟨h.core, h.traces.decWriteStamp addr 1, h.vmcs, h.fetchPage, h.stackPage, h.monitor⟩

theorem Alike.setMem (h : s.Alike t) (mem : GuestMemory) :
    Alike { s with mem } { t with mem } :=
  h.mapCore (fun c => { c with mem }) rfl rfl rfl rfl

theorem Alike.writeByte (h : s.Alike t) (addr : UInt64) (byte : UInt8) :
    (s.writeByte addr byte).Alike (t.writeByte addr byte) := by
  unfold Machine.writeByte
  rw [h.mem]
  exact ((h.setMem _).decWriteStamp addr).invalidatePrefetch

theorem Alike.write (h : s.Alike t) (w : HostWrite) : (s.write w).Alike (t.write w) := by
  unfold Machine.write
  induction w.stores generalizing s t with
  | nil => exact h
  | cons b stores ih => exact ih (h.writeByte b.1 b.2)

/-- The tables it walks are in guest memory. -/
theorem Alike.enable_shadow_stack (h : s.Alike t) (base len : UInt64) :
    (s.enable_shadow_stack base len).1 = (t.enable_shadow_stack base len).1 ∧
      (s.enable_shadow_stack base len).2.Alike (t.enable_shadow_stack base len).2 := by
  unfold Machine.enable_shadow_stack
  rw [h.mem]
  obtain ⟨ok, mem⟩ := (mapShadowStack t.mem base len).getD (false, t.mem)
  have hmem := h.setMem mem
  cases ok with
  | false => exact ⟨rfl, hmem⟩
  | true =>
    simp only [Bool.not_true, Bool.false_eq_true, if_false]
    refine ⟨trivial, Alike.tlbFlush (Alike.mapMode ?_ _)⟩
    cases s
    cases t
    obtain rfl := h.core
    exact hmem.setRegs _

theorem Alike.free (h : s.Alike t) : s.free.Alike t.free := h.setMem .empty

/-! ### Steps -/

/-- What `cpu_loop` does depends on nothing that is written before it is read, and not on the clock
but in turns that look at it: that read it or `tsc_adjust`, or run or set a timer. -/
structure Respects (cpu_loop : Machine → Machine) (looks : Machine → Prop) : Prop where
  ready : ∀ {s t : Machine}, s.Ready t → s.clock = t.clock ∨ ¬ looks s →
    (cpu_loop s).Ready (cpu_loop t)
  clock : ∀ {s t : Machine}, s.Ready t → s.clock = t.clock →
    (cpu_loop s).clock = (cpu_loop t).clock

/-- What a step does after its loop. -/
def report (m : Machine) : BochsAnswer Machine :=
  { status := if m.g_step.faulted then 1 else if m.g_step.halted then 2 else 0
    vector := m.g_step.vector
    error := m.g_step.error_code
    machine := { m with g_step.armed := false, kill_bochs_request := false, async_event := 0 } }

theorem step_eq (cpu_loop : Machine → Machine) (m : Machine) :
    m.step cpu_loop = report (m.armed.stepLoop cpu_loop 1024) := rfl

variable {cpu_loop : Machine → Machine} {looks : Machine → Prop}

/-- With clocks that stand alike they go on to do so. -/
theorem Ready.stepLoop_clock (hloop : Respects cpu_loop looks) (h : s.Ready t)
    (hclock : s.clock = t.clock) (n : ℕ) :
    (s.stepLoop cpu_loop n).Ready (t.stepLoop cpu_loop n) ∧
      (s.stepLoop cpu_loop n).clock = (t.stepLoop cpu_loop n).clock := by
  induction n generalizing s t with
  | zero => exact ⟨h, hclock⟩
  | succ n ih =>
    unfold Machine.stepLoop
    rw [h.kill]
    split_ifs
    · exact ⟨h, hclock⟩
    · exact ih (hloop.ready h (.inl hclock)) (hloop.clock h hclock)

/-- Whatever the clocks, where no turn looks at them. -/
theorem Ready.stepLoop (hloop : Respects cpu_loop looks) (h : s.Ready t) {n : ℕ}
    (hlooks : ¬ s.LooksWithin cpu_loop looks n) :
    (s.stepLoop cpu_loop n).Ready (t.stepLoop cpu_loop n) := by
  induction n generalizing s t with
  | zero => exact h
  | succ n ih =>
    unfold Machine.stepLoop
    rw [← h.kill]
    by_cases hkill : s.kill_bochs_request = true
    · rw [if_pos hkill, if_pos hkill]
      exact h
    · rw [if_neg hkill, if_neg hkill]
      rw [Bool.not_eq_true] at hkill
      have hturn : ¬ looks s := fun hlook => hlooks ⟨hkill, .inl hlook⟩
      have hrest : ¬ (cpu_loop s).LooksWithin cpu_loop looks n :=
        fun hlook => hlooks ⟨hkill, .inr hlook⟩
      exact ih (hloop.ready h (.inr hturn)) hrest

theorem Alike.arm (h : s.Alike t) (g_step : StepCtl) :
    Ready { s with g_step, async_event := 0, kill_bochs_request := false }
      { t with g_step, async_event := 0, kill_bochs_request := false } where
  toAlike := (h.mapCore (fun c => { c with g_step }) rfl rfl rfl rfl).setFlags 0 0 false false
  async := rfl
  kill := rfl

/-- Ready machines report the same after the loop, and are alike. -/
theorem Ready.report (h : s.Ready t) :
    s.report.status = t.report.status ∧ s.report.vector = t.report.vector ∧
      s.report.error = t.report.error ∧ s.report.machine.Alike t.report.machine := by
  have hctl : s.g_step = t.g_step := congrArg Core.g_step h.core
  unfold Machine.report
  rw [hctl]
  exact ⟨rfl, rfl, rfl, (h.toAlike.arm _).toAlike⟩

/-- Alike machines report the same and stay alike. -/
theorem Alike.step (hloop : Respects cpu_loop looks) (h : s.Alike t)
    (hlooks : s.clock = t.clock ∨ ¬ s.armed.LooksWithin cpu_loop looks 1024) :
    (s.step cpu_loop).status = (t.step cpu_loop).status ∧
      (s.step cpu_loop).vector = (t.step cpu_loop).vector ∧
      (s.step cpu_loop).error = (t.step cpu_loop).error ∧
      (s.step cpu_loop).machine.Alike (t.step cpu_loop).machine := by
  have harmed : s.armed.Ready t.armed := h.arm _
  rw [step_eq, step_eq]
  obtain hclock | hlooks := hlooks
  · exact (harmed.stepLoop_clock hloop hclock 1024).1.report
  · exact (harmed.stepLoop hloop hlooks).report

theorem Alike.step_clock (hloop : Respects cpu_loop looks) (h : s.Alike t)
    (hclock : s.clock = t.clock) :
    (s.step cpu_loop).machine.clock = (t.step cpu_loop).machine.clock := by
  have harmed : s.armed.Ready t.armed := h.arm _
  exact (harmed.stepLoop_clock hloop hclock 1024).2

/-! ### Other calls -/

/-- What only a step changes: the request to stop, and the clock. -/
structure SameProcess (m m' : Machine) : Prop where
  kill : m'.kill_bochs_request = m.kill_bochs_request
  clock : m'.clock = m.clock

theorem sameProcess_setEFlags (m : Machine) (v : BitVec 32) : m.SameProcess (m.setEFlags v) := by
  unfold setEFlags handleInterruptMaskChange
  dsimp only
  split_ifs <;> exact ⟨rfl, rfl⟩

theorem sameProcess_set (m : Machine) (r : Reg) (v : UInt64) : m.SameProcess (m.set r v) := by
  unfold Machine.set
  split
  · exact ⟨rfl, rfl⟩
  · exact sameProcess_setEFlags m _
  all_goals exact ⟨rfl, rfl⟩

theorem sameProcess_write (m : Machine) (w : HostWrite) : m.SameProcess (m.write w) := by
  unfold Machine.write
  induction w.stores generalizing m with
  | nil => exact ⟨rfl, rfl⟩
  | cons b stores ih =>
    obtain ⟨hkill, hclock⟩ := ih (m.writeByte b.1 b.2)
    exact ⟨hkill, hclock⟩

theorem sameProcess_enable_shadow_stack (m : Machine) (base len : UInt64) :
    m.SameProcess (m.enable_shadow_stack base len).2 := by
  unfold Machine.enable_shadow_stack
  dsimp only
  split_ifs <;> exact ⟨rfl, rfl⟩

end Machine

namespace BochsOracle

variable {cpu_loop : Machine → Machine} {looks : Machine → Prop} {o p : BochsOracle} {c : Call}

theorem sameProcess_call (hstep : c ≠ .step) :
    o.machine.SameProcess (call cpu_loop o c).2.machine := by
  cases c with
  | set r v => exact o.machine.sameProcess_set r v
  | write w => exact o.machine.sameProcess_write w
  | enableShadowStack base len => exact o.machine.sameProcess_enable_shadow_stack base len
  | step => exact absurd rfl hstep
  | get | read | readSlice | isMapped | cpuMode | lastFault => exact ⟨rfl, rfl⟩

theorem machine_call_step :
    (call cpu_loop o .step).2.machine = (o.machine.step cpu_loop).machine := by
  change (bochsStep (o.machine.step cpu_loop)).2.2 = _
  unfold bochsStep
  split <;> rfl

/-- Oracles that differ in what is written before it is read, and in the clock. -/
structure Alike (o p : BochsOracle) : Prop where
  machine : o.machine.Alike p.machine
  last_fault : o.last_fault = p.last_fault

/-- Alike oracles answer alike a call that does not look at clocks that differ, and stay alike. -/
theorem Alike.call (hloop : Machine.Respects cpu_loop looks) (h : o.Alike p)
    (hlooks : o.machine.clock = p.machine.clock ∨ o.Timeless cpu_loop looks c) :
    (call cpu_loop o c).1 = (call cpu_loop p c).1 ∧
      (call cpu_loop o c).2.Alike (call cpu_loop p c).2 := by
  obtain ⟨hmachine, hfault⟩ := h
  cases c with
  | set r v => exact ⟨rfl, hmachine.set r v, hfault⟩
  | get r => exact ⟨by simp only [BochsOracle.call, hmachine.regs], hmachine, hfault⟩
  | write w => exact ⟨rfl, hmachine.write w, hfault⟩
  | read addr => exact ⟨by simp only [BochsOracle.call, hmachine.mem], hmachine, hfault⟩
  | readSlice addr len => exact ⟨by simp only [BochsOracle.call, hmachine.mem], hmachine, hfault⟩
  | isMapped addr => exact ⟨by simp only [BochsOracle.call, hmachine.mem], hmachine, hfault⟩
  | enableShadowStack base len =>
    obtain ⟨hcode, hmapped⟩ := hmachine.enable_shadow_stack base len
    exact ⟨congrArg Answer.code hcode, hmapped, hfault⟩
  | step =>
    obtain ⟨hstatus, hvector, herror, hstepped⟩ := hmachine.step hloop hlooks
    dsimp only [BochsOracle.call]
    generalize o.machine.step cpu_loop = a at hstatus hvector herror hstepped ⊢
    generalize p.machine.step cpu_loop = b at hstatus hvector herror hstepped ⊢
    unfold bochsStep
    rw [hstatus, hvector, herror]
    split <;> exact ⟨rfl, hstepped, rfl⟩
  | cpuMode =>
    have hmode : o.machine.derived = p.machine.derived := congrArg Core.derived hmachine.core
    exact ⟨by simp only [BochsOracle.call, hmode], hmachine, hfault⟩
  | lastFault => exact ⟨by simp only [BochsOracle.call, hfault], hmachine, hfault⟩

/-- Clocks that stand alike go on to do so. -/
theorem Alike.clock_call (hloop : Machine.Respects cpu_loop looks) (h : o.Alike p)
    (hclock : o.machine.clock = p.machine.clock) :
    (BochsOracle.call cpu_loop o c).2.machine.clock =
      (BochsOracle.call cpu_loop p c).2.machine.clock := by
  by_cases hstep : c = .step
  · rw [hstep, machine_call_step, machine_call_step]
    exact h.machine.step_clock hloop hclock
  · have hkept (o : BochsOracle) :
        (BochsOracle.call cpu_loop o c).2.machine.clock = o.machine.clock :=
      (sameProcess_call hstep).clock
    rw [hkept, hkept, hclock]

/-- **Alike oracles answer alike every call that does not look at the clock**, and stay alike. -/
theorem unwinding (hloop : Machine.Respects cpu_loop looks) :
    (component cpu_loop).Unwinding (Timeless cpu_loop looks) Alike :=
  fun _ _ _ halike htimeless => halike.call hloop (.inr htimeless)

/-- **Alike oracles with clocks that stand alike answer every call alike**, and stay so. -/
theorem unwinding_clock (hloop : Machine.Respects cpu_loop looks) :
    (component cpu_loop).Unwinding (fun _ _ => True)
      fun o p => o.Alike p ∧ o.machine.clock = p.machine.clock := by
  rintro o p c ⟨halike, hclock⟩ -
  obtain ⟨hanswer, hnext⟩ := halike.call (c := c) hloop (.inl hclock)
  exact ⟨hanswer, hnext, halike.clock_call hloop hclock⟩

end BochsOracle

/-! ## What a construction leaves behind -/

def Core.leftover (c : Core) : Leftover :=
  { PDPTR_CACHE := c.PDPTR_CACHE, ldtr_d_b := c.ldtr.d_b, tr_d_b := c.tr.d_b }

namespace Machine

variable {m boot : Machine}

theorem alike_traces_construct (m boot : Machine) :
    m.construct.traces.Alike boot.construct.traces := by
  rw [traces_construct, traces_construct]
  have hflushed := TraceCache.alike_flushICaches m.traces boot.traces
  exact ⟨hflushed.icache.breakLinks.1, hflushed.stamps⟩

/-- **A construction leaves machines alike** that agree on what it does not write. -/
theorem alike_construct (h : m.leftover = boot.leftover) : m.construct.Alike boot.construct where
  core := by rw [toCore_construct, toCore_construct, h]
  traces := alike_traces_construct m boot
  vmcs hguest := by
    have hvmx : m.construct.vmx = Vmx.reset := congrArg Core.vmx (toCore_construct m)
    rw [hvmx] at hguest
    exact absurd hguest Bool.false_ne_true
  fetchPage hne := absurd (congrArg Core.eipPageWindowSize (toCore_construct m)) hne
  stackPage hne := absurd (congrArg Core.espPageWindowSize (toCore_construct m)) hne
  monitor hne := absurd (congrArg Core.armed_by (toCore_construct m)) hne

/-- The core shows what the construction did not write. -/
theorem toCore_construct_inj :
    m.construct.toCore = boot.construct.toCore ↔ m.leftover = boot.leftover := by
  rw [toCore_construct, toCore_construct]
  have hshown : Function.LeftInverse Core.leftover Core.fresh := fun _ => rfl
  exact hshown.injective.eq_iff

end Machine

namespace BochsOracle

variable {cpu_loop : Machine → Machine}

/-- Outside of a step nobody asks the emulator to stop. -/
theorem kill_call {o : BochsOracle} (h : o.machine.kill_bochs_request = false) (c : Call) :
    (call cpu_loop o c).2.machine.kill_bochs_request = false := by
  by_cases hstep : c = .step
  · rw [hstep, machine_call_step, Machine.step_eq]
    rfl
  · exact (sameProcess_call hstep).kill.trans h

theorem kill_after {o : BochsOracle} (h : o.machine.kill_bochs_request = false)
    (calls : List Call) :
    ((component cpu_loop).after o calls).machine.kill_bochs_request = false := by
  induction calls generalizing o with
  | nil => exact h
  | cons c calls ih => exact ih (kill_call h c)

theorem kill_new {m : Machine} (h : m.kill_bochs_request = false) :
    (new m).machine.kill_bochs_request = false :=
  (Machine.kill_bochs_request_construct m).trans h

/-! ### The clock -/

theorem clock_new {m boot : Machine} (h : m.clock.set_TSC 0 = boot.clock.set_TSC 0) :
    (new m).machine.clock = (new boot).machine.clock :=
  (Machine.clock_construct m).trans (h.trans (Machine.clock_construct boot).symm)

/-- `tsc_adjust` shows when the oracle was constructed. -/
theorem tsc_adjust_new_inj {m boot : Machine} :
    (new m).machine.clock.tsc_adjust = (new boot).machine.clock.tsc_adjust ↔
      m.clock.time_ticks = boot.clock.time_ticks := by
  have hclock (m : Machine) : (new m).machine.clock = m.clock.set_TSC 0 := Machine.clock_construct m
  rw [hclock, hclock]
  exact Clock.tsc_adjust_set_TSC_inj 0

end BochsOracle

/-- No step leaves the request to stop behind. -/
theorem kill_afterLifetimes {cpu_loop : Machine → Machine} {boot : Machine}
    (h : boot.kill_bochs_request = false) (past : List (List Call)) :
    (afterLifetimes cpu_loop boot past).kill_bochs_request = false := by
  induction past generalizing boot with
  | nil => exact h
  | cons calls past ih => exact ih (BochsOracle.kill_after (BochsOracle.kill_new h) calls)

end Bochs
