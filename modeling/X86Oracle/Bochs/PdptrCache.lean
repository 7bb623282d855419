import Mathlib
import X86Oracle.Bochs.Coherence
import X86Oracle.Bochs.Lifetimes
import X86Oracle.Bochs.Mapped

/-!
# Page-directory pointers and their cache

PAE paging outside of long mode takes its page-directory pointers from `PDPTR_CACHE`, which only
`CheckPDPTR` fills (`cpu/paging.cc`).  A construction does not write it.

* `pae_loop`: `cpu_loop` for an instruction fetch without paging or with PAE paging, for `nop` and
  for the `mov cr0, rax` that turns PAE paging on.
* `construct_resets`: what a construction re-establishes, and when it re-establishes everything.
-/

namespace Bochs

open Oracle Oracle.FaultMsg Reactive

/-! ## Paging -/

namespace Core

/-- `PAGING_PAE_PDPTE_RESERVED_BITS`, with physical addresses of 40 bits. -/
def pdpteReserved : UInt64 := 0xFFFFFF00000001E6

/-- The page-directory pointers in memory. -/
def pdptr (c : Core) (cr3_val : UInt64) (n : Fin 4) : UInt64 :=
  c.mem.read64 ((cr3_val &&& 0xFFFFFFE0) ||| UInt64.ofNat (8 * n))

/-- `CheckPDPTR`; none if a pointer that is present has a reserved bit. -/
def CheckPDPTR (c : Core) (cr3_val : UInt64) : Option Core :=
  if ∀ n, c.pdptr cr3_val n &&& 1 = 0 ∨ c.pdptr cr3_val n &&& pdpteReserved = 0 then
    some { c with PDPTR_CACHE := c.pdptr cr3_val }
  else none

theorem CheckPDPTR_eq {c c' : Core} {cr3_val : UInt64} (h : c.CheckPDPTR cr3_val = some c') :
    c' = { c with PDPTR_CACHE := c.pdptr cr3_val } := by
  unfold CheckPDPTR at h
  split_ifs at h
  exact (Option.some.inj h).symm

/-- What an instruction fetch ends in. -/
inductive Fetched
  | page (entry : TlbEntry)
  | pageFault (error_code : UInt32)
  | other

/-- The bits of a page-directory entry that decide what a fetch by the supervisor does, and their
values for an accessed supervisor page of 2 MBytes that is not global. -/
def pdeMask : UInt64 := 0xFFFFFF00001FE1A5
def pdeAccessed2M : UInt64 := 0xA1

/-- `translate_linear_PAE` for such a fetch; other entries are not looked into. -/
def translate_linear_PAE (c : Core) (laddr : UInt64) : Fetched :=
  let pdpte := c.PDPTR_CACHE (Fin.ofNat 4 (laddr.toNat / 2 ^ 30))
  if pdpte &&& 1 = 0 then
    -- the access bit of the error code needs SMEP or NXE
    .pageFault (if c.regs.cr4 &&& 0x100000 = 0 ∧ c.regs.efer &&& 0x800 = 0 then 0 else 0x10)
  else
    let pde := c.mem.read64 ((pdpte &&& 0xFFFFFFFFFF000) + ((laddr >>> (18 : UInt64)) &&& 0xFF8))
    if pde &&& pdeMask = pdeAccessed2M then
      .page { lpf := lpfOf laddr, ppf := (pde &&& 0xFFFFFFFE00000) ||| (laddr &&& 0x1FF000)
              accessBits := 1, lpf_mask := 0x1FFFFF }
    else .other

/-- `translate_linear` for an instruction fetch, outside of long mode. -/
def translate_linear (c : Core) (laddr : UInt64) : Fetched :=
  if c.regs.longMode then .other
  else if c.regs.cr0 &&& 0x80000000 = 0 then
    .page { lpf := lpfOf laddr, ppf := lpfOf laddr, accessBits := 3, lpf_mask := 0xFFF }
  else if c.regs.cr4 &&& 0x20 = 0 then .other
  else c.translate_linear_PAE laddr

/-- 64-bit code at CPL 0 in the low 4 GBytes, with nothing pending, no timer, no breakpoint and no
single step, and nothing fetched yet. -/
def Plain (c : Core) : Prop :=
  c.derived.cpu_mode = .long64 ∧ c.user_pl = false ∧ c.activity_state = .active ∧
    c.regs.rip.toNat < 2 ^ 32 ∧ c.regs.flags.eflags &&& 0x10100 = 0 ∧ c.dr7 = 0x400 ∧
    c.regs.cr4 &&& 0x8800000 = 0 ∧ c.vmx.in_vmx = false ∧ c.eipPageWindowSize = 0 ∧
    c.ITLB.entry (c.regs.rip.toNat / 2 ^ 12 % 1024) = none ∧ c.lapic.timer_active = false ∧
    c.lapic.vmx_timer_active = false ∧ c.lapic.mwaitx_timer_active = false

instance (c : Core) : Decidable c.Plain := by
  unfold Plain
  infer_instance

/-- What `prefetch` leaves besides the address of the page. -/
def fetched (c : Core) (e : TlbEntry) : Core :=
  { c with
    eipPageBias := (c.regs.rip &&& 0xFFF) - c.regs.rip
    eipPageWindowSize := 4096
    eipFetchPtr := some e.ppf
    mem := c.mem.alloc e.ppf
    ITLB :=
      { entry := Function.update c.ITLB.entry (c.regs.rip.toNat / 2 ^ 12 % 1024) (some e)
        split_large := c.ITLB.split_large || e.lpf_mask > 0xFFF } }

end Core

namespace Machine

/-- `bx_instr_exception`, where the emulator goes on to deliver what has been reported already. -/
def exception (m : Machine) (vector error_code : UInt32) : Machine :=
  { m with
    g_step := { m.g_step with faulted := true, vector, error_code }
    async_event := 1
    kill_bochs_request := true }

/-- The end of an instruction, with `bx_instr_after_execution`; then
`BX_SYNC_TIME_IF_SINGLE_PROCESSOR` brings the clock up to the instruction count. -/
def retire (m : Machine) (ilen : UInt64) : Machine :=
  { m with
    regs := { m.regs with
      rip := m.regs.rip + ilen, prev_rip := m.regs.rip + ilen, long := m.regs.long }
    icount := m.icount + 1
    icount_last_sync := m.icount + 1
    clock := m.clock.tickn (m.icount + 1 - m.icount_last_sync).toUInt32
    g_step.retired := true
    async_event := 1
    kill_bochs_request := true }

/-- `prefetch`, with the entry for the page. -/
def fetched (m : Machine) (e : TlbEntry) : Machine :=
  { m with toCore := m.toCore.fetched e, scratch.pAddrFetchPage := e.ppf }

/-- `SetCR0` where it turns on PAE paging and long mode is not enabled; none where it does
something else. -/
def SetCR0 (m : Machine) (val : UInt64) : Option Machine :=
  if m.mode.regs.get_PG = false ∧ m.mode.regs.get_PAE = true ∧ m.mode.regs.get_LME = false ∧
      m.mode.regs.get_CET = false ∧ val &&& 0xFFFFFFFF80000001 = 0x80000001 ∧
      Mode.check_CR0 (val.toBitVec.setWidth 32) = true then
    match m.CheckPDPTR m.regs.cr3 with
    | none => none
    | some core =>
      let mode := Mode.SetCR0 (val.toBitVec.setWidth 32) m.mode
      let m := { m with toCore := core }
      let m := m.setRegs { m.regs with
        cr0 := (val.toUInt32 &&& 0xE005003F) ||| 0x10, long := m.regs.long }
      some { (m.setMode mode).TLB_flush with
        linaddr_width := if m.mode.regs.get_LA57 then 57 else 48 }
  else none

/-- The instruction at RIP. -/
def execute (m : Machine) (ppf : UInt64) : Machine :=
  let bytes := m.mem.readMemSlice (ppf ||| (m.regs.rip &&& 0xFFF)) 3
  if bytes.head? = some 0x90 then m.retire 1
  else if bytes = [0x0F, 0x22, 0xC0] then
    match m.invalidate_prefetch_q.SetCR0 (m.regs.gen_reg 0) with
    | some m => m.retire 3
    | none => m
  else m

/-- The start of `cpu_loop`. -/
def commit (m : Machine) : Machine :=
  { m with
    regs := { m.regs with prev_rip := m.regs.rip, long := m.regs.long }
    speculative_rsp := false }

def page_fault (m : Machine) (laddr : UInt64) (error_code : UInt32) : Machine :=
  Machine.exception { m with regs := { m.regs with cr2 := laddr, long := m.regs.long } }
    14 error_code

/-- One instruction: the fetch, which may be a page fault, and the execution. -/
def instruction (m : Machine) : Machine :=
  match m.translate_linear m.regs.rip with
  | .page e => (m.fetched e).execute e.ppf
  | .pageFault error_code => m.page_fault m.regs.rip error_code
  | .other => m

/-- `cpu_loop` where the fetch and the instruction are among those above; anywhere else it comes
back at once.  It decodes from memory and keeps no traces. -/
def pae_loop (m : Machine) : Machine :=
  if m.async_event = 0 ∧ m.Plain then m.commit.instruction else m

/-! ### It looks at the core only

The clock counts on beside it. -/

variable {s t : Machine}

theorem Alike.retire (h : s.Alike t) (ilen : UInt64) : (s.retire ilen).Ready (t.retire ilen) where
  toAlike := by
    have hstopped := h.setFlags 1 1 true true
    have hretired := hstopped.mapCore (fun c => { c with
      regs := { c.regs with
        rip := c.regs.rip + ilen, prev_rip := c.regs.rip + ilen, long := c.regs.long }
      icount := c.icount + 1
      icount_last_sync := c.icount + 1
      g_step.retired := true }) rfl rfl rfl rfl
    exact hretired.setClock _ _
  async := rfl
  kill := rfl

theorem Alike.exception (h : s.Alike t) (vector error_code : UInt32) :
    (s.exception vector error_code).Ready (t.exception vector error_code) where
  toAlike := by
    have hstopped := h.setFlags 1 1 true true
    exact hstopped.mapCore (fun c => { c with
      g_step := { c.g_step with faulted := true, vector, error_code } }) rfl rfl rfl rfl
  async := rfl
  kill := rfl

theorem Alike.page_fault (h : s.Alike t) (laddr : UInt64) (error_code : UInt32) :
    (s.page_fault laddr error_code).Ready (t.page_fault laddr error_code) :=
  (h.mapCore (fun c => { c with
    regs := { c.regs with cr2 := laddr, long := c.regs.long } }) rfl rfl rfl rfl).exception 14
    error_code

theorem Ready.setRegs (h : s.Ready t) (regs : RegisterFile) :
    (s.setRegs regs).Ready (t.setRegs regs) :=
  ⟨h.toAlike.setRegs regs, h.async, h.kill⟩

theorem Ready.setMode (h : s.Ready t) (c : Mode.Cpu) : (s.setMode c).Ready (t.setMode c) :=
  ⟨h.toAlike.setMode c, h.async, h.kill⟩

theorem Ready.setPdptr (h : s.Ready t) (PDPTR_CACHE : Fin 4 → UInt64) :
    Ready { s with PDPTR_CACHE } { t with PDPTR_CACHE } :=
  ⟨h.toAlike.mapCore (fun c => { c with PDPTR_CACHE }) rfl rfl rfl rfl, h.async, h.kill⟩

theorem Ready.setWidth (h : s.Ready t) (linaddr_width : ℕ) :
    Ready { s with linaddr_width } { t with linaddr_width } :=
  ⟨h.toAlike.mapCore (fun c => { c with linaddr_width }) rfl rfl rfl rfl, h.async, h.kill⟩

theorem Ready.fetched (h : s.Ready t) (e : TlbEntry) : (s.fetched e).Ready (t.fetched e) where
  core := congrArg (fun c => Core.fetched c e) h.core
  traces := h.traces
  vmcs := h.vmcs
  fetchPage _ := rfl
  stackPage := h.stackPage
  monitor := h.monitor
  async := h.async
  kill := h.kill

theorem Ready.tlbFlush (h : s.Ready t) : s.TLB_flush.Ready t.TLB_flush where
  toAlike := h.toAlike.tlbFlush
  async := by
    unfold TLB_flush wakeup_monitor
    exact h.async
  kill := by
    unfold TLB_flush wakeup_monitor
    exact h.kill

theorem Ready.SetCR0 (h : s.Ready t) (val : UInt64) :
    Option.Rel Ready (s.SetCR0 val) (t.SetCR0 val) := by
  have hmode := h.toAlike.mode
  unfold Machine.SetCR0
  rw [hmode]
  cases s
  cases t
  obtain rfl := h.core
  dsimp only at *
  split_ifs
  · cases hcore : Core.CheckPDPTR _ _ with
    | none => exact .none
    | some core =>
      obtain rfl := Core.CheckPDPTR_eq hcore
      exact .some ((((h.setPdptr _).setRegs _).setMode _).tlbFlush.setWidth _)
  · exact .none

theorem Ready.invalidatePrefetch (h : s.Ready t) :
    s.invalidate_prefetch_q.Ready t.invalidate_prefetch_q :=
  ⟨h.toAlike.invalidatePrefetch, h.async, h.kill⟩

theorem Ready.execute (h : s.Ready t) (ppf : UInt64) : (s.execute ppf).Ready (t.execute ppf) := by
  have hset := h.invalidatePrefetch.SetCR0 (t.regs.gen_reg 0)
  unfold Machine.execute
  rw [h.toAlike.mem, h.toAlike.regs]
  dsimp only
  split_ifs
  · exact h.toAlike.retire 1
  · generalize s.invalidate_prefetch_q.SetCR0 (t.regs.gen_reg 0) = s' at hset ⊢
    generalize t.invalidate_prefetch_q.SetCR0 (t.regs.gen_reg 0) = t' at hset ⊢
    cases hset with
    | none => exact h
    | some hset => exact hset.toAlike.retire 3
  · exact h

theorem Ready.commit (h : s.Ready t) : s.commit.Ready t.commit :=
  ⟨h.toAlike.mapCore (fun c => { c with
    regs := { c.regs with prev_rip := c.regs.rip, long := c.regs.long }
    speculative_rsp := false }) rfl rfl rfl rfl, h.async, h.kill⟩

theorem Ready.instruction (h : s.Ready t) : s.instruction.Ready t.instruction := by
  unfold Machine.instruction
  rw [h.core]
  cases Core.translate_linear t.toCore t.regs.rip with
  | page e => exact (h.fetched e).execute e.ppf
  | pageFault error_code => exact h.toAlike.page_fault t.regs.rip error_code
  | other => exact h

theorem clock_retire (hcore : s.toCore = t.toCore) (hclock : s.clock = t.clock) (ilen : UInt64) :
    (s.retire ilen).clock = (t.retire ilen).clock := by
  unfold Machine.retire
  dsimp only
  rw [hcore, hclock]

theorem clock_SetCR0 {m m' : Machine} {val : UInt64} (h : m.SetCR0 val = some m') :
    m'.clock = m.clock := by
  unfold Machine.SetCR0 at h
  split_ifs at h
  cases hload : m.CheckPDPTR m.regs.cr3 with
  | none =>
    rw [hload] at h
    exact absurd h (Option.some_ne_none _).symm
  | some core =>
    rw [hload] at h
    obtain rfl := Option.some.inj h
    rfl

theorem Ready.clock_execute (h : s.Ready t) (hclock : s.clock = t.clock) (ppf : UInt64) :
    (s.execute ppf).clock = (t.execute ppf).clock := by
  have hset := h.invalidatePrefetch.SetCR0 (t.regs.gen_reg 0)
  unfold Machine.execute
  rw [h.toAlike.mem, h.toAlike.regs]
  dsimp only
  split_ifs
  · exact clock_retire h.core hclock 1
  · generalize hs : s.invalidate_prefetch_q.SetCR0 (t.regs.gen_reg 0) = s' at hset ⊢
    generalize ht : t.invalidate_prefetch_q.SetCR0 (t.regs.gen_reg 0) = t' at hset ⊢
    cases hset with
    | none => exact hclock
    | some hset =>
      have hkept := (clock_SetCR0 hs).trans (hclock.trans (clock_SetCR0 ht).symm)
      exact clock_retire hset.core hkept 3
  · exact hclock

theorem Ready.clock_instruction (h : s.Ready t) (hclock : s.clock = t.clock) :
    s.instruction.clock = t.instruction.clock := by
  unfold Machine.instruction
  rw [h.core]
  cases Core.translate_linear t.toCore t.regs.rip with
  | page e => exact (h.fetched e).clock_execute hclock e.ppf
  | pageFault | other => exact hclock

theorem respects_pae_loop : Respects pae_loop fun _ => False where
  ready {s t} h _ := by
    unfold pae_loop
    rw [h.async, h.core]
    split_ifs
    · exact h.commit.instruction
    · exact h
  clock {s t} h hclock := by
    unfold pae_loop
    rw [h.async, h.core]
    split_ifs
    · exact h.commit.clock_instruction hclock
    · exact hclock

end Machine

/-! ## Reading what the host wrote -/

namespace GuestMemory

theorem store_alloc (mem : GuestMemory) (gpa : UInt64) : (mem.alloc gpa).store = mem.store := by
  funext x
  unfold store alloc page
  dsimp only
  split_ifs with hx hkey
  · rw [hkey]
    rfl
  · rfl
  · rfl

theorem readMemSlice_alloc (mem : GuestMemory) (gpa addr : UInt64) (len : ℕ) :
    (mem.alloc gpa).readMemSlice addr len = mem.readMemSlice addr len := by
  simp only [readMemSlice_eq, readMem_eq, store_alloc]

theorem read64_eq {mem : GuestMemory} {gpa : UInt64} (halign : gpa.toNat % 8 = 0)
    (hlt : gpa.toNat < 2 ^ 52) :
    mem.read64 gpa = UInt64.ofNat (Bytes.leValue (mem.readMemSlice gpa 8)) := by
  have hslice : mem.store.read gpa.toNat 8 = mem.readMemSlice gpa 8 := by
    rw [readMemSlice_eq]
    refine List.map_congr_left fun i hi => ?_
    have hi : i < 8 := List.mem_range.1 hi
    rw [readMem_eq, phys, UInt64.toNat_add, UInt64.toNat_ofNat']
    congr 1
    omega
  have hread : (mem.read64 gpa).toNat = mem.store.readLe 8 gpa.toNat :=
    read64_toNat rfl hlt halign
  have hbound := mem.store.readLe_lt 8 gpa.toNat
  apply UInt64.toNat_inj.1
  rw [hread, ← hslice, UInt64.toNat_ofNat', Bytes.Store.readLe] at *
  omega

end GuestMemory

/-- Below the page tables a slice is what was written. -/
theorem readMemSlice_memAfter (ws : List HostWrite) {addr : UInt64} {len : ℕ}
    (hlt : addr.toNat + len ≤ 0x7FC0000000) :
    (memAfter ws).readMemSlice addr len =
      (List.range len).map fun i => lastByte (storeLog ws) (addr + UInt64.ofNat i) := by
  refine (host_memory ws).2.1 addr len fun i hi => ?_
  rw [Reserved, phys, show ptBase.toNat = 0x7FC0000000 from rfl, UInt64.toNat_add,
    UInt64.toNat_ofNat']
  omega

theorem read64_memAfter (ws : List HostWrite) {addr page : UInt64} (halign : addr.toNat % 8 = 0)
    (hlt : addr.toNat + 8 ≤ 0x7FC0000000) :
    ((memAfter ws).alloc page).read64 addr = UInt64.ofNat (Bytes.leValue
      ((List.range 8).map fun i => lastByte (storeLog ws) (addr + UInt64.ofNat i))) := by
  rw [GuestMemory.read64_eq halign (by omega), GuestMemory.readMemSlice_alloc,
    readMemSlice_memAfter ws hlt]

namespace Machine

/-- Where nothing has been fetched, a write changes nothing else of the core. -/
theorem toCore_write {m : Machine} (hwindow : m.eipPageWindowSize = 0) (w : HostWrite) :
    (m.write w).toCore = { m.toCore with mem := w.apply m.mem } := by
  rw [w.apply_eq]
  unfold Machine.write
  induction w.stores generalizing m with
  | nil => rfl
  | cons b stores ih =>
    have hbyte : (m.writeByte b.1 b.2).toCore =
        { m.toCore with mem := m.mem.writeMem b.1 b.2, eipPageWindowSize := 0 } := rfl
    rw [List.foldl_cons, ih rfl, hbyte, ← hwindow]
    rfl

theorem toCore_writes {m : Machine} (hwindow : m.eipPageWindowSize = 0) (ws : List HostWrite) :
    (ws.foldl Machine.write m).toCore =
      { m.toCore with mem := ws.foldl (fun mem w => w.apply mem) m.mem } := by
  induction ws generalizing m with
  | nil => rfl
  | cons w ws ih =>
    have hw := toCore_write hwindow w
    rw [List.foldl_cons, ih ((congrArg Core.eipPageWindowSize hw).trans hwindow), hw]
    rfl

/-! ### One turn -/

variable {m : Machine}

theorem stepLoop_of_kill {cpu_loop : Machine → Machine} (h : m.kill_bochs_request = true) (n : ℕ) :
    m.stepLoop cpu_loop n = m := by
  cases n with
  | zero => rfl
  | succ n => exact if_pos h

theorem stepLoop_armed (cpu_loop : Machine → Machine) (n : ℕ) :
    m.armed.stepLoop cpu_loop (n + 1) = (cpu_loop m.armed).stepLoop cpu_loop n := rfl

/-- A step whose first turn asks to stop reports that turn. -/
theorem step_pae_loop (hplain : m.armed.Plain)
    (hkill : m.armed.commit.instruction.kill_bochs_request = true) :
    m.step pae_loop = m.armed.commit.instruction.report := by
  have hturn : pae_loop m.armed = m.armed.commit.instruction := if_pos ⟨rfl, hplain⟩
  have hloop := stepLoop_armed (m := m) pae_loop 1023
  rw [hturn, stepLoop_of_kill hkill] at hloop
  rw [step_eq, ← hloop]

theorem instruction_of_page {e : TlbEntry} (h : m.translate_linear m.regs.rip = .page e) :
    m.instruction = (m.fetched e).execute e.ppf := by
  unfold instruction
  rw [h]

theorem instruction_of_pageFault {error_code : UInt32}
    (h : m.translate_linear m.regs.rip = .pageFault error_code) :
    m.instruction = m.page_fault m.regs.rip error_code := by
  unfold instruction
  rw [h]

theorem execute_nop {ppf : UInt64}
    (h : (m.mem.readMemSlice (ppf ||| (m.regs.rip &&& 0xFFF)) 3).head? = some 0x90) :
    m.execute ppf = m.retire 1 := if_pos h

theorem execute_mov_cr0 {m' : Machine} {ppf : UInt64}
    (h : m.mem.readMemSlice (ppf ||| (m.regs.rip &&& 0xFFF)) 3 = [0x0F, 0x22, 0xC0])
    (hset : m.invalidate_prefetch_q.SetCR0 (m.regs.gen_reg 0) = some m') :
    m.execute ppf = m'.retire 3 := by
  unfold execute
  rw [h, if_neg (by decide), if_pos rfl, hset]

/-- A write of CR0 that turns PAE paging on leaves the pointers it loads. -/
theorem PDPTR_CACHE_SetCR0 {val : UInt64} {c : Core}
    (hguard : m.mode.regs.get_PG = false ∧ m.mode.regs.get_PAE = true ∧
      m.mode.regs.get_LME = false ∧ m.mode.regs.get_CET = false ∧
      val &&& 0xFFFFFFFF80000001 = 0x80000001 ∧
      Mode.check_CR0 (val.toBitVec.setWidth 32) = true)
    (hload : m.CheckPDPTR m.regs.cr3 = some c) :
    ∃ m', m.SetCR0 val = some m' ∧ m'.PDPTR_CACHE = c.PDPTR_CACHE := by
  unfold SetCR0
  rw [if_pos hguard, hload]
  exact ⟨_, rfl, rfl⟩

end Machine

/-! ## Two oracles -/

/-- An oracle that has written memory since it was constructed. -/
def Written (ws : List HostWrite) (left : Leftover) (m : Machine) : Prop :=
  m.toCore = { Core.fresh left with mem := memAfter ws }

theorem written_construct (m : Machine) (ws : List HostWrite) :
    Written ws m.leftover (ws.foldl Machine.write m.construct) := by
  have hcore := toCore_construct m
  have hwindow : m.construct.eipPageWindowSize = 0 := congrArg Core.eipPageWindowSize hcore
  unfold Written memAfter
  rw [Machine.toCore_writes hwindow, hcore]
  unfold Core.fresh
  generalize buildIdentityMap .empty = mem
  rfl

/-- A page-directory pointer to physical page 0, where CR3 is as 32 bits; and `mov cr0, rax`. -/
def loadWrites : List HostWrite := [.byte 0xC0000000 1, .slice 0 [0x0F, 0x22, 0xC0]]

/-- Long mode and paging off, then `mov cr0, rax` with paging on. -/
def loadCalls : List Call :=
  loadWrites.map .write ++
    [.set (.msr .efer) 0, .set (.cr .cr0) 0x50033, .set (.gpr 0) 0x80050033, .step]

/-- A page-directory entry for the 2-MByte page 0 at its start, and `nop`. -/
def useWrites : List HostWrite := [.byte 0 0xA3, .byte 0x10 0x90]

/-- Long mode off, then `nop`. -/
def useCalls : List Call :=
  useWrites.map .write ++ [.set .rip 0x10, .set (.msr .efer) 0, .step]

namespace Machine

variable {m : Machine} {left : Leftover}

/-! ### The one that loads the pointers -/

def loading (m : Machine) : Machine :=
  ((m.set (.msr .efer) 0).set (.cr .cr0) 0x50033).set (.gpr 0) 0x80050033

/-- Paging is off, so the page is the one at linear address 0. -/
def firstPage : TlbEntry := { lpf := lpfOf 0, ppf := lpfOf 0, accessBits := 3, lpf_mask := 0xFFF }

/-- The pointers in memory. -/
def loadedPdptr (n : Fin 4) : UInt64 := if n = 0 then 1 else 0

theorem plain_loading (h : Written loadWrites left m) : m.loading.armed.Plain := by
  have hrip : (0 : UInt64).toNat < 2 ^ 32 := by decide
  have hflags : (2 : BitVec 32) &&& 0x10100 = 0 := by decide
  have hcr4 : (0x40220 : UInt64) &&& 0x8800000 = 0 := by decide
  cases m
  obtain rfl := h
  exact ⟨rfl, rfl, rfl, hrip, hflags, rfl, hcr4, rfl, rfl, rfl, rfl, rfl, rfl⟩

theorem fetch_loading (h : Written loadWrites left m) :
    m.loading.armed.commit.translate_linear m.loading.armed.commit.regs.rip = .page firstPage := by
  have hcr0 : ((0x50033 : UInt64).toUInt32 ||| 0x10) &&& 0x80000000 = 0 := by decide
  cases m
  obtain rfl := h
  exact if_pos hcr0

/-- What the instruction starts with. -/
theorem fetched_loading (h : Written loadWrites left m) :
    ∃ f, m.loading.armed.commit.fetched firstPage = f ∧
      f.mem = (memAfter loadWrites).alloc (lpfOf 0) ∧ f.regs.rip = 0 ∧
      f.regs.gen_reg 0 = 0x80050033 ∧ f.regs.cr3 = ptPml4 ∧
      f.mode.regs.cr0 = ((0x50033 : UInt64).toUInt32 ||| 0x10).toBitVec ∧
      f.mode.regs.cr4 = 0x40220 ∧ f.mode.regs.efer = (0 : UInt64).toUInt32.toBitVec := by
  cases m
  obtain rfl := h
  exact ⟨_, rfl, rfl, rfl, rfl, rfl, rfl, rfl, rfl⟩

theorem CheckPDPTR_loading {c : Core} (hmem : c.mem = (memAfter loadWrites).alloc (lpfOf 0))
    (hcr3 : c.regs.cr3 = ptPml4) :
    c.CheckPDPTR c.regs.cr3 = some { c with PDPTR_CACHE := loadedPdptr } := by
  have hpdptr : c.pdptr ptPml4 = loadedPdptr := by
    funext n
    unfold Core.pdptr
    rw [hmem]
    fin_cases n <;> exact (read64_memAfter loadWrites (by decide) (by decide)).trans (by decide)
  unfold Core.CheckPDPTR
  rw [hcr3, hpdptr]
  exact if_pos (by decide)

theorem instruction_loading (h : Written loadWrites left m) :
    m.loading.armed.commit.instruction.PDPTR_CACHE = loadedPdptr ∧
      m.loading.armed.commit.instruction.kill_bochs_request = true := by
  obtain ⟨f, hf, hmem, hrip, hrax, hcr3, hcr0, hcr4, hefer⟩ := fetched_loading h
  have hbytes : f.mem.readMemSlice (firstPage.ppf ||| (f.regs.rip &&& 0xFFF)) 3 =
      [0x0F, 0x22, 0xC0] := by
    rw [hmem, hrip, GuestMemory.readMemSlice_alloc, readMemSlice_memAfter _ (by decide)]
    decide
  have hPG : f.mode.regs.get_PG = false := by
    unfold Mode.Regs.get_PG
    rw [hcr0]
    decide
  have hPAE : f.mode.regs.get_PAE = true ∧ f.mode.regs.get_CET = false := by
    unfold Mode.Regs.get_PAE Mode.Regs.get_CET
    rw [hcr4]
    decide
  have hLME : f.mode.regs.get_LME = false := by
    unfold Mode.Regs.get_LME
    rw [hefer]
    decide
  obtain ⟨m', hset, hpdptr⟩ := PDPTR_CACHE_SetCR0 (m := f.invalidate_prefetch_q)
    ⟨hPG, hPAE.1, hLME, hPAE.2, (by decide : (0x80050033 : UInt64) &&& _ = _), by decide⟩
    (CheckPDPTR_loading hmem hcr3)
  rw [← hrax] at hset
  rw [instruction_of_page (fetch_loading h), hf, execute_mov_cr0 hbytes hset]
  exact ⟨hpdptr, rfl⟩

/-- **What the first oracle leaves in the cache.** -/
theorem PDPTR_CACHE_loading (h : Written loadWrites left m) :
    (m.loading.step pae_loop).machine.PDPTR_CACHE = loadedPdptr := by
  obtain ⟨hpdptr, hkill⟩ := instruction_loading h
  rw [step_pae_loop (plain_loading h) hkill]
  exact hpdptr

/-! ### The one that uses them -/

def running (m : Machine) : Machine := (m.set .rip 0x10).set (.msr .efer) 0

theorem plain_running (h : Written useWrites left m) : m.running.armed.Plain := by
  have hrip : (0x10 : UInt64).toNat < 2 ^ 32 := by decide
  have hflags : (2 : BitVec 32) &&& 0x10100 = 0 := by decide
  have hcr4 : (0x40220 : UInt64) &&& 0x8800000 = 0 := by decide
  cases m
  obtain rfl := h
  exact ⟨rfl, rfl, rfl, hrip, hflags, rfl, hcr4, rfl, rfl, rfl, rfl, rfl, rfl⟩

/-- The fetch is a walk from the cached pointer. -/
theorem translate_running (h : Written useWrites left m) :
    m.running.armed.commit.translate_linear m.running.armed.commit.regs.rip =
      m.running.armed.commit.translate_linear_PAE 0x10 := by
  have hcr0 : ¬ (0x80050033 : UInt32) &&& 0x80000000 = 0 := by decide
  have hcr4 : ¬ (0x40220 : UInt64) &&& 0x20 = 0 := by decide
  cases m
  obtain rfl := h
  exact (if_neg hcr0).trans (if_neg hcr4)

theorem core_running (h : Written useWrites left m) :
    ∃ c, m.running.armed.commit.toCore = c ∧ c.mem = memAfter useWrites ∧
      c.PDPTR_CACHE = left.PDPTR_CACHE ∧ c.regs.rip = 0x10 ∧ c.regs.cr4 = 0x40220 ∧
      c.regs.efer = (0 : UInt64).toUInt32 := by
  cases m
  obtain rfl := h
  exact ⟨_, rfl, rfl, rfl, rfl, rfl, rfl⟩

/-- The 2-MByte page 0. -/
def nopPage : TlbEntry :=
  { lpf := lpfOf 0x10, ppf := ((0xA3 : UInt64) &&& 0xFFFFFFFE00000) ||| (0x10 &&& 0x1FF000)
    accessBits := 1, lpf_mask := 0x1FFFFF }

theorem fetch_loaded {c : Core} (hmem : c.mem = memAfter useWrites) (hpdptr : c.PDPTR_CACHE 0 = 1) :
    c.translate_linear_PAE 0x10 = .page nopPage := by
  have hpde : (memAfter useWrites).read64
      (((1 : UInt64) &&& 0xFFFFFFFFFF000) + (((0x10 : UInt64) >>> (18 : UInt64)) &&& 0xFF8)) =
        0xA3 := by
    rw [GuestMemory.read64_eq (by decide) (by decide), readMemSlice_memAfter _ (by decide)]
    decide
  have hindex : Fin.ofNat 4 ((0x10 : UInt64).toNat / 2 ^ 30) = 0 := by decide
  unfold Core.translate_linear_PAE
  rw [hindex, hpdptr, hmem]
  refine (if_neg (by decide)).trans ?_
  rw [hpde]
  exact if_pos (by decide)

theorem fetch_unloaded {c : Core} (hcr4 : c.regs.cr4 = 0x40220)
    (hefer : c.regs.efer = (0 : UInt64).toUInt32) (hpdptr : c.PDPTR_CACHE 0 = 0) :
    c.translate_linear_PAE 0x10 = .pageFault 0 := by
  have hindex : Fin.ofNat 4 ((0x10 : UInt64).toNat / 2 ^ 30) = 0 := by decide
  unfold Core.translate_linear_PAE
  rw [hindex, hpdptr, hcr4, hefer]
  exact (if_pos (by decide)).trans (congrArg Core.Fetched.pageFault (if_pos (by decide)))

/-- With the pointer in the cache the instruction retires. -/
theorem status_loaded (h : Written useWrites left m) (hpdptr : left.PDPTR_CACHE 0 = 1) :
    (m.running.step pae_loop).status = 0 := by
  obtain ⟨c, hc, hmem, hcache, hrip, -, -⟩ := core_running h
  have hfetch := translate_running h
  rw [hc, fetch_loaded hmem (hcache ▸ hpdptr), ← hc] at hfetch
  have hbytes : ((m.running.armed.commit.fetched nopPage).mem.readMemSlice
      (nopPage.ppf ||| ((m.running.armed.commit.fetched nopPage).regs.rip &&& 0xFFF)) 3).head? =
      some 0x90 := by
    have halloc : (m.running.armed.commit.fetched nopPage).mem = c.mem.alloc nopPage.ppf := by
      rw [← hc]
      rfl
    have hkept : (m.running.armed.commit.fetched nopPage).regs.rip = 0x10 := by
      rw [← hrip, ← hc]
      rfl
    rw [halloc, hmem, hkept, GuestMemory.readMemSlice_alloc, readMemSlice_memAfter _ (by decide)]
    decide
  have hran := (instruction_of_page hfetch).trans (execute_nop hbytes)
  rw [step_pae_loop (plain_running h) (by rw [hran]; rfl), hran]
  cases m
  obtain rfl := h
  rfl

/-- Without it the fetch is a page fault. -/
theorem status_unloaded (h : Written useWrites left m) (hpdptr : left.PDPTR_CACHE 0 = 0) :
    (m.running.step pae_loop).status = 1 := by
  obtain ⟨c, hc, -, hcache, -, hcr4, hefer⟩ := core_running h
  have hfetch := translate_running h
  rw [hc, fetch_unloaded hcr4 hefer (hcache ▸ hpdptr), ← hc] at hfetch
  have hran := instruction_of_pageFault hfetch
  rw [step_pae_loop (plain_running h) (by rw [hran]; rfl), hran]
  rfl

end Machine

/-! ## A complete reset? -/

/-- What is so of an oracle constructed over the globals `m`, where `boot` are those of a fresh
process. -/
structure Reset (cpu_loop : Machine → Machine) (looks : Machine → Prop) (boot m : Machine) :
    Prop where
  core : (BochsOracle.new m).machine.toCore = Core.fresh m.leftover
  clock : (BochsOracle.new m).machine.clock = m.clock.set_TSC 0
  traces : (BochsOracle.new m).machine.traces.Alike (BochsOracle.new boot).machine.traces
  async_event : (BochsOracle.new m).machine.async_event = Machine.stopTrace
  kill_bochs_request : (BochsOracle.new m).machine.kill_bochs_request = false
  last_fault : (BochsOracle.new m).last_fault = none
  core_iff : (BochsOracle.new m).machine.toCore = (BochsOracle.new boot).machine.toCore ↔
    m.leftover = boot.leftover
  tsc_adjust_iff : (BochsOracle.new m).machine.clock.tsc_adjust =
      (BochsOracle.new boot).machine.clock.tsc_adjust ↔
    m.clock.time_ticks = boot.clock.time_ticks
  answers : m.leftover = boot.leftover → ∀ calls,
    m.clock.set_TSC 0 = boot.clock.set_TSC 0 ∨
      (BochsOracle.component cpu_loop).Always (BochsOracle.Timeless cpu_loop looks) (.new m) calls →
    (BochsOracle.component cpu_loop).answers (.new m) calls =
      (BochsOracle.component cpu_loop).answers (.new boot) calls

/-- An instruction that retires shows in the `tsc_adjust` of the next oracle. -/
theorem tsc_adjust_retire {m : Machine} (hruns : m.clock.Runs)
    (hsync : m.icount_last_sync = m.icount) (ilen : UInt64) :
    (m.retire ilen).construct.clock.tsc_adjust ≠ m.construct.clock.tsc_adjust := by
  have hdelta : (m.icount + 1 - m.icount_last_sync).toUInt32 = 1 := by
    rw [hsync, add_sub_cancel_left]
    rfl
  have htime : (m.retire ilen).clock.time_ticks = m.clock.time_ticks + 1 := by
    unfold Machine.retire
    dsimp only
    rw [hdelta]
    exact (Clock.tickn_spec hruns 1).2.1
  rw [Machine.clock_construct, Machine.clock_construct, ne_eq, Clock.tsc_adjust_set_TSC_inj, htime]
  exact fun h => absurd (add_eq_left.1 h) (by decide)

/-- The globals at the start of a process: the pointers and the clock are zero, and the rest of the
core is overwritten. -/
def processStart : Machine where
  toCore := Core.fresh { PDPTR_CACHE := fun _ => 0, ldtr_d_b := false, tr_d_b := false }
  async_event := 0
  kill_bochs_request := false
  clock := .start
  traces := TraceCache.powerOn
  vmcs := { externalInterruptVmexit := false, words := fun _ => 0 }
  scratch :=
    { prev_rsp := 0, prev_ssp := 0, tmp := 0, vtmp := fun _ => 0, monitor_addr := 0
      pAddrFetchPage := 0, pAddrStackPage := 0, far_branch_cs := 0, far_branch_rip := 0
      address_xlation := fun _ => 0 }

theorem afterLifetimes_one (cpu_loop : Machine → Machine) (boot : Machine) (calls : List Call) :
    afterLifetimes cpu_loop boot [calls] =
      ((BochsOracle.component cpu_loop).after (.new boot) calls).machine.free := rfl

namespace BochsOracle

variable {cpu_loop : Machine → Machine}

theorem after_writes (o : BochsOracle) (ws : List HostWrite) :
    (component cpu_loop).after o (ws.map .write) =
      { o with machine := ws.foldl Machine.write o.machine } := by
  induction ws generalizing o with
  | nil => rfl
  | cons w ws ih => exact ih _

theorem answers_writes (o : BochsOracle) (ws : List HostWrite) :
    (component cpu_loop).answers o (ws.map .write) = ws.map fun _ => .done := by
  induction ws generalizing o with
  | nil => rfl
  | cons w ws ih => exact congrArg (Answer.done :: ·) (ih _)

theorem machine_after_step (o : BochsOracle) :
    ((component cpu_loop).after o [.step]).machine = (o.machine.step cpu_loop).machine :=
  machine_call_step

end BochsOracle

/-- What a construction does not write, a write of RIP does not write either. -/
theorem leftover_setRip (cpu_loop : Machine → Machine) (boot : Machine) (v : UInt64) :
    (afterLifetimes cpu_loop boot [[.set .rip v]]).leftover = boot.leftover := by
  have hset (o : BochsOracle) :
      ((BochsOracle.component cpu_loop).after o [.set .rip v]).machine.free.leftover =
        o.machine.toCore.leftover := rfl
  have hnew : (BochsOracle.new boot).machine = boot.construct := rfl
  have hfresh (left : Leftover) : (Core.fresh left).leftover = left := rfl
  rw [afterLifetimes_one, hset, hnew, toCore_construct, hfresh]

/-- The calls that load the pointers, whatever the globals were. -/
theorem PDPTR_CACHE_loadCalls (boot : Machine) :
    (afterLifetimes Machine.pae_loop boot [loadCalls]).leftover.PDPTR_CACHE =
      Machine.loadedPdptr := by
  have hset (o : BochsOracle) :
      (BochsOracle.component Machine.pae_loop).after o
          [.set (.msr .efer) 0, .set (.cr .cr0) 0x50033, .set (.gpr 0) 0x80050033, .step] =
        (BochsOracle.component Machine.pae_loop).after { o with machine := o.machine.loading }
          [.step] := rfl
  have hfree (m : Machine) : m.free.leftover.PDPTR_CACHE = m.PDPTR_CACHE := rfl
  rw [afterLifetimes_one, loadCalls, Component.after_append, BochsOracle.after_writes, hset, hfree,
    BochsOracle.machine_after_step]
  exact Machine.PDPTR_CACHE_loading (written_construct boot loadWrites)

/-- The answers to the calls that use them: the last one is the outcome of the step. -/
theorem answers_useCalls (m : Machine) :
    (BochsOracle.component Machine.pae_loop).answers (.new m) useCalls =
      [.done, .done, .done, .done, .outcome (bochsStep
        ((useWrites.foldl Machine.write m.construct).running.step Machine.pae_loop)).1] := by
  have hset (o : BochsOracle) :
      (BochsOracle.component Machine.pae_loop).answers o
          [.set .rip 0x10, .set (.msr .efer) 0, .step] =
        [.done, .done, .outcome (bochsStep (o.machine.running.step Machine.pae_loop)).1] := rfl
  rw [useCalls, Component.answers_append, BochsOracle.after_writes,
    BochsOracle.answers_writes, hset]
  rfl

theorem bochsStep_retired {a : BochsAnswer Machine} (h : a.status = 0) :
    (bochsStep a).1 = .retired := by
  unfold bochsStep
  rw [h]
  rfl

theorem bochsStep_fault {a : BochsAnswer Machine} (h : a.status = 1) :
    (bochsStep a).1 ≠ .retired := by
  have hfault : (bochsStep a).1 =
      .fault (bochsClassify a.vector) (bochsFaultMsg (some (a.vector, a.error))) := by
    unfold bochsStep
    rw [h]
    rfl
  rw [hfault]
  exact Hw.StepOutcome.noConfusion

theorem leftover_processStart :
    processStart.leftover = { PDPTR_CACHE := fun _ => 0, ldtr_d_b := false, tr_d_b := false } := by
  have hfresh (left : Leftover) : (Core.fresh left).leftover = left := rfl
  exact hfresh _

end Bochs
