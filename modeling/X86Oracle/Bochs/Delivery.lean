import Mathlib
import X86Oracle.Lib.Raising
import X86Oracle.Bochs.Machine

/-!
# Entering a gate in long mode

`BX_CPU_C::long_mode_int` (`cpu/exception.cc`): the checks on the gate that an exception selects,
and the transfer through it.  Every check raises an exception of its own.  Linear addresses have 48
bits.

* `Frame` is what delivery reads and writes, with the rest of the machine as a parameter.
* `Bus` has the memory accesses and the shadow-stack operations of other files.
* `Bus.check_gate` is `long_mode_int` up to its first push, `Bus.enter_gate` the rest.
* `keeps_check_gate`: the checks change nothing but what reading memory changes.
* `raises_long_mode_int`: what delivery can raise.
-/

namespace Bochs

namespace Delivery

open Raising

/-! ## Descriptors -/

/-- `bx_descriptor_t`; of the union, what delivery looks at. -/
structure Parsed where
  valid : Bool
  p : Bool
  dpl : ℕ
  segment : Bool
  type : ℕ
  l : Bool
  d_b : Bool
  param_count : ℕ
  dest_selector : UInt16
  dest_offset : UInt64
deriving DecidableEq

/-- The low and the high doubleword. -/
def low32 (q : UInt64) : UInt64 := q &&& 0xFFFFFFFF
def high32 (q : UInt64) : UInt64 := q >>> 32

/-- The system types with a descriptor of their own: gates and task state segments. -/
def systemTypes : List ℕ := [1, 2, 3, 4, 5, 6, 7, 9, 11, 12, 14, 15]

/-- `parse_descriptor`. -/
def parse_descriptor (dword1 dword2 : UInt64) : Parsed :=
  let ar := (dword2.toNat / 2 ^ 8) % 2 ^ 8
  let segment := ar.testBit 4
  let type := ar % 16
  let wide := type = 12 ∨ type = 14 ∨ type = 15
  { valid := segment || decide (type ∈ systemTypes)
    p := ar.testBit 7
    dpl := ar / 2 ^ 5 % 4
    segment
    type
    l := dword2.toNat.testBit 21
    d_b := dword2.toNat.testBit 22
    param_count := dword2.toNat % 2 ^ 5
    dest_selector := (dword1 >>> 16).toUInt16
    dest_offset :=
      if wide then (dword2 &&& 0xFFFF0000) ||| (dword1 &&& 0xFFFF) else dword1 &&& 0xFFFF }

namespace Parsed

def isCode (d : Parsed) : Bool := d.type.testBit 3
def conforming (d : Parsed) : Bool := d.type.testBit 2

end Parsed

/-! ## The state of a delivery -/

/-- A segment register, as far as delivery goes. -/
structure SegmentRegister where
  value : UInt16
  rpl : ℕ
  cache : Parsed
deriving DecidableEq

/-- LDTR. -/
structure LdtRegister where
  valid : Bool
  base : UInt64
  limit : UInt32

/-- What delivery reads and writes.  RF is not among the flags here; `rest` is everything else:
the other registers, memory and the caches. -/
structure Frame (ρ : Type) where
  rip : UInt64
  rsp : UInt64
  ssp : UInt64
  eflags : UInt32
  dr6 : UInt32
  dr7 : UInt32
  cs : SegmentRegister
  ss : SegmentRegister
  gdtr : TableRegister
  idtr : TableRegister
  ldtr : LdtRegister
  rest : ρ

/-- The arguments of a call of `exception`. -/
structure Raised where
  vector : ℕ
  error_code : UInt16
deriving DecidableEq

def tsException : ℕ := 10
def npException : ℕ := 11
def ssException : ℕ := 12
def gpException : ℕ := 13
def pfException : ℕ := 14
def cpException : ℕ := 21

variable {ρ : Type}

abbrev Exec (ρ α : Type) := EStateM Raised (Frame ρ) α

/-- The functions of other files that delivery calls. -/
structure Bus (ρ : Type) where
  system_read_qword : UInt64 → Exec ρ UInt64
  get_RSP_from_TSS : ℕ → Exec ρ UInt64
  write_new_stack_qword : UInt64 → ℕ → UInt64 → Exec ρ Unit
  touch_segment : Exec ρ Unit
  shadow_stack_switch : UInt64 → Exec ρ Unit
  call_far_shadow_stack_push : UInt16 → UInt64 → UInt64 → Exec ρ Unit
  ShadowStackEnabled : ρ → ℕ → Bool
  ia32_interrupt_ssp_table : ρ → UInt64
  ia32_pl_ssp : ρ → ℕ → UInt64
  set_pl3_ssp : ρ → UInt64 → ρ
  track_indirect : ℕ → ρ → ρ
  /-- The mode, the fetch mode and the prefetch queue follow CS. -/
  cs_reloaded : ρ → ρ

namespace Frame

def CPL (f : Frame ρ) : ℕ := f.cs.rpl

def flagTF : UInt32 := 0x100
def flagIF : UInt32 := 0x200
def flagNT : UInt32 := 0x4000

def clear (f : Frame ρ) (mask : UInt32) : Frame ρ := { f with eflags := f.eflags &&& ~~~mask }

/-- `read_eflags`. -/
def read_eflags (f : Frame ρ) (RF : Bool) : UInt64 :=
  f.eflags.toUInt64 ||| (if RF then 0x10000 else 0)

end Frame

/-! ## The checks -/

/-- What the checks have found: a gate that may be entered. -/
structure Target where
  type : ℕ
  dest_offset : UInt64
  ist : ℕ
  cs_selector : UInt16
  cs_descriptor : Parsed

/-- `IsCanonical`, for 48-bit addresses. -/
def isCanonical (a : UInt64) : Bool :=
  decide (a.toNat < 2 ^ 47) || decide (2 ^ 64 - 2 ^ 47 ≤ a.toNat)

namespace Bus

variable (B : Bus ρ)

/-- `fetch_raw_descriptor`. -/
def fetch_raw_descriptor (selector : UInt16) (exception_no : ℕ) : Exec ρ UInt64 := do
  let f ← get
  let index := selector.toNat / 8
  let refused : Raised := ⟨exception_no, selector &&& 0xFFFC⟩
  if selector.toNat.testBit 2 then
    raiseIf (!f.ldtr.valid) refused
    raiseIf (decide (f.ldtr.limit.toNat < index * 8 + 7)) refused
    B.system_read_qword (f.ldtr.base + UInt64.ofNat (index * 8))
  else
    raiseIf (decide (f.gdtr.limit.toNat < index * 8 + 7)) refused
    B.system_read_qword (f.gdtr.base + UInt64.ofNat (index * 8))

/-- `long_mode_int`, up to the stack. -/
def check_gate (vector : ℕ) (soft_int : Bool) : Exec ρ Target := do
  let f ← get
  let refused : Raised := ⟨gpException, UInt16.ofNat (vector * 8 + 2)⟩
  raiseIf (decide (f.idtr.limit.toNat < vector * 16 + 15)) refused
  let desctmp1 ← B.system_read_qword (f.idtr.base + UInt64.ofNat (vector * 16))
  let desctmp2 ← B.system_read_qword (f.idtr.base + UInt64.ofNat (vector * 16) + 8)
  raiseIf (desctmp2 &&& 0x00001F0000000000 != 0) refused
  let gate := parse_descriptor (low32 desctmp1) (high32 desctmp1)
  raiseIf (!gate.valid || gate.segment) refused
  raiseIf (gate.type != 14 && gate.type != 15) refused
  raiseIf (soft_int && decide (gate.dpl < f.CPL)) refused
  raiseIf (!gate.p) ⟨npException, UInt16.ofNat (vector * 8 + 2)⟩
  let cs_selector := gate.dest_selector
  raiseIf (cs_selector &&& 0xFFFC == 0) ⟨gpException, 0⟩
  let raw ← B.fetch_raw_descriptor cs_selector gpException
  let cs_descriptor := parse_descriptor (low32 raw) (high32 raw)
  let refusedCs : Raised := ⟨gpException, cs_selector &&& 0xFFFC⟩
  raiseIf (!cs_descriptor.valid || !cs_descriptor.segment || !cs_descriptor.isCode ||
    decide (f.CPL < cs_descriptor.dpl)) refusedCs
  raiseIf (!cs_descriptor.l || cs_descriptor.d_b) refusedCs
  raiseIf (!cs_descriptor.p) ⟨npException, cs_selector &&& 0xFFFC⟩
  pure
    { type := gate.type, dest_offset := (low32 desctmp2 <<< 32) ||| gate.dest_offset
      ist := gate.param_count % 8, cs_selector, cs_descriptor }

/-! ## The transfer -/

/-- The stack a gate is entered on: RSP, SSP and whether the shadow stack is switched. -/
def new_stack (t : Target) (inner : Bool) : Exec ρ (UInt64 × UInt64 × Bool) := do
  let f ← get
  if 0 < t.ist then
    let rsp ← B.get_RSP_from_TSS (t.ist + 3)
    if B.ShadowStackEnabled f.rest (if inner then 0 else f.CPL) then
      let ssp ← B.system_read_qword (B.ia32_interrupt_ssp_table f.rest + UInt64.ofNat (t.ist * 8))
      pure (rsp, ssp, true)
    else pure (rsp, 0, true)
  else if inner then
    let rsp ← B.get_RSP_from_TSS t.cs_descriptor.dpl
    pure (rsp, B.ia32_pl_ssp f.rest t.cs_descriptor.dpl, true)
  else pure (f.rsp, f.ssp, false)

/-- `branch_far` to a 64-bit segment, with `load_cs`. -/
def branch_far (t : Target) (cpl : ℕ) : Exec ρ Unit := do
  raiseIf (!isCanonical t.dest_offset) ⟨gpException, 0⟩
  B.touch_segment
  modify fun f =>
    { f with
      cs := ⟨(t.cs_selector &&& 0xFFFC) ||| UInt16.ofNat cpl, cpl, t.cs_descriptor⟩
      rip := t.dest_offset
      rest := B.cs_reloaded f.rest }

/-- `load_null_selector`. -/
def nullSelector (value : ℕ) : SegmentRegister :=
  { value := UInt16.ofNat value, rpl := value % 4
    cache :=
      { valid := false, p := false, dpl := 0, segment := true, type := 0, l := false, d_b := false
        param_count := 0, dest_selector := 0, dest_offset := 0 } }

/-- The shadow stack, once CS is that of the handler. -/
def enter_shadow_stack (old : Frame ρ) (new_SSP : UInt64) (check_ss_token : Bool) :
    Exec ρ Unit := do
  let f ← get
  doIf (B.ShadowStackEnabled f.rest old.CPL && old.CPL == 3)
    (modify fun f => { f with rest := B.set_pl3_ssp f.rest f.ssp })
  let f ← get
  let enabled := B.ShadowStackEnabled f.rest f.CPL
  doIf (enabled && check_ss_token) (B.shadow_stack_switch new_SSP)
  doIf (enabled && old.ss.cache.dpl != 3)
    (B.call_far_shadow_stack_push old.cs.value old.rip f.ssp)
  modify fun f => { f with rest := B.track_indirect f.CPL f.rest }

/-- `long_mode_int`, from the stack on. -/
def enter_gate (t : Target) (RF push_error : Bool) (error_code : UInt16) : Exec ρ Unit := do
  let old ← get
  let inner := !t.cs_descriptor.conforming && decide (t.cs_descriptor.dpl < old.CPL)
  let stack ← B.new_stack t inner
  let top := stack.1 &&& 0xFFFFFFFFFFFFFFF0
  let pl := t.cs_descriptor.dpl
  B.write_new_stack_qword (top - 8) pl old.ss.value.toUInt64
  B.write_new_stack_qword (top - 16) pl old.rsp
  B.write_new_stack_qword (top - 24) pl (old.read_eflags RF)
  B.write_new_stack_qword (top - 32) pl old.cs.value.toUInt64
  B.write_new_stack_qword (top - 40) pl old.rip
  doIf push_error (B.write_new_stack_qword (top - 48) pl error_code.toUInt64)
  B.branch_far t (if inner then t.cs_descriptor.dpl else old.CPL)
  doIf inner (modify fun f => { f with ss := nullSelector t.cs_descriptor.dpl })
  B.enter_shadow_stack old stack.2.1 stack.2.2
  modify fun f =>
    let f := { f with rsp := if push_error then top - 48 else top - 40 }
    let f := if t.type % 2 = 0 then f.clear Frame.flagIF else f
    (f.clear Frame.flagTF).clear Frame.flagNT

/-- `long_mode_int`.  It clears RF at the end, which its caller does here. -/
def long_mode_int (RF : Bool) (vector : ℕ) (soft_int push_error : Bool) (error_code : UInt16) :
    Exec ρ Unit := do
  let t ← B.check_gate vector soft_int
  B.enter_gate t RF push_error error_code

end Bus

/-! ## What the checks change -/

/-- The same registers, and a `rest` that looks the same. -/
structure Like {ω : Type} (view : ρ → ω) (f g : Frame ρ) : Prop where
  rip : g.rip = f.rip
  rsp : g.rsp = f.rsp
  ssp : g.ssp = f.ssp
  eflags : g.eflags = f.eflags
  dr6 : g.dr6 = f.dr6
  dr7 : g.dr7 = f.dr7
  cs : g.cs = f.cs
  ss : g.ss = f.ss
  gdtr : g.gdtr = f.gdtr
  idtr : g.idtr = f.idtr
  ldtr : g.ldtr = f.ldtr
  rest : view g.rest = view f.rest

variable {ω : Type} {view : ρ → ω} {f g h : Frame ρ} {B : Bus ρ}

theorem Like.refl (f : Frame ρ) : Like view f f :=
  ⟨rfl, rfl, rfl, rfl, rfl, rfl, rfl, rfl, rfl, rfl, rfl, rfl⟩

theorem Like.trans (hfg : Like view f g) (hgh : Like view g h) : Like view f h where
  rip := hgh.rip.trans hfg.rip
  rsp := hgh.rsp.trans hfg.rsp
  ssp := hgh.ssp.trans hfg.ssp
  eflags := hgh.eflags.trans hfg.eflags
  dr6 := hgh.dr6.trans hfg.dr6
  dr7 := hgh.dr7.trans hfg.dr7
  cs := hgh.cs.trans hfg.cs
  ss := hgh.ss.trans hfg.ss
  gdtr := hgh.gdtr.trans hfg.gdtr
  idtr := hgh.idtr.trans hfg.idtr
  ldtr := hgh.ldtr.trans hfg.ldtr
  rest := hgh.rest.trans hfg.rest

/-- Reading memory changes nothing that `view` shows: caches, accessed bits and CR2 are not
part of it. -/
def Bus.ReadsOnly (B : Bus ρ) (view : ρ → ω) : Prop :=
  ∀ laddr, Keeps (Like view) (B.system_read_qword laddr)

section Checks

variable (hB : B.ReadsOnly view)

include hB

theorem keeps_fetch_raw_descriptor (selector : UInt16) (exception_no : ℕ) :
    Keeps (Like view) (B.fetch_raw_descriptor selector exception_no) := by
  have hraise (b : Bool) (e : Raised) :
      Keeps (Like view) (raiseIf b e : Exec ρ Unit) := Keeps.raiseIf Like.refl b e
  refine Keeps.bind Like.trans (Keeps.get Like.refl) fun f => ?_
  refine Keeps.ite ?_ ?_
  · -- the LDT
    refine Keeps.bind Like.trans (hraise _ _) fun _ => ?_
    exact Keeps.bind Like.trans (hraise _ _) fun _ => hB _
  · exact Keeps.bind Like.trans (hraise _ _) fun _ => hB _

/-- The checks commit nothing, whether they refuse the gate or not. -/
theorem keeps_check_gate (vector : ℕ) (soft_int : Bool) :
    Keeps (Like view) (B.check_gate vector soft_int) := by
  have hraise (b : Bool) (e : Raised) :
      Keeps (Like view) (raiseIf b e : Exec ρ Unit) := Keeps.raiseIf Like.refl b e
  refine Keeps.bind Like.trans (Keeps.get Like.refl) fun f => ?_
  refine Keeps.bind Like.trans (hraise _ _) fun _ => ?_
  refine Keeps.bind Like.trans (hB _) fun desctmp1 => ?_
  refine Keeps.bind Like.trans (hB _) fun desctmp2 => ?_
  -- the gate
  refine Keeps.bind Like.trans (hraise _ _) fun _ => ?_
  refine Keeps.bind Like.trans (hraise _ _) fun _ => ?_
  refine Keeps.bind Like.trans (hraise _ _) fun _ => ?_
  refine Keeps.bind Like.trans (hraise _ _) fun _ => ?_
  refine Keeps.bind Like.trans (hraise _ _) fun _ => ?_
  refine Keeps.bind Like.trans (hraise _ _) fun _ => ?_
  -- the code segment it names
  refine Keeps.bind Like.trans (keeps_fetch_raw_descriptor hB _ _) fun raw => ?_
  refine Keeps.bind Like.trans (hraise _ _) fun _ => ?_
  refine Keeps.bind Like.trans (hraise _ _) fun _ => ?_
  refine Keeps.bind Like.trans (hraise _ _) fun _ => ?_
  exact Keeps.pure Like.refl _

end Checks

/-! ## What delivery raises -/

/-- The exceptions that can occur while another one is delivered. -/
def deliveryVectors : List ℕ :=
  [tsException, npException, ssException, gpException, pfException, cpException]

abbrev Raises (m : Exec ρ α) : Prop := RaisesOnly (fun r => r.vector ∈ deliveryVectors) m

/-- What the functions of other files raise: #TS and #SS for the stack of a task state segment,
#SS for a push, #GP and #PF for any access, #CP for a shadow stack.  The accesses of
`long_mode_int` are those of the system or to an aligned stack, so that #AC is not among them. -/
structure Bus.RaisesDuringDelivery (B : Bus ρ) : Prop where
  system_read_qword : ∀ laddr, Raises (B.system_read_qword laddr)
  get_RSP_from_TSS : ∀ pl, Raises (B.get_RSP_from_TSS pl)
  write_new_stack_qword : ∀ laddr pl data, Raises (B.write_new_stack_qword laddr pl data)
  touch_segment : Raises B.touch_segment
  shadow_stack_switch : ∀ ssp, Raises (B.shadow_stack_switch ssp)
  call_far_shadow_stack_push : ∀ cs lip ssp, Raises (B.call_far_shadow_stack_push cs lip ssp)

section Raising

variable (hB : B.RaisesDuringDelivery)

theorem raises_raiseIf {e : Raised} (he : e.vector ∈ deliveryVectors) (b : Bool) :
    Raises (raiseIf b e : Exec ρ Unit) := RaisesOnly.raiseIf b he

theorem gp_mem : gpException ∈ deliveryVectors := by decide

theorem np_mem : npException ∈ deliveryVectors := by decide

include hB

theorem raises_fetch_raw_descriptor (selector : UInt16) :
    Raises (B.fetch_raw_descriptor selector gpException) := by
  refine RaisesOnly.bind RaisesOnly.get fun f => ?_
  refine RaisesOnly.ite ?_ ?_
  · refine RaisesOnly.bind (raises_raiseIf gp_mem _) fun _ => ?_
    exact RaisesOnly.bind (raises_raiseIf gp_mem _) fun _ => hB.system_read_qword _
  · exact RaisesOnly.bind (raises_raiseIf gp_mem _) fun _ => hB.system_read_qword _

theorem raises_check_gate (vector : ℕ) (soft_int : Bool) :
    Raises (B.check_gate vector soft_int) := by
  refine RaisesOnly.bind RaisesOnly.get fun f => ?_
  refine RaisesOnly.bind (raises_raiseIf gp_mem _) fun _ => ?_
  refine RaisesOnly.bind (hB.system_read_qword _) fun desctmp1 => ?_
  refine RaisesOnly.bind (hB.system_read_qword _) fun desctmp2 => ?_
  -- the gate
  refine RaisesOnly.bind (raises_raiseIf gp_mem _) fun _ => ?_
  refine RaisesOnly.bind (raises_raiseIf gp_mem _) fun _ => ?_
  refine RaisesOnly.bind (raises_raiseIf gp_mem _) fun _ => ?_
  refine RaisesOnly.bind (raises_raiseIf gp_mem _) fun _ => ?_
  refine RaisesOnly.bind (raises_raiseIf np_mem _) fun _ => ?_
  refine RaisesOnly.bind (raises_raiseIf gp_mem _) fun _ => ?_
  -- the code segment it names
  refine RaisesOnly.bind (raises_fetch_raw_descriptor hB _) fun raw => ?_
  refine RaisesOnly.bind (raises_raiseIf gp_mem _) fun _ => ?_
  refine RaisesOnly.bind (raises_raiseIf gp_mem _) fun _ => ?_
  refine RaisesOnly.bind (raises_raiseIf np_mem _) fun _ => ?_
  exact RaisesOnly.pure _

theorem raises_new_stack (t : Target) (inner : Bool) : Raises (B.new_stack t inner) := by
  refine RaisesOnly.bind RaisesOnly.get fun f => ?_
  refine RaisesOnly.ite ?_ (RaisesOnly.ite ?_ (RaisesOnly.pure _))
  · refine RaisesOnly.bind (hB.get_RSP_from_TSS _) fun rsp => ?_
    refine RaisesOnly.ite ?_ (RaisesOnly.pure _)
    exact RaisesOnly.bind (hB.system_read_qword _) fun _ => RaisesOnly.pure _
  · exact RaisesOnly.bind (hB.get_RSP_from_TSS _) fun _ => RaisesOnly.pure _

theorem raises_branch_far (t : Target) (cpl : ℕ) : Raises (B.branch_far t cpl) := by
  refine RaisesOnly.bind (raises_raiseIf gp_mem _) fun _ => ?_
  exact RaisesOnly.bind hB.touch_segment fun _ => RaisesOnly.modify _

theorem raises_enter_shadow_stack (old : Frame ρ) (new_SSP : UInt64) (check_ss_token : Bool) :
    Raises (B.enter_shadow_stack old new_SSP check_ss_token) := by
  refine RaisesOnly.bind RaisesOnly.get fun f => ?_
  refine RaisesOnly.bind (RaisesOnly.doIf _ (RaisesOnly.modify _)) fun _ => ?_
  refine RaisesOnly.bind RaisesOnly.get fun f => ?_
  refine RaisesOnly.bind (RaisesOnly.doIf _ (hB.shadow_stack_switch _)) fun _ => ?_
  refine RaisesOnly.bind (RaisesOnly.doIf _ (hB.call_far_shadow_stack_push _ _ _)) fun _ => ?_
  exact RaisesOnly.modify _

theorem raises_enter_gate (t : Target) (RF push_error : Bool) (error_code : UInt16) :
    Raises (B.enter_gate t RF push_error error_code) := by
  refine RaisesOnly.bind RaisesOnly.get fun old => ?_
  refine RaisesOnly.bind (raises_new_stack hB _ _) fun stack => ?_
  -- SS, RSP, the flags, CS, RIP and the error code
  iterate 5 refine RaisesOnly.bind (hB.write_new_stack_qword _ _ _) fun _ => ?_
  refine RaisesOnly.bind (RaisesOnly.doIf _ (hB.write_new_stack_qword _ _ _)) fun _ => ?_
  refine RaisesOnly.bind (raises_branch_far hB _ _) fun _ => ?_
  refine RaisesOnly.bind (RaisesOnly.doIf _ (RaisesOnly.modify _)) fun _ => ?_
  refine RaisesOnly.bind (raises_enter_shadow_stack hB _ _ _) fun _ => ?_
  exact RaisesOnly.modify _

theorem raises_long_mode_int (RF : Bool) (vector : ℕ) (soft_int push_error : Bool)
    (error_code : UInt16) : Raises (B.long_mode_int RF vector soft_int push_error error_code) :=
  RaisesOnly.bind (raises_check_gate hB _ _) fun t => raises_enter_gate hB t _ _ _

end Raising

/-! ## Memory of zeros -/

/-- A bus on which every access succeeds and reads zero. -/
def Bus.blank : Bus Unit where
  system_read_qword _ := pure 0
  get_RSP_from_TSS _ := pure 0
  write_new_stack_qword _ _ _ := pure ⟨⟩
  touch_segment := pure ⟨⟩
  shadow_stack_switch _ := pure ⟨⟩
  call_far_shadow_stack_push _ _ _ := pure ⟨⟩
  ShadowStackEnabled _ _ := false
  ia32_interrupt_ssp_table _ := 0
  ia32_pl_ssp _ _ := 0
  set_pl3_ssp rest _ := rest
  track_indirect _ rest := rest
  cs_reloaded rest := rest

theorem raises_blank : Bus.blank.RaisesDuringDelivery where
  system_read_qword _ := RaisesOnly.pure _
  get_RSP_from_TSS _ := RaisesOnly.pure _
  write_new_stack_qword _ _ _ := RaisesOnly.pure _
  touch_segment := RaisesOnly.pure _
  shadow_stack_switch _ := RaisesOnly.pure _
  call_far_shadow_stack_push _ _ _ := RaisesOnly.pure _

theorem readsOnly_blank (view : Unit → Unit) : Bus.blank.ReadsOnly view :=
  fun _ => Keeps.pure Like.refl _

/-- User code in 64-bit mode, with flags and no tables. -/
def Frame.user : Frame Unit where
  rip := 0x400000
  rsp := 0x700000
  ssp := 0
  eflags := 0x202
  dr6 := 0xFFFF0FF0
  dr7 := 0x400
  cs := ⟨0x33, 3, parse_descriptor 0xFFFF 0xAFFB00⟩
  ss := ⟨0x2B, 3, parse_descriptor 0xFFFF 0xCFF300⟩
  gdtr := ⟨0, 0⟩
  idtr := ⟨0, 0⟩
  ldtr := ⟨false, 0, 0⟩
  rest := ()

end Delivery

end Bochs
