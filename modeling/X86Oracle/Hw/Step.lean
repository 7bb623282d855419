import Mathlib
import X86Oracle.Hw.Undo

/-!
# The hardware step paths

`KvmOracle::step` (`src/kvm.rs`) and `WhpOracle::step` (`src/whp.rs`), and the guest events one
step can meet.

* `kvmStep` and `whpStep` consume the exits of successive runs of the virtual processor, at most
  64 of them, and decode the first one that is not a spurious return.
* `kvmExit` and `whpExit` are the processor and the hypervisor: which exit an event causes, and
  the machine it leaves.  An intercepted exception exits before delivery, any other is delivered
  through the IDT and halts in its stub.
* `kvmStepOn_observed` and `whpStepOn_observed` say what each path makes of each event, and
  `step_paths_agree_iff` when all three agree.
-/

namespace Hw

open Bytes Interrupts Oracle

/-! ## Machines and results -/

/-- The part of the virtual machine a step reads and repairs. -/
structure Machine where
  ram : GuestRam
  regs : Regs
  cs : UInt16
  ss : UInt16

/-- What a step returns and leaves. -/
structure StepResult where
  outcome : StepOutcome
  lastFault : Option (UInt8 × UInt64)
  machine : Machine

/-- `last_fault = Some((vector, error))`, with the outcome both backends build from it. -/
def faultResult (vector : UInt8) (error : UInt64) (m : Machine) : StepResult :=
  { outcome := .fault (classify vector) (faultMessage vector error)
    lastFault := some (vector, error), machine := m }

/-- A failure that is not the instruction's: `last_fault` stays cleared. -/
def otherResult (kind : FaultKind) (msg : String) (m : Machine) : StepResult :=
  { outcome := .fault kind msg, lastFault := none, machine := m }

def retiredResult (m : Machine) : StepResult :=
  { outcome := .retired, lastFault := none, machine := m }

/-! ## `KvmOracle::step` -/

/-- What `KVM_RUN` returned. -/
inductive KvmExit where
  | interrupted
  | failed (error : String)
  | debug
  | hlt
  | shutdown
  | mmio (addr : UInt64)
  | other (exit : String)

/-- One iteration's decoding; `none` retries. -/
def kvmHandle (exit : KvmExit) (m : Machine) : Option StepResult :=
  match exit with
  | .interrupted => none
  | .failed error => some (otherResult .otherException ("KVM_RUN failed: " ++ error) m)
  | .debug => some (retiredResult m)
  | .hlt =>
    match stubVector m.regs.rip with
    | some vector =>
      let (regs, vector, error) := kvmUnwindFault m.ram m.regs vector
      some (faultResult vector error { m with regs })
    | none => some (retiredResult m)
  | .shutdown =>
    some (otherResult .otherException "guest triple fault (KVM_EXIT_SHUTDOWN)" m)
  | .mmio addr =>
    some (otherResult .pageFault ("access outside guest RAM at " ++ lowerHex addr) m)
  | .other exit => some (otherResult .otherException ("unexpected KVM exit: " ++ exit) m)

/-- The retry loop over the runs that are left. -/
def kvmLoop (m : Machine) : List (KvmExit × Machine) → StepResult
  | [] => otherResult .otherException "KVM_RUN did not make progress" m
  | (exit, m') :: runs =>
    match kvmHandle exit m' with
    | some result => result
    | none => kvmLoop m' runs

def kvmStep (m : Machine) (runs : List (KvmExit × Machine)) : StepResult :=
  kvmLoop m (runs.take 64)

/-! ## `WhpOracle::step` -/

/-- What `WHvRunVirtualProcessor` returned. -/
inductive WhpExit where
  | failed (hr : UInt32)
  | exceptionIntercept (exceptionType : UInt8) (errorCodeValid : Bool) (errorCode : UInt32)
  | halt
  | canceled
  | memoryAccess (gpa : UInt64)
  | tripleFault
  | other (reason : UInt64)

/-- Rust's `{:#010x}`. -/
def lowerHex8 (n : UInt32) : String :=
  let digits := Nat.toDigits 16 n.toNat
  "0x" ++ String.ofList (List.replicate (8 - digits.length) '0' ++ digits)

def armSinglestep (regs : Regs) : Regs :=
  { regs with rflags := (regs.rflags ||| flagTF) &&& ~~~flagRF }

def disarmSinglestep (regs : Regs) : Regs :=
  { regs with rflags := maskHarness regs.rflags }

/-- One iteration's decoding; `none` retries. -/
def whpHandle (exit : WhpExit) (m : Machine) : Option StepResult :=
  match exit with
  | .failed hr =>
    some (otherResult .otherException ("WHvRunVirtualProcessor failed: hr=" ++ lowerHex8 hr) m)
  | .exceptionIntercept exceptionType errorCodeValid errorCode =>
    let m := { m with regs := disarmSinglestep m.regs }
    if exceptionType = 1 then some (retiredResult m)
    else
      let error := if errorCodeValid then errorCode.toUInt64 else 0
      some (faultResult exceptionType error m)
  | .halt =>
    match stubVector m.regs.rip with
    | some vector =>
      let (regs, error) := whpUnwindFault m.ram m.regs vector
      -- the step's own #DB, delivered rather than intercepted
      if vector = 1 then some (retiredResult { m with regs })
      else some (faultResult vector error { m with regs })
    | none => some (retiredResult { m with regs := disarmSinglestep m.regs })
  | .canceled => none
  | .memoryAccess gpa =>
    some (otherResult .pageFault ("access outside guest RAM at " ++ lowerHex gpa) m)
  | .tripleFault =>
    some (otherResult .otherException
      "guest triple fault (WHvRunVpExitReasonUnrecoverableException)" m)
  | .other reason =>
    some (otherResult .otherException ("unexpected WHP exit reason " ++ lowerHex reason) m)

def whpLoop (m : Machine) : List (WhpExit × Machine) → StepResult
  | [] => otherResult .otherException "WHvRunVirtualProcessor did not make progress" m
  | (exit, m') :: runs =>
    match whpHandle exit m' with
    | some result => result
    | none => whpLoop m' runs

/-- `claimed` is the outcome of `claim_mapping`, `armed` that of `arm_singlestep`. -/
def whpStep (m : Machine) (claimed : Except String Unit) (armed : Except UInt32 Unit)
    (runs : List (WhpExit × Machine)) : StepResult :=
  match claimed with
  | .error e => otherResult .otherException ("could not map guest RAM: " ++ e) m
  | .ok () =>
    match armed with
    | .error hr =>
      otherResult .otherException ("could not arm single-stepping: hr=" ++ lowerHex8 hr) m
    | .ok () => whpLoop { m with regs := armSinglestep m.regs } (runs.take 64)

/-- The vectors the backend asks to intercept. -/
def wantedExceptions : UInt64 :=
  ((1 : UInt64) <<< 0) ||| ((1 : UInt64) <<< 1) ||| ((1 : UInt64) <<< 3) |||
    ((1 : UInt64) <<< 4) ||| ((1 : UInt64) <<< 5) ||| ((1 : UInt64) <<< 6) |||
    ((1 : UInt64) <<< 7) ||| ((1 : UInt64) <<< 10) ||| ((1 : UInt64) <<< 11) |||
    ((1 : UInt64) <<< 12) ||| ((1 : UInt64) <<< 13) ||| ((1 : UInt64) <<< 14) |||
    ((1 : UInt64) <<< 16) ||| ((1 : UInt64) <<< 17) ||| ((1 : UInt64) <<< 19) |||
    ((1 : UInt64) <<< 21)

/-- The bitmap `enable_exception_exits` installs on a host that supports `supported`, or `none`
if it gives up on intercepts: without `#DB` there is no point. -/
def exceptionBitmap (supported : UInt64) : Option UInt64 :=
  let bitmap := wantedExceptions &&& supported
  if bitmap &&& 2 = 0 then none else some bitmap

/-- What the partition intercepts: nothing if intercepts were given up on. -/
def installedBitmap (supported : UInt64) : UInt64 := (exceptionBitmap supported).getD 0

/-! ## Events -/

/-- Length of an instruction in bytes. -/
abbrev InstrLength := { n : ℕ // 0 < n ∧ n ≤ 15 }

/-- What the guest can do in one step. -/
inductive GuestEvent where
  /-- The instruction completed and its single-step trap is due. -/
  | completed (post : Regs)
  /-- A hardware exception, with the registers it is raised with. -/
  | exception (vector : UInt8) (code : UInt32) (raised : Regs)
  | softInt (vector : UInt8) (len : InstrLength)
  | int3 (len : InstrLength)
  | int1 (len : InstrLength)
  | hlt (len : InstrLength)

/-- The harness runs every instruction with `TF` set. -/
def stepping (regs : Regs) : Regs := { regs with rflags := regs.rflags ||| flagTF }

@[simp] theorem stepping_rip (regs : Regs) : (stepping regs).rip = regs.rip := rfl

@[simp] theorem stepping_rsp (regs : Regs) : (stepping regs).rsp = regs.rsp := rfl

/-- RIP after an instruction of the given length. -/
def Machine.after (m : Machine) (len : InstrLength) : Regs :=
  { m.regs with rip := m.regs.rip + UInt64.ofNat len }

/-- The event the processor delivers. -/
def deliveredEvent (m : Machine) (cause : Cause) (vector : UInt8) (code : UInt64) (regs : Regs) :
    Event :=
  { cause, vector, ss := m.ss, rsp := regs.rsp, rflags := (stepping regs).rflags, cs := m.cs,
    rip := regs.rip, code }

/-- Delivery through the IDT: the machine halted in the stub, or a triple fault. -/
def vectored {α : Type} (halted shutdown : α) (m : Machine) (cause : Cause) (vector : UInt8)
    (code : UInt64) (regs : Regs) : α × Machine :=
  match haltInStub m.ram (deliveredEvent m cause vector code regs) with
  | some (ram, regs) => (halted, { m with ram, regs })
  | none => (shutdown, m)

/-- KVM intercepts nothing but the completed step. -/
def kvmExit (m : Machine) : GuestEvent → KvmExit × Machine
  | .completed post => (.debug, { m with regs := stepping post })
  | .exception vector code raised =>
    vectored .hlt .shutdown m .hardware vector code.toUInt64 raised
  | .softInt vector len => vectored .hlt .shutdown m .software vector 0 (m.after len)
  | .int3 len => vectored .hlt .shutdown m .software 3 0 (m.after len)
  | .int1 len => vectored .hlt .shutdown m .software 1 0 (m.after len)
  | .hlt len => (.hlt, { m with regs := stepping (m.after len) })

/-- WHP intercepts the exceptions in `bitmap`, `INT3` and `INT1` included, before delivery. -/
def whpExit (bitmap : UInt64) (m : Machine) : GuestEvent → WhpExit × Machine
  | .completed post =>
    if bitmap.toNat.testBit 1 then
      (.exceptionIntercept 1 false 0, { m with regs := stepping post })
    else vectored .halt .tripleFault m .hardware 1 0 post
  | .exception vector code raised =>
    if bitmap.toNat.testBit vector.toNat then
      (.exceptionIntercept vector (exceptionHasErrorCode vector) code,
        { m with regs := stepping raised })
    else vectored .halt .tripleFault m .hardware vector code.toUInt64 raised
  | .softInt vector len => vectored .halt .tripleFault m .software vector 0 (m.after len)
  | .int3 len =>
    if bitmap.toNat.testBit 3 then
      (.exceptionIntercept 3 false 0, { m with regs := stepping m.regs })
    else vectored .halt .tripleFault m .software 3 0 (m.after len)
  | .int1 len =>
    if bitmap.toNat.testBit 1 then
      (.exceptionIntercept 1 false 0, { m with regs := stepping m.regs })
    else vectored .halt .tripleFault m .software 1 0 (m.after len)
  | .hlt len => (.halt, { m with regs := stepping (m.after len) })

/-- A guest's own `HLT` lies outside the stub area. -/
def GuestEvent.InScope (m : Machine) : GuestEvent → Prop
  | .hlt len => stubVector (m.after len).rip = none
  | _ => True

/-- A step on each path: `n` spurious returns, then the event's exit. -/
def kvmStepOn (m : Machine) (n : ℕ) (ev : GuestEvent) : StepResult :=
  kvmStep m (List.replicate n (.interrupted, m) ++ [kvmExit m ev])

def whpStepOn (bitmap : UInt64) (m : Machine) (n : ℕ) (ev : GuestEvent) : StepResult :=
  whpStep m (.ok ()) (.ok ()) (List.replicate n (.canceled, m) ++ [whpExit bitmap m ev])

/-- What a caller can compare: the outcome, `last_fault`, and RIP, RSP and RFLAGS as the getters
return them. -/
def StepResult.observed (r : StepResult) :
    StepOutcome × Option (UInt8 × UInt64) × UInt64 × UInt64 × UInt64 :=
  (r.outcome, r.lastFault, r.machine.regs.rip, r.machine.regs.rsp,
    maskHarness r.machine.regs.rflags)

/-! ## What each path makes of an event -/

theorem maskHarness_stepping (regs : Regs) :
    maskHarness (stepping regs).rflags = maskHarness regs.rflags := by
  have hzero : flagTF.toNat &&& (~~~(flagTF ||| flagRF)).toNat = 0 := by decide
  apply UInt64.toNat_inj.1
  rw [maskHarness, maskHarness, stepping, UInt64.toNat_and, UInt64.toNat_or, UInt64.toNat_and,
    Nat.and_or_distrib_right, hzero, Nat.or_zero]

theorem kvmStep_retries {m m' : Machine} {n : ℕ} {exit : KvmExit} {r : StepResult} (hn : n < 64)
    (h : kvmHandle exit m' = some r) :
    kvmStep m (List.replicate n (.interrupted, m) ++ [(exit, m')]) = r := by
  have htake : (List.replicate n (KvmExit.interrupted, m) ++ [(exit, m')]).take 64 =
      List.replicate n (.interrupted, m) ++ [(exit, m')] :=
    List.take_of_length_le (by simp; omega)
  rw [kvmStep, htake]
  clear htake hn
  induction n with
  | zero => rw [List.replicate_zero, List.nil_append, kvmLoop, h]
  | succ n ih =>
    rw [List.replicate_succ, List.cons_append, kvmLoop, kvmHandle]
    exact ih

theorem whpStep_retries {m m' : Machine} {n : ℕ} {exit : WhpExit} {r : StepResult} (hn : n < 64)
    (h : whpHandle exit m' = some r) :
    whpStep m (.ok ()) (.ok ()) (List.replicate n (.canceled, m) ++ [(exit, m')]) = r := by
  have hloop (m₀ : Machine) :
      whpLoop m₀ (List.replicate n (.canceled, m) ++ [(exit, m')]) = r := by
    clear hn
    induction n generalizing m₀ with
    | zero => rw [List.replicate_zero, List.nil_append, whpLoop, h]
    | succ n ih =>
      rw [List.replicate_succ, List.cons_append, whpLoop, whpHandle]
      exact ih m
  have htake : (List.replicate n (WhpExit.canceled, m) ++ [(exit, m')]).take 64 =
      List.replicate n (.canceled, m) ++ [(exit, m')] :=
    List.take_of_length_le (by simp; omega)
  rw [whpStep]
  simp only [htake]
  exact hloop _

section Vectored

variable {m : Machine} {cause : Cause} {vector : UInt8} {code : UInt64} {regs : Regs}

theorem vectored_eq {α : Type} (h : ControlImage m.ram) (cause : Cause) (vector : UInt8)
    (code : UInt64) (regs : Regs) (halted shutdown : α) :
    ∃ m', vectored halted shutdown m cause vector code regs = (halted, m') ∧
      stubVector m'.regs.rip = some vector ∧
      unwindFrame m'.ram m'.regs.rsp vector =
        recovered (deliveredEvent m cause vector code regs) := by
  obtain ⟨ram', regs', hhalt, hstub, hunwind⟩ :=
    haltInStub_spec h (deliveredEvent m cause vector code regs)
  refine ⟨{ m with ram := ram', regs := regs' }, ?_, hstub, hunwind⟩
  rw [vectored, hhalt]

/-- What a caller sees of a fault with the given frame. -/
def faultObserved (vector : UInt8) (frame : Unwound) :
    StepOutcome × Option (UInt8 × UInt64) × UInt64 × UInt64 × UInt64 :=
  (.fault (classify vector) (faultMessage vector frame.errorCode), some (vector, frame.errorCode),
    frame.rip, frame.rsp, maskHarness frame.rflags)

/-- What a caller sees of a retired instruction. -/
def retiredObserved (rip rsp rflags : UInt64) :
    StepOutcome × Option (UInt8 × UInt64) × UInt64 × UInt64 × UInt64 :=
  (.retired, none, rip, rsp, maskHarness rflags)

/-- A vectored event on KVM is a fault with the recovered frame. -/
theorem kvm_vectored (h : ControlImage m.ram) {n : ℕ} (hn : n < 64) :
    (kvmStep m (List.replicate n (.interrupted, m) ++
      [vectored .hlt .shutdown m cause vector code regs])).observed =
      faultObserved vector (recovered (deliveredEvent m cause vector code regs)) := by
  obtain ⟨m', heq, hstub, hunwind⟩ :=
    vectored_eq h cause vector code regs KvmExit.hlt KvmExit.shutdown
  rw [heq]
  have hhandle : kvmHandle .hlt m' = some (faultResult vector
      (recovered (deliveredEvent m cause vector code regs)).errorCode
      { m' with regs := (kvmUnwindFault m'.ram m'.regs vector).1 }) := by
    rw [kvmHandle, hstub]
    simp only [kvmUnwindFault, hunwind]
  rw [kvmStep_retries hn hhandle]
  simp only [StepResult.observed, faultResult, kvmUnwindFault, hunwind, faultObserved]

/-- A vectored event on WHP is a fault with the recovered frame, or, for vector 1, retired with
it. -/
theorem whp_vectored (h : ControlImage m.ram) {n : ℕ} (hn : n < 64) :
    (whpStep m (.ok ()) (.ok ()) (List.replicate n (.canceled, m) ++
      [vectored .halt .tripleFault m cause vector code regs])).observed =
      let frame := recovered (deliveredEvent m cause vector code regs)
      if vector = 1 then retiredObserved frame.rip frame.rsp frame.rflags
      else faultObserved vector frame := by
  obtain ⟨m', heq, hstub, hunwind⟩ :=
    vectored_eq h cause vector code regs WhpExit.halt WhpExit.tripleFault
  rw [heq]
  have hhandle : whpHandle .halt m' = some
      (if vector = 1 then retiredResult { m' with regs := (whpUnwindFault m'.ram m'.regs vector).1 }
      else faultResult vector (recovered (deliveredEvent m cause vector code regs)).errorCode
        { m' with regs := (whpUnwindFault m'.ram m'.regs vector).1 }) := by
    rw [whpHandle, hstub]
    simp only [whpUnwindFault, hunwind]
    split <;> rfl
  rw [whpStep_retries hn hhandle]
  by_cases hv : vector = 1
  · simp only [hv, if_true, StepResult.observed, retiredResult, whpUnwindFault, retiredObserved]
    rw [← hv, hunwind, maskHarness_idem]
  · simp only [hv, if_false, StepResult.observed, faultResult, whpUnwindFault, hunwind,
      faultObserved, maskHarness_idem]

/-- An exception's frame is recovered as it was pushed. -/
theorem recovered_hardware : recovered (deliveredEvent m .hardware vector code regs) =
    { rip := regs.rip, rsp := regs.rsp, rflags := (stepping regs).rflags
      errorCode := if exceptionHasErrorCode vector then code else 0 } := by
  have hcode : (deliveredEvent m .hardware vector code regs).errorCode.getD 0 =
      if exceptionHasErrorCode vector then code else 0 := by
    rw [Event.errorCode, deliveredEvent, pushesErrorCode]
    split <;> rfl
  rw [recovered, if_neg (by simp [deliveredEvent]), hcode]
  rfl

/-- So is a software interrupt's, to a vector without an error code. -/
theorem recovered_software (hv : hasErrorCode vector = false) :
    recovered (deliveredEvent m .software vector 0 regs) =
      { rip := regs.rip, rsp := regs.rsp, rflags := (stepping regs).rflags, errorCode := 0 } := by
  rw [recovered, if_neg (by simp [deliveredEvent, hv])]
  rfl

end Vectored

/-- KVM's view of an event. -/
def kvmSees (m : Machine) : GuestEvent →
    StepOutcome × Option (UInt8 × UInt64) × UInt64 × UInt64 × UInt64
  | .completed post => retiredObserved post.rip post.rsp post.rflags
  | .exception vector code raised =>
    faultObserved vector (recovered (deliveredEvent m .hardware vector code.toUInt64 raised))
  | .softInt vector len =>
    faultObserved vector (recovered (deliveredEvent m .software vector 0 (m.after len)))
  | .int3 len => faultObserved 3 (recovered (deliveredEvent m .software 3 0 (m.after len)))
  | .int1 len => faultObserved 1 (recovered (deliveredEvent m .software 1 0 (m.after len)))
  | .hlt len => retiredObserved (m.after len).rip (m.after len).rsp (m.after len).rflags

/-- WHP's view: vector 1 always passes for the completed step, and an intercepted `INT3` is seen
before it moved RIP. -/
def whpSees (bitmap : UInt64) (m : Machine) : GuestEvent →
    StepOutcome × Option (UInt8 × UInt64) × UInt64 × UInt64 × UInt64
  | .exception vector code raised =>
    if vector = 1 then retiredObserved raised.rip raised.rsp raised.rflags
    else kvmSees m (.exception vector code raised)
  | .softInt vector len =>
    if vector = 1 then
      retiredObserved (m.after len).rip (m.after len).rsp (m.after len).rflags
    else kvmSees m (.softInt vector len)
  | .int3 len =>
    if bitmap.toNat.testBit 3 then
      faultObserved 3 { rip := m.regs.rip, rsp := m.regs.rsp, rflags := m.regs.rflags
                        errorCode := 0 }
    else kvmSees m (.int3 len)
  | .int1 len =>
    if bitmap.toNat.testBit 1 then retiredObserved m.regs.rip m.regs.rsp m.regs.rflags
    else retiredObserved (m.after len).rip (m.after len).rsp (m.after len).rflags
  | ev => kvmSees m ev

theorem retiredObserved_stepping (regs : Regs) :
    retiredObserved regs.rip regs.rsp (stepping regs).rflags =
      retiredObserved regs.rip regs.rsp regs.rflags := by
  rw [retiredObserved, retiredObserved, maskHarness_stepping]

theorem kvmStepOn_observed {m : Machine} (h : ControlImage m.ram) {n : ℕ} (hn : n < 64)
    {ev : GuestEvent} (hscope : ev.InScope m) : (kvmStepOn m n ev).observed = kvmSees m ev := by
  cases ev with
  | completed post =>
    have hhandle : kvmHandle .debug { m with regs := stepping post } =
        some (retiredResult { m with regs := stepping post }) := rfl
    rw [kvmStepOn, kvmExit, kvmStep_retries hn hhandle]
    exact retiredObserved_stepping post
  | exception vector code raised => exact kvm_vectored h hn
  | softInt vector len => exact kvm_vectored h hn
  | int3 len => exact kvm_vectored h hn
  | int1 len => exact kvm_vectored h hn
  | hlt len =>
    have hstub : stubVector (stepping (m.after len)).rip = none := hscope
    have hhandle : kvmHandle .hlt { m with regs := stepping (m.after len) } =
        some (retiredResult { m with regs := stepping (m.after len) }) := by
      rw [kvmHandle, hstub]
    rw [kvmStepOn, kvmExit, kvmStep_retries hn hhandle]
    exact retiredObserved_stepping (m.after len)

/-- An intercepted exception other than vector 1 is reported with the registers it exits with. -/
theorem whp_intercepted {m : Machine} {n : ℕ} (hn : n < 64) {vector : UInt8} {valid : Bool}
    {code : UInt32} {regs : Regs} :
    (whpStep m (.ok ()) (.ok ()) (List.replicate n (.canceled, m) ++
      [(.exceptionIntercept vector valid code, { m with regs := stepping regs })])).observed =
      if vector = 1 then retiredObserved regs.rip regs.rsp regs.rflags
      else faultObserved vector
        { rip := regs.rip, rsp := regs.rsp, rflags := regs.rflags
          errorCode := if valid then code.toUInt64 else 0 } := by
  have hflags : maskHarness (maskHarness (stepping regs).rflags) = maskHarness regs.rflags := by
    rw [maskHarness_idem, maskHarness_stepping]
  by_cases hv : vector = 1
  · have hhandle : whpHandle (.exceptionIntercept vector valid code)
        { m with regs := stepping regs } =
        some (retiredResult { m with regs := disarmSinglestep (stepping regs) }) := by
      rw [whpHandle, if_pos hv]
    rw [whpStep_retries hn hhandle, if_pos hv]
    simp only [StepResult.observed, retiredResult, disarmSinglestep, hflags, retiredObserved,
      stepping_rip, stepping_rsp]
  · have hhandle : whpHandle (.exceptionIntercept vector valid code)
        { m with regs := stepping regs } =
        some (faultResult vector (if valid then code.toUInt64 else 0)
          { m with regs := disarmSinglestep (stepping regs) }) := by
      rw [whpHandle, if_neg hv]
    rw [whpStep_retries hn hhandle, if_neg hv]
    simp only [StepResult.observed, faultResult, disarmSinglestep, hflags, faultObserved,
      stepping_rip, stepping_rsp]

theorem whpStepOn_observed {m : Machine} (h : ControlImage m.ram) {bitmap : UInt64} {n : ℕ}
    (hn : n < 64) {ev : GuestEvent} (hscope : ev.InScope m) :
    (whpStepOn bitmap m n ev).observed = whpSees bitmap m ev := by
  have hsoft (vector : UInt8) (len : InstrLength) (hv : hasErrorCode vector = false) :
      retiredObserved (recovered (deliveredEvent m .software vector 0 (m.after len))).rip
        (recovered (deliveredEvent m .software vector 0 (m.after len))).rsp
        (recovered (deliveredEvent m .software vector 0 (m.after len))).rflags =
      retiredObserved (m.after len).rip (m.after len).rsp (m.after len).rflags := by
    rw [recovered_software hv]
    exact retiredObserved_stepping (m.after len)
  cases ev with
  | completed post =>
    rw [whpStepOn, whpExit]
    split
    · exact (whp_intercepted hn).trans (if_pos rfl)
    · rw [whp_vectored h hn]
      simp only [if_true, recovered_hardware]
      exact retiredObserved_stepping post
  | exception vector code raised =>
    rw [whpStepOn, whpExit]
    split
    · rw [whp_intercepted hn, whpSees, kvmSees, recovered_hardware]
      simp only [faultObserved, maskHarness_stepping]
    · rw [whp_vectored h hn, whpSees, kvmSees, recovered_hardware]
      simp only [retiredObserved_stepping]
  | softInt vector len =>
    rw [whpStepOn, whpExit, whp_vectored h hn, whpSees, kvmSees]
    by_cases hv : vector = 1
    · subst hv
      exact hsoft 1 len rfl
    · simp only [hv, if_false]
  | int3 len =>
    rw [whpStepOn, whpExit, whpSees]
    split
    · exact (whp_intercepted hn).trans (if_neg (by decide))
    · exact (whp_vectored h hn).trans (if_neg (by decide))
  | int1 len =>
    rw [whpStepOn, whpExit, whpSees]
    split
    · exact (whp_intercepted hn).trans (if_pos rfl)
    · rw [whp_vectored h hn]
      exact hsoft 1 len rfl
  | hlt len =>
    have hstub : stubVector (stepping (m.after len)).rip = none := hscope
    have hhandle : whpHandle .halt { m with regs := stepping (m.after len) } =
        some (retiredResult
          { m with regs := disarmSinglestep (stepping (m.after len)) }) := by
      rw [whpHandle, hstub]
    rw [whpStepOn, whpExit, whpStep_retries hn hhandle]
    simp only [StepResult.observed, retiredResult, disarmSinglestep, maskHarness_idem,
      maskHarness_stepping]
    rfl

/-! ## When the paths agree -/

/-- The event means the same on every path: vector 1 only as the completed step, and `INT3` not
intercepted. -/
def Uniform (bitmap : UInt64) : GuestEvent → Prop
  | .completed _ => True
  | .exception vector _ _ => vector ≠ 1
  | .softInt vector _ => vector ≠ 1
  | .int3 _ => bitmap.toNat.testBit 3 = false
  | .int1 _ => False
  | .hlt _ => True

theorem fault_ne_retired (vector : UInt8) (frame : Unwound) (rip rsp rflags : UInt64) :
    faultObserved vector frame ≠ retiredObserved rip rsp rflags := by
  rw [faultObserved, retiredObserved]
  exact fun h => absurd (congrArg Prod.fst h) (by simp)

/-- An instruction moves RIP. -/
theorem after_rip_ne (m : Machine) (len : InstrLength) : (m.after len).rip ≠ m.regs.rip := by
  intro h
  obtain ⟨n, hpos, hle⟩ := len
  have hnat := congrArg UInt64.toNat h
  rw [Machine.after, UInt64.toNat_add, UInt64.toNat_ofNat'] at hnat
  have := m.regs.rip.toNat_lt
  simp only at hnat
  omega

theorem kvmSees_eq_whpSees_iff (bitmap : UInt64) (m : Machine) (ev : GuestEvent) :
    kvmSees m ev = whpSees bitmap m ev ↔ Uniform bitmap ev := by
  cases ev with
  | completed post => simp [whpSees, Uniform]
  | exception vector code raised =>
    by_cases hv : vector = 1
    · simp only [whpSees, Uniform, hv, if_true, ne_eq, not_true_eq_false, iff_false, kvmSees]
      exact fault_ne_retired _ _ _ _ _
    · simp [whpSees, Uniform, hv]
  | softInt vector len =>
    by_cases hv : vector = 1
    · simp only [whpSees, Uniform, hv, if_true, ne_eq, not_true_eq_false, iff_false, kvmSees]
      exact fault_ne_retired _ _ _ _ _
    · simp [whpSees, Uniform, hv]
  | int3 len =>
    by_cases hbit : bitmap.toNat.testBit 3 = true
    · simp only [whpSees, Uniform, hbit, if_true, Bool.true_eq_false, iff_false, kvmSees]
      rw [recovered_software rfl]
      intro h
      exact after_rip_ne m len (congrArg (fun o => o.2.2.1) h)
    · simp [whpSees, Uniform, hbit]
  | int1 len =>
    simp only [whpSees, Uniform, iff_false, kvmSees]
    split <;> exact fault_ne_retired _ _ _ _ _
  | hlt len => simp [whpSees, Uniform]

/-- A machine on RAM whose control structures are in place. -/
def Machine.started (content : Store) (regs : Regs) (cs ss : UInt16) : Machine :=
  { ram := buildControlStructures (GuestRam.ofContent content), regs, cs, ss }

theorem controlImage_started (content : Store) (regs : Regs) (cs ss : UInt16) :
    ControlImage (Machine.started content regs cs ss).ram := by
  simpa only [Machine.started] using
    controlImage_build (GuestRam.ofContent_len content)

/-- The three paths show the same outcome, fault, RIP, RSP and RFLAGS: KVM, WHP with the
intercepts a host supports, and WHP through the stubs alone. -/
def PathsAgree (supported : UInt64) (m : Machine) (nk ni ns : ℕ) (ev : GuestEvent) : Prop :=
  (kvmStepOn m nk ev).observed = (whpStepOn (installedBitmap supported) m ni ev).observed ∧
    (kvmStepOn m nk ev).observed = (whpStepOn 0 m ns ev).observed

theorem uniform_zero {bitmap : UInt64} {ev : GuestEvent} (h : Uniform bitmap ev) :
    Uniform 0 ev := by
  cases ev <;> simp only [Uniform, ne_eq] at h ⊢ <;> first | exact h | decide

/-- Whatever the registers, RAM contents, supported intercepts and spurious returns, the three
step paths agree on an event exactly when it is uniform. -/
theorem step_paths_agree_iff (content : Store) (regs : Regs) (cs ss : UInt16)
    (supported : UInt64) (nk ni ns : ℕ) (hk : nk < 64) (hi : ni < 64) (hs : ns < 64)
    (ev : GuestEvent) (hscope : ev.InScope (Machine.started content regs cs ss)) :
    PathsAgree supported (Machine.started content regs cs ss) nk ni ns ev ↔
      Uniform (installedBitmap supported) ev := by
  have h := controlImage_started content regs cs ss
  rw [PathsAgree, kvmStepOn_observed h hk hscope, whpStepOn_observed h hi hscope,
    whpStepOn_observed h hs hscope, kvmSees_eq_whpSees_iff, kvmSees_eq_whpSees_iff]
  exact ⟨fun ⟨h1, _⟩ => h1, fun h1 => ⟨h1, uniform_zero h1⟩⟩

/-- The boot registers of a machine with one instruction to run. -/
def bootRegs : Regs := { rip := 0x1000, rsp := 0, rflags := 2 }

/-- A step that meets a general protection fault agrees on all paths. -/
theorem step_paths_agree_gp :
    PathsAgree (~~~0) (Machine.started (fun _ => 0) bootRegs 8 16) 1 0 2
      (.exception 13 0 bootRegs) :=
  (step_paths_agree_iff (fun _ => 0) bootRegs 8 16 (~~~0) 1 0 2 (by decide) (by decide)
    (by decide) (.exception 13 0 bootRegs) trivial).2 (by rw [Uniform]; decide)

/-- `INT 1` is a fault with vector 1 on KVM and a retired instruction on both WHP paths. -/
theorem int1_divides_paths :
    ¬ PathsAgree (~~~0) (Machine.started (fun _ => 0) bootRegs 8 16) 0 0 0
      (.softInt 1 ⟨2, by decide⟩) := by
  have h := controlImage_started (fun _ => 0) bootRegs 8 16
  intro hagree
  have heq := hagree.1
  have hscope : GuestEvent.InScope (Machine.started (fun _ => 0) bootRegs 8 16)
      (.softInt 1 ⟨2, by decide⟩) := trivial
  rw [kvmStepOn_observed h (by decide) hscope, whpStepOn_observed h (by decide) hscope,
    kvmSees_eq_whpSees_iff] at heq
  exact heq rfl

end Hw
