import Mathlib
import X86Oracle.Bochs.Delivery
import X86Oracle.Bochs.StepReport

/-!
# Exceptions of the emulator

`BX_CPU_C::exception`, `interrupt` and `shutdown` (`cpu/exception.cc`, `cpu/proc_ctrl.cc`), in
long mode and outside VMX operation: `real_mode_int`, `protected_mode_int` and the VM exits of
`VMexit_Event` and `VMexit_TripleFault` are not among the branches here.

The stop that the shim requests in `bx_instr_exception` does not stop `exception`: it goes on to the
gate, an exception there calls it again, and only a gate that is entered or a shutdown ends it.

* `exception`: one call, with the calls it leads to; `Cascade` is its inversion.
* `delivery_ends`: six calls are enough, whatever memory holds.
* `Cascade.committed`: when every gate it looks at is refused, only IF and RF are lost.
-/

namespace Bochs

namespace Delivery

open Raising

/-! ## Kinds of exceptions -/

inductive ExceptionType
  | benign
  | contributory
  | pageFault
  | doubleFault
deriving DecidableEq

inductive ExceptionClass
  | trap
  | fault
  | abort
deriving DecidableEq

/-- `BxExceptionInfo`. -/
structure ExceptionInfo where
  exception_type : ExceptionType
  exception_class : ExceptionClass
  push_error : Bool

def dbException : ℕ := 1
def dfException : ℕ := 8
def sxException : ℕ := 30

open ExceptionType ExceptionClass in
/-- `exceptions_info`, by vector. -/
def exceptions_info : List ExceptionInfo :=
  [⟨contributory, fault, false⟩, -- DE
    ⟨benign, fault, false⟩, -- DB
    ⟨benign, fault, false⟩, -- NMI
    ⟨benign, trap, false⟩, -- BP
    ⟨benign, trap, false⟩, -- OF
    ⟨benign, fault, false⟩, -- BR
    ⟨benign, fault, false⟩, -- UD
    ⟨benign, fault, false⟩, -- NM
    ⟨doubleFault, fault, true⟩, -- DF
    ⟨benign, fault, false⟩,
    ⟨contributory, fault, true⟩, -- TS
    ⟨contributory, fault, true⟩, -- NP
    ⟨contributory, fault, true⟩, -- SS
    ⟨contributory, fault, true⟩, -- GP
    ⟨pageFault, fault, true⟩, -- PF
    ⟨benign, fault, false⟩,
    ⟨benign, fault, false⟩, -- MF
    ⟨benign, fault, true⟩, -- AC
    ⟨benign, abort, false⟩, -- MC
    ⟨benign, fault, false⟩, -- XM
    ⟨pageFault, fault, false⟩, -- VE
    ⟨contributory, fault, true⟩, -- CP
    ⟨benign, fault, false⟩,
    ⟨benign, fault, false⟩,
    ⟨benign, fault, false⟩,
    ⟨benign, fault, false⟩,
    ⟨benign, fault, false⟩,
    ⟨benign, fault, false⟩,
    ⟨benign, fault, false⟩,
    ⟨benign, fault, false⟩,
    ⟨contributory, fault, true⟩, -- SX
    ⟨benign, fault, false⟩]

/-- The entry of a vector, with the defaults of `exception` beyond the table. -/
def exceptionInfo (vector : ℕ) : ExceptionInfo :=
  exceptions_info.getD vector ⟨.benign, .fault, false⟩

/-- `is_exception_OK`, by the first exception and the second.  A double fault is in neither
position: the first is checked before, the second is excluded. -/
def is_exception_OK : ExceptionType → ExceptionType → Bool
  | .benign, _ => true
  | .contributory, second => second != .contributory
  | .pageFault, second => second == .benign
  | .doubleFault, _ => true

/-- What the CPU model has of the extensions that own an exception. -/
structure Isa where
  cet : Bool
  svm : Bool

namespace Isa

variable (isa : Isa)

/-- The exception is one of the CPU model. -/
def knows (vector : ℕ) : Bool :=
  (vector != cpException || isa.cet) && (vector != sxException || isa.svm)

def get_exception_type (vector : ℕ) : ExceptionType :=
  if isa.knows vector then (exceptionInfo vector).exception_type else .benign

def exception_push_error (vector : ℕ) : Bool :=
  isa.knows vector && (exceptionInfo vector).push_error

end Isa

def get_exception_class (vector : ℕ) : ExceptionClass := (exceptionInfo vector).exception_class

/-! ## The CPU -/

variable {ρ : Type}

/-- The CPU: what delivery works on, and what is left between an exception and the next. -/
structure Cpu (ρ : Type) extends Frame ρ where
  RF : Bool
  prev_rip : UInt64
  prev_rsp : UInt64
  prev_ssp : UInt64
  speculative_rsp : Bool
  EXT : Bool
  /-- `BX_ET_NONE` is none. -/
  last_exception_type : Option ExceptionType
  activity_state : ActivityState
  in_event : Bool
  debug_trap : UInt32
  /-- `inhibit_mask` has the debug bit, for the next instruction. -/
  inhibited : Bool
  /-- The page in the prefetch queue. -/
  eipPage : Option UInt64

/-- A CPU with no latch set. -/
def Cpu.fresh (f : Frame ρ) : Cpu ρ where
  toFrame := f
  RF := false
  prev_rip := 0
  prev_rsp := 0
  prev_ssp := 0
  speculative_rsp := false
  EXT := false
  last_exception_type := none
  activity_state := .active
  in_event := false
  debug_trap := 0
  inhibited := false
  eipPage := none

/-- What `exception` leaves: the callbacks, the gates it looked at (`bx_instr_interrupt`), the gate
that was entered, and the CPU. -/
structure Unwound (ρ : Type) where
  events : List Event
  interrupts : List ℕ
  entered : Option ℕ
  cpu : Cpu ρ

/-- One more call in front. -/
def Unwound.after (u : Unwound ρ) (event : Event) (looked : List ℕ) : Unwound ρ :=
  { u with events := event :: u.events, interrupts := looked ++ u.interrupts }

namespace Cpu

variable (c : Cpu ρ)

/-- RIP and RSP as before the instruction, and RF. -/
def unwindFault (vector : ℕ) : Cpu ρ :=
  { c with
    rip := c.prev_rip
    rsp := if c.speculative_rsp then c.prev_rsp else c.rsp
    ssp := if c.speculative_rsp then c.prev_ssp else c.ssp
    speculative_rsp := false
    RF := if vector = dbException then c.RF else true }

/-- DR6 and DR7 for a debug exception. -/
def commitDebug : Cpu ρ :=
  { c with
    dr6 := (c.dr6 &&& 0xFFFF6FF0) ||| (c.debug_trap &&& 0x0000E00F)
    dr7 := c.dr7 &&& ~~~0x2000 }

/-- `shutdown`, with `enter_sleep_state`. -/
def shutdown : Cpu ρ :=
  { c with eflags := c.eflags &&& ~~~Frame.flagIF, activity_state := .shutdown }

/-- The state in which `exception` turns to the double-fault rules. -/
def raised (vector : ℕ) : Cpu ρ :=
  let c := if get_exception_class vector = .fault then c.unwindFault vector else c
  let c := if vector = dbException then c.commitDebug else c
  { c with EXT := true }

/-- Before the gate is looked at. -/
def beginEvent : Cpu ρ :=
  { c with
    eipPage := none
    activity_state := .active
    debug_trap := 0
    inhibited := false
    in_event := true
    prev_rsp := c.rsp
    prev_ssp := c.ssp
    speculative_rsp := true }

/-- After a gate has been entered. -/
def endEvent : Cpu ρ :=
  { c with RF := false, speculative_rsp := false, in_event := false, EXT := false }

/-- `interrupt` in long mode. -/
def interrupt (B : Bus ρ) (vector : ℕ) (soft_int push_error : Bool) (error_code : UInt16) :
    EStateM.Result Raised (Cpu ρ) Unit :=
  match B.long_mode_int c.RF vector soft_int push_error error_code c.toFrame with
  | .ok _ f => .ok () { c.beginEvent with toFrame := f }.endEvent
  | .error r f => .error r { c.beginEvent with toFrame := f }

end Cpu

/-- Bit 0 of an error code says whether the exception came from outside of the instruction. -/
def Isa.corrects (isa : Isa) (vector : ℕ) : Bool :=
  isa.exception_push_error vector &&
    decide (vector ∉ [pfException, dfException, cpException, sxException])

def Isa.correctErrorCode (isa : Isa) (EXT : Bool) (vector : ℕ) (error_code : UInt16) : UInt16 :=
  if isa.corrects vector then (error_code &&& 0xFFFE) ||| (if EXT then 1 else 0) else error_code

/-- A second exception that makes a double fault of the first. -/
def escalates (last : Option ExceptionType) (second : ExceptionType) : Bool :=
  match last with
  | none => false
  | some first => second != .doubleFault && !is_exception_OK first second

/-- The exception is a third one: a fault while a double fault is delivered. -/
def Cpu.tripleFaults (c : Cpu ρ) (vector : ℕ) : Bool :=
  get_exception_class vector == .fault && c.last_exception_type == some .doubleFault

def Cpu.exceptionEvent (c : Cpu ρ) (isa : Isa) (vector : ℕ) (error_code : UInt16) : Event :=
  .exception (UInt32.ofNat vector) (isa.correctErrorCode c.EXT vector error_code).toUInt32

/-- `exception` in long mode and outside VMX operation, for at most so many calls; it leaves by
`longjmp`. -/
def exception (B : Bus ρ) (isa : Isa) : ℕ → Cpu ρ → ℕ → UInt16 → Option (Unwound ρ)
  | 0, _, _, _ => none
  | n + 1, c, vector, error_code =>
    let event := c.exceptionEvent isa vector error_code
    if c.tripleFaults vector then
      some ⟨[event, .hlt .shutdown], [], none, (c.unwindFault vector).shutdown⟩
    else
      let type := isa.get_exception_type vector
      if escalates c.last_exception_type type then
        (exception B isa n (c.raised vector) dfException 0).map (·.after event [])
      else
        match { c.raised vector with last_exception_type := some type }.interrupt B vector false
            (isa.exception_push_error vector) (isa.correctErrorCode c.EXT vector error_code) with
        | .ok _ d => some ⟨[event], [vector], some vector, { d with last_exception_type := none }⟩
        | .error r d => (exception B isa n d r.vector r.error_code).map (·.after event [vector])

/-! ## The calls -/

/-- The CPU that looks at the gate of an exception. -/
def Cpu.recorded (c : Cpu ρ) (isa : Isa) (vector : ℕ) : Cpu ρ :=
  { c.raised vector with last_exception_type := some (isa.get_exception_type vector) }

/-- The gate of an exception, as `exception` calls `interrupt` for it. -/
def Cpu.deliver (c : Cpu ρ) (B : Bus ρ) (isa : Isa) (vector : ℕ) (error_code : UInt16) :
    EStateM.Result Raised (Cpu ρ) Unit :=
  (c.recorded isa vector).interrupt B vector false (isa.exception_push_error vector)
    (isa.correctErrorCode c.EXT vector error_code)

/-- What a call of `exception` can do. -/
inductive Cascade (B : Bus ρ) (isa : Isa) : Cpu ρ → ℕ → UInt16 → Unwound ρ → Prop
  | shutdown {c : Cpu ρ} {vector : ℕ} {error_code : UInt16}
    (htriple : c.tripleFaults vector = true) :
    Cascade B isa c vector error_code
      ⟨[c.exceptionEvent isa vector error_code, .hlt .shutdown], [], none,
        (c.unwindFault vector).shutdown⟩
  | escalate {c : Cpu ρ} {vector : ℕ} {error_code : UInt16} {u : Unwound ρ}
    (htriple : c.tripleFaults vector = false)
    (hdouble : escalates c.last_exception_type (isa.get_exception_type vector) = true)
    (hrest : Cascade B isa (c.raised vector) dfException 0 u) :
    Cascade B isa c vector error_code (u.after (c.exceptionEvent isa vector error_code) [])
  | enter {c d : Cpu ρ} {vector : ℕ} {error_code : UInt16}
    (htriple : c.tripleFaults vector = false)
    (hdouble : escalates c.last_exception_type (isa.get_exception_type vector) = false)
    (hgate : c.deliver B isa vector error_code = .ok () d) :
    Cascade B isa c vector error_code
      ⟨[c.exceptionEvent isa vector error_code], [vector], some vector,
        { d with last_exception_type := none }⟩
  | refuse {c d : Cpu ρ} {vector : ℕ} {error_code : UInt16} {r : Raised} {u : Unwound ρ}
    (htriple : c.tripleFaults vector = false)
    (hdouble : escalates c.last_exception_type (isa.get_exception_type vector) = false)
    (hgate : c.deliver B isa vector error_code = .error r d)
    (hrest : Cascade B isa d r.vector r.error_code u) :
    Cascade B isa c vector error_code
      (u.after (c.exceptionEvent isa vector error_code) [vector])

variable {B : Bus ρ} {isa : Isa} {c d : Cpu ρ} {vector : ℕ} {error_code : UInt16} {u : Unwound ρ}
  {n : ℕ}

theorem exception_of_triple (htriple : c.tripleFaults vector = true) :
    exception B isa (n + 1) c vector error_code =
      some ⟨[c.exceptionEvent isa vector error_code, .hlt .shutdown], [], none,
        (c.unwindFault vector).shutdown⟩ := by
  rw [exception, if_pos htriple]

theorem exception_of_double (htriple : c.tripleFaults vector = false)
    (hdouble : escalates c.last_exception_type (isa.get_exception_type vector) = true) :
    exception B isa (n + 1) c vector error_code =
      (exception B isa n (c.raised vector) dfException 0).map
        (·.after (c.exceptionEvent isa vector error_code) []) := by
  rw [exception, if_neg (by simp [htriple])]
  exact if_pos hdouble

theorem exception_of_ok (htriple : c.tripleFaults vector = false)
    (hdouble : escalates c.last_exception_type (isa.get_exception_type vector) = false)
    (hgate : c.deliver B isa vector error_code = .ok () d) :
    exception B isa (n + 1) c vector error_code =
      some ⟨[c.exceptionEvent isa vector error_code], [vector], some vector,
        { d with last_exception_type := none }⟩ := by
  rw [exception, if_neg (by simp [htriple])]
  refine (if_neg (by simp [hdouble])).trans ?_
  unfold Cpu.deliver Cpu.recorded at hgate
  rw [hgate]

theorem exception_of_error {r : Raised} (htriple : c.tripleFaults vector = false)
    (hdouble : escalates c.last_exception_type (isa.get_exception_type vector) = false)
    (hgate : c.deliver B isa vector error_code = .error r d) :
    exception B isa (n + 1) c vector error_code =
      (exception B isa n d r.vector r.error_code).map
        (·.after (c.exceptionEvent isa vector error_code) [vector]) := by
  rw [exception, if_neg (by simp [htriple])]
  refine (if_neg (by simp [hdouble])).trans ?_
  unfold Cpu.deliver Cpu.recorded at hgate
  rw [hgate]

theorem cascade_of_exception (h : exception B isa n c vector error_code = some u) :
    Cascade B isa c vector error_code u := by
  induction n generalizing c vector error_code u with
  | zero => nomatch h
  | succ n ih =>
    cases htriple : c.tripleFaults vector with
    | true =>
      rw [exception_of_triple htriple] at h
      obtain rfl := Option.some.inj h
      exact .shutdown htriple
    | false =>
      cases hdouble : escalates c.last_exception_type (isa.get_exception_type vector) with
      | true =>
        rw [exception_of_double htriple hdouble] at h
        obtain ⟨v, hv, rfl⟩ := Option.map_eq_some_iff.1 h
        exact .escalate htriple hdouble (ih hv)
      | false =>
        cases hgate : c.deliver B isa vector error_code with
        | ok a d =>
          rw [exception_of_ok htriple hdouble hgate] at h
          obtain rfl := Option.some.inj h
          exact .enter htriple hdouble hgate
        | error r d =>
          rw [exception_of_error htriple hdouble hgate] at h
          obtain ⟨v, hv, rfl⟩ := Option.map_eq_some_iff.1 h
          exact .refuse htriple hdouble hgate (ih hv)

/-! ## Six calls are enough -/

theorem deliver_error {r : Raised} (hgate : c.deliver B isa vector error_code = .error r d) :
    ∃ f, B.long_mode_int (c.recorded isa vector).RF vector false (isa.exception_push_error vector)
        (isa.correctErrorCode c.EXT vector error_code) (c.raised vector).toFrame = .error r f ∧
      d = { (c.recorded isa vector).beginEvent with toFrame := f } := by
  unfold Cpu.deliver Cpu.interrupt at hgate
  split at hgate
  · nomatch hgate
  · next r' f hrun =>
    cases hgate
    exact ⟨f, hrun, rfl⟩

/-- An exception during a delivery keeps the record of the delivered one. -/
theorem last_of_deliver_error {r : Raised}
    (hgate : c.deliver B isa vector error_code = .error r d) :
    d.last_exception_type = some (isa.get_exception_type vector) := by
  obtain ⟨f, -, rfl⟩ := deliver_error hgate
  rfl

theorem vector_of_deliver_error (hB : B.RaisesDuringDelivery) {r : Raised}
    (hgate : c.deliver B isa vector error_code = .error r d) : r.vector ∈ deliveryVectors := by
  obtain ⟨f, hrun, -⟩ := deliver_error hgate
  exact raises_long_mode_int hB _ _ _ _ _ _ _ _ hrun

/-- An exception that can occur during a delivery is a fault of one of two types. -/
theorem type_of_mem (hcet : isa.cet = true) (h : vector ∈ deliveryVectors) :
    get_exception_class vector = .fault ∧ (isa.get_exception_type vector = .contributory ∨
      isa.get_exception_type vector = .pageFault) := by
  have hsx : vector ≠ sxException := by
    rintro rfl
    exact absurd h (by decide)
  have hknown : isa.knows vector = true := by simp [Isa.knows, hcet, hsx]
  unfold Isa.get_exception_type
  rw [if_pos hknown]
  fin_cases h <;> decide

/-- An exception during the delivery of one of type `t` comes to an end in `n` calls. -/
def Settles (B : Bus ρ) (isa : Isa) (t : ExceptionType) (n : ℕ) : Prop :=
  ∀ (c : Cpu ρ) (vector : ℕ) (error_code : UInt16), c.last_exception_type = some t →
    vector ∈ deliveryVectors → (exception B isa n c vector error_code).isSome = true

theorem escalates_doubleFault (last : Option ExceptionType) :
    escalates last .doubleFault = false := by
  cases last <;> rfl

section Settles

variable (hB : B.RaisesDuringDelivery)

include hB

/-- An exception that is delivered, and what its delivery raises. -/
theorem isSome_of_settles {n : ℕ} (htriple : c.tripleFaults vector = false)
    (hdouble : escalates c.last_exception_type (isa.get_exception_type vector) = false)
    (hrest : Settles B isa (isa.get_exception_type vector) n) :
    (exception B isa (n + 1) c vector error_code).isSome = true := by
  cases hgate : c.deliver B isa vector error_code with
  | ok a d =>
    rw [exception_of_ok htriple hdouble hgate]
    rfl
  | error r d =>
    rw [exception_of_error htriple hdouble hgate, Option.isSome_map]
    exact hrest d r.vector r.error_code (last_of_deliver_error hgate)
      (vector_of_deliver_error hB hgate)

omit hB in
theorem settles_doubleFault (hcet : isa.cet = true) (n : ℕ) :
    Settles B isa .doubleFault (n + 1) := by
  intro c vector error_code hlast hvector
  have htriple : c.tripleFaults vector = true := by
    simp [Cpu.tripleFaults, (type_of_mem hcet hvector).1, hlast]
  rw [exception_of_triple htriple]
  rfl

/-- The double fault, whether it is the first one or not. -/
theorem isSome_doubleFault (hcet : isa.cet = true) (c : Cpu ρ) (error_code : UInt16) (n : ℕ) :
    (exception B isa (n + 2) c dfException error_code).isSome = true := by
  cases htriple : c.tripleFaults dfException with
  | true =>
    rw [exception_of_triple htriple]
    rfl
  | false =>
    exact isSome_of_settles hB htriple (escalates_doubleFault _) (settles_doubleFault hcet n)

theorem isSome_of_escalates {n : ℕ} (hcet : isa.cet = true)
    (htriple : c.tripleFaults vector = false)
    (hdouble : escalates c.last_exception_type (isa.get_exception_type vector) = true) :
    (exception B isa (n + 3) c vector error_code).isSome = true := by
  rw [exception_of_double htriple hdouble, Option.isSome_map]
  exact isSome_doubleFault hB hcet _ _ n

omit hB in
theorem tripleFaults_eq_false {t : ExceptionType} (vector : ℕ)
    (hlast : c.last_exception_type = some t) (ht : t ≠ .doubleFault) :
    c.tripleFaults vector = false := by
  simp [Cpu.tripleFaults, hlast, ht]

theorem settles_pageFault (hcet : isa.cet = true) (n : ℕ) : Settles B isa .pageFault (n + 3) := by
  intro c vector error_code hlast hvector
  refine isSome_of_escalates hB hcet (tripleFaults_eq_false _ hlast (by decide)) ?_
  rw [hlast]
  rcases (type_of_mem hcet hvector).2 with htype | htype <;> rw [htype] <;> rfl

theorem settles_contributory (hcet : isa.cet = true) (n : ℕ) :
    Settles B isa .contributory (n + 4) := by
  intro c vector error_code hlast hvector
  have htriple := tripleFaults_eq_false vector hlast (by decide)
  rcases (type_of_mem hcet hvector).2 with htype | htype
  · refine isSome_of_escalates hB hcet htriple ?_
    rw [hlast, htype]
    rfl
  · -- a page fault is delivered in its own right
    refine isSome_of_settles hB htriple ?_ (htype ▸ settles_pageFault hB hcet n)
    rw [hlast, htype]
    rfl

theorem settles_benign (hcet : isa.cet = true) (n : ℕ) : Settles B isa .benign (n + 5) := by
  intro c vector error_code hlast hvector
  have htriple := tripleFaults_eq_false vector hlast (by decide)
  have hdouble : escalates c.last_exception_type (isa.get_exception_type vector) = false := by
    rw [hlast]
    simp [escalates, is_exception_OK]
  refine isSome_of_settles hB htriple hdouble ?_
  rcases (type_of_mem hcet hvector).2 with htype | htype
  · exact htype ▸ settles_contributory hB hcet n
  · exact htype ▸ settles_pageFault hB hcet (n + 1)

theorem settles (hcet : isa.cet = true) (t : ExceptionType) (n : ℕ) : Settles B isa t (n + 5) := by
  cases t with
  | benign => exact settles_benign hB hcet n
  | contributory => exact settles_contributory hB hcet (n + 1)
  | pageFault => exact settles_pageFault hB hcet (n + 2)
  | doubleFault => exact settles_doubleFault hcet (n + 4)

theorem isSome_exception (hcet : isa.cet = true) (c : Cpu ρ) (vector : ℕ) (error_code : UInt16) :
    (exception B isa 6 c vector error_code).isSome = true := by
  cases htriple : c.tripleFaults vector with
  | true =>
    rw [exception_of_triple htriple]
    rfl
  | false =>
    cases hdouble : escalates c.last_exception_type (isa.get_exception_type vector) with
    | true => exact isSome_of_escalates hB hcet htriple hdouble
    | false => exact isSome_of_settles hB htriple hdouble (settles hB hcet _ 0)

end Settles

/-! ## How it ends -/

/-- The exceptions among the events of a delivery. -/
def Unwound.exceptions (u : Unwound ρ) : List Event :=
  u.events.filter fun e => e matches .exception _ _

/-- A call is the last one, or leads to one other, whatever the fuel. -/
theorem exception_call (B : Bus ρ) (isa : Isa) (c : Cpu ρ) (vector : ℕ) (error_code : UInt16) :
    (∃ u, u.exceptions.length = 1 ∧
      ∀ n, exception B isa (n + 1) c vector error_code = some u) ∨
    ∃ d v code looked, ∀ n, exception B isa (n + 1) c vector error_code =
      (exception B isa n d v code).map
        (·.after (c.exceptionEvent isa vector error_code) looked) := by
  cases htriple : c.tripleFaults vector with
  | true => exact .inl ⟨_, rfl, fun n => exception_of_triple htriple⟩
  | false =>
    cases hdouble : escalates c.last_exception_type (isa.get_exception_type vector) with
    | true => exact .inr ⟨_, _, _, _, fun n => exception_of_double htriple hdouble⟩
    | false =>
      cases hgate : c.deliver B isa vector error_code with
      | ok a d => exact .inl ⟨_, rfl, fun n => exception_of_ok htriple hdouble hgate⟩
      | error r d => exact .inr ⟨_, _, _, _, fun n => exception_of_error htriple hdouble hgate⟩

theorem exception_succ (h : exception B isa n c vector error_code = some u) :
    exception B isa (n + 1) c vector error_code = some u := by
  induction n generalizing c vector error_code u with
  | zero => nomatch h
  | succ n ih =>
    rcases exception_call B isa c vector error_code with
      ⟨v, -, hlast⟩ | ⟨d, w, code, looked, hnext⟩
    · rw [hlast] at h ⊢
      exact h
    · rw [hnext] at h ⊢
      obtain ⟨v, hv, rfl⟩ := Option.map_eq_some_iff.1 h
      rw [ih hv]
      rfl

/-- More fuel makes no difference. -/
theorem exception_add (h : exception B isa n c vector error_code = some u) (k : ℕ) :
    exception B isa (n + k) c vector error_code = some u := by
  induction k with
  | zero => exact h
  | succ k ih => exact exception_succ ih

/-- Each call raises one exception. -/
theorem length_exceptions (h : exception B isa n c vector error_code = some u) :
    u.exceptions.length ≤ n := by
  induction n generalizing c vector error_code u with
  | zero => nomatch h
  | succ n ih =>
    rcases exception_call B isa c vector error_code with
      ⟨v, hone, hlast⟩ | ⟨d, w, code, looked, hnext⟩
    · rw [hlast] at h
      obtain rfl := Option.some.inj h
      rw [hone]
      exact Nat.le_add_left 1 n
    · rw [hnext] at h
      obtain ⟨v, hv, rfl⟩ := Option.map_eq_some_iff.1 h
      exact Nat.succ_le_succ (ih hv)

/-- A delivery ends in the last gate it looked at, with no exception on record, or in a
shutdown, with a double fault on record. -/
inductive Unwound.Ended (u : Unwound ρ) : Prop
  | entered (w : ℕ) (hentered : u.entered = some w) (hlast : u.interrupts.getLast? = some w)
    (hrecord : u.cpu.last_exception_type = none) (hEXT : u.cpu.EXT = false)
  | shutdown (hentered : u.entered = none) (hlast : u.events.getLast? = some (.hlt .shutdown))
    (hstate : u.cpu.activity_state = .shutdown)
    (hrecord : u.cpu.last_exception_type = some .doubleFault)

theorem Unwound.Ended.after {event : Event} {looked : List ℕ} (h : u.Ended) :
    (u.after event looked).Ended := by
  cases h with
  | entered w hentered hlast hrecord hEXT =>
    refine .entered w hentered ?_ hrecord hEXT
    simp [Unwound.after, List.getLast?_append, hlast]
  | shutdown hentered hlast hstate hrecord =>
    refine .shutdown hentered ?_ hstate hrecord
    simp [Unwound.after, List.getLast?_cons, hlast]

theorem Cascade.ended (h : Cascade B isa c vector error_code u) : u.Ended := by
  induction h with
  | shutdown htriple =>
    refine .shutdown rfl rfl rfl ?_
    simp only [Cpu.tripleFaults, Bool.and_eq_true, beq_iff_eq] at htriple
    exact htriple.2
  | escalate htriple hdouble hrest ih => exact ih.after
  | @enter c d vector error_code htriple hdouble hgate =>
    unfold Cpu.deliver Cpu.interrupt at hgate
    split at hgate
    · cases hgate
      exact .entered vector rfl rfl rfl rfl
    · nomatch hgate
  | refuse htriple hdouble hgate hrest ih => exact ih.after

/-- **Delivery comes to an end** in long mode, on a CPU model with CET: whatever the gates, the
stack and the latches of earlier exceptions hold, an exception leads to at most six calls, the last
of which enters the gate it looks at or shuts the CPU down. -/
theorem delivery_ends (hB : B.RaisesDuringDelivery) (hcet : isa.cet = true) (c : Cpu ρ)
    (vector : ℕ) (error_code : UInt16) :
    ∃ u, (∀ n, 6 ≤ n → exception B isa n c vector error_code = some u) ∧
      u.exceptions.length ≤ 6 ∧ u.Ended := by
  obtain ⟨u, hu⟩ := Option.isSome_iff_exists.1 (isSome_exception hB hcet c vector error_code)
  refine ⟨u, fun n hn => ?_, length_exceptions hu, (cascade_of_exception hu).ended⟩
  obtain ⟨k, rfl⟩ := Nat.exists_eq_add_of_le hn
  exact exception_add hu k

/-- A page fault while #GP is delivered, without a table to deliver either. -/
theorem delivery_ends_blank : ∃ u,
    (∀ n, 6 ≤ n → exception Bus.blank ⟨true, false⟩ n
      { Cpu.fresh Frame.user with last_exception_type := some .contributory } pfException 4 =
        some u) ∧
      u.exceptions.length ≤ 6 ∧ u.Ended :=
  delivery_ends raises_blank rfl _ _ _

/-! ## A delivery that is refused -/

variable {ω : Type} {view : ρ → ω} {g : Frame ρ} {eflags : UInt32}

/-- The machine as the instruction committed it before the exception: RIP on the instruction, RSP
and SSP as they were if it moved them, the given flags, and the rest as it is.  Only a debug
exception writes the debug registers. -/
structure Restored (view : ρ → ω) (c : Cpu ρ) (vector : ℕ) (eflags : UInt32) (g : Frame ρ) :
    Prop where
  rip : g.rip = c.prev_rip
  rsp : g.rsp = if c.speculative_rsp then c.prev_rsp else c.rsp
  ssp : g.ssp = if c.speculative_rsp then c.prev_ssp else c.ssp
  eflags : g.eflags = eflags
  dr6 : vector ≠ dbException → g.dr6 = c.dr6
  dr7 : vector ≠ dbException → g.dr7 = c.dr7
  cs : g.cs = c.cs
  ss : g.ss = c.ss
  gdtr : g.gdtr = c.gdtr
  idtr : g.idtr = c.idtr
  ldtr : g.ldtr = c.ldtr
  rest : view g.rest = view c.rest

/-- The checks on a gate refuse it. -/
def Refused (B : Bus ρ) (vector : ℕ) (g : Frame ρ) : Prop :=
  ∃ r t, B.check_gate vector false g = .error r t

/-- A gate beyond the limit of the IDT. -/
theorem refused_of_limit {w : ℕ} (h : g.idtr.limit.toNat < w * 16 + 15) : Refused B w g := by
  refine ⟨⟨gpException, UInt16.ofNat (w * 8 + 2)⟩, g, ?_⟩
  unfold Bus.check_gate
  rw [bind_apply]
  dsimp only [get, getThe, MonadStateOf.get, EStateM.get]
  rw [bind_apply, raiseIf, if_pos (decide_eq_true h)]
  rfl

/-- Without a table every gate is refused. -/
theorem refused_of_no_table (w : ℕ) (h : g.idtr = ⟨0, 0⟩) : Refused B w g := by
  refine refused_of_limit ?_
  rw [h]
  exact Nat.lt_of_lt_of_le (by decide) (Nat.le_add_left 15 (w * 16))

theorem restored_shutdown (c : Cpu ρ) (vector : ℕ) :
    Restored view c vector (c.eflags &&& ~~~Frame.flagIF)
      (c.unwindFault vector).shutdown.toFrame :=
  ⟨rfl, rfl, rfl, rfl, fun _ => rfl, fun _ => rfl, rfl, rfl, rfl, rfl, rfl, rfl⟩

/-- A fault is raised where it has been unwound to. -/
theorem raised_of_fault (view : ρ → ω) (hfault : get_exception_class vector = .fault)
    (c : Cpu ρ) :
    Restored view c vector c.eflags (c.raised vector).toFrame ∧
      (c.raised vector).speculative_rsp = false ∧ (c.raised vector).prev_rip = c.prev_rip := by
  unfold Cpu.raised
  rw [if_pos hfault]
  by_cases hdb : vector = dbException
  · simp only [if_pos hdb]
    exact ⟨⟨rfl, rfl, rfl, rfl, fun h => absurd hdb h, fun h => absurd hdb h, rfl, rfl, rfl, rfl,
      rfl, rfl⟩, rfl, rfl⟩
  · simp only [if_neg hdb]
    exact ⟨⟨rfl, rfl, rfl, rfl, fun _ => rfl, fun _ => rfl, rfl, rfl, rfl, rfl, rfl, rfl⟩, rfl,
      rfl⟩

/-- A CPU that has been put back stays as it is when it is put back once more. -/
theorem Restored.again {d : Cpu ρ} {second : ℕ} (hd : Restored view c vector c.eflags d.toFrame)
    (hrip : d.prev_rip = c.prev_rip) (hrsp : d.speculative_rsp = true → d.prev_rsp = d.rsp)
    (hssp : d.speculative_rsp = true → d.prev_ssp = d.ssp) (hsecond : second ≠ dbException)
    {mask : UInt32} (hg : Restored view d second (d.eflags &&& mask) g) :
    Restored view c vector (c.eflags &&& mask) g where
  rip := hg.rip.trans hrip
  rsp := by
    rw [hg.rsp, ← hd.rsp]
    split_ifs with h
    · exact hrsp h
    · rfl
  ssp := by
    rw [hg.ssp, ← hd.ssp]
    split_ifs with h
    · exact hssp h
    · rfl
  eflags := by rw [hg.eflags, hd.eflags]
  dr6 hv := (hg.dr6 hsecond).trans (hd.dr6 hv)
  dr7 hv := (hg.dr7 hsecond).trans (hd.dr7 hv)
  cs := hg.cs.trans hd.cs
  ss := hg.ss.trans hd.ss
  gdtr := hg.gdtr.trans hd.gdtr
  idtr := hg.idtr.trans hd.idtr
  ldtr := hg.ldtr.trans hd.ldtr
  rest := hg.rest.trans hd.rest

theorem Restored.like {f : Frame ρ} (hg : Restored view c vector eflags g) (hfg : Like view g f) :
    Restored view c vector eflags f where
  rip := hfg.rip.trans hg.rip
  rsp := hfg.rsp.trans hg.rsp
  ssp := hfg.ssp.trans hg.ssp
  eflags := hfg.eflags.trans hg.eflags
  dr6 hv := hfg.dr6.trans (hg.dr6 hv)
  dr7 hv := hfg.dr7.trans (hg.dr7 hv)
  cs := hfg.cs.trans hg.cs
  ss := hfg.ss.trans hg.ss
  gdtr := hfg.gdtr.trans hg.gdtr
  idtr := hfg.idtr.trans hg.idtr
  ldtr := hfg.ldtr.trans hg.ldtr
  rest := hfg.rest.trans hg.rest

/-- A refused gate, as `interrupt` sees it. -/
theorem deliver_of_refused (isa : Isa) (error_code : UInt16) (hview : B.ReadsOnly view)
    (hrefused : Refused B vector (c.raised vector).toFrame) :
    ∃ r f, Like view (c.raised vector).toFrame f ∧ c.deliver B isa vector error_code =
      .error r { (c.recorded isa vector).beginEvent with toFrame := f } := by
  obtain ⟨r, f, hcheck⟩ := hrefused
  have hlike := keeps_check_gate hview vector false (c.raised vector).toFrame
  rw [hcheck] at hlike
  refine ⟨r, f, hlike, ?_⟩
  have hrun : B.long_mode_int (c.recorded isa vector).RF vector false
      (isa.exception_push_error vector) (isa.correctErrorCode c.EXT vector error_code)
      (c.recorded isa vector).toFrame = .error r f := by
    unfold Bus.long_mode_int
    rw [bind_apply]
    have htoFrame : (c.recorded isa vector).toFrame = (c.raised vector).toFrame := rfl
    rw [htoFrame, hcheck]
  unfold Cpu.deliver Cpu.interrupt
  rw [hrun]

theorem ne_db_of_mem (h : vector ∈ deliveryVectors) : vector ≠ dbException := by
  rintro rfl
  exact absurd h (by decide)

/-- **A delivery whose gates are all refused commits nothing**: however many gates it looks at,
none is entered; RIP, RSP, SSP, the segments and memory are what the instruction committed, and so
are the flags, except that the shutdown at the end clears IF. -/
theorem Cascade.committed (h : Cascade B isa c vector error_code u) (hview : B.ReadsOnly view)
    (hB : B.RaisesDuringDelivery) (hcet : isa.cet = true)
    (hfault : get_exception_class vector = .fault)
    (hrefused : ∀ w ∈ u.interrupts, ∀ g, Restored view c vector c.eflags g → Refused B w g) :
    u.entered = none ∧ u.cpu.last_exception_type = some .doubleFault ∧
      Restored view c vector (c.eflags &&& ~~~Frame.flagIF) u.cpu.toFrame := by
  have hself (c : Cpu ρ) : c.eflags &&& 0xFFFFFFFF = c.eflags := by
    rw [UInt32.and_comm]
    exact UInt32.neg_one_and
  induction h with
  | shutdown htriple =>
    refine ⟨rfl, ?_, restored_shutdown _ _⟩
    simp only [Cpu.tripleFaults, Bool.and_eq_true, beq_iff_eq] at htriple
    exact htriple.2
  | @escalate c vector error_code u htriple hdouble hrest ih =>
    obtain ⟨hraised, hstill, hprev⟩ := raised_of_fault view hfault c
    have hagain {g : Frame ρ} {mask : UInt32}
        (hg : Restored view (c.raised vector) dfException ((c.raised vector).eflags &&& mask) g) :
        Restored view c vector (c.eflags &&& mask) g :=
      hraised.again hprev (fun h => absurd (hstill.symm.trans h) Bool.false_ne_true)
        (fun h => absurd (hstill.symm.trans h) Bool.false_ne_true) (by decide) hg
    obtain ⟨hentered, hlast, hcommitted⟩ := ih rfl fun w hw g hg => by
      refine hrefused w hw g ?_
      rw [← hself] at hg ⊢
      exact hagain hg
    exact ⟨hentered, hlast, hagain hcommitted⟩
  | @enter c d vector error_code htriple hdouble hgate =>
    -- the gate was refused
    obtain ⟨hraised, -, -⟩ := raised_of_fault view hfault c
    obtain ⟨r, f, -, hdeliver⟩ := deliver_of_refused isa error_code hview
      (hrefused vector (List.mem_singleton_self _) _ hraised)
    rw [hdeliver] at hgate
    nomatch hgate
  | @refuse c d vector error_code r u htriple hdouble hgate hrest ih =>
    obtain ⟨hraised, -, hprev⟩ := raised_of_fault view hfault c
    obtain ⟨r', f, hlike, hdeliver⟩ := deliver_of_refused isa error_code hview
      (hrefused vector (List.mem_append_left _ (List.mem_singleton_self _)) _ hraised)
    have hvector := vector_of_deliver_error hB hgate
    rw [hdeliver] at hgate
    cases hgate
    -- the checks have left the registers as they were saved before them
    have hagain {g : Frame ρ} {mask : UInt32}
        (hg : Restored view { (c.recorded isa vector).beginEvent with toFrame := f } r.vector
          (f.eflags &&& mask) g) : Restored view c vector (c.eflags &&& mask) g :=
      (hraised.like hlike).again (d := { (c.recorded isa vector).beginEvent with toFrame := f })
        hprev (fun _ => hlike.rsp.symm) (fun _ => hlike.ssp.symm) (ne_db_of_mem hvector) hg
    obtain ⟨hentered, hlast, hcommitted⟩ := ih (type_of_mem hcet hvector).1 fun w hw g hg => by
      refine hrefused w (List.mem_append_right _ hw) g ?_
      rw [← hself] at hg ⊢
      exact hagain hg
    exact ⟨hentered, hlast, hagain hcommitted⟩

end Delivery

end Bochs
