import Mathlib
import X86Oracle.Lib.Run
import X86Oracle.Bochs.Exception

/-!
# Steps that fault, one after the other

`x86oracle_bochs_step` on the CPU of `Bochs.Exception`: `cpu_loop` fetches and executes one
instruction, and what it raises is delivered.  The CPU is in long mode and outside VMX operation,
where no VM exit or entry clears the record of an exception.  Between steps the host writes what it
likes; the latches of an exception (`EXT`, `last_exception_type`, RF, `debug_trap`) stay as they
are.

* `cpu_loop`: one turn, with what an instruction does as a parameter.
* `fault_commits_nothing`: a step that faults and finds no gate it can enter.
* `shutdown_absorbs`: once a delivery has ended in a shutdown, so does every later fault.
* `faults_leave_no_trace`: when the tests of a campaign answer as they would on new CPUs.
-/

namespace Bochs

namespace Delivery

open Run

variable {ρ : Type}

/-! ## One turn of the loop -/

/-- What an instruction does, the fetch after its first checks included.  `bits` are set in
`debug_trap` by a data breakpoint. -/
inductive Outcome (ρ : Type)
  /-- It completes; a load of SS inhibits debug exceptions for the next instruction. -/
  | retires (f : Frame ρ) (bits : UInt32) (inhibits : Bool)
  /-- An iteration of a repeated instruction, which completes with the last one. -/
  | iterates (f : Frame ρ) (bits : UInt32) (last : Bool)
  | sleeps (f : Frame ρ) (state : ActivityState)
  /-- `exception`, with RSP and SSP as they were if the instruction has moved them. -/
  | raises (f : Frame ρ) (bits : UInt32) (saved : Option (UInt64 × UInt64)) (vector : ℕ)
    (error_code : UInt16)
  /-- INT n, INT3 and INTO; INT1, which is not a software interrupt, sets `EXT`. -/
  | interrupts (f : Frame ρ) (vector : ℕ) (soft_int : Bool)

structure Emulator (ρ : Type) where
  bus : Bus ρ
  isa : Isa
  /-- `code_breakpoint_match` with RF clear. -/
  code_breakpoint_match : Frame ρ → UInt32
  execute : Frame ρ → Outcome ρ

namespace Cpu

variable (c : Cpu ρ)

/-- `cpu_loop`, on entry. -/
def enterLoop : Cpu ρ := { c with prev_rip := c.rip, speculative_rsp := false }

/-- RIP is not in the page of the prefetch queue. -/
def fetches : Bool := c.eipPage != some (c.rip >>> 12)

/-- `prefetch` finds a code breakpoint: one is enabled and hit, and neither RF nor the instruction
before keeps it from being reported. -/
def codeBreakpoint (E : Emulator ρ) : Bool :=
  c.fetches && !c.inhibited && c.dr7 &&& 0xFF != 0 && !c.RF &&
    E.code_breakpoint_match c.toFrame &&& 0x1000 != 0

/-- `prefetch` clears RF. -/
def prefetch : Cpu ρ :=
  if c.fetches then { c with RF := false, eipPage := some (c.rip >>> 12) } else c

/-- The CPU once the instruction has worked on it. -/
def worked (f : Frame ρ) (bits : UInt32) : Cpu ρ :=
  { c with toFrame := f, debug_trap := c.debug_trap ||| bits, inhibited := false }

/-- `RSP_SPECULATIVE`, if the instruction has come to it. -/
def speculated (saved : Option (UInt64 × UInt64)) : Cpu ρ :=
  match saved with
  | none => c
  | some (rsp, ssp) => { c with speculative_rsp := true, prev_rsp := rsp, prev_ssp := ssp }

/-- INT1 sets `EXT`. -/
def software (soft_int : Bool) : Cpu ρ := { c with EXT := !soft_int || c.EXT }

/-- `enter_sleep_state`. -/
def sleep (state : ActivityState) : Cpu ρ :=
  { c with
    eflags :=
      if state = .shutdown ∨ state = .waitForSipi then c.eflags &&& ~~~Frame.flagIF else c.eflags
    activity_state := state }

end Cpu

/-- The rest of a turn, from the instruction on. -/
def perform (E : Emulator ρ) (c : Cpu ρ) : Option (Unwound ρ) :=
  match E.execute c.toFrame with
  | .retires f bits inhibits =>
    some ⟨[.afterExecution], [], none, { c.worked f bits with inhibited := inhibits }⟩
  | .iterates f bits last =>
    some ⟨if last then [.repeatIteration, .afterExecution] else [.repeatIteration], [], none,
      { c.worked f bits with RF := !last }⟩
  | .sleeps f state =>
    -- the wait for the FPU leaves by `longjmp`
    some ⟨if state = .waitForX87 then [.hlt state] else [.hlt state, .afterExecution], [], none,
      (c.worked f 0).sleep state⟩
  | .raises f bits saved vector error_code =>
    exception E.bus E.isa 6 ((c.worked f bits).speculated saved) vector error_code
  | .interrupts f vector soft_int =>
    match ((c.worked f 0).software soft_int).interrupt E.bus vector soft_int false 0 with
    | .ok _ d => some ⟨[.afterExecution], [vector], some vector, d⟩
    | .error r d =>
      (exception E.bus E.isa 6 d r.vector r.error_code).map fun u =>
        { u with interrupts := vector :: u.interrupts }

/-- A turn of `cpu_loop`. -/
def cpu_loop (E : Emulator ρ) (c : Cpu ρ) : Option (Unwound ρ) :=
  let c := c.enterLoop
  if c.codeBreakpoint E then
    exception E.bus E.isa 6 (c.worked c.toFrame (E.code_breakpoint_match c.toFrame)) dbException 0
  else perform E c.prefetch

/-! ## Steps and runs -/

/-- What the host does between steps, and the step. -/
inductive Action (ρ : Type)
  /-- A write through an accessor; some clear RF or empty the prefetch queue. -/
  | write (f : Frame ρ → Frame ρ) (clearsRF empties : Bool)
  | step

/-- The system of a CPU and its host. -/
def machine (E : Emulator ρ) : System (Cpu ρ) (Action ρ) where
  enabled _ _ := True
  next c
    | .write f clearsRF empties =>
      { c with
        toFrame := f c.toFrame
        RF := c.RF && !clearsRF
        eipPage := if empties then none else c.eipPage }
    | .step => match cpu_loop E c with
      | some u => u.cpu
      | none => c

/-- What the step reports.  The loop of the step has one turn, which always has an event. -/
def report (s : StepFlags) (u : Unwound ρ) : StepReport := (s.step fun _ => u.events).2.1

/-- What the instructions raise are faults: no instruction calls `exception` with a trap or an
abort. -/
def Emulator.RaisesFaults (E : Emulator ρ) : Prop :=
  ∀ g f bits saved vector error_code, E.execute g = .raises f bits saved vector error_code →
    get_exception_class vector = .fault

/-- An emulator that fetches UD2 from a machine without an IDT. -/
def ud2 : Emulator Unit where
  bus := Bus.blank
  isa := ⟨true, false⟩
  code_breakpoint_match _ := 0
  execute f := .raises f 0 none 6 0

theorem raisesFaults_ud2 : ud2.RaisesFaults := by
  intro g f bits saved vector error_code h
  cases h
  rfl

variable {E : Emulator ρ} {B : Bus ρ} {isa : Isa} {c d : Cpu ρ} {u : Unwound ρ} {f : Frame ρ}
  {vector : ℕ} {error_code : UInt16} {bits : UInt32} {saved : Option (UInt64 × UInt64)}

/-! ## What a step reports -/

theorem Cascade.events (h : Cascade B isa c vector error_code u) :
    ∃ es, u.events = c.exceptionEvent isa vector error_code :: es := by
  cases h with
  | shutdown htriple => exact ⟨_, rfl⟩
  | escalate htriple hdouble hrest => exact ⟨_, rfl⟩
  | enter htriple hdouble hgate => exact ⟨_, rfl⟩
  | refuse htriple hdouble hgate hrest => exact ⟨_, rfl⟩

theorem report_eq (s : StepFlags) (hne : u.events ≠ []) : report s u = reportOf u.events := by
  have hevents : (s.step fun _ => u.events).1 = u.events := by
    rcases step_events (fun _ => u.events) s with ⟨k, -, -, heq⟩ | ⟨hnone, -⟩
    · exact heq
    · exact absurd (hnone 0 (by norm_num)) hne
  unfold report
  rw [step_report, hevents]

/-- The report of a step that faults is about the first exception, whatever its delivery comes
to. -/
theorem report_of_cascade (h : Cascade B isa c vector error_code u) (s : StepFlags) :
    report s u =
      { status := 1
        out := some (UInt32.ofNat vector,
          (isa.correctErrorCode c.EXT vector error_code).toUInt32) } := by
  obtain ⟨es, hes⟩ := h.events
  rw [report_eq s (by rw [hes]; exact List.cons_ne_nil _ _)]
  refine reportOf_of_exception ?_
  rw [hes]
  rfl

theorem isSome_perform (hB : E.bus.RaisesDuringDelivery) (hcet : E.isa.cet = true) (c : Cpu ρ) :
    (perform E c).isSome = true := by
  unfold perform
  split
  · rfl
  · rfl
  · rfl
  · exact isSome_exception hB hcet _ _ _
  · split
    · rfl
    · rw [Option.isSome_map]
      exact isSome_exception hB hcet _ _ _

/-- Every step ends. -/
theorem isSome_cpu_loop (hB : E.bus.RaisesDuringDelivery) (hcet : E.isa.cet = true) (c : Cpu ρ) :
    (cpu_loop E c).isSome = true := by
  unfold cpu_loop
  dsimp only
  split_ifs
  · exact isSome_exception hB hcet _ _ _
  · exact isSome_perform hB hcet _

theorem toFrame_prefetch (c : Cpu ρ) : c.enterLoop.prefetch.toFrame = c.toFrame := by
  unfold Cpu.prefetch
  split_ifs <;> rfl

theorem prev_rip_prefetch (c : Cpu ρ) : c.enterLoop.prefetch.prev_rip = c.rip := by
  unfold Cpu.prefetch
  split_ifs <;> rfl

theorem EXT_prefetch (c : Cpu ρ) : c.enterLoop.prefetch.EXT = c.EXT := by
  unfold Cpu.prefetch
  split_ifs <;> rfl

theorem last_prefetch (c : Cpu ρ) :
    c.enterLoop.prefetch.last_exception_type = c.last_exception_type := by
  unfold Cpu.prefetch
  split_ifs <;> rfl

theorem speculative_prefetch (c : Cpu ρ) : c.enterLoop.prefetch.speculative_rsp = false := by
  unfold Cpu.prefetch
  split_ifs <;> rfl

/-- The CPU that calls `exception` for what an instruction raises. -/
def Cpu.raising (c : Cpu ρ) (f : Frame ρ) (bits : UInt32) (saved : Option (UInt64 × UInt64)) :
    Cpu ρ := (c.enterLoop.prefetch.worked f bits).speculated saved

theorem cpu_loop_of_raises (hbreak : c.enterLoop.codeBreakpoint E = false)
    (hraise : E.execute c.toFrame = .raises f bits saved vector error_code) :
    cpu_loop E c = exception E.bus E.isa 6 (c.raising f bits saved) vector error_code := by
  unfold cpu_loop
  dsimp only
  rw [if_neg (by rw [hbreak]; exact Bool.false_ne_true)]
  unfold perform
  rw [toFrame_prefetch, hraise]
  rfl

theorem EXT_raising : (c.raising f bits saved).EXT = c.EXT := by
  unfold Cpu.raising Cpu.speculated
  cases saved with
  | none => exact EXT_prefetch c
  | some p => exact EXT_prefetch c

theorem last_raising : (c.raising f bits saved).last_exception_type = c.last_exception_type := by
  unfold Cpu.raising Cpu.speculated
  cases saved with
  | none => exact last_prefetch c
  | some p => exact last_prefetch c

/-! ## A step that faults and enters no gate -/

variable {ω : Type} {view : ρ → ω}

/-- What an instruction at `rip` has committed when it raises: RSP and SSP are put back if it has
moved them, and only a debug exception writes the debug registers. -/
structure CommittedAt (view : ρ → ω) (rip : UInt64) (f : Frame ρ)
    (saved : Option (UInt64 × UInt64)) (vector : ℕ) (eflags : UInt32) (g : Frame ρ) : Prop where
  rip : g.rip = rip
  rsp : g.rsp = (saved.map Prod.fst).getD f.rsp
  ssp : g.ssp = (saved.map Prod.snd).getD f.ssp
  eflags : g.eflags = eflags
  dr6 : vector ≠ dbException → g.dr6 = f.dr6
  dr7 : vector ≠ dbException → g.dr7 = f.dr7
  cs : g.cs = f.cs
  ss : g.ss = f.ss
  gdtr : g.gdtr = f.gdtr
  idtr : g.idtr = f.idtr
  ldtr : g.ldtr = f.ldtr
  rest : view g.rest = view f.rest

theorem restored_raising_iff {eflags : UInt32} {g : Frame ρ} :
    Restored view (c.raising f bits saved) vector eflags g ↔
      CommittedAt view c.rip f saved vector eflags g := by
  have hrip := prev_rip_prefetch c
  have hstill := speculative_prefetch c
  cases saved with
  | none =>
    have hspec : (c.raising f bits none).speculative_rsp = false := hstill
    constructor
    · intro h
      have hrsp := h.rsp
      have hssp := h.ssp
      rw [hspec] at hrsp hssp
      exact ⟨h.rip.trans hrip, hrsp, hssp, h.eflags, h.dr6, h.dr7, h.cs, h.ss, h.gdtr, h.idtr,
        h.ldtr, h.rest⟩
    · intro h
      refine ⟨h.rip.trans hrip.symm, ?_, ?_, h.eflags, h.dr6, h.dr7, h.cs, h.ss, h.gdtr, h.idtr,
        h.ldtr, h.rest⟩
      · rw [hspec]
        exact h.rsp
      · rw [hspec]
        exact h.ssp
  | some p =>
    constructor
    · intro h
      exact ⟨h.rip.trans hrip, h.rsp, h.ssp, h.eflags, h.dr6, h.dr7, h.cs, h.ss, h.gdtr, h.idtr,
        h.ldtr, h.rest⟩
    · intro h
      exact ⟨h.rip.trans hrip.symm, h.rsp, h.ssp, h.eflags, h.dr6, h.dr7, h.cs, h.ss, h.gdtr,
        h.idtr, h.ldtr, h.rest⟩

/-- **A step that faults ends, and reports the exception of the instruction**, whatever the gates
hold; and if every gate that the delivery looks at is refused, none is entered and nothing changes
but what the instruction has committed, except for IF. -/
theorem fault_commits_nothing (hview : E.bus.ReadsOnly view) (hB : E.bus.RaisesDuringDelivery)
    (hcet : E.isa.cet = true) (s : StepFlags) (c : Cpu ρ)
    (hbreak : c.enterLoop.codeBreakpoint E = false)
    (hraise : E.execute c.toFrame = .raises f bits saved vector error_code)
    (hfault : get_exception_class vector = .fault) :
    ∃ u, cpu_loop E c = some u ∧
      report s u =
        { status := 1
          out := some (UInt32.ofNat vector,
            (E.isa.correctErrorCode c.EXT vector error_code).toUInt32) } ∧
      ((∀ w ∈ u.interrupts, ∀ g, CommittedAt view c.rip f saved vector f.eflags g →
          Refused E.bus w g) →
        u.entered = none ∧
          CommittedAt view c.rip f saved vector (f.eflags &&& ~~~Frame.flagIF) u.cpu.toFrame) := by
  obtain ⟨u, hu⟩ := Option.isSome_iff_exists.1 (isSome_cpu_loop hB hcet c)
  have hrun := hu
  rw [cpu_loop_of_raises hbreak hraise] at hrun
  have hcascade := cascade_of_exception hrun
  have hflags : (c.raising f bits saved).eflags = f.eflags := by
    cases saved <;> rfl
  refine ⟨u, hu, ?_, fun hrefused => ?_⟩
  · rw [report_of_cascade hcascade s, EXT_raising]
  · obtain ⟨hentered, -, hcommitted⟩ := hcascade.committed hview hB hcet hfault fun w hw g hg => by
      rw [hflags] at hg
      exact hrefused w hw g (restored_raising_iff.1 hg)
    rw [hflags] at hcommitted
    exact ⟨hentered, restored_raising_iff.1 hcommitted⟩

theorem fault_commits_nothing_ud2 : ∃ u, cpu_loop ud2 (Cpu.fresh Frame.user) = some u ∧
    u.entered = none ∧ u.cpu.rip = 0x400000 ∧ u.cpu.eflags = 0x2 := by
  obtain ⟨u, hu, -, hcommitted⟩ := fault_commits_nothing (readsOnly_blank id) raises_blank rfl
    ⟨StepCtl.init, 0, false⟩ (Cpu.fresh Frame.user) (E := ud2) rfl rfl (by decide)
  obtain ⟨hentered, hafter⟩ := hcommitted fun w _ g hg => refused_of_no_table w hg.idtr
  exact ⟨u, hu, hentered, hafter.rip, hafter.eflags.trans (by decide)⟩

/-! ## After a shutdown -/

/-- An exception has been raised. -/
def Unwound.Faulted (u : Unwound ρ) : Prop := ∃ v e, Event.exception v e ∈ u.events

/-- The exception has shut the CPU down at once: one call, which looks at no gate. -/
structure ShutDownAtOnce (rip : UInt64) (u : Unwound ρ) : Prop where
  events : ∃ v e, u.events = [.exception v e, .hlt .shutdown]
  entered : u.entered = none
  rip : u.cpu.rip = rip
  interrupts : u.cpu.eflags &&& Frame.flagIF = 0

theorem and_compl_self (a b : UInt32) : (a &&& ~~~b) &&& b = 0 := by
  rw [UInt32.and_assoc, UInt32.and_comm (~~~b), UInt32.and_not_self, UInt32.and_zero]

theorem Cascade.of_doubleFault (h : Cascade B isa c vector error_code u)
    (hfault : get_exception_class vector = .fault)
    (hlast : c.last_exception_type = some .doubleFault) :
    u.cpu.last_exception_type = some .doubleFault ∧ ShutDownAtOnce c.prev_rip u := by
  have htriple : c.tripleFaults vector = true := by simp [Cpu.tripleFaults, hfault, hlast]
  cases h with
  | shutdown =>
    exact ⟨hlast, ⟨_, _, rfl⟩, rfl, rfl, and_compl_self c.eflags Frame.flagIF⟩
  | escalate hnot => exact absurd (hnot.symm.trans htriple) Bool.false_ne_true
  | enter hnot => exact absurd (hnot.symm.trans htriple) Bool.false_ne_true
  | refuse hnot => exact absurd (hnot.symm.trans htriple) Bool.false_ne_true

theorem interrupt_error {soft_int push_error : Bool} {r : Raised}
    (h : c.interrupt B vector soft_int push_error error_code = .error r d) :
    ∃ f, B.long_mode_int c.RF vector soft_int push_error error_code c.toFrame = .error r f ∧
      d = { c.beginEvent with toFrame := f } := by
  unfold Cpu.interrupt at h
  split at h
  · nomatch h
  · next r' f hrun =>
    cases h
    exact ⟨f, hrun, rfl⟩

theorem interrupt_ok {soft_int push_error : Bool} {a : Unit}
    (h : c.interrupt B vector soft_int push_error error_code = .ok a d) :
    ∃ f, B.long_mode_int c.RF vector soft_int push_error error_code c.toFrame = .ok () f ∧
      d = { c.beginEvent with toFrame := f }.endEvent := by
  unfold Cpu.interrupt at h
  split at h
  · next f hrun =>
    cases h
    exact ⟨f, hrun, rfl⟩
  · nomatch h

/-- What a step does once a double fault is on record: it keeps the record, and if it faults, it
shuts down. -/
theorem perform_of_doubleFault (hE : E.RaisesFaults) (hB : E.bus.RaisesDuringDelivery)
    (hcet : E.isa.cet = true) (hlast : c.last_exception_type = some .doubleFault)
    (hu : perform E c = some u) :
    u.cpu.last_exception_type = some .doubleFault ∧
      (u.Faulted → ShutDownAtOnce c.prev_rip u) := by
  unfold perform at hu
  split at hu
  · obtain rfl := Option.some.inj hu
    refine ⟨hlast, ?_⟩
    rintro ⟨v, e, hmem⟩
    nomatch List.mem_singleton.1 hmem
  · next f bits last hexecute =>
    obtain rfl := Option.some.inj hu
    refine ⟨hlast, ?_⟩
    rintro ⟨v, e, hmem⟩
    cases last <;> simp at hmem
  · next f state hexecute =>
    obtain rfl := Option.some.inj hu
    refine ⟨hlast, ?_⟩
    rintro ⟨v, e, hmem⟩
    dsimp only at hmem
    split at hmem <;> simp at hmem
  · next f bits saved vector error_code hexecute =>
    have hprev : ((c.worked f bits).speculated saved).prev_rip = c.prev_rip := by
      cases saved <;> rfl
    have hrecord : ((c.worked f bits).speculated saved).last_exception_type =
        some .doubleFault := by
      cases saved <;> exact hlast
    have h := (cascade_of_exception hu).of_doubleFault (hE _ _ _ _ _ _ hexecute) hrecord
    exact ⟨h.1, fun _ => hprev ▸ h.2⟩
  · next f vector soft_int hexecute =>
    split at hu
    · next a d hgate =>
      obtain rfl := Option.some.inj hu
      obtain ⟨g, -, rfl⟩ := interrupt_ok hgate
      refine ⟨hlast, ?_⟩
      rintro ⟨v, e, hmem⟩
      nomatch List.mem_singleton.1 hmem
    · next r d hgate =>
      -- the interrupt of the instruction fails: its exception is a third one
      obtain ⟨w, hw, rfl⟩ := Option.map_eq_some_iff.1 hu
      obtain ⟨g, hrun, rfl⟩ := interrupt_error hgate
      have hvector := raises_long_mode_int hB _ _ _ _ _ _ _ _ hrun
      have h := (cascade_of_exception hw).of_doubleFault (type_of_mem hcet hvector).1 hlast
      exact ⟨h.1, fun _ => ⟨h.2.events, h.2.entered, h.2.rip, h.2.interrupts⟩⟩

theorem cpu_loop_of_doubleFault (hE : E.RaisesFaults) (hB : E.bus.RaisesDuringDelivery)
    (hcet : E.isa.cet = true) (hlast : c.last_exception_type = some .doubleFault)
    (hu : cpu_loop E c = some u) :
    u.cpu.last_exception_type = some .doubleFault ∧ (u.Faulted → ShutDownAtOnce c.rip u) := by
  unfold cpu_loop at hu
  dsimp only at hu
  split at hu
  · have h := (cascade_of_exception hu).of_doubleFault (by decide) hlast
    exact ⟨h.1, fun _ => h.2⟩
  · have h := perform_of_doubleFault hE hB hcet ((last_prefetch c).trans hlast) hu
    rw [prev_rip_prefetch] at h
    exact h

/-- A delivery that enters no gate ends with a double fault on record. -/
theorem Cascade.last_of_not_entered (h : Cascade B isa c vector error_code u)
    (hentered : u.entered = none) : u.cpu.last_exception_type = some .doubleFault := by
  induction h with
  | shutdown htriple =>
    simp only [Cpu.tripleFaults, Bool.and_eq_true, beq_iff_eq] at htriple
    exact htriple.2
  | escalate htriple hdouble hrest ih => exact ih hentered
  | enter htriple hdouble hgate => cases hentered
  | refuse htriple hdouble hgate hrest ih => exact ih hentered

theorem last_of_faulted (hu : cpu_loop E c = some u) (hfaulted : u.Faulted)
    (hentered : u.entered = none) : u.cpu.last_exception_type = some .doubleFault := by
  unfold cpu_loop at hu
  dsimp only at hu
  split at hu
  · exact (cascade_of_exception hu).last_of_not_entered hentered
  · unfold perform at hu
    obtain ⟨v, e, hmem⟩ := hfaulted
    split at hu
    · obtain rfl := Option.some.inj hu
      nomatch List.mem_singleton.1 hmem
    · next f bits last hexecute =>
      obtain rfl := Option.some.inj hu
      cases last <;> simp at hmem
    · obtain rfl := Option.some.inj hu
      dsimp only at hmem
      split at hmem <;> simp at hmem
    · exact (cascade_of_exception hu).last_of_not_entered hentered
    · split at hu
      · obtain rfl := Option.some.inj hu
        nomatch hentered
      · obtain ⟨w, hw, rfl⟩ := Option.map_eq_some_iff.1 hu
        exact (cascade_of_exception hw).last_of_not_entered hentered

/-- **A shutdown is for good**: after a step that has faulted and entered no gate, in every run and
whatever the host and the guest write in between, tables and memory included, every step that
faults shuts the CPU down in its first call of `exception`, with RIP on its instruction. -/
theorem shutdown_absorbs (hE : E.RaisesFaults) (hB : E.bus.RaisesDuringDelivery)
    (hcet : E.isa.cet = true) (hu : cpu_loop E c = some u) (hfaulted : u.Faulted)
    (hentered : u.entered = none) (as : List (Action ρ)) :
    (machine E).Always
      (fun d => ∀ w, cpu_loop E d = some w → w.Faulted → ShutDownAtOnce d.rip w) u.cpu as := by
  have hrecord : (machine E).Always
      (fun d => d.last_exception_type = some .doubleFault) u.cpu as := by
    refine System.always_of_step (fun d a hd _ => ?_) (last_of_faulted hu hfaulted hentered)
      (System.runs_of_enabled (fun _ _ => trivial) _ _)
    cases a with
    | write f clearsRF empties => exact hd
    | step =>
      obtain ⟨w, hw⟩ := Option.isSome_iff_exists.1 (isSome_cpu_loop hB hcet d)
      have hnext : (machine E).next d .step = w.cpu := by
        simp [machine, hw]
      rw [hnext]
      exact (cpu_loop_of_doubleFault hE hB hcet hd hw).1
  exact hrecord.mono fun d hd w hw => (cpu_loop_of_doubleFault hE hB hcet hd hw).2

theorem cpu_loop_ud2 :
    (cpu_loop ud2 (Cpu.fresh Frame.user)).map (fun u => (u.events, u.entered)) =
      some ([.exception 6 0, .exception 13 51, .exception 13 107, .exception 8 0,
        .exception 13 67, .hlt .shutdown], none) := by
  decide +kernel

theorem shutdown_absorbs_ud2 : ∃ u, cpu_loop ud2 (Cpu.fresh Frame.user) = some u ∧
    (machine ud2).Always
      (fun d => ∀ w, cpu_loop ud2 d = some w → w.Faulted → ShutDownAtOnce d.rip w) u.cpu
      [.write (fun f => { f with rip := 0x500000 }) true true, .step, .step] := by
  obtain ⟨u, hu, hseen⟩ := Option.map_eq_some_iff.1 cpu_loop_ud2
  obtain ⟨hevents, hentered⟩ := Prod.mk.inj hseen
  refine ⟨u, hu, shutdown_absorbs raisesFaults_ud2 raises_blank rfl hu ⟨6, 0, ?_⟩ hentered _⟩
  exact hevents ▸ List.mem_cons_self

/-! ## What an exception depends on -/

/-- CPUs that differ only in what the first call of `exception` reads of earlier ones, and in what
is written before it is read. -/
structure Agree (c d : Cpu ρ) : Prop where
  toFrame : c.toFrame = d.toFrame
  prev_rip : c.prev_rip = d.prev_rip
  speculative_rsp : c.speculative_rsp = d.speculative_rsp
  prev_rsp : c.speculative_rsp = true → c.prev_rsp = d.prev_rsp
  prev_ssp : c.speculative_rsp = true → c.prev_ssp = d.prev_ssp
  last : c.last_exception_type = d.last_exception_type

/-- Everything a step shows. -/
def Unwound.seen (u : Unwound ρ) : List Event × List ℕ × Option ℕ × Frame ρ :=
  (u.events, u.interrupts, u.entered, u.cpu.toFrame)

/-- The flags of RF and `debug_trap`, which only a debug exception reads. -/
def Alike (vector : ℕ) (c d : Cpu ρ) : Prop :=
  vector = dbException → c.RF = d.RF ∧ c.debug_trap = d.debug_trap

theorem Agree.unwindFault (h : Agree c d) (vector : ℕ) :
    (c.unwindFault vector).toFrame = (d.unwindFault vector).toFrame := by
  unfold Cpu.unwindFault
  have hframe := h.toFrame
  cases hspec : c.speculative_rsp with
  | true =>
    simp [← h.speculative_rsp, hspec, h.prev_rsp hspec, h.prev_ssp hspec, h.prev_rip, hframe]
  | false => simp [← h.speculative_rsp, hspec, h.prev_rip, hframe]

theorem Agree.raised (h : Agree c d) (hfault : get_exception_class vector = .fault)
    (halike : Alike vector c d) :
    Agree (c.raised vector) (d.raised vector) ∧ (c.raised vector).RF = (d.raised vector).RF ∧
      (c.raised vector).EXT = (d.raised vector).EXT := by
  have hunwind := h.unwindFault vector
  have hprev := h.prev_rip
  have hlast := h.last
  unfold Cpu.raised
  rw [if_pos hfault, if_pos hfault]
  by_cases hdb : vector = dbException
  · obtain ⟨hRF, htrap⟩ := halike hdb
    simp only [if_pos hdb]
    refine ⟨⟨?_, hprev, rfl, (fun h => nomatch h), (fun h => nomatch h), hlast⟩, ?_, trivial⟩
    · unfold Cpu.commitDebug
      have htrap' : (c.unwindFault vector).debug_trap = (d.unwindFault vector).debug_trap := htrap
      simp [hunwind, htrap']
    · unfold Cpu.commitDebug Cpu.unwindFault
      simp [hdb, hRF]
  · simp only [if_neg hdb]
    refine ⟨⟨hunwind, hprev, rfl, (fun h => nomatch h), (fun h => nomatch h), hlast⟩, ?_,
      trivial⟩
    unfold Cpu.unwindFault
    simp [hdb]

/-- The same gate, with the same outcome. -/
theorem interrupt_congr (vector : ℕ) (soft_int push_error : Bool) (error_code : UInt16)
    (hframe : c.toFrame = d.toFrame) (hRF : c.RF = d.RF) :
    (∃ f, c.interrupt B vector soft_int push_error error_code =
        .ok () { c.beginEvent with toFrame := f }.endEvent ∧
      d.interrupt B vector soft_int push_error error_code =
        .ok () { d.beginEvent with toFrame := f }.endEvent) ∨
    ∃ r f, B.long_mode_int c.RF vector soft_int push_error error_code c.toFrame = .error r f ∧
      c.interrupt B vector soft_int push_error error_code =
        .error r { c.beginEvent with toFrame := f } ∧
      d.interrupt B vector soft_int push_error error_code =
        .error r { d.beginEvent with toFrame := f } := by
  unfold Cpu.interrupt
  rw [← hframe, ← hRF]
  cases hrun : B.long_mode_int c.RF vector soft_int push_error error_code c.toFrame with
  | ok a f => exact .inl ⟨f, rfl, rfl⟩
  | error r f => exact .inr ⟨r, f, rfl, rfl, rfl⟩

/-- What an exception does depends on the latches only as far as its first call reads them. -/
theorem Agree.exception (hB : B.RaisesDuringDelivery) (hcet : isa.cet = true) (n : ℕ)
    (h : Agree c d) (hfault : get_exception_class vector = .fault) (halike : Alike vector c d)
    (hcode : isa.correctErrorCode c.EXT vector error_code =
      isa.correctErrorCode d.EXT vector error_code) :
    (exception B isa n c vector error_code).map Unwound.seen =
      (exception B isa n d vector error_code).map Unwound.seen := by
  induction n generalizing c d vector error_code with
  | zero => rfl
  | succ n ih =>
    have hevent : c.exceptionEvent isa vector error_code =
        d.exceptionEvent isa vector error_code := by
      unfold Cpu.exceptionEvent
      rw [hcode]
    have htriple : c.tripleFaults vector = d.tripleFaults vector := by
      unfold Cpu.tripleFaults
      rw [h.last]
    obtain ⟨hraised, hRF, hEXT⟩ := h.raised hfault halike
    cases hc : c.tripleFaults vector with
    | true =>
      rw [exception_of_triple hc, exception_of_triple (htriple.symm.trans hc), hevent]
      simp only [Option.map_some, Unwound.seen, Cpu.shutdown, h.unwindFault vector]
    | false =>
      have hd := htriple.symm.trans hc
      cases hdouble : escalates c.last_exception_type (isa.get_exception_type vector) with
      | true =>
        rw [exception_of_double hc hdouble, exception_of_double hd (h.last ▸ hdouble), hevent]
        have hrest : (exception B isa n (c.raised vector) dfException 0).map Unwound.seen =
            (exception B isa n (d.raised vector) dfException 0).map Unwound.seen :=
          ih hraised rfl (fun hdb => absurd hdb (by decide)) (by rw [hEXT])
        simp only [Option.map_map]
        have hseen : Unwound.seen ∘ (fun u : Unwound ρ =>
            u.after (d.exceptionEvent isa vector error_code) []) =
            (fun p => (d.exceptionEvent isa vector error_code :: p.1, [] ++ p.2.1, p.2.2.1,
              p.2.2.2)) ∘ Unwound.seen := rfl
        rw [hseen, ← Option.map_map, ← Option.map_map, hrest]
      | false =>
        have hdouble' := h.last ▸ hdouble
        have hframe : (c.recorded isa vector).toFrame = (d.recorded isa vector).toFrame :=
          hraised.toFrame
        rcases interrupt_congr vector false (isa.exception_push_error vector)
          (isa.correctErrorCode c.EXT vector error_code) hframe hRF with
          ⟨f, hcgate, hdgate⟩ | ⟨r, f, hrun, hcgate, hdgate⟩
        · rw [hcode] at hdgate
          rw [exception_of_ok hc hdouble hcgate, exception_of_ok hd hdouble' hdgate, hevent]
          rfl
        · rw [hcode] at hdgate
          rw [exception_of_error hc hdouble hcgate, exception_of_error hd hdouble' hdgate, hevent]
          have hvector := raises_long_mode_int hB _ _ _ _ _ _ _ _ hrun
          have hrsp : (c.raised vector).rsp = (d.raised vector).rsp := by rw [hraised.toFrame]
          have hssp : (c.raised vector).ssp = (d.raised vector).ssp := by rw [hraised.toFrame]
          have hagree : Agree { (c.recorded isa vector).beginEvent with toFrame := f }
              { (d.recorded isa vector).beginEvent with toFrame := f } :=
            ⟨rfl, hraised.prev_rip, rfl, fun _ => hrsp, fun _ => hssp, rfl⟩
          have hnested : isa.correctErrorCode (c.raised vector).EXT r.vector r.error_code =
              isa.correctErrorCode (d.raised vector).EXT r.vector r.error_code := by rw [hEXT]
          have hrest := ih hagree (type_of_mem hcet hvector).1
            (fun hdb => absurd hdb (ne_db_of_mem hvector)) hnested
          simp only [Option.map_map]
          have hseen : Unwound.seen ∘ (fun u : Unwound ρ =>
              u.after (d.exceptionEvent isa vector error_code) [vector]) =
              (fun p => (d.exceptionEvent isa vector error_code :: p.1, [vector] ++ p.2.1, p.2.2.1,
                p.2.2.2)) ∘ Unwound.seen := rfl
          rw [hseen, ← Option.map_map, ← Option.map_map, hrest]

/-! ## Steps that find latches set -/

/-- What is left of earlier exceptions makes no difference to the next step: no code breakpoint is
hit; if the instruction raises, bit 0 of the error code is not for `EXT` to set, a debug exception
finds neither RF nor `debug_trap` set, and a double fault on record meets no gate that could be
entered; and if it is a software interrupt, RF is clear, and it either enters its gate or finds
neither `EXT` nor a record. -/
def Undisturbed (E : Emulator ρ) (view : ρ → ω) (c : Cpu ρ) : Prop :=
  (c.dr7 &&& 0xFF = 0 ∨ E.code_breakpoint_match c.toFrame &&& 0x1000 = 0) ∧
    match E.execute c.toFrame with
    | .raises f _ saved vector error_code =>
      E.isa.correctErrorCode c.EXT vector error_code =
          E.isa.correctErrorCode false vector error_code ∧
        (vector = dbException → c.RF = false ∧ c.debug_trap = 0) ∧
        (c.last_exception_type ≠ none → vector ≠ dbException ∧
          ∀ w g, CommittedAt view c.rip f saved vector f.eflags g → Refused E.bus w g)
    | .interrupts f vector soft_int =>
      c.RF = false ∧
        ((∃ g, E.bus.long_mode_int false vector soft_int false 0 f = .ok () g) ∨
          c.last_exception_type = none ∧ (soft_int = true → c.EXT = false))
    | _ => True

/-- The next step reports and leaves what it would if no latch were set. -/
def Faithful (E : Emulator ρ) (view : ρ → ω) (s : StepFlags) (c : Cpu ρ) : Prop :=
  ∃ u v, cpu_loop E c = some u ∧ cpu_loop E (Cpu.fresh c.toFrame) = some v ∧
    report s u = report s v ∧ Like view v.cpu.toFrame u.cpu.toFrame

theorem codeBreakpoint_eq_false
    (h : c.dr7 &&& 0xFF = 0 ∨ E.code_breakpoint_match c.toFrame &&& 0x1000 = 0) :
    c.enterLoop.codeBreakpoint E = false := by
  have hdr7 : c.enterLoop.dr7 = c.dr7 := rfl
  have hframe : c.enterLoop.toFrame = c.toFrame := rfl
  unfold Cpu.codeBreakpoint
  rw [hdr7, hframe]
  rcases h with h | h <;> simp [h]

theorem cpu_loop_eq_perform
    (h : c.dr7 &&& 0xFF = 0 ∨ E.code_breakpoint_match c.toFrame &&& 0x1000 = 0) :
    cpu_loop E c = perform E c.enterLoop.prefetch := by
  unfold cpu_loop
  dsimp only
  rw [if_neg (by rw [codeBreakpoint_eq_false h]; exact Bool.false_ne_true)]

theorem RF_prefetch (h : c.RF = false) : c.enterLoop.prefetch.RF = false := by
  unfold Cpu.prefetch
  split_ifs
  · rfl
  · exact h

theorem debug_trap_prefetch (c : Cpu ρ) : c.enterLoop.prefetch.debug_trap = c.debug_trap := by
  unfold Cpu.prefetch
  split_ifs <;> rfl

theorem agree_raising (hlast : c.last_exception_type = d.last_exception_type)
    (hrip : c.rip = d.rip) : Agree (c.raising f bits saved) (d.raising f bits saved) where
  toFrame := by cases saved <;> rfl
  prev_rip := by
    have hc : (c.raising f bits saved).prev_rip = c.rip := by
      cases saved <;> exact prev_rip_prefetch c
    have hd : (d.raising f bits saved).prev_rip = d.rip := by
      cases saved <;> exact prev_rip_prefetch d
    rw [hc, hd, hrip]
  speculative_rsp := by
    cases saved with
    | none => exact (speculative_prefetch c).trans (speculative_prefetch d).symm
    | some p => rfl
  prev_rsp h := by
    cases saved with
    | none => exact absurd ((speculative_prefetch c).symm.trans h) Bool.false_ne_true
    | some p => rfl
  prev_ssp h := by
    cases saved with
    | none => exact absurd ((speculative_prefetch c).symm.trans h) Bool.false_ne_true
    | some p => rfl
  last := by rw [last_raising, last_raising, hlast]

theorem alike_raising (h : vector = dbException → c.RF = false ∧ c.debug_trap = 0)
    (hd : d.RF = false ∧ d.debug_trap = 0) :
    Alike vector (c.raising f bits saved) (d.raising f bits saved) := by
  intro hdb
  obtain ⟨hRF, htrap⟩ := h hdb
  have hc (c : Cpu ρ) (hRF : c.RF = false) (htrap : c.debug_trap = 0) :
      (c.raising f bits saved).RF = false ∧ (c.raising f bits saved).debug_trap = 0 ||| bits := by
    have htrap' : c.enterLoop.prefetch.debug_trap ||| bits = 0 ||| bits := by
      rw [debug_trap_prefetch, htrap]
    cases saved with
    | none => exact ⟨RF_prefetch hRF, htrap'⟩
    | some p => exact ⟨RF_prefetch hRF, htrap'⟩
  rw [(hc c hRF htrap).1, (hc c hRF htrap).2, (hc d hd.1 hd.2).1, (hc d hd.1 hd.2).2]
  exact ⟨rfl, rfl⟩

/-- States that show the same report the same. -/
theorem faithful_of_seen {s : StepFlags} {v : Unwound ρ} (hu : cpu_loop E c = some u)
    (hv : cpu_loop E (Cpu.fresh c.toFrame) = some v) (hevents : u.events = v.events)
    (hframe : u.cpu.toFrame = v.cpu.toFrame) : Faithful E view s c := by
  refine ⟨u, v, hu, hv, ?_, hframe ▸ Like.refl _⟩
  unfold report
  rw [hevents]

theorem CommittedAt.like {rip : UInt64} {eflags : UInt32} {g h : Frame ρ}
    (hg : CommittedAt view rip f saved vector eflags g)
    (hh : CommittedAt view rip f saved vector eflags h) (hdb : vector ≠ dbException) :
    Like view g h where
  rip := hh.rip.trans hg.rip.symm
  rsp := hh.rsp.trans hg.rsp.symm
  ssp := hh.ssp.trans hg.ssp.symm
  eflags := hh.eflags.trans hg.eflags.symm
  dr6 := (hh.dr6 hdb).trans (hg.dr6 hdb).symm
  dr7 := (hh.dr7 hdb).trans (hg.dr7 hdb).symm
  cs := hh.cs.trans hg.cs.symm
  ss := hh.ss.trans hg.ss.symm
  gdtr := hh.gdtr.trans hg.gdtr.symm
  idtr := hh.idtr.trans hg.idtr.symm
  ldtr := hh.ldtr.trans hg.ldtr.symm
  rest := hh.rest.trans hg.rest.symm

/-- A step whose instruction raises, with a double fault on record: the CPU with the record shuts
down at once, the other one after its gates have been refused. -/
theorem faithful_of_raises (hview : E.bus.ReadsOnly view) (hB : E.bus.RaisesDuringDelivery)
    (hcet : E.isa.cet = true) (s : StepFlags)
    (hbreak : c.dr7 &&& 0xFF = 0 ∨ E.code_breakpoint_match c.toFrame &&& 0x1000 = 0)
    (hexecute : E.execute c.toFrame = .raises f bits saved vector error_code)
    (hfault : get_exception_class vector = .fault)
    (hcode : E.isa.correctErrorCode c.EXT vector error_code =
      E.isa.correctErrorCode false vector error_code)
    (hdb : vector ≠ dbException)
    (hrefused : ∀ w g, CommittedAt view c.rip f saved vector f.eflags g → Refused E.bus w g) :
    Faithful E view s c := by
  obtain ⟨u, hu, hureport, hucommitted⟩ := fault_commits_nothing hview hB hcet s c
    (codeBreakpoint_eq_false hbreak) hexecute hfault
  obtain ⟨v, hv, hvreport, hvcommitted⟩ := fault_commits_nothing hview hB hcet s
    (Cpu.fresh c.toFrame) (codeBreakpoint_eq_false hbreak) hexecute hfault
  refine ⟨u, v, hu, hv, ?_, ?_⟩
  · rw [hureport, hvreport, hcode]
    rfl
  · exact (hvcommitted fun w _ => hrefused w).2.like (hucommitted fun w _ => hrefused w).2 hdb

/-- The same calls on both sides. -/
theorem faithful_of_exception (hB : E.bus.RaisesDuringDelivery) (hcet : E.isa.cet = true)
    (s : StepFlags)
    (hbreak : c.dr7 &&& 0xFF = 0 ∨ E.code_breakpoint_match c.toFrame &&& 0x1000 = 0)
    (hexecute : E.execute c.toFrame = .raises f bits saved vector error_code)
    (hfault : get_exception_class vector = .fault)
    (hcode : E.isa.correctErrorCode c.EXT vector error_code =
      E.isa.correctErrorCode false vector error_code)
    (hdb : vector = dbException → c.RF = false ∧ c.debug_trap = 0)
    (hlast : c.last_exception_type = none) : Faithful E view s c := by
  obtain ⟨u, hu⟩ := Option.isSome_iff_exists.1 (isSome_cpu_loop hB hcet c)
  obtain ⟨v, hv⟩ := Option.isSome_iff_exists.1 (isSome_cpu_loop hB hcet (Cpu.fresh c.toFrame))
  have hcode' : E.isa.correctErrorCode (c.raising f bits saved).EXT vector error_code =
      E.isa.correctErrorCode ((Cpu.fresh c.toFrame).raising f bits saved).EXT vector
        error_code := by
    rw [EXT_raising, EXT_raising]
    exact hcode
  have hagree : Agree (c.raising f bits saved) ((Cpu.fresh c.toFrame).raising f bits saved) :=
    agree_raising hlast rfl
  have hseen := hagree.exception hB hcet 6 hfault (alike_raising hdb ⟨rfl, rfl⟩) hcode'
  have hc := cpu_loop_of_raises (codeBreakpoint_eq_false hbreak) hexecute
  have hd : cpu_loop E (Cpu.fresh c.toFrame) =
      exception E.bus E.isa 6 ((Cpu.fresh c.toFrame).raising f bits saved) vector error_code :=
    cpu_loop_of_raises (codeBreakpoint_eq_false hbreak) hexecute
  rw [← hc, ← hd, hu, hv] at hseen
  have hseen' := Option.some.inj hseen
  exact faithful_of_seen hu hv (congrArg Prod.fst hseen') (congrArg (fun p => p.2.2.2) hseen')

/-- The CPU that calls `interrupt` for an instruction. -/
def Cpu.interrupting (c : Cpu ρ) (f : Frame ρ) (soft_int : Bool) : Cpu ρ :=
  (c.enterLoop.prefetch.worked f 0).software soft_int

theorem cpu_loop_of_interrupts {soft_int : Bool}
    (hbreak : c.dr7 &&& 0xFF = 0 ∨ E.code_breakpoint_match c.toFrame &&& 0x1000 = 0)
    (hexecute : E.execute c.toFrame = .interrupts f vector soft_int) :
    cpu_loop E c =
      match (c.interrupting f soft_int).interrupt E.bus vector soft_int false 0 with
      | .ok _ d => some ⟨[.afterExecution], [vector], some vector, d⟩
      | .error r d =>
        (exception E.bus E.isa 6 d r.vector r.error_code).map fun u =>
          { u with interrupts := vector :: u.interrupts } := by
  rw [cpu_loop_eq_perform hbreak]
  unfold perform
  rw [toFrame_prefetch, hexecute]
  rfl

theorem faithful_of_interrupts (hB : E.bus.RaisesDuringDelivery) (hcet : E.isa.cet = true)
    (s : StepFlags) {soft_int : Bool}
    (hbreak : c.dr7 &&& 0xFF = 0 ∨ E.code_breakpoint_match c.toFrame &&& 0x1000 = 0)
    (hexecute : E.execute c.toFrame = .interrupts f vector soft_int) (hRF : c.RF = false)
    (hgate : (∃ g, E.bus.long_mode_int false vector soft_int false 0 f = .ok () g) ∨
      c.last_exception_type = none ∧ (soft_int = true → c.EXT = false)) :
    Faithful E view s c := by
  have hc := cpu_loop_of_interrupts hbreak hexecute
  have hd : cpu_loop E (Cpu.fresh c.toFrame) = _ :=
    cpu_loop_of_interrupts (c := Cpu.fresh c.toFrame) hbreak hexecute
  have hRFc : (c.interrupting f soft_int).RF = false := RF_prefetch hRF
  have hRFd : ((Cpu.fresh c.toFrame).interrupting f soft_int).RF = false := RF_prefetch rfl
  have hframe : (c.interrupting f soft_int).toFrame =
      ((Cpu.fresh c.toFrame).interrupting f soft_int).toFrame := rfl
  rcases interrupt_congr (B := E.bus) vector soft_int false 0 hframe (hRFc.trans hRFd.symm) with
    ⟨g, hcgate, hdgate⟩ | ⟨r, g, hrun, hcgate, hdgate⟩
  · rw [hcgate] at hc
    rw [hdgate] at hd
    exact faithful_of_seen hc hd rfl rfl
  · rw [hcgate] at hc
    rw [hdgate] at hd
    rw [hRFc] at hrun
    rcases hgate with ⟨g', hentered⟩ | ⟨hlast, hEXT⟩
    · exact nomatch hrun.symm.trans hentered
    · -- the exception in the delivery finds the same record and the same `EXT`
      have hvector := raises_long_mode_int hB _ _ _ _ _ _ _ _ hrun
      have hagree : Agree { (c.interrupting f soft_int).beginEvent with toFrame := g }
          { ((Cpu.fresh c.toFrame).interrupting f soft_int).beginEvent with toFrame := g } :=
        ⟨rfl, (prev_rip_prefetch c).trans (prev_rip_prefetch (Cpu.fresh c.toFrame)).symm, rfl,
          fun _ => rfl, fun _ => rfl, ((last_prefetch c).trans hlast).trans
            (last_prefetch (Cpu.fresh c.toFrame)).symm⟩
      have hEXT' : (!soft_int || c.enterLoop.prefetch.EXT) =
          (!soft_int || (Cpu.fresh c.toFrame).enterLoop.prefetch.EXT) := by
        rw [EXT_prefetch, EXT_prefetch]
        cases soft_int with
        | true => rw [hEXT rfl]; rfl
        | false => rfl
      have hcode : E.isa.correctErrorCode (!soft_int || c.enterLoop.prefetch.EXT) r.vector
            r.error_code =
          E.isa.correctErrorCode (!soft_int || (Cpu.fresh c.toFrame).enterLoop.prefetch.EXT)
            r.vector r.error_code := by rw [hEXT']
      have hseen := hagree.exception hB hcet 6 (type_of_mem hcet hvector).1
        (fun hdb => absurd hdb (ne_db_of_mem hvector)) hcode
      obtain ⟨u, hu⟩ := Option.isSome_iff_exists.1
        (isSome_exception hB hcet { (c.interrupting f soft_int).beginEvent with toFrame := g }
          r.vector r.error_code)
      obtain ⟨v, hv⟩ := Option.isSome_iff_exists.1
        (isSome_exception hB hcet
          { ((Cpu.fresh c.toFrame).interrupting f soft_int).beginEvent with toFrame := g }
          r.vector r.error_code)
      rw [hu, hv] at hseen
      dsimp only at hc hd
      rw [hu] at hc
      rw [hv] at hd
      have hseen' := Option.some.inj hseen
      exact faithful_of_seen hc hd (congrArg Prod.fst hseen') (congrArg (fun p => p.2.2.2) hseen')

/-- The step lemma: an undisturbed step is that of a CPU with no latch set. -/
theorem faithful_of_undisturbed (hE : E.RaisesFaults) (hview : E.bus.ReadsOnly view)
    (hB : E.bus.RaisesDuringDelivery) (hcet : E.isa.cet = true) (s : StepFlags)
    (h : Undisturbed E view c) : Faithful E view s c := by
  obtain ⟨hbreak, hcase⟩ := h
  have hc : cpu_loop E c = perform E c.enterLoop.prefetch := cpu_loop_eq_perform hbreak
  have hd : cpu_loop E (Cpu.fresh c.toFrame) =
      perform E (Cpu.fresh c.toFrame).enterLoop.prefetch := cpu_loop_eq_perform hbreak
  unfold perform at hc hd
  rw [toFrame_prefetch] at hc hd
  have hsame : (Cpu.fresh c.toFrame).toFrame = c.toFrame := rfl
  rw [hsame] at hd
  cases hexecute : E.execute c.toFrame with
  | retires f bits inhibits =>
    rw [hexecute] at hc hd
    exact faithful_of_seen hc hd rfl rfl
  | iterates f bits last =>
    rw [hexecute] at hc hd
    exact faithful_of_seen hc hd rfl rfl
  | sleeps f state =>
    rw [hexecute] at hc hd
    exact faithful_of_seen hc hd rfl rfl
  | raises f bits saved vector error_code =>
    rw [hexecute] at hcase
    obtain ⟨hcode, hdb, hrecord⟩ := hcase
    have hfault := hE _ _ _ _ _ _ hexecute
    by_cases hlast : c.last_exception_type = none
    · exact faithful_of_exception hB hcet s hbreak hexecute hfault hcode hdb hlast
    · obtain ⟨hne, hrefused⟩ := hrecord hlast
      exact faithful_of_raises hview hB hcet s hbreak hexecute hfault hcode hne hrefused
  | interrupts f vector soft_int =>
    rw [hexecute] at hcase
    obtain ⟨hRF, hgate⟩ := hcase
    exact faithful_of_interrupts hB hcet s hbreak hexecute hRF hgate

/-! ## A campaign -/

/-- One test of a campaign: the state the host writes, by accessors that may clear RF or empty the
prefetch queue, and the step. -/
structure Test (ρ : Type) where
  frame : Frame ρ
  clearsRF : Bool
  empties : Bool

def Test.actions (t : Test ρ) : List (Action ρ) :=
  [.write (fun _ => t.frame) t.clearsRF t.empties, .step]

/-- What the steps of a run report and leave. -/
def shown (E : Emulator ρ) (s : StepFlags) : Cpu ρ → List (Action ρ) → List (StepReport × Frame ρ)
  | _, [] => []
  | c, a@(.write _ _ _) :: as => shown E s ((machine E).next c a) as
  | c, .step :: as =>
    ((cpu_loop E c).map fun u => (report s u, u.cpu.toFrame)).toList ++
      shown E s ((machine E).next c .step) as

/-- What a new CPU reports and leaves for the test. -/
def Test.Passes (E : Emulator ρ) (view : ρ → ω) (s : StepFlags) (r : StepReport × Frame ρ)
    (t : Test ρ) : Prop :=
  ∃ v, cpu_loop E (Cpu.fresh t.frame) = some v ∧ r.1 = report s v ∧ Like view v.cpu.toFrame r.2

/-- The steps of a run that find nothing of earlier exceptions that matters. -/
def UndisturbedStep (E : Emulator ρ) (view : ρ → ω) (c : Cpu ρ) : Action ρ → Prop
  | .write _ _ _ => True
  | .step => Undisturbed E view c

/-- **Faults leave no trace in a campaign whose steps are undisturbed**: however many of its tests
fault, and whatever CPU it starts on, each one reports what a new CPU reports for it and leaves
the same registers and memory. -/
theorem faults_leave_no_trace (hE : E.RaisesFaults) (hview : E.bus.ReadsOnly view)
    (hB : E.bus.RaisesDuringDelivery) (hcet : E.isa.cet = true) (s : StepFlags) (c : Cpu ρ)
    (tests : List (Test ρ))
    (h : (machine E).EachStep (UndisturbedStep E view) c (tests.flatMap Test.actions)) :
    List.Forall₂ (Test.Passes E view s) (shown E s c (tests.flatMap Test.actions)) tests := by
  induction tests generalizing c with
  | nil => exact .nil
  | cons t ts ih =>
    -- the CPU once the host has written the state of the test
    obtain ⟨-, hstep, hrest⟩ := h
    obtain ⟨u, v, hu, hv, hreport, hlike⟩ :=
      faithful_of_undisturbed hE hview hB hcet s hstep
    have hshown : shown E s c ((t :: ts).flatMap Test.actions) =
        (report s u, u.cpu.toFrame) ::
          shown E s ((machine E).next ((machine E).next c
            (.write (fun _ => t.frame) t.clearsRF t.empties)) .step) (ts.flatMap Test.actions) := by
      have hflat : (t :: ts).flatMap Test.actions =
          .write (fun _ => t.frame) t.clearsRF t.empties :: .step :: ts.flatMap Test.actions := rfl
      rw [hflat, shown, shown, hu]
      rfl
    rw [hshown]
    exact .cons ⟨v, hv, hreport, hlike⟩ (ih _ hrest)

/-- UD2 has no error code, and without a table it meets no gate. -/
theorem undisturbed_ud2 {c : Cpu Unit} (h : c.toFrame = Frame.user) :
    Undisturbed ud2 id c := by
  refine ⟨.inr UInt32.zero_and, rfl, fun hdb => absurd hdb (by decide), fun _ => ⟨by decide, ?_⟩⟩
  intro w g hg
  exact refused_of_no_table w (hg.idtr.trans (h ▸ rfl))

theorem faults_leave_no_trace_ud2 :
    List.Forall₂ (Test.Passes ud2 id ⟨StepCtl.init, 0, false⟩)
      (shown ud2 ⟨StepCtl.init, 0, false⟩ (Cpu.fresh Frame.user)
        ([⟨Frame.user, false, true⟩, ⟨Frame.user, true, false⟩].flatMap Test.actions))
      [⟨Frame.user, false, true⟩, ⟨Frame.user, true, false⟩] :=
  faults_leave_no_trace raisesFaults_ud2 (readsOnly_blank id) raises_blank rfl _ _ _
    ⟨trivial, undisturbed_ud2 rfl, trivial, undisturbed_ud2 rfl, trivial⟩

end Delivery

end Bochs
