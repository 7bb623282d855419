import Mathlib
import X86Oracle.Lib.Run
import X86Oracle.Hw.Step

/-!
# `step` and `fault_msg`

Each backend keeps the last fault in a field of its own, which `step` sets and `fault_msg` prints
(`src/kvm.rs`, `src/whp.rs`, `src/bochs.rs`).

* `Session` is a backend between two calls, with what its last step returned; `session` the system
  of its calls. Calls other than `step` leave the field alone.
* `always_agrees_iff`: over a run the two agree exactly when every step's own results do.
* `fault_msg_agrees_iff` settles the three backends: KVM and WHP fill the field only for a fault
  the guest raised, Bochs for every fault.
-/

namespace Oracle.FaultMsg

open Run Hw

/-! ## Sessions -/

/-- A backend with machine `M` and fault record `F`. -/
structure Session (M F : Type) where
  machine : M
  lastFault : Option F
  /-- What the last call of `step` returned. -/
  lastStep : Option StepOutcome

/-- A call of the trait: a register or memory write, or a step with the engine's answers `I`. -/
inductive Call (M I : Type) where
  | write (f : M → M)
  | step (answers : I)

variable {M F I : Type}

def session (step : M → I → StepOutcome × Option F × M) : System (Session M F) (Call M I) where
  enabled _ _ := True
  next s
    | .write f => { s with machine := f s.machine }
    | .step answers =>
      let (outcome, lastFault, machine) := step s.machine answers
      { machine, lastFault, lastStep := some outcome }

/-- A new backend. -/
def Session.new (m : M) : Session M F := { machine := m, lastFault := none, lastStep := none }

/-- `fault_msg` is empty after a retired step, and the message of the step after a fault. -/
def AgreesWith (msg : String) : StepOutcome → Prop
  | .retired => msg = ""
  | .fault _ m => msg = m ∧ msg ≠ ""
  | .syscall => True

def Agrees (faultMsg : Option F → String) (s : Session M F) : Prop :=
  ∀ outcome, s.lastStep = some outcome → AgreesWith (faultMsg s.lastFault) outcome

/-- Steps whose answers are good; every write is. -/
def GoodCall (good : I → Prop) : Call M I → Prop
  | .write _ => True
  | .step answers => good answers

/-- If a step's own results agree exactly for good answers, then over a run `fault_msg` agrees with
the last step throughout exactly when every step has good answers. -/
theorem always_agrees_iff {step : M → I → StepOutcome × Option F × M} {faultMsg : Option F → String}
    {good : I → Prop}
    (hstep : ∀ m answers,
      AgreesWith (faultMsg (step m answers).2.1) (step m answers).1 ↔ good answers)
    (m : M) (calls : List (Call M I)) :
    (session step).Always (Agrees faultMsg) (Session.new m) calls ↔
      (session step).EachStep (fun _ c => GoodCall good c) (Session.new m) calls := by
  have hrun : ∀ (s : Session M F) (cs : List (Call M I)), (session step).Runs s cs :=
    Run.System.runs_of_enabled fun _ _ => trivial
  have hnext : ∀ (s : Session M F) answers,
      Agrees faultMsg ((session step).next s (.step answers)) ↔ good answers := by
    intro s answers
    rw [← hstep s.machine answers]
    constructor
    · intro h
      exact h _ rfl
    · rintro h _ ⟨⟩
      exact h
  refine System.always_iff_eachStep (Agrees faultMsg) (fun _ c => GoodCall good c)
    (fun _ h => h) ?_ ?_ (fun _ h => by cases h) (hrun _ _)
  · intro s c h _ hgood
    cases c with
    | write f => exact h
    | step answers => exact (hnext s answers).mpr hgood
  · intro s c _ _ hbad hagrees
    cases c with
    | write f => exact hbad trivial
    | step answers => exact hbad ((hnext s answers).mp hagrees)

/-! ## The hardware backends -/

/-- `fault_msg` of KVM and WHP. -/
def hwFaultMsg : Option (UInt8 × UInt64) → String
  | none => ""
  | some (v, e) => faultMessage v e

/-- The three parts of a result. -/
def parts (r : StepResult) : StepOutcome × Option (UInt8 × UInt64) × Machine :=
  (r.outcome, r.lastFault, r.machine)

def kvm : System (Session Machine (UInt8 × UInt64)) (Call Machine (List (KvmExit × Machine))) :=
  session fun m exits => parts (kvmStep m exits)

/-- The answers of the platform during one step. -/
structure WhpAnswers where
  claimed : Except String Unit
  armed : Except UInt32 Unit
  exits : List (WhpExit × Machine)

def whp : System (Session Machine (UInt8 × UInt64)) (Call Machine WhpAnswers) :=
  session fun m a => parts (whpStep m a.claimed a.armed a.exits)

/-- The first exit that ends a step. -/
def firstExit {E : Type} (retry : E → Bool) (exits : List (E × Machine)) : Option E :=
  ((exits.take 64).map Prod.fst).find? fun e => !retry e

def kvmRetry : KvmExit → Bool
  | .interrupted => true
  | _ => false

def whpRetry : WhpExit → Bool
  | .canceled => true
  | _ => false

/-- The run that ends the step stops at the single-step trap or at a `HLT`. -/
def KvmGood (exits : List (KvmExit × Machine)) : Prop :=
  firstExit kvmRetry exits = some .debug ∨ firstExit kvmRetry exits = some .hlt

/-- Mapping and arming succeed, and the run that ends the step stops at an intercepted exception or
at a `HLT`. -/
def WhpGood (a : WhpAnswers) : Prop :=
  a.claimed = .ok () ∧ a.armed = .ok () ∧
    ((∃ v valid code,
        firstExit whpRetry a.exits = some (.exceptionIntercept v valid code)) ∨
      firstExit whpRetry a.exits = some .halt)

/-- A result agrees if its fault record gives its outcome. -/
def ResultAgrees (r : StepResult) : Prop := AgreesWith (hwFaultMsg r.lastFault) r.outcome

theorem faultMessage_ne_empty (v : UInt8) (e : UInt64) : faultMessage v e ≠ "" := by
  unfold faultMessage
  split_ifs <;> simp [String.append_eq_empty_iff]

theorem retiredResult_agrees (m : Machine) : ResultAgrees (retiredResult m) := rfl

theorem faultResult_agrees (v : UInt8) (e : UInt64) (m : Machine) :
    ResultAgrees (faultResult v e m) := ⟨rfl, faultMessage_ne_empty v e⟩

/-- A failure that is not the guest's leaves the record empty. -/
theorem otherResult_disagrees (kind : FaultKind) (msg : String) (m : Machine) :
    ¬ ResultAgrees (otherResult kind msg m) := fun h => h.2 rfl

/-- Only the trap and a `HLT` end a KVM step in agreement. -/
theorem kvmHandle_agrees {exit : KvmExit} {m : Machine} {r : StepResult}
    (h : kvmHandle exit m = some r) : ResultAgrees r ↔ exit = .debug ∨ exit = .hlt := by
  cases exit with
  | interrupted => cases h
  | debug => cases h; exact iff_of_true (retiredResult_agrees m) (.inl rfl)
  | hlt =>
    refine iff_of_true ?_ (.inr rfl)
    simp only [kvmHandle] at h
    split at h
    · cases h; exact faultResult_agrees _ _ _
    · cases h; exact retiredResult_agrees m
  | failed error => cases h; exact iff_of_false (otherResult_disagrees _ _ _) (by simp)
  | shutdown => cases h; exact iff_of_false (otherResult_disagrees _ _ _) (by simp)
  | mmio addr => cases h; exact iff_of_false (otherResult_disagrees _ _ _) (by simp)
  | other e => cases h; exact iff_of_false (otherResult_disagrees _ _ _) (by simp)

theorem kvmLoop_agrees (m : Machine) (runs : List (KvmExit × Machine)) :
    ResultAgrees (kvmLoop m runs) ↔
      (runs.map Prod.fst).find? (fun e => !kvmRetry e) = some .debug ∨
        (runs.map Prod.fst).find? (fun e => !kvmRetry e) = some .hlt := by
  induction runs generalizing m with
  | nil => exact iff_of_false (otherResult_disagrees _ _ _) (by simp)
  | cons run runs ih =>
    obtain ⟨exit, m'⟩ := run
    rw [kvmLoop]
    cases hr : kvmHandle exit m' with
    | some r =>
      have hnot : kvmRetry exit = false := by
        cases exit <;> first | rfl | cases hr
      simpa [hnot] using kvmHandle_agrees hr
    | none =>
      have hretry : exit = .interrupted := by
        cases exit with
        | interrupted => rfl
        | hlt => simp only [kvmHandle] at hr; split at hr <;> cases hr
        | _ => cases hr
      subst hretry
      simpa [kvmRetry] using ih m'

theorem kvmStep_agrees (m : Machine) (exits : List (KvmExit × Machine)) :
    ResultAgrees (kvmStep m exits) ↔ KvmGood exits := by
  unfold kvmStep KvmGood firstExit
  exact kvmLoop_agrees m (exits.take 64)

/-- Only an intercepted exception and a `HLT` end a WHP step in agreement. -/
theorem whpHandle_agrees {exit : WhpExit} {m : Machine} {r : StepResult}
    (h : whpHandle exit m = some r) :
    ResultAgrees r ↔
      (∃ v valid code, exit = .exceptionIntercept v valid code) ∨ exit = .halt := by
  cases exit with
  | canceled => cases h
  | exceptionIntercept v valid code =>
    refine iff_of_true ?_ (.inl ⟨v, valid, code, rfl⟩)
    simp only [whpHandle] at h
    split_ifs at h <;> cases h
    · exact retiredResult_agrees _
    · exact faultResult_agrees _ _ _
    · exact faultResult_agrees _ _ _
  | halt =>
    refine iff_of_true ?_ (.inr rfl)
    simp only [whpHandle] at h
    split at h
    · split_ifs at h <;> cases h
      · exact retiredResult_agrees _
      · exact faultResult_agrees _ _ _
    · cases h; exact retiredResult_agrees _
  | failed hr => cases h; exact iff_of_false (otherResult_disagrees _ _ _) (by simp)
  | memoryAccess gpa => cases h; exact iff_of_false (otherResult_disagrees _ _ _) (by simp)
  | tripleFault => cases h; exact iff_of_false (otherResult_disagrees _ _ _) (by simp)
  | other reason => cases h; exact iff_of_false (otherResult_disagrees _ _ _) (by simp)

theorem whpLoop_agrees (m : Machine) (runs : List (WhpExit × Machine)) :
    ResultAgrees (whpLoop m runs) ↔
      (∃ v valid code, (runs.map Prod.fst).find? (fun e => !whpRetry e) =
          some (.exceptionIntercept v valid code)) ∨
        (runs.map Prod.fst).find? (fun e => !whpRetry e) = some .halt := by
  induction runs generalizing m with
  | nil => exact iff_of_false (otherResult_disagrees _ _ _) (by simp)
  | cons run runs ih =>
    obtain ⟨exit, m'⟩ := run
    rw [whpLoop]
    cases hr : whpHandle exit m' with
    | some r =>
      have hnot : whpRetry exit = false := by
        cases exit <;> first | rfl | cases hr
      simpa [hnot] using whpHandle_agrees hr
    | none =>
      have hretry : exit = .canceled := by
        cases exit with
        | canceled => rfl
        | exceptionIntercept v valid code =>
          simp only [whpHandle] at hr
          split_ifs at hr
        | halt =>
          simp only [whpHandle] at hr
          split at hr
          · split_ifs at hr
          · cases hr
        | _ => cases hr
      subst hretry
      simpa [whpRetry] using ih m'

theorem whpStep_agrees (m : Machine) (a : WhpAnswers) :
    ResultAgrees (whpStep m a.claimed a.armed a.exits) ↔ WhpGood a := by
  unfold whpStep WhpGood firstExit
  cases hclaimed : a.claimed with
  | error e => exact iff_of_false (otherResult_disagrees _ _ _) (by simp)
  | ok u =>
    cases harmed : a.armed with
    | error hr => exact iff_of_false (otherResult_disagrees _ _ _) (by simp)
    | ok u' =>
      rw [and_iff_right rfl, and_iff_right rfl]
      exact whpLoop_agrees _ _

/-! ## Bochs -/

/-- `BochsOracle::classify`. -/
def bochsClassify (vector : UInt32) : FaultKind :=
  match vector with
  | 0 => .divideError
  | 6 => .undefinedOpcode
  | 13 => .generalProtection
  | 14 => .pageFault
  | 17 => .alignmentCheck
  | 21 => .controlProtection
  | _ => .otherException

/-- `BochsOracle::vector_name`. -/
def bochsVectorName (vector : UInt32) : String :=
  match vector with
  | 0 => "#DE divide error"
  | 1 => "#DB debug"
  | 3 => "#BP breakpoint"
  | 4 => "#OF overflow"
  | 5 => "#BR bound range"
  | 6 => "#UD invalid opcode"
  | 7 => "#NM device not available"
  | 8 => "#DF double fault"
  | 10 => "#TS invalid TSS"
  | 11 => "#NP segment not present"
  | 12 => "#SS stack fault"
  | 13 => "#GP general protection"
  | 14 => "#PF page fault"
  | 16 => "#MF x87 FP"
  | 17 => "#AC alignment check"
  | 18 => "#MC machine check"
  | 19 => "#XM SIMD FP"
  | 21 => "#CP control protection"
  | _ => "exception"

/-- `fault_msg` of Bochs. -/
def bochsFaultMsg : Option (UInt32 × UInt32) → String
  | none => ""
  | some (v, e) =>
    if e = 0 then bochsVectorName v ++ " (vector " ++ toString v.toNat ++ ")"
    else bochsVectorName v ++ " (vector " ++ toString v.toNat ++ ", error code " ++
      lowerHex e.toUInt64 ++ ")"

/-- What `x86oracle_bochs_step` answered, with the core it left. -/
structure BochsAnswer (M : Type) where
  status : UInt32
  vector : UInt32
  error : UInt32
  machine : M

/-- `BochsOracle::step`. -/
def bochsStep (a : BochsAnswer M) : StepOutcome × Option (UInt32 × UInt32) × M :=
  match a.status with
  | 0 => (.retired, none, a.machine)
  -- HLT: the core stopped and there is nothing to wake it
  | 2 => (.retired, none, a.machine)
  | _ =>
    let lastFault := some (a.vector, a.error)
    (.fault (bochsClassify a.vector) (bochsFaultMsg lastFault), lastFault, a.machine)

def bochs : System (Session M (UInt32 × UInt32)) (Call M (BochsAnswer M)) :=
  session fun _ a => bochsStep a

theorem bochsFaultMsg_ne_empty (v e : UInt32) : bochsFaultMsg (some (v, e)) ≠ "" := by
  unfold bochsFaultMsg
  simp only
  split_ifs <;> simp [String.append_eq_empty_iff]

theorem bochsStep_agrees (a : BochsAnswer M) :
    AgreesWith (bochsFaultMsg (bochsStep a).2.1) (bochsStep a).1 := by
  unfold bochsStep
  split
  · rfl
  · rfl
  · exact ⟨rfl, bochsFaultMsg_ne_empty _ _⟩

/-! ## The three backends -/

/-- Over every run of a backend from a new one, `fault_msg` is what the last step returned: on KVM
and WHP exactly when every step is ended by the guest, on Bochs always. -/
theorem fault_msg_agrees_iff (m : Machine) (b : M) (kvmCalls : List (Call Machine _))
    (whpCalls : List (Call Machine _)) (bochsCalls : List (Call M _)) :
    (kvm.Always (Agrees hwFaultMsg) (Session.new m) kvmCalls ↔
        kvm.EachStep (fun _ c => GoodCall KvmGood c) (Session.new m) kvmCalls) ∧
      (whp.Always (Agrees hwFaultMsg) (Session.new m) whpCalls ↔
        whp.EachStep (fun _ c => GoodCall WhpGood c) (Session.new m) whpCalls) ∧
      bochs.Always (Agrees bochsFaultMsg) (Session.new b) bochsCalls := by
  refine ⟨always_agrees_iff kvmStep_agrees m kvmCalls,
    always_agrees_iff whpStep_agrees m whpCalls, ?_⟩
  have hbochs : bochs.Always (Agrees bochsFaultMsg) (Session.new b) bochsCalls ↔
      bochs.EachStep (fun _ c => GoodCall (fun _ => True) c) (Session.new b) bochsCalls :=
    always_agrees_iff (fun _ a => iff_of_true (bochsStep_agrees a) trivial) b bochsCalls
  refine hbochs.mpr ?_
  have hgood : ∀ (s : Session M (UInt32 × UInt32)) (cs : List (Call M (BochsAnswer M))),
      bochs.EachStep (fun _ c => GoodCall (fun _ => True) c) s cs := by
    intro s cs
    induction cs generalizing s with
    | nil => trivial
    | cons c cs ih =>
      refine ⟨?_, ih _⟩
      cases c <;> trivial
  exact hgood _ _

/-- `in al, 0x60` leaves KVM with a port exit: the step is a fault with a message, and `fault_msg`
is empty. -/
theorem port_access_not_recorded :
    ¬ kvm.Always (Agrees hwFaultMsg)
      (Session.new (Machine.started (fun _ => 0) bootRegs 8 16))
      [.step [(.other "IoIn(96, [0])", Machine.started (fun _ => 0) bootRegs 8 16)]] := by
  rintro ⟨-, h⟩
  exact (h _ rfl).2 rfl

end Oracle.FaultMsg
