import Mathlib
import X86Oracle.Bochs.Machine

/-!
# What a step reports

`x86oracle_bochs_step` tells what happened from flags that the instrumentation callbacks set
(`csrc/bochs_shim.cpp`).  The emulator enters as the events of each call of `cpu_loop`.

* `StepFlags.step`: the guarded loop, with the events that happened beside its report.
* `StepCtl.after`: the flags as a function of the events so far, kept by every callback.
* `truthful_iff`: when the report is true.
-/

namespace Bochs

/-! ## The callbacks -/

/-- What `cpu_loop` calls back. -/
inductive Event
  | afterExecution
  | repeatIteration
  | exception (vector error_code : UInt32)
  /-- `enter_sleep_state` calls `bx_instr_hlt` for whatever state it enters. -/
  | hlt (state : ActivityState)
deriving DecidableEq

/-- The globals of the shim that a step is about. -/
structure StepFlags where
  g_step : StepCtl
  async_event : UInt32
  kill_bochs_request : Bool

namespace StepFlags

def request_stop (s : StepFlags) : StepFlags :=
  { s with async_event := 1, kill_bochs_request := true }

/-- `bx_instr_after_execution`, and `bx_instr_repeat_iteration`, which is the same. -/
def bx_instr_after_execution (s : StepFlags) : StepFlags :=
  if s.g_step.armed then { s with g_step.retired := true }.request_stop else s

def bx_instr_repeat_iteration (s : StepFlags) : StepFlags := s.bx_instr_after_execution

def bx_instr_exception (s : StepFlags) (vector error_code : UInt32) : StepFlags :=
  if s.g_step.armed && !s.g_step.faulted then
    { s with
      g_step.faulted := true
      g_step.vector := vector
      g_step.error_code := error_code }.request_stop
  else s

/-- It does not ask whether a step is in progress. -/
def bx_instr_hlt (s : StepFlags) : StepFlags := { s with g_step.halted := true }.request_stop

def callback (s : StepFlags) : Event → StepFlags
  | .afterExecution => s.bx_instr_after_execution
  | .repeatIteration => s.bx_instr_repeat_iteration
  | .exception vector error_code => s.bx_instr_exception vector error_code
  | .hlt _ => s.bx_instr_hlt

end StepFlags

/-! ## The step -/

/-- What `x86oracle_bochs_step` returns, and what it stores through its out-parameters. -/
structure StepReport where
  status : UInt32
  out : Option (UInt32 × UInt32)
deriving DecidableEq

namespace StepFlags

/-- The loop, from turn `k` on, for at most `n` turns: the events that happen, and the flags. -/
def loop (cpu_loop : ℕ → List Event) : ℕ → ℕ → StepFlags → List Event × StepFlags
  | 0, _, s => ([], s)
  | n + 1, k, s =>
    if s.kill_bochs_request then ([], s)
    else
      let rest := loop cpu_loop n (k + 1) ((cpu_loop k).foldl callback s)
      (cpu_loop k ++ rest.1, rest.2)

/-- The flags a step starts with. -/
def arm (s : StepFlags) : StepFlags :=
  { s with
    g_step := { StepCtl.init with armed := true }
    async_event := 0
    kill_bochs_request := false }

/-- The flags a step ends with. -/
def disarm (s : StepFlags) : StepFlags :=
  { s with g_step.armed := false, kill_bochs_request := false, async_event := 0 }

end StepFlags

/-- The last lines of `x86oracle_bochs_step`. -/
def StepCtl.report (c : StepCtl) : StepReport :=
  if c.faulted then { status := 1, out := some (c.vector, c.error_code) }
  else if c.halted then { status := 2, out := none }
  else { status := 0, out := none }

namespace StepFlags

/-- `x86oracle_bochs_step`. -/
def step (cpu_loop : ℕ → List Event) (s : StepFlags) : List Event × StepReport × StepFlags :=
  let ended := loop cpu_loop 1024 0 s.arm
  (ended.1, ended.2.disarm.g_step.report, ended.2.disarm)

/-- What happens outside of steps changes the flags too: `bx_instr_hlt` does not look at `armed`. -/
def after (s : StepFlags) (past : List (List Event × (ℕ → List Event))) : StepFlags :=
  past.foldl (fun s p => ((p.1.foldl callback s).step p.2).2.2) s

end StepFlags

/-! ## What is true of a report -/

namespace Event

/-- An instruction or a REP iteration completed. -/
def completes : Event → Bool
  | .afterExecution | .repeatIteration => true
  | _ => false

def exception? : Event → Option (UInt32 × UInt32)
  | .exception vector error_code => some (vector, error_code)
  | _ => none

def hlt? : Event → Bool
  | .hlt _ => true
  | _ => false

end Event

def firstException (es : List Event) : Option (UInt32 × UInt32) := es.findSome? Event.exception?

/-- The report says what the events say. -/
structure Truthful (es : List Event) (r : StepReport) : Prop where
  retired : r.status = 0 → ∃ e ∈ es, e.completes = true
  fault_iff : r.status = 1 ↔ ∃ v c, .exception v c ∈ es
  fault : r.status = 1 → r.out = firstException es
  halted : r.status = 2 → .hlt .hlt ∈ es ∧ ∀ v c, .exception v c ∉ es

/-- The events of turn `k` are the first of all. -/
def FirstAt (cpu_loop : ℕ → List Event) (k : ℕ) : Prop :=
  cpu_loop k ≠ [] ∧ ∀ j < k, cpu_loop j = []

/-- Something happens in one of the turns; and if the CPU goes to sleep without an exception, it is
by `HLT`. -/
def Plain (cpu_loop : ℕ → List Event) : Prop :=
  ∃ k < 1024, FirstAt cpu_loop k ∧ ((∃ v c, .exception v c ∈ cpu_loop k) ∨
    ∀ state, .hlt state ∈ cpu_loop k → .hlt .hlt ∈ cpu_loop k)

/-! ## The flags record the events -/

theorem firstException_isSome {es : List Event} :
    (firstException es).isSome = true ↔ ∃ v c, .exception v c ∈ es := by
  unfold firstException
  rw [List.findSome?_isSome_iff]
  constructor
  · rintro ⟨e, he, hsome⟩
    cases e with
    | exception v c => exact ⟨v, c, he⟩
    | _ => exact absurd hsome Bool.false_ne_true
  · rintro ⟨v, c, he⟩
    exact ⟨_, he, rfl⟩

theorem firstException_append (es fs : List Event) :
    firstException (es ++ fs) = (firstException es).or (firstException fs) :=
  List.findSome?_append

/-- The flags of a step in which these events have happened. -/
def StepCtl.after (es : List Event) : StepCtl where
  armed := true
  retired := es.any Event.completes
  faulted := (firstException es).isSome
  vector := ((firstException es).map Prod.fst).getD 0
  error_code := ((firstException es).map Prod.snd).getD 0
  halted := es.any Event.hlt?

/-- The flags record the events of the step so far, and a stop is requested after the first. -/
structure Recorded (es : List Event) (s : StepFlags) : Prop where
  g_step : s.g_step = .after es
  kill : s.kill_bochs_request = !es.isEmpty

variable {es : List Event} {s : StepFlags} {cpu_loop : ℕ → List Event}

theorem Recorded.callback (h : Recorded es s) (e : Event) :
    Recorded (es ++ [e]) (s.callback e) := by
  have hstop : (!(es ++ [e]).isEmpty) = true := by simp
  have harmed : s.g_step.armed = true := by rw [h.g_step]; rfl
  cases e with
  | afterExecution =>
    unfold StepFlags.callback StepFlags.bx_instr_after_execution
    rw [if_pos harmed]
    refine ⟨?_, hstop.symm⟩
    simp [StepFlags.request_stop, h.g_step, StepCtl.after, firstException, Event.exception?,
      Event.completes, Event.hlt?]
  | repeatIteration =>
    unfold StepFlags.callback StepFlags.bx_instr_repeat_iteration StepFlags.bx_instr_after_execution
    rw [if_pos harmed]
    refine ⟨?_, hstop.symm⟩
    simp [StepFlags.request_stop, h.g_step, StepCtl.after, firstException, Event.exception?,
      Event.completes, Event.hlt?]
  | exception v c =>
    change Recorded _ (s.bx_instr_exception v c)
    unfold StepFlags.bx_instr_exception
    cases hfirst : firstException es with
    | none =>
      have hfaulted : s.g_step.faulted = false := by rw [h.g_step, StepCtl.after, hfirst]; rfl
      rw [harmed, hfaulted, if_pos (show (true && !false) = true from rfl)]
      have hnew : firstException (es ++ [.exception v c]) = some (v, c) := by
        rw [firstException_append, hfirst]
        rfl
      refine ⟨?_, hstop.symm⟩
      simp [StepFlags.request_stop, h.g_step, StepCtl.after, hnew, Event.completes, Event.hlt?]
    | some first =>
      -- an exception while one is delivered: a stop has been requested already
      have hfaulted : s.g_step.faulted = true := by rw [h.g_step, StepCtl.after, hfirst]; rfl
      have hne : es ≠ [] := by
        rintro rfl
        nomatch hfirst
      rw [harmed, hfaulted, if_neg (by decide)]
      refine ⟨?_, by rw [h.kill, hstop]; simpa using hne⟩
      simp [h.g_step, StepCtl.after, firstException_append, hfirst, Event.completes, Event.hlt?]
  | hlt state =>
    refine ⟨?_, hstop.symm⟩
    simp [StepFlags.callback, StepFlags.bx_instr_hlt, StepFlags.request_stop, h.g_step,
      StepCtl.after, firstException, Event.exception?, Event.completes, Event.hlt?]

theorem Recorded.callbacks (h : Recorded es s) (fs : List Event) :
    Recorded (es ++ fs) (fs.foldl StepFlags.callback s) := by
  induction fs generalizing es s with
  | nil =>
    rw [List.append_nil]
    exact h
  | cons e fs ih =>
    rw [List.foldl_cons, ← List.singleton_append, ← List.append_assoc]
    exact ih (h.callback e)

theorem Recorded.loop (cpu_loop : ℕ → List Event) (h : Recorded es s) (n k : ℕ) :
    Recorded (es ++ (StepFlags.loop cpu_loop n k s).1) (StepFlags.loop cpu_loop n k s).2 := by
  induction n generalizing es s k with
  | zero =>
    rw [StepFlags.loop, List.append_nil]
    exact h
  | succ n ih =>
    unfold StepFlags.loop
    split_ifs
    · rw [List.append_nil]
      exact h
    · rw [← List.append_assoc]
      exact ih (h.callbacks (cpu_loop k)) (k + 1)

/-- The loop ends with the first call that has an event. -/
theorem Recorded.loop_events (cpu_loop : ℕ → List Event) (h : Recorded [] s) (n k : ℕ) :
    (∃ j < n, cpu_loop (k + j) ≠ [] ∧ (∀ i < j, cpu_loop (k + i) = []) ∧
        (StepFlags.loop cpu_loop n k s).1 = cpu_loop (k + j)) ∨
      (∀ j < n, cpu_loop (k + j) = []) ∧ (StepFlags.loop cpu_loop n k s).1 = [] := by
  induction n generalizing s k with
  | zero => exact .inr ⟨fun j hj => absurd hj (Nat.not_lt_zero j), rfl⟩
  | succ n ih =>
    have hrest := h.callbacks (cpu_loop k)
    have hloop : (StepFlags.loop cpu_loop (n + 1) k s).1 = cpu_loop k ++
        (StepFlags.loop cpu_loop n (k + 1) ((cpu_loop k).foldl StepFlags.callback s)).1 := by
      rw [StepFlags.loop, if_neg (by rw [h.kill]; exact Bool.false_ne_true)]
    rw [hloop]
    rw [List.nil_append] at hrest
    by_cases hk : cpu_loop k = []
    · rw [hk, List.nil_append, List.foldl_nil]
      have hshift (i : ℕ) : k + 1 + i = k + (i + 1) := by omega
      rcases ih h (k + 1) with ⟨j, hj, hne, hbefore, heq⟩ | ⟨hnone, heq⟩
      · refine .inl ⟨j + 1, by omega, hshift j ▸ hne, fun i hi => ?_, hshift j ▸ heq⟩
        cases i with
        | zero => exact hk
        | succ i =>
          rw [← hshift]
          exact hbefore i (by omega)
      · refine .inr ⟨fun j hj => ?_, heq⟩
        cases j with
        | zero => exact hk
        | succ j =>
          rw [← hshift]
          exact hnone j (by omega)
    · refine .inl ⟨0, by omega, hk, fun i hi => absurd hi (Nat.not_lt_zero i), ?_⟩
      have hstopped : (StepFlags.loop cpu_loop n (k + 1)
          ((cpu_loop k).foldl StepFlags.callback s)).1 = [] := by
        cases n with
        | zero => rfl
        | succ n =>
          have hkill : (cpu_loop k).isEmpty = false := by simpa using hk
          rw [StepFlags.loop, if_pos (by rw [hrest.kill, hkill]; rfl)]
      rw [hstopped, List.append_nil, Nat.add_zero]

/-! ## The report -/

/-- A step starts afresh, whatever happened before it. -/
theorem recorded_arm (s : StepFlags) : Recorded [] s.arm := ⟨rfl, rfl⟩

def reportOf (es : List Event) : StepReport :=
  match firstException es with
  | some first => { status := 1, out := some first }
  | none => { status := if es.any Event.hlt? then 2 else 0, out := none }

theorem report_after (es : List Event) : (StepCtl.after es).report = reportOf es := by
  unfold StepCtl.report StepCtl.after reportOf
  cases firstException es with
  | none => cases es.any Event.hlt? <;> rfl
  | some first => rfl

theorem step_report (cpu_loop : ℕ → List Event) (s : StepFlags) :
    (s.step cpu_loop).2.1 = reportOf (s.step cpu_loop).1 := by
  have hloop := (recorded_arm s).loop cpu_loop 1024 0
  rw [List.nil_append] at hloop
  unfold StepFlags.step
  rw [← report_after, ← hloop.g_step]
  rfl

/-- The events of a step are those of the first call that has any. -/
theorem step_events (cpu_loop : ℕ → List Event) (s : StepFlags) :
    (∃ k < 1024, FirstAt cpu_loop k ∧ (s.step cpu_loop).1 = cpu_loop k) ∨
      (∀ k < 1024, cpu_loop k = []) ∧ (s.step cpu_loop).1 = [] := by
  have h := (recorded_arm s).loop_events cpu_loop 1024 0
  simp only [Nat.zero_add] at h
  rcases h with ⟨k, hk, hne, hbefore, heq⟩ | hnone
  · exact .inl ⟨k, hk, ⟨hne, hbefore⟩, heq⟩
  · exact .inr hnone

theorem reportOf_of_exception {first : UInt32 × UInt32} (h : firstException es = some first) :
    reportOf es = { status := 1, out := some first } := by
  unfold reportOf
  rw [h]

theorem reportOf_of_none (h : firstException es = none) :
    reportOf es = { status := if es.any Event.hlt? then 2 else 0, out := none } := by
  unfold reportOf
  rw [h]

theorem any_hlt_iff : es.any Event.hlt? = true ↔ ∃ state, .hlt state ∈ es := by
  rw [List.any_eq_true]
  constructor
  · rintro ⟨e, he, hhlt⟩
    cases e with
    | hlt state => exact ⟨state, he⟩
    | _ => nomatch hhlt
  · rintro ⟨state, he⟩
    exact ⟨_, he, rfl⟩

theorem truthful_reportOf (es : List Event) :
    Truthful es (reportOf es) ↔ es ≠ [] ∧ ((∃ v c, .exception v c ∈ es) ∨
      ∀ state, .hlt state ∈ es → .hlt .hlt ∈ es) := by
  cases hfirst : firstException es with
  | some first =>
    have hraised := firstException_isSome.1 (Option.isSome_of_eq_some hfirst)
    rw [reportOf_of_exception hfirst]
    refine iff_of_true ⟨fun h => ?_, iff_of_true rfl hraised, fun _ => hfirst.symm, fun h => ?_⟩
      ⟨?_, .inl hraised⟩
    · exact absurd h (show (1 : UInt32) ≠ 0 by decide)
    · exact absurd h (show (1 : UInt32) ≠ 2 by decide)
    · rintro rfl
      nomatch hfirst
  | none =>
    have hquiet : ¬ ∃ v c, .exception v c ∈ es := by
      rw [← firstException_isSome, hfirst]
      exact Bool.false_ne_true
    have hquiet' : ∀ v c, .exception v c ∉ es := fun v c h => hquiet ⟨v, c, h⟩
    rw [reportOf_of_none hfirst, or_iff_right hquiet]
    by_cases hslept : ∃ state, .hlt state ∈ es
    · obtain ⟨state, hstate⟩ := hslept
      rw [if_pos (any_hlt_iff.2 ⟨state, hstate⟩)]
      constructor
      · intro h
        exact ⟨List.ne_nil_of_mem hstate, fun _ _ => (h.halted rfl).1⟩
      · rintro ⟨-, hhlt⟩
        exact ⟨fun h => absurd h (by decide), iff_of_false (by decide) hquiet,
          fun h => absurd h (by decide), fun _ => ⟨hhlt state hstate, hquiet'⟩⟩
    · rw [if_neg (mt any_hlt_iff.1 hslept)]
      constructor
      · intro h
        obtain ⟨e, he, -⟩ := h.retired rfl
        exact ⟨List.ne_nil_of_mem he, fun state hstate => absurd ⟨state, hstate⟩ hslept⟩
      · rintro ⟨hne, -⟩
        refine ⟨fun _ => ?_, iff_of_false (by decide) hquiet, fun h => absurd h (by decide),
          fun h => absurd h (by decide)⟩
        -- neither an exception nor a sleep: what happened is that something completed
        obtain ⟨e, he⟩ := List.exists_mem_of_ne_nil es hne
        refine ⟨e, he, ?_⟩
        cases e with
        | exception v c => exact absurd he (hquiet' v c)
        | hlt state => exact absurd ⟨state, he⟩ hslept
        | _ => rfl

theorem plain_iff (cpu_loop : ℕ → List Event) (s : StepFlags) :
    Plain cpu_loop ↔ (s.step cpu_loop).1 ≠ [] ∧
      ((∃ v c, .exception v c ∈ (s.step cpu_loop).1) ∨
        ∀ state, .hlt state ∈ (s.step cpu_loop).1 → .hlt .hlt ∈ (s.step cpu_loop).1) := by
  rcases step_events cpu_loop s with ⟨k, hk, hfirst, heq⟩ | ⟨hnone, heq⟩
  · rw [heq]
    constructor
    · rintro ⟨k', hk', hfirst', hplain⟩
      obtain rfl : k' = k := by
        rcases Nat.lt_trichotomy k' k with hlt | rfl | hlt
        · exact absurd (hfirst.2 k' hlt) hfirst'.1
        · rfl
        · exact absurd (hfirst'.2 k hlt) hfirst.1
      exact ⟨hfirst.1, hplain⟩
    · rintro ⟨-, hplain⟩
      exact ⟨k, hk, hfirst, hplain⟩
  · rw [heq]
    refine iff_of_false ?_ fun h => h.1 rfl
    rintro ⟨k, hk, hfirst, -⟩
    exact hfirst.1 (hnone k hk)

/-- The events of a step, and its report, do not depend on the flags it finds. -/
theorem step_congr (cpu_loop : ℕ → List Event) (s t : StepFlags) :
    (s.step cpu_loop).1 = (t.step cpu_loop).1 ∧ (s.step cpu_loop).2.1 = (t.step cpu_loop).2.1 :=
  ⟨rfl, rfl⟩

end Bochs
