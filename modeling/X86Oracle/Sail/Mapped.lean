import Mathlib
import X86Oracle.Sail.Instances

/-!
# Mapped blocks of a Sail instance

A block of the runtime exists once a byte in it has been written; nothing else allocates one.
`View.log` collects the addresses an instance writes over a run, host writes and guest stores
alike, and `isMapped_answer` says that `is_mapped` answers from it.
-/

namespace Sail

open LinkedBlocks

variable {M R : Type}

/-- A run of code makes exactly the blocks exist that it writes to. -/
theorem MemProg.isSome_eval (prog : MemProg R) (mem : Blocks) (k : UInt64) :
    ((prog.eval mem).1 k).isSome = true ↔
      (mem k).isSome = true ∨ ∃ a ∈ prog.written mem, blockId a = k := by
  induction prog generalizing mem with
  | done r => simp [eval, written]
  | read address cont ih => exact ih _ mem
  | mapped address cont ih => exact ih _ mem
  | write address byte cont ih =>
    rw [eval, ih, written, Blocks.writeByte]
    by_cases hk : k = blockId address
    · simp [hk]
    · simp [Function.update_of_ne hk, Ne.symm hk]

/-- The addresses a call writes. -/
def View.written (v : View M) (c : Call M R) : List UInt64 :=
  match c.code, v c.id with
  | some code, some o => (code o.1).written o.2
  | _, _ => []

/-- The addresses an instance has written since it was made: `log` so far, then over a run. -/
def View.log (modelInit : MemProg M) (id : ℕ) : View M → List UInt64 → List (Call M R) → List UInt64
  | _, log, [] => log
  | v, log, c :: cs =>
    View.log modelInit id (v.step modelInit c).1
      (if c.id ≠ id then log
      else match c with
        | .new _ | .free _ => []
        | c => log ++ v.written c) cs

/-- The instance's blocks are those of the log. -/
def LogOf (v : View M) (id : ℕ) (log : List UInt64) : Prop :=
  ∀ o, v id = some o → ∀ k, (o.2 k).isSome = true ↔ ∃ a ∈ log, blockId a = k

theorem LogOf.enter {v : View M} {id : ℕ} {log : List UInt64} (h : LogOf v id log) {c : Call M R}
    (hid : c.id = id) {code : M → MemProg (M × Answer R)} (hcode : c.code = some code) :
    LogOf (v.enter id code).1 id (log ++ v.written c) := by
  intro o ho k
  unfold View.enter at ho
  cases hv : v id with
  | none =>
    rw [hv] at ho
    exact absurd (hv.symm.trans ho) nofun
  | some o₁ =>
    rw [hv] at ho
    simp only [Function.update_self] at ho
    obtain rfl := Option.some.inj ho
    have hwritten : v.written c = (code o₁.1).written o₁.2 := by
      rw [View.written, hcode, hid, hv]
    rw [MemProg.isSome_eval, h o₁ hv k, hwritten]
    simp only [List.mem_append, or_and_right, exists_or]

/-- Along a run the blocks stay those of the log; the model's start-up writes nothing. -/
theorem LogOf.run {m : M} {v : View M} {id : ℕ} {log : List UInt64} {cs : List (Call M R)}
    (h : LogOf v id log) :
    LogOf (v.after (.done m) cs) id (View.log (.done m) id v log cs) := by
  induction cs generalizing v log with
  | nil => exact h
  | cons c cs ih =>
    refine ih ?_
    by_cases hid : c.id = id
    · rw [if_neg (not_not.2 hid)]
      have hentry (code : M → MemProg (M × Answer R)) (hcode : c.code = some code) :
          LogOf (v.step (.done m) c).1 id (log ++ v.written c) := by
        rw [View.step_of_code hcode, hid]
        exact h.enter hid hcode
      cases c with
      | new i =>
        intro o ho k
        obtain rfl : i = id := hid
        simp only [View.step, MemProg.eval, Function.update_self] at ho
        obtain rfl := Option.some.inj ho
        simp
      | free i =>
        intro o ho
        obtain rfl : i = id := hid
        simp only [View.step, Function.update_self] at ho
        exact absurd ho.symm (Option.some_ne_none o)
      | readByte | writeByte | isMapped | entry => exact hentry _ rfl
    · rw [if_pos hid]
      have hsame : (v.step (.done m) c).1 id = v id := View.step_of_ne hid
      exact fun o ho => h o (hsame.symm.trans ho)

/-- **Which blocks are mapped.**  After any run, `is_mapped` on a live instance says whether the
instance has written a byte of the block. -/
theorem isMapped_answer (malloc : Allocator UInt64 Block) (m : M) {calls : List (Call M R)} {id : ℕ}
    (hvalid : Valid (fun _ => false) calls)
    (hlive : calls.foldl (fun live c => c.after live) (fun _ => false) id = true) (addr : UInt64) :
    ∃ s answers s' b, (Process.fresh M).run malloc (.done m) calls = some (s, answers) ∧
      s.step malloc (.done m) (.isMapped id addr : Call M R) = some (s', some (id, .mapped b)) ∧
      (b = true ↔ ∃ a ∈ View.log (.done m) id (fun _ => none) [] calls,
        blockId a = blockId addr) := by
  obtain ⟨⟨s, hrun, href⟩, -⟩ := run_spec malloc (.done m)
    (refines_fresh (M := M)) hvalid
  have hsome := congrFun (View.live_after (.done m) (v := fun _ => none) hvalid) id
  obtain ⟨o, ho⟩ := Option.isSome_iff_exists.1 (hsome.trans hlive)
  have hok : (Call.isMapped id addr : Call M R).ok
      (fun id => (View.after (.done m) (fun _ => none) calls id).isSome) = true := by
    simp only [Call.ok, Call.id, ho, Option.isSome_some]
  obtain ⟨s', hstep, -, -⟩ := step_spec malloc (.done m) href hok
  have hanswer : (View.step (.done m) (View.after (.done m) (fun _ => none) calls)
      (Call.isMapped id addr : Call M R)).2 = some (id, .mapped (o.2.isMapped addr)) := by
    have hcode : (Call.isMapped id addr : Call M R).code =
        some fun m => .mapped addr fun b => .done (m, .mapped b) := rfl
    rw [View.step_of_code hcode, View.enter, Call.id, ho]
    rfl
  rw [hanswer] at hstep
  have hlog : LogOf (View.after (.done m) (fun _ => none) calls) id
      (View.log (.done m) id (fun _ => none) [] calls) :=
  LogOf.run fun o ho => absurd ho.symm (Option.some_ne_none o)
  exact ⟨s, _, s', _, hrun, hstep, hlog o ho (blockId addr)⟩

end Sail
