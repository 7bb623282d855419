import Mathlib
import X86Oracle.Sail.Runtime

/-!
# Sail instances over one runtime

`csrc/shim.cpp`: every instance has a `Model` of its own and a list of memory blocks, and the
`MemCtx` guard swaps the list into the runtime's global for the duration of each call.  The model
lock makes a call atomic, so an interleaving of threads is a list of calls.

* `Process`: the heap, the runtime's globals and the live instances; `Process.step` is one call,
  `none` where it would touch freed memory or an instance that is not alive.
* `View`: each live instance as its own machine with its own blocks, and no pointers.
  `step_spec` is the refinement, with what the call does to the heap.
* `View.answers_filter`: on views an instance only sees its own calls.
* `instances_isolated` puts them together for any interleaving.

The tag list of the runtime is null throughout: no code of this model writes tags.
-/

namespace Sail

open LinkedBlocks

/-! ## The shim -/

/-- What an entry point returns. -/
inductive Answer (R : Type)
  | byte (b : UInt8)
  | mapped (b : Bool)
  | unit
  | other (r : R)

/-- A call into the shim.  `entry` is any entry point that runs code of the model on the instance:
`x86oracle_step` and the register accessors. -/
inductive Call (M R : Type)
  | new (id : ℕ)
  | readByte (id : ℕ) (addr : UInt64)
  | writeByte (id : ℕ) (addr : UInt64) (byte : UInt8)
  | isMapped (id : ℕ) (addr : UInt64)
  | entry (id : ℕ) (code : M → MemProg (M × R))
  | free (id : ℕ)

/-- The handle the call is about. -/
def Call.id {M R : Type} : Call M R → ℕ
  | new id | readByte id _ | writeByte id _ _ | isMapped id _ | entry id _ | free id => id

/-- `OracleInstance`. -/
structure OracleInstance (M : Type) where
  m : M
  memory : Option ℕ

/-- The process: the heap, the globals of the runtime, and the instances by handle. -/
structure Process (M : Type) where
  heap : MemHeap
  sailMemory : Option ℕ
  rtsRefcount : ℤ
  inst : ℕ → Option (OracleInstance M)

/-- Before the first call. -/
def Process.fresh (M : Type) : Process M where
  heap := .empty
  sailMemory := none
  rtsRefcount := 0
  inst := fun _ => none

section Shim

variable {M R : Type} (malloc : Allocator UInt64 Block) (modelInit : MemProg M)

/-- Run code under a `MemCtx` of the instance: its list goes into `sail_memory`, and the head is
saved back. -/
def Process.withMemCtx (s : Process M) (id : ℕ) (memory : Option ℕ)
    (code : MemProg (M × Answer R)) :
    Option (Process M × Option (ℕ × Answer R)) :=
  (code.exec malloc s.heap memory).map fun run =>
    (⟨run.1, run.2.1, s.rtsRefcount,
      Function.update s.inst id (some ⟨run.2.2.1, run.2.1⟩)⟩, some (id, run.2.2.2))

/-- `x86oracle_new`: `model_init` counts the instance in `setup_rts`, and starts the model with an
empty list in `sail_memory`. -/
def Process.new (s : Process M) (id : ℕ) : Option (Process M) :=
  (modelInit.exec malloc s.heap none).map fun run =>
    ⟨run.1, run.2.1, s.rtsRefcount + 1, Function.update s.inst id (some ⟨run.2.2, run.2.1⟩)⟩

/-- `cleanup_rts`: the last instance takes down what is in the globals. -/
def Process.cleanupRts (s : Process M) : Option (Process M) :=
  let refcount := s.rtsRefcount - 1
  if refcount > 0 then some { s with rtsRefcount := refcount }
  else (killMem s.heap s.sailMemory).map fun heap =>
    { s with heap, sailMemory := none, rtsRefcount := refcount }

/-- `x86oracle_free`: `kill_mem` under the instance's `MemCtx`, `model_fini`, then `delete`. -/
def Process.free (s : Process M) (id : ℕ) (memory : Option ℕ) : Option (Process M) :=
  (killMem s.heap memory).bind fun heap =>
    (Process.cleanupRts { s with heap, sailMemory := none }).map fun s =>
      { s with inst := Function.update s.inst id none }

/-- One call; the answer goes with the handle. -/
def Process.step (s : Process M) : Call M R → Option (Process M × Option (ℕ × Answer R))
  | .new id => (s.new malloc modelInit id).map fun s => (s, none)
  | .readByte id addr => (s.inst id).bind fun o =>
    s.withMemCtx malloc id o.memory (.read addr fun b => .done (o.m, .byte b))
  | .writeByte id addr byte => (s.inst id).bind fun o =>
    s.withMemCtx malloc id o.memory (.write addr byte (.done (o.m, .unit)))
  | .isMapped id addr => (s.inst id).bind fun o =>
    s.withMemCtx malloc id o.memory (.mapped addr fun b => .done (o.m, .mapped b))
  | .entry id code => (s.inst id).bind fun o =>
    s.withMemCtx malloc id o.memory ((code o.m).bind fun r => .done (r.1, .other r.2))
  | .free id => (s.inst id).bind fun o => (s.free id o.memory).map fun s => (s, none)

/-- A run, with the answers in order. -/
def Process.run : Process M → List (Call M R) → Option (Process M × List (ℕ × Answer R))
  | s, [] => some (s, [])
  | s, c :: cs => (s.step malloc modelInit c).bind fun r =>
    (run r.1 cs).map fun rest => (rest.1, r.2.toList ++ rest.2)

end Shim

/-! ## Which calls are possible -/

section Valid

variable {M R : Type}

/-- A handle is made once, and used while it is alive; the Rust side owns it. -/
def Call.ok (live : ℕ → Bool) : Call M R → Bool
  | .new id => !live id
  | c => live c.id

def Call.after (live : ℕ → Bool) : Call M R → ℕ → Bool
  | .new id => Function.update live id true
  | .free id => Function.update live id false
  | _ => live

def Valid : (ℕ → Bool) → List (Call M R) → Prop
  | _, [] => True
  | live, c :: cs => c.ok live = true ∧ Valid (c.after live) cs

instance Valid.decidable : (live : ℕ → Bool) → (cs : List (Call M R)) → Decidable (Valid live cs)
  | _, [] => .isTrue trivial
  | live, c :: cs =>
    have := Valid.decidable (c.after live) cs
    inferInstanceAs (Decidable (_ ∧ _))

/-- Whether a call is possible, and what it leaves, depends on its own handle only. -/
theorem Call.ok_congr {live live' : ℕ → Bool} {c : Call M R} (h : live c.id = live' c.id) :
    c.ok live = c.ok live' ∧ c.after live c.id = c.after live' c.id := by
  cases c with
  | new id => exact ⟨congrArg (! ·) h, by simp [Call.after, Call.id]⟩
  | free id => exact ⟨h, by simp [Call.after, Call.id]⟩
  | readByte | writeByte | isMapped | entry => exact ⟨h, h⟩

theorem Call.after_of_ne {live : ℕ → Bool} {c : Call M R} {id : ℕ} (h : c.id ≠ id) :
    c.after live id = live id := by
  cases c with
  | new | free => exact Function.update_of_ne (Ne.symm h) ..
  | readByte | writeByte | isMapped | entry => rfl

/-- The calls of one handle are possible on their own. -/
theorem Valid.filter {live live' : ℕ → Bool} {cs : List (Call M R)} {id : ℕ}
    (h : Valid live cs) (hlive : live id = live' id) :
    Valid live' (cs.filter fun c => c.id = id) := by
  induction cs generalizing live live' with
  | nil => trivial
  | cons c cs ih =>
    obtain ⟨hok, hrest⟩ := h
    by_cases hid : c.id = id
    · subst hid
      obtain ⟨hok', hafter⟩ := Call.ok_congr hlive
      rw [List.filter_cons_of_pos (by simp)]
      exact ⟨hok' ▸ hok, ih hrest hafter⟩
    · rw [List.filter_cons_of_neg (by simpa using hid)]
      exact ih hrest ((Call.after_of_ne hid).trans hlive)

end Valid

/-! ## Every instance for itself -/

/-- The live instances, each with the state of its model and its blocks. -/
abbrev View (M : Type) := ℕ → Option (M × Blocks)

section View

variable {M R : Type} (modelInit : MemProg M)

/-- Code of the model on one instance. -/
def View.enter (v : View M) (id : ℕ) (code : M → MemProg (M × Answer R)) :
    View M × Option (ℕ × Answer R) :=
  match v id with
  | none => (v, none)
  | some o =>
    let run := (code o.1).eval o.2
    (Function.update v id (some (run.2.1, run.1)), some (id, run.2.2))

/-- The code of a call that runs on a live instance. -/
def Call.code : Call M R → Option (M → MemProg (M × Answer R))
  | .readByte _ addr => some fun m => .read addr fun b => .done (m, .byte b)
  | .writeByte _ addr byte => some fun m => .write addr byte (.done (m, .unit))
  | .isMapped _ addr => some fun m => .mapped addr fun b => .done (m, .mapped b)
  | .entry _ code => some fun m => (code m).bind fun r => .done (r.1, .other r.2)
  | .new _ | .free _ => none

def View.step (v : View M) : Call M R → View M × Option (ℕ × Answer R)
  | .new id =>
    let run := modelInit.eval fun _ => none
    (Function.update v id (some (run.2, run.1)), none)
  | .free id => (Function.update v id none, none)
  | c => match c.code with
    | some code => v.enter c.id code
    | none => (v, none)

/-- The answers of a run. -/
def View.answers : View M → List (Call M R) → List (ℕ × Answer R)
  | _, [] => []
  | v, c :: cs => (v.step modelInit c).2.toList ++ answers (v.step modelInit c).1 cs

/-- The instances after a run. -/
def View.after (v : View M) (cs : List (Call M R)) : View M :=
  cs.foldl (fun v c => (v.step modelInit c).1) v

variable {modelInit} {v v' : View M} {c : Call M R} {id : ℕ}

theorem View.step_of_code {code : M → MemProg (M × Answer R)} (h : c.code = some code) :
    v.step modelInit c = v.enter c.id code := by
  cases c with
  | new | free => exact absurd h nofun
  | readByte | writeByte | isMapped | entry =>
    obtain rfl := Option.some.inj h
    rfl

/-- A call changes its own instance only. -/
theorem View.step_of_ne (h : c.id ≠ id) : (v.step modelInit c).1 id = v id := by
  cases hcode : c.code with
  | none =>
    cases c with
    | new | free => exact Function.update_of_ne (Ne.symm h) ..
    | readByte | writeByte | isMapped | entry => exact absurd hcode nofun
  | some code =>
    rw [View.step_of_code hcode, View.enter]
    cases v c.id with
    | none => rfl
    | some o => exact Function.update_of_ne (Ne.symm h) ..

/-- What it does and answers depends on that instance only. -/
theorem View.step_congr (modelInit : MemProg M) (h : v c.id = v' c.id) :
    (v.step modelInit c).1 c.id = (v'.step modelInit c).1 c.id ∧
      (v.step modelInit c).2 = (v'.step modelInit c).2 := by
  cases hcode : c.code with
  | none =>
    cases c with
    | new | free => exact ⟨by simp [View.step, Call.id], rfl⟩
    | readByte | writeByte | isMapped | entry => exact absurd hcode nofun
  | some code =>
    rw [View.step_of_code hcode, View.step_of_code hcode, View.enter, View.enter, ← h]
    cases hv : v c.id with
    | none => exact ⟨h, rfl⟩
    | some o => exact ⟨by simp only [Function.update_self], rfl⟩

/-- The answer is the instance's. -/
theorem View.answer_id : ∀ a ∈ (v.step modelInit c).2.toList, a.1 = c.id := by
  intro a ha
  cases hcode : c.code with
  | none =>
    cases c with
    | new | free => nomatch ha
    | readByte | writeByte | isMapped | entry => exact absurd hcode nofun
  | some code =>
    rw [View.step_of_code hcode, View.enter] at ha
    cases hv : v c.id with
    | none =>
      rw [hv] at ha
      nomatch ha
    | some o =>
      rw [hv] at ha
      obtain rfl := List.mem_singleton.1 ha
      rfl

/-- The answers an instance gives in a run are those of the run of its own calls. -/
theorem View.answers_filter {cs : List (Call M R)} (h : v id = v' id) :
    (v.answers modelInit cs).filter (fun a => a.1 = id) =
      v'.answers modelInit (cs.filter fun c => c.id = id) := by
  induction cs generalizing v v' with
  | nil => rfl
  | cons c cs ih =>
    rw [View.answers, List.filter_append]
    by_cases hid : c.id = id
    · subst hid
      obtain ⟨hsame, hanswer⟩ := View.step_congr modelInit h
      rw [List.filter_cons_of_pos (by simp), View.answers, ih hsame, ← hanswer]
      congr 1
      exact List.filter_eq_self.2 fun a ha => by simp [View.answer_id a ha]
    · have hnone : (v.step modelInit c).2.toList.filter (fun a => a.1 = id) = [] :=
        List.filter_eq_nil_iff.2 fun a ha => by simpa [View.answer_id a ha] using hid
      rw [List.filter_cons_of_neg (by simpa using hid), hnone, List.nil_append]
      exact ih ((View.step_of_ne hid).trans h)

end View

/-! ## Refinement -/

section Refinement

variable {M R : Type} {malloc : Allocator UInt64 Block} {modelInit : MemProg M}

/-- The list heads the live instances have saved. -/
def Process.head (s : Process M) (id : ℕ) : Option ℕ := (s.inst id).bind OracleInstance.memory

/-- The lists of the live instances partition the heap, and the view holds what is on them. -/
def Refines (s : Process M) (v : View M) : Prop :=
  ∃ list : ℕ → Entries UInt64 Block, Owners s.heap s.head list ∧
    ∀ id, v id = (s.inst id).map fun o => (o.m, contents (list id))

/-- Every allocated block is on the list of exactly one live instance. -/
def OwnedOnce (s : Process M) : Prop :=
  ∀ p ∈ s.heap.used, ∃! id, ∃ o, s.inst id = some o ∧ OnList s.heap o.memory p

/-- What a call does to the blocks that are allocated: freeing an instance frees exactly the blocks
on its list, any other call frees none. -/
def Accounted (s : Process M) (c : Call M R) (s' : Process M) : Prop :=
  ((∀ id, c ≠ .free id) → s.heap.used ⊆ s'.heap.used) ∧
    ∀ id o, c = .free id → s.inst id = some o →
      ∀ p ∈ s.heap.used, p ∉ s'.heap.used ↔ OnList s.heap o.memory p

variable {s s' : Process M} {v : View M} {id : ℕ} {o : OracleInstance M}

theorem Process.head_update (s : Process M) (o : Option (OracleInstance M)) :
    (fun i => (Function.update s.inst id o i).bind OracleInstance.memory) =
      Function.update s.head id (o.bind OracleInstance.memory) := by
  funext i
  by_cases hi : i = id
  · rw [hi, Function.update_self, Function.update_self]
  · rw [Function.update_of_ne hi, Function.update_of_ne hi]
    rfl

/-- One instance's new list, on both sides. -/
theorem Refines.update {list : ℕ → Entries UInt64 Block} {heap : MemHeap} {sailMemory : Option ℕ}
    {refcount : ℤ} {o : Option (OracleInstance M)} {l : Entries UInt64 Block}
    (hv : ∀ i, v i = (s.inst i).map fun o => (o.m, contents (list i)))
    (ho : Owners heap (Function.update s.head id (o.bind OracleInstance.memory))
      (Function.update list id l)) :
    Refines ⟨heap, sailMemory, refcount, Function.update s.inst id o⟩
      (Function.update v id (o.map fun o => (o.m, contents l))) := by
  refine ⟨Function.update list id l, ?_, fun i => ?_⟩
  · rw [← Process.head_update] at ho
    exact ho
  · by_cases hi : i = id
    · simp only [hi, Function.update_self]
    · simp only [Function.update_of_ne hi]
      exact hv i

theorem Refines.ownedOnce (h : Refines s v) : OwnedOnce s := by
  obtain ⟨list, ho, -⟩ := h
  intro p hp
  obtain ⟨id, hid, hunique⟩ := ho.existsUnique hp
  have hmem (i : ℕ) : (∃ o, s.inst i = some o ∧ OnList s.heap o.memory p) ↔
      p ∈ addresses (list i) := by
    constructor
    · rintro ⟨o, hinst, hon⟩
      have hhead : s.head i = o.memory := by rw [Process.head, hinst, Option.bind_some]
      exact (ho.chain i).onList_iff.1 (hhead ▸ hon)
    · intro hp
      cases hinst : s.inst i with
      | none =>
        have hchain := ho.chain i
        rw [Process.head, hinst, Option.bind_none] at hchain
        rw [show list i = [] from hchain.unique rfl] at hp
        nomatch hp
      | some o =>
        have hhead : s.head i = o.memory := by rw [Process.head, hinst, Option.bind_some]
        exact ⟨o, rfl, hhead ▸ (ho.chain i).onList_iff.2 hp⟩
  refine ⟨id, (hmem id).2 hid, fun j hj => hunique j ((hmem j).1 hj)⟩

/-- Code of the model on a live instance. -/
theorem enter_spec (malloc : Allocator UInt64 Block) (h : Refines s v) (hinst : s.inst id = some o)
    (code : M → MemProg (M × Answer R)) :
    ∃ s', s.withMemCtx malloc id o.memory (code o.m) = some (s', (v.enter id code).2) ∧
      Refines s' (v.enter id code).1 ∧ s.heap.used ⊆ s'.heap.used := by
  obtain ⟨list, ho, hv⟩ := h
  have hhead : s.head id = o.memory := by rw [Process.head, hinst, Option.bind_some]
  have hview : v id = some (o.m, contents (list id)) := by rw [hv, hinst, Option.map_some]
  obtain ⟨heap, head', l, r, hrun, ho', heval, hsub⟩ := MemProg.exec_spec malloc ho id (code o.m)
  rw [hhead] at hrun
  have henter : v.enter id code =
      (Function.update v id (some (r.1, contents l)), some (id, r.2)) := by
    rw [View.enter, hview]
    simp only [heval]
  refine ⟨⟨heap, head', s.rtsRefcount, Function.update s.inst id (some ⟨r.1, head'⟩)⟩, ?_, ?_, hsub⟩
  · rw [Process.withMemCtx, hrun, henter, Option.map_some]
  · rw [henter]
    exact Refines.update (o := some ⟨r.1, head'⟩) hv ho'

theorem new_spec (malloc : Allocator UInt64 Block) (modelInit : MemProg M)
    (h : Refines s v) (hdead : s.inst id = none) :
    ∃ s', s.new malloc modelInit id = some s' ∧
      Refines s' (v.step modelInit (.new id : Call M R)).1 ∧ s.heap.used ⊆ s'.heap.used := by
  obtain ⟨list, ho, hv⟩ := h
  have hhead : s.head id = none := by rw [Process.head, hdead, Option.bind_none]
  have hlist : list id = [] := (hhead ▸ ho.chain id).unique rfl
  obtain ⟨heap, head', l, r, hrun, ho', heval, hsub⟩ := MemProg.exec_spec malloc ho id modelInit
  rw [hhead] at hrun
  rw [hlist, contents_nil] at heval
  refine ⟨⟨heap, head', s.rtsRefcount + 1, Function.update s.inst id (some ⟨r, head'⟩)⟩, ?_, ?_,
    hsub⟩
  · rw [Process.new, hrun, Option.map_some]
  · rw [View.step, heval]
    exact Refines.update (o := some ⟨r, head'⟩) hv ho'

/-- The second sweep of the last instance finds nothing. -/
theorem cleanupRts_spec (hnull : s.sailMemory = none) :
    ∃ n, s.cleanupRts = some { s with sailMemory := none, rtsRefcount := n } := by
  unfold Process.cleanupRts
  simp only
  split
  · exact ⟨_, by rw [← hnull]⟩
  · refine ⟨s.rtsRefcount - 1, ?_⟩
    rw [hnull, killMem, kill]
    rfl

theorem free_spec (modelInit : MemProg M) (h : Refines s v) (hinst : s.inst id = some o) :
    ∃ s', s.free id o.memory = some s' ∧
      Refines s' (v.step modelInit (.free id : Call M R)).1 ∧
      ∀ p ∈ s.heap.used, p ∉ s'.heap.used ↔ OnList s.heap o.memory p := by
  obtain ⟨list, ho, hv⟩ := h
  have hhead : s.head id = o.memory := by rw [Process.head, hinst, Option.bind_some]
  obtain ⟨heap, hrun, ho', hused⟩ := ho.kill id
  rw [hhead] at hrun
  obtain ⟨n, hcleanup⟩ := cleanupRts_spec (s := { s with heap, sailMemory := none }) rfl
  refine ⟨⟨heap, none, n, Function.update s.inst id none⟩, ?_, ?_, fun p hp => ?_⟩
  · rw [Process.free, killMem, hrun, Option.bind_some, hcleanup, Option.map_some]
  · exact Refines.update (o := none) hv ho'
  · rw [hused, ← hhead, (ho.chain id).onList_iff]
    tauto

/-- **One call.**  A possible call succeeds, answers what the instance on its own would answer, and
accounts for every block. -/
theorem step_spec (malloc : Allocator UInt64 Block) (modelInit : MemProg M) (h : Refines s v)
    {c : Call M R} (hok : c.ok (fun id => (v id).isSome) = true) :
    ∃ s', s.step malloc modelInit c = some (s', (v.step modelInit c).2) ∧
      Refines s' (v.step modelInit c).1 ∧ Accounted s c s' := by
  have hlive (id : ℕ) : (v id).isSome = (s.inst id).isSome := by
    obtain ⟨list, -, hv⟩ := h
    rw [hv, Option.isSome_map]
  have hentry (code : M → MemProg (M × Answer R)) (hcode : c.code = some code)
      (hstep : s.step malloc modelInit c = (s.inst c.id).bind fun o =>
        s.withMemCtx malloc c.id o.memory (code o.m)) (hsome : (v c.id).isSome = true)
      (hfree : ∀ id, c ≠ .free id) :
      ∃ s', s.step malloc modelInit c = some (s', (v.step modelInit c).2) ∧
        Refines s' (v.step modelInit c).1 ∧ Accounted s c s' := by
    rw [hlive] at hsome
    obtain ⟨o, hinst⟩ := Option.isSome_iff_exists.1 hsome
    obtain ⟨s', hrun, href, hsub⟩ := enter_spec malloc h hinst code
    refine ⟨s', ?_, ?_, fun _ => hsub, fun id _ hc => absurd hc (hfree id)⟩
    · rw [hstep, hinst, Option.bind_some, View.step_of_code hcode, hrun]
    · rw [View.step_of_code hcode]
      exact href
  cases c with
  | new id =>
    have hdead : s.inst id = none := by
      simp only [Call.ok, hlive, Bool.not_eq_true', Option.isSome_eq_false_iff] at hok
      exact Option.isNone_iff_eq_none.1 hok
    obtain ⟨s', hrun, href, hsub⟩ := new_spec malloc modelInit h hdead
    refine ⟨s', ?_, href, fun _ => hsub, fun _ _ hc => nomatch hc⟩
    rw [Process.step, hrun, Option.map_some]
    rfl
  | free id =>
    obtain ⟨o, hinst⟩ := Option.isSome_iff_exists.1 ((hlive id).symm.trans hok)
    obtain ⟨s', hrun, href, hused⟩ := free_spec (R := R) modelInit h hinst
    refine ⟨s', ?_, href, fun hc => absurd rfl (hc id), fun id' o' hc ho' => ?_⟩
    · rw [Process.step, hinst, Option.bind_some, hrun, Option.map_some]
      rfl
    · obtain rfl := Call.free.inj hc
      rw [hinst] at ho'
      obtain rfl := Option.some.inj ho'
      exact hused
  | readByte id addr => exact hentry _ rfl rfl hok nofun
  | writeByte id addr byte => exact hentry _ rfl rfl hok nofun
  | isMapped id addr => exact hentry _ rfl rfl hok nofun
  | entry id code => exact hentry _ rfl rfl hok nofun

/-- Which instances are alive after a call. -/
theorem View.live_step (modelInit : MemProg M) {c : Call M R}
    (hok : c.ok (fun id => (v id).isSome) = true) :
    (fun id => ((v.step modelInit c).1 id).isSome) = c.after fun id => (v id).isSome := by
  have hentry (code : M → MemProg (M × Answer R)) (hcode : c.code = some code)
      (hsome : (v c.id).isSome = true) :
      (fun id => ((v.step modelInit c).1 id).isSome) = fun id => (v id).isSome := by
    obtain ⟨o, ho⟩ := Option.isSome_iff_exists.1 hsome
    funext id
    rw [View.step_of_code hcode, View.enter, ho]
    by_cases hid : id = c.id
    · simp only [hid, Function.update_self, ho, Option.isSome_some]
    · simp only [Function.update_of_ne hid]
  cases c with
  | new id =>
    funext i
    by_cases hi : i = id
    · simp [View.step, Call.after, hi]
    · simp [View.step, Call.after, hi]
  | free id =>
    funext i
    by_cases hi : i = id
    · simp [View.step, Call.after, hi]
    · simp [View.step, Call.after, hi]
  | readByte id addr => exact hentry _ rfl hok
  | writeByte id addr byte => exact hentry _ rfl hok
  | isMapped id addr => exact hentry _ rfl hok
  | entry id code => exact hentry _ rfl hok

/-- Which instances are alive after a run. -/
theorem View.live_after (modelInit : MemProg M) {cs : List (Call M R)}
    (hvalid : Valid (fun id => (v id).isSome) cs) :
    (fun id => (v.after modelInit cs id).isSome) =
      cs.foldl (fun live c => c.after live) fun id => (v id).isSome := by
  induction cs generalizing v with
  | nil => rfl
  | cons c cs ih =>
    obtain ⟨hok, hrest⟩ := hvalid
    rw [← View.live_step modelInit hok] at hrest
    rw [View.after, List.foldl_cons, List.foldl_cons, ← View.live_step modelInit hok]
    exact ih hrest

/-! ## Runs -/

/-- `P` holds of every call of a run, with the process before and after it. -/
def Process.EachCall (malloc : Allocator UInt64 Block) (modelInit : MemProg M)
    (P : Process M → Call M R → Process M → Prop) : Process M → List (Call M R) → Prop
  | _, [] => True
  | s, c :: cs => ∃ s' a, s.step malloc modelInit c = some (s', a) ∧ P s c s' ∧
      EachCall malloc modelInit P s' cs

/-- A run of possible calls succeeds, gives the answers of the view, and accounts for every block
on the way. -/
theorem run_spec (malloc : Allocator UInt64 Block) (modelInit : MemProg M) {cs : List (Call M R)}
    (h : Refines s v) (hvalid : Valid (fun id => (v id).isSome) cs) :
    (∃ s', s.run malloc modelInit cs = some (s', v.answers modelInit cs) ∧
      Refines s' (v.after modelInit cs)) ∧
      s.EachCall malloc modelInit
        (fun s c s' => OwnedOnce s ∧ OwnedOnce s' ∧ Accounted s c s') cs := by
  induction cs generalizing s v with
  | nil => exact ⟨⟨s, rfl, h⟩, trivial⟩
  | cons c cs ih =>
    obtain ⟨hok, hrest⟩ := hvalid
    obtain ⟨s₁, hstep, href, hacc⟩ := step_spec malloc modelInit h hok
    rw [← View.live_step modelInit hok] at hrest
    obtain ⟨⟨s', hrun, href'⟩, heach⟩ := ih href hrest
    refine ⟨⟨s', ?_, href'⟩, s₁, _, hstep, ⟨h.ownedOnce, href.ownedOnce, hacc⟩, heach⟩
    rw [Process.run, hstep, Option.bind_some, hrun, Option.map_some, View.answers]

theorem refines_fresh : Refines (Process.fresh M) fun _ => none :=
  ⟨fun _ => [], Owners.empty, fun _ => rfl⟩

/-- **Isolation.**  Any interleaving of calls runs without touching freed memory; every instance
gives the answers of the run of its own calls alone; throughout, every block is on the list of
exactly one live instance, and it is freed by that instance's `x86oracle_free` and by nothing
else. -/
theorem instances_isolated (malloc : Allocator UInt64 Block) (modelInit : MemProg M)
    {calls : List (Call M R)} (hvalid : Valid (fun _ => false) calls) :
    ∃ s answers, (Process.fresh M).run malloc modelInit calls = some (s, answers) ∧
      (∀ id, ∃ s₁, (Process.fresh M).run malloc modelInit (calls.filter fun c => c.id = id) =
        some (s₁, answers.filter fun a => a.1 = id)) ∧
      (Process.fresh M).EachCall malloc modelInit
        (fun s c s' => OwnedOnce s ∧ OwnedOnce s' ∧ Accounted s c s') calls := by
  obtain ⟨⟨s, hrun, -⟩, heach⟩ := run_spec malloc modelInit
    (refines_fresh (M := M)) hvalid
  refine ⟨s, _, hrun, fun id => ?_, heach⟩
  obtain ⟨⟨s₁, hrun₁, -⟩, -⟩ := run_spec malloc modelInit
    (refines_fresh (M := M)) (show Valid _ (calls.filter fun c => c.id = id) from hvalid.filter rfl)
  exact ⟨s₁, by rw [hrun₁, View.answers_filter rfl]⟩

end Refinement

/-- Two instances that write the same address, read it, and are freed in the other order. -/
def twoInstances : List (Call Unit Unit) :=
  [.new 1, .new 2, .writeByte 1 5 7, .writeByte 2 5 9, .readByte 1 5, .isMapped 2 6, .free 1,
    .readByte 2 5, .free 2]

theorem instances_isolated_two : ∃ s answers,
    (Process.fresh Unit).run .bump (.done ()) twoInstances = some (s, answers) ∧
      ∀ id, ∃ s₁, (Process.fresh Unit).run .bump (.done ())
        (twoInstances.filter fun c => c.id = id) = some (s₁, answers.filter fun a => a.1 = id) := by
  obtain ⟨s, answers, hrun, hown, -⟩ := instances_isolated .bump (.done ())
    (show Valid _ twoInstances by decide)
  exact ⟨s, answers, hrun, hown⟩

end Sail
