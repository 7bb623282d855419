import Mathlib
import X86Oracle.Lib.Paging
import X86Oracle.Lib.Words

/-!
# Snapshots

The part of `src/lib.rs` every backend shares: the comparable CPU state, the register accessors a
backend implements, and `snapshot` / `restore`, which are loops over those.

* `CpuState`, `CpuState.diffMasked`, `CpuState.diff`; `diff_eq_nil_iff` says that nothing is
  listed exactly when the states are equal.
* `X86Oracle`: the register accessors of the trait.
* `Refines`: every setter of a backend, seen through `snapshot`, writes one cell of a `CpuState`,
  after what a `Storage` says the backend does to flags and to chunks it has no room for.
* `Refines.snapshot_restore`: a restored snapshot reads back as `Storage.load` has it, whatever
  the backend held before.
-/

namespace Oracle

/-! ## The comparable state -/

def flagTF : UInt64 := (1 : UInt64) <<< 8
def flagRF : UInt64 := (1 : UInt64) <<< 16

/-- The registers a diff harness compares. -/
structure CpuState where
  gpr : Fin 16 → UInt64
  rip : UInt64
  rflags : UInt64
  zmm : Fin 32 → Fin 8 → UInt64
deriving DecidableEq

namespace CpuState

def default : CpuState := { gpr := fun _ => 0, rip := 0, rflags := 0, zmm := fun _ _ => 0 }

def withGpr (s : CpuState) (gpr : Fin 16 → UInt64) : CpuState := { s with gpr }

def withRip (s : CpuState) (rip : UInt64) : CpuState := { s with rip }

def withRflags (s : CpuState) (rflags : UInt64) : CpuState := { s with rflags }

def withZmm (s : CpuState) (zmm : Fin 32 → Fin 8 → UInt64) : CpuState := { s with zmm }

def names : Fin 16 → String :=
  ![ "rax", "rcx", "rdx", "rbx", "rsp", "rbp", "rsi", "rdi", "r8", "r9", "r10", "r11", "r12",
    "r13", "r14", "r15"]

/-- Rust's `{:x}`. -/
def hexDigits (v : UInt64) : String := String.ofList (Nat.toDigits 16 v.toNat)

/-- Rust's `{:#x}`. -/
def hex (v : UInt64) : String := "0x" ++ hexDigits v

/-- Rust's `{:x?}` of a register's chunks. -/
def hexChunks (v : Fin 8 → UInt64) : String :=
  "[" ++ String.intercalate ", " ((List.ofFn v).map hexDigits) ++ "]"

/-- The fields that differ, apart from the flags in `ignoreFlags`. -/
def diffMasked (a b : CpuState) (ignoreFlags : UInt64) : List String :=
  let mask := ~~~ignoreFlags
  ((List.finRange 16).filterMap fun i =>
    if a.gpr i ≠ b.gpr i then some (names i ++ ": " ++ hex (a.gpr i) ++ " vs " ++ hex (b.gpr i))
    else none) ++
  (if a.rip ≠ b.rip then ["rip: " ++ hex a.rip ++ " vs " ++ hex b.rip] else []) ++
  (if a.rflags &&& mask ≠ b.rflags &&& mask then
    ["rflags: " ++ hex a.rflags ++ " vs " ++ hex b.rflags ++
      (if ignoreFlags ≠ 0 then " (ignoring " ++ hex ignoreFlags ++ ")" else "")]
  else []) ++
  (List.finRange 32).filterMap fun i =>
    if a.zmm i ≠ b.zmm i then
      some ("zmm" ++ toString i.val ++ ": " ++ hexChunks (a.zmm i) ++ " vs " ++ hexChunks (b.zmm i))
    else none

def diff (a b : CpuState) : List String := a.diffMasked b 0

/-- Up to the ignored flags, nothing is listed exactly when the states are equal. -/
theorem diffMasked_eq_nil_iff (a b : CpuState) (ignoreFlags : UInt64) :
    a.diffMasked b ignoreFlags = [] ↔
      a.gpr = b.gpr ∧ a.rip = b.rip ∧ a.rflags &&& ~~~ignoreFlags = b.rflags &&& ~~~ignoreFlags ∧
        a.zmm = b.zmm := by
  unfold diffMasked
  simp [List.filterMap_eq_nil_iff, funext_iff]

theorem diff_eq_nil_iff (a b : CpuState) : a.diff b = [] ↔ a = b := by
  unfold diff
  rw [diffMasked_eq_nil_iff]
  have hmask (x : UInt64) : x &&& ~~~0 = x := by simp
  rw [hmask, hmask]
  constructor
  · rintro ⟨hgpr, hrip, hflags, hzmm⟩
    cases a
    cases b
    simp_all
  · rintro rfl
    exact ⟨rfl, rfl, rfl, rfl⟩

end CpuState

/-! ## The accessors and the two loops -/

/-- The register accessors of the trait. -/
structure X86Oracle (σ : Type) where
  setGpr : σ → Fin 16 → UInt64 → σ
  getGpr : σ → Fin 16 → UInt64
  setRip : σ → UInt64 → σ
  getRip : σ → UInt64
  setRflags : σ → UInt64 → σ
  getRflags : σ → UInt64
  setZmm : σ → Fin 32 → List UInt64 → σ
  getZmm : σ → Fin 32 → Fin 8 → UInt64

namespace X86Oracle

variable {σ : Type} (o : X86Oracle σ)

def snapshot (cpu : σ) : CpuState :=
  { gpr := fun i => o.getGpr cpu i
    rip := o.getRip cpu
    rflags := o.getRflags cpu
    zmm := fun i => o.getZmm cpu i }

def restore (cpu : σ) (s : CpuState) : σ :=
  let cpu := (List.finRange 16).foldl (fun cpu i => o.setGpr cpu i (s.gpr i)) cpu
  let cpu := o.setRip cpu s.rip
  let cpu := o.setRflags cpu s.rflags
  (List.finRange 32).foldl (fun cpu i => o.setZmm cpu i (List.ofFn (s.zmm i))) cpu

end X86Oracle

theorem getD_ofFn (v : Fin 8 → UInt64) (i : Fin 8) : (List.ofFn v).getD i 0 = v i := by
  rw [List.getD_eq_getElem _ _ (by simp), List.getElem_ofFn]

/-! ## What a backend keeps of a snapshot -/

/-- CF, PF, AF, ZF, SF, TF, IF, DF, OF, RF, AC, ID and the fixed bit 1. -/
def portableFlags : UInt64 := 0x250FD7

/-- A flags word of these bits only. -/
def PortableFlags (v : UInt64) : Prop := v &&& ~~~portableFlags = 0

theorem PortableFlags.toNat_lt {v : UInt64} (h : PortableFlags v) : v.toNat < 2 ^ 22 := by
  have hle : (v &&& portableFlags).toNat ≤ portableFlags.toNat := by
    rw [UInt64.toNat_and]
    exact Nat.and_le_right
  rw [Words.and_eq_self_of_and_not_eq_zero h] at hle
  exact hle.trans_lt (by decide)

theorem PortableFlags.getLsbD_eq_false {v : UInt64} (h : PortableFlags v) {i : ℕ}
    (hi : portableFlags.toBitVec.getLsbD i = false) : v.toBitVec.getLsbD i = false := by
  rw [← Words.and_eq_self_of_and_not_eq_zero h, UInt64.toBitVec_and, BitVec.getLsbD_and, hi,
    Bool.and_false]

/-- A flags word without the two flags of the harness, and with the fixed bit. -/
def harnessFlags (v : UInt64) : UInt64 := (v &&& ~~~(flagTF ||| flagRF)) ||| 2

/-- Masking the harness flags again changes nothing. -/
theorem harnessFlags_and (v : UInt64) :
    harnessFlags v &&& ~~~(flagTF ||| flagRF) = harnessFlags v := by
  unfold harnessFlags
  apply UInt64.toBitVec_inj.1
  apply BitVec.eq_of_getLsbD_eq
  intro i hi
  interval_cases i <;> simp [flagTF, flagRF]

/-- The harness keeps a word as it is exactly when TF and RF are clear and bit 1 is set. -/
theorem harnessFlags_eq_self_iff (v : UInt64) :
    harnessFlags v = v ↔ v &&& (flagTF ||| flagRF ||| 2) = 2 := by
  constructor
  · intro h
    rw [← h]
    apply UInt64.toBitVec_inj.1
    apply BitVec.eq_of_getLsbD_eq
    intro i hi
    interval_cases i <;> simp [harnessFlags, flagTF, flagRF]
  · intro h
    have hbit (i : ℕ) (hi : i < 64) := congrArg (fun x : UInt64 => x.toBitVec[i]) h
    have h1 := hbit 1 (by norm_num)
    have h8 := hbit 8 (by norm_num)
    have h16 := hbit 16 (by norm_num)
    simp [flagTF, flagRF] at h1 h8 h16
    apply UInt64.toBitVec_inj.1
    apply BitVec.eq_of_getLsbD_eq
    intro i hi
    interval_cases i <;> simp [harnessFlags, flagTF, flagRF, h1, h8, h16]

/-- How a backend stores a flags word, and the vector chunks it has room for. -/
structure Storage where
  flags : UInt64 → UInt64
  holds : Fin 32 → Fin 8 → Bool

/-- A snapshot as the backend stores it. -/
def Storage.load (store : Storage) (s : CpuState) : CpuState :=
  { s with
    rflags := store.flags s.rflags
    zmm := fun n i => bif store.holds n i then s.zmm n i else 0 }

/-- Seen through `snapshot`, each setter writes its own cell and no other. -/
structure Refines {σ : Type} (o : X86Oracle σ) (store : Storage) : Prop where
  setGpr : ∀ cpu i v, o.snapshot (o.setGpr cpu i v) =
    (o.snapshot cpu).withGpr (Function.update (o.snapshot cpu).gpr i v)
  setRip : ∀ cpu v, Paging.Canonical v →
    o.snapshot (o.setRip cpu v) = (o.snapshot cpu).withRip v
  setRflags : ∀ cpu v, PortableFlags v →
    o.snapshot (o.setRflags cpu v) = (o.snapshot cpu).withRflags (store.flags v)
  setZmm : ∀ cpu n v, o.snapshot (o.setZmm cpu n (List.ofFn v)) =
    (o.snapshot cpu).withZmm
      (Function.update (o.snapshot cpu).zmm n fun i => bif store.holds n i then v i else 0)

namespace Refines

variable {σ : Type} {o : X86Oracle σ} {store : Storage}

/-- The loop over the general registers sets those it has reached. -/
theorem foldl_setGpr (h : Refines o store) (s : CpuState) (is : List (Fin 16)) (cpu : σ) :
    o.snapshot (is.foldl (fun cpu i => o.setGpr cpu i (s.gpr i)) cpu) =
      (o.snapshot cpu).withGpr fun i => if i ∈ is then s.gpr i else (o.snapshot cpu).gpr i := by
  induction is generalizing cpu with
  | nil => simp [CpuState.withGpr]
  | cons j is ih =>
    rw [List.foldl_cons, ih, h.setGpr]
    unfold CpuState.withGpr
    congr 1
    funext i
    by_cases hj : i = j
    · subst hj
      simp
    · simp [hj]

/-- The loop over the vector registers sets those it has reached. -/
theorem foldl_setZmm (h : Refines o store) (s : CpuState) (is : List (Fin 32)) (cpu : σ) :
    o.snapshot (is.foldl (fun cpu i => o.setZmm cpu i (List.ofFn (s.zmm i))) cpu) =
      (o.snapshot cpu).withZmm fun i =>
        if i ∈ is then (store.load s).zmm i else (o.snapshot cpu).zmm i := by
  induction is generalizing cpu with
  | nil => simp [CpuState.withZmm]
  | cons j is ih =>
    rw [List.foldl_cons, ih, h.setZmm]
    unfold CpuState.withZmm
    congr 1
    funext i
    by_cases hj : i = j
    · subst hj
      simp [Storage.load]
    · simp [hj]

/-- Restoring leaves what the backend keeps of the snapshot, and nothing of what was there. -/
theorem snapshot_restore (h : Refines o store) (cpu : σ) {s : CpuState}
    (hrip : Paging.Canonical s.rip) (hflags : PortableFlags s.rflags) :
    o.snapshot (o.restore cpu s) = store.load s := by
  unfold X86Oracle.restore
  rw [h.foldl_setZmm, h.setRflags _ _ hflags, h.setRip _ _ hrip, h.foldl_setGpr]
  simp [Storage.load, CpuState.withGpr, CpuState.withRip, CpuState.withRflags, CpuState.withZmm]

end Refines

end Oracle
