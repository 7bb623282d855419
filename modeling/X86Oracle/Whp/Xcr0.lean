import Mathlib
import X86Oracle.Lib.Words
import X86Oracle.Hw.XsaveProbe

/-!
# The feature mask of the WHP backend

`enable_widest_xcr0` (`src/whp.rs`) writes one mask after the other to XCR0, widest first, until
one sticks, and returns the mask `XsaveLayout::probe` is given.  The hypervisor may refuse a write,
may put another value in the register than the one written, and may refuse to read it back.

* `want_valid`: every mask that is written is one a processor can run with.
* `enableWidestXcr0_truthful_iff`: when the mask that is returned is the one in the register.
-/

namespace Whp

open Hw

/-- Bit `i` of a feature mask. -/
def feature (v : UInt64) (i : ℕ) : Bool := v.toBitVec.getLsbD i

/-- x87 and SSE; the three components of AVX-512 all or none, and only with AVX. -/
def Valid (v : UInt64) : Prop :=
  feature v 0 = true ∧ feature v 1 = true ∧ feature v 5 = feature v 6 ∧ feature v 6 = feature v 7 ∧
    (feature v 5 = true → feature v 2 = true)

instance (v : UInt64) : Decidable (Valid v) := by unfold Valid; infer_instance

def XCR0_X87_SSE : UInt64 := 0b11

def XCR0_AVX : UInt64 := (1 : UInt64) <<< 2

def XCR0_AVX512 : UInt64 :=
  (1 : UInt64) <<< 5 ||| (1 : UInt64) <<< 6 ||| (1 : UInt64) <<< 7

/-- MPX and PKRU. -/
def XCR0_OPTIONAL : UInt64 :=
  (1 : UInt64) <<< 3 ||| (1 : UInt64) <<< 4 ||| (1 : UInt64) <<< 9

/-! ## The hypervisor -/

/-- What becomes of one write of XCR0, and of the read after it. -/
inductive Answer where
  | rejected
  /-- `effective` is in the register now. -/
  | accepted (effective : UInt64) (readable : Bool)
deriving DecidableEq, Repr

/-- The answer to the `n`-th write, by the value written. -/
abbrev Hypervisor := ℕ → UInt64 → Answer

namespace Answer

/-- XCR0 after the write. -/
def after : Answer → UInt64 → UInt64
  | rejected, xcr0 => xcr0
  | accepted effective _, _ => effective

/-- The write is accepted, and reads back as a mask the guest can run with. -/
def sticks : Answer → Bool
  | accepted effective true => effective &&& XCR0_X87_SSE = XCR0_X87_SSE
  | _ => false

def readRefused : Answer → Bool
  | accepted _ false => true
  | _ => false

@[simp] theorem after_rejected (xcr0 : UInt64) : rejected.after xcr0 = xcr0 := rfl

@[simp] theorem after_accepted (effective : UInt64) (readable : Bool) (xcr0 : UInt64) :
    (accepted effective readable).after xcr0 = effective := rfl

@[simp] theorem sticks_rejected : rejected.sticks = false := rfl

@[simp] theorem sticks_readable (effective : UInt64) :
    (accepted effective true).sticks = decide (effective &&& XCR0_X87_SSE = XCR0_X87_SSE) := rfl

@[simp] theorem sticks_refused (effective : UInt64) :
    (accepted effective false).sticks = false := rfl

@[simp] theorem readRefused_rejected : rejected.readRefused = false := rfl

@[simp] theorem readRefused_accepted (effective : UInt64) (readable : Bool) :
    (accepted effective readable).readRefused = !readable := by cases readable <;> rfl

end Answer

/-- `get_reg64`.  `get_regs` hands out a zeroed buffer that nothing was read into; a build with
debug assertions panics instead. -/
def getReg64 (debugAssertions readable : Bool) (value : UInt64) : Option UInt64 :=
  if readable then some value else if debugAssertions then none else some 0

/-! ## `enable_widest_xcr0` -/

/-- The candidates, from leaf `0x0D` of the CPUID. -/
def candidates (leaf : CpuidRegs) : List UInt64 :=
  let host := leaf.edx.toUInt64 <<< 32 ||| leaf.eax.toUInt64
  [host, host &&& ~~~XCR0_OPTIONAL, XCR0_X87_SSE ||| XCR0_AVX ||| (host &&& XCR0_AVX512),
    XCR0_X87_SSE ||| (host &&& XCR0_AVX), XCR0_X87_SSE]

/-- The mask that is written for a candidate. -/
def want (candidate : UInt64) : UInt64 :=
  let want := candidate ||| XCR0_X87_SSE
  if want &&& XCR0_AVX512 ≠ XCR0_AVX512 ∨ want &&& XCR0_AVX = 0 then want &&& ~~~XCR0_AVX512
  else want

/-- What a call leaves behind. -/
structure Report where
  /-- The masks it wrote. -/
  tried : List UInt64
  /-- `none` where it panicked. -/
  returned : Option UInt64
  /-- The register at the end. -/
  xcr0 : UInt64
deriving DecidableEq, Repr

/-- The loop over the candidates, from the `n`-th on. -/
def tryCandidates (debugAssertions : Bool) (hypervisor : Hypervisor) :
    ℕ → List UInt64 → UInt64 → Report
  | _, [], xcr0 => { tried := [], returned := some XCR0_X87_SSE, xcr0 := xcr0 }
  | n, candidate :: rest, xcr0 =>
    let report :=
      match hypervisor n (want candidate) with
      | .rejected => tryCandidates debugAssertions hypervisor (n + 1) rest xcr0
      | .accepted xcr0 readable =>
        match getReg64 debugAssertions readable xcr0 with
        | none => { tried := [], returned := none, xcr0 := xcr0 }
        | some effective =>
          if effective &&& XCR0_X87_SSE = XCR0_X87_SSE then
            { tried := [], returned := some effective, xcr0 := xcr0 }
          else tryCandidates debugAssertions hypervisor (n + 1) rest xcr0
    { report with tried := want candidate :: report.tried }

def enableWidestXcr0 (debugAssertions : Bool) (hypervisor : Hypervisor) (leaf : CpuidRegs)
    (xcr0 : UInt64) : Report :=
  tryCandidates debugAssertions hypervisor 0 (candidates leaf) xcr0

/-! ## What is written -/

theorem feature_eq (v : UInt64) (i : ℕ) : feature v i = decide (v.toNat / 2 ^ i % 2 = 1) := by
  unfold feature
  rw [BitVec.getLsbD, UInt64.toNat_toBitVec, Nat.testBit_eq_decide_div_mod_eq]

/-- The test of a mask for all three components of AVX-512. -/
theorem and_avx512_eq_iff (v : UInt64) :
    v &&& XCR0_AVX512 = XCR0_AVX512 ↔
      feature v 5 = true ∧ feature v 6 = true ∧ feature v 7 = true := by
  have hmask : (v &&& XCR0_AVX512).toNat = 2 ^ 5 * (v.toNat / 2 ^ 5 % 2 ^ 3) := by
    rw [UInt64.toNat_and, ← Words.and_midMask 5 3]
    rfl
  have hall : XCR0_AVX512.toNat = 224 := by decide
  rw [← UInt64.toNat_inj, hmask, hall]
  simp only [feature_eq, decide_eq_true_eq]
  omega

theorem and_avx_eq_zero_iff (v : UInt64) : v &&& XCR0_AVX = 0 ↔ feature v 2 = false := by
  have hmask : (v &&& XCR0_AVX).toNat = 2 ^ 2 * (v.toNat / 2 ^ 2 % 2 ^ 1) := by
    rw [UInt64.toNat_and, ← Words.and_midMask 2 1]
    rfl
  rw [← UInt64.toNat_inj, hmask]
  simp only [feature_eq, decide_eq_false_iff_not, UInt64.toNat_zero]
  omega

theorem want_valid (candidate : UInt64) : Valid (want candidate) := by
  have hx87 (v : UInt64) : feature (v ||| XCR0_X87_SSE) 0 = true := by
    simp [feature, XCR0_X87_SSE]
  have hsse (v : UInt64) : feature (v ||| XCR0_X87_SSE) 1 = true := by
    simp [feature, XCR0_X87_SSE]
  have hkeep (v : UInt64) (i : ℕ) (hi : i < 2) :
      feature (v &&& ~~~XCR0_AVX512) i = feature v i := by
    interval_cases i <;> simp [feature, XCR0_AVX512]
  have hclear (v : UInt64) (i : ℕ) (hi : 5 ≤ i) (hi' : i ≤ 7) :
      feature (v &&& ~~~XCR0_AVX512) i = false := by
    interval_cases i <;> simp [feature, XCR0_AVX512]
  unfold want
  dsimp only
  split_ifs with hdrop
  · refine ⟨?_, ?_, ?_, ?_, ?_⟩
    · rw [hkeep _ 0 (by omega), hx87]
    · rw [hkeep _ 1 (by omega), hsse]
    · rw [hclear _ 5 (by omega) (by omega), hclear _ 6 (by omega) (by omega)]
    · rw [hclear _ 6 (by omega) (by omega), hclear _ 7 (by omega) (by omega)]
    · rw [hclear _ 5 (by omega) (by omega)]
      simp
  · rw [not_or, not_not, and_avx512_eq_iff, and_avx_eq_zero_iff, Bool.not_eq_false] at hdrop
    obtain ⟨⟨h5, h6, h7⟩, h2⟩ := hdrop
    exact ⟨hx87 candidate, hsse candidate, h5.trans h6.symm, h6.trans h7.symm, fun _ => h2⟩

theorem tried_valid (debugAssertions : Bool) (hypervisor : Hypervisor) (cs : List UInt64) (n : ℕ)
    (xcr0 : UInt64) :
    ∀ v ∈ (tryCandidates debugAssertions hypervisor n cs xcr0).tried, Valid v := by
  induction cs generalizing n xcr0 with
  | nil => simp [tryCandidates]
  | cons candidate rest ih =>
    intro v hv
    unfold tryCandidates at hv
    simp only [List.mem_cons] at hv
    rcases hv with rfl | hv
    · exact want_valid candidate
    · split at hv
      · exact ih _ _ v hv
      · split at hv
        · simp at hv
        · split_ifs at hv
          · simp at hv
          · exact ih _ _ v hv

/-! ## What is returned -/

/-- The answers to the writes for the candidates, from the `n`-th on. -/
def answers (hypervisor : Hypervisor) : ℕ → List UInt64 → List Answer
  | _, [] => []
  | n, candidate :: rest => hypervisor n (want candidate) :: answers hypervisor (n + 1) rest

/-- XCR0 after all the writes. -/
def afterAll (as : List Answer) (xcr0 : UInt64) : UInt64 := as.foldl (fun x a => a.after x) xcr0

/-- No read is refused up to the write that sticks. -/
def ReadsUpTo (as : List Answer) : Prop :=
  ∀ a ∈ as.takeWhile (fun a => !a.sticks), a.readRefused = false

@[simp] theorem afterAll_cons (a : Answer) (as : List Answer) (xcr0 : UInt64) :
    afterAll (a :: as) xcr0 = afterAll as (a.after xcr0) := rfl

theorem readsUpTo_cons (a : Answer) (as : List Answer) :
    ReadsUpTo (a :: as) ↔ a.sticks = true ∨ a.readRefused = false ∧ ReadsUpTo as := by
  unfold ReadsUpTo
  cases h : a.sticks <;> simp [h]

/-- One induction over the candidates, by what becomes of the write of the first of them. -/
theorem returned_iff (debugAssertions : Bool) (hypervisor : Hypervisor) (cs : List UInt64) (n : ℕ)
    (xcr0 : UInt64) :
    (tryCandidates debugAssertions hypervisor n cs xcr0).returned =
        some (tryCandidates debugAssertions hypervisor n cs xcr0).xcr0 ↔
      (debugAssertions = true → ReadsUpTo (answers hypervisor n cs)) ∧
        ((∃ a ∈ answers hypervisor n cs, a.sticks = true) ∨
          afterAll (answers hypervisor n cs) xcr0 = XCR0_X87_SSE) := by
  induction cs generalizing n xcr0 with
  | nil => simp [tryCandidates, answers, ReadsUpTo, afterAll, @eq_comm UInt64 XCR0_X87_SSE]
  | cons candidate rest ih =>
    unfold tryCandidates
    rw [answers, readsUpTo_cons, afterAll_cons, List.exists_mem_cons_iff]
    rcases hypervisor n (want candidate) with _ | ⟨effective, readable⟩
    · simpa using ih (n + 1) xcr0
    · cases readable with
      | true =>
        by_cases hsticks : effective &&& XCR0_X87_SSE = XCR0_X87_SSE
        · simp [getReg64, hsticks]
        · simpa [getReg64, hsticks] using ih (n + 1) effective
      | false =>
        -- a build without the assertion sees a mask of zero, and goes on
        cases debugAssertions with
        | true => simp [getReg64]
        | false =>
          have hzero : ¬ (0 : UInt64) = XCR0_X87_SSE := by decide
          simpa [getReg64, hzero] using ih (n + 1) effective

/-- Every mask written is valid; the mask returned is the one in the register where some write
sticks, or where the register holds x87 and SSE after all of them. -/
theorem enableWidestXcr0_truthful_iff (debugAssertions : Bool) (hypervisor : Hypervisor)
    (leaf : CpuidRegs) (xcr0 : UInt64) :
    let report := enableWidestXcr0 debugAssertions hypervisor leaf xcr0
    let as := answers hypervisor 0 (candidates leaf)
    ((∀ v ∈ report.tried, Valid v) ∧ report.returned = some report.xcr0) ↔
      (debugAssertions = true → ReadsUpTo as) ∧
        ((∃ a ∈ as, a.sticks = true) ∨ afterAll as xcr0 = XCR0_X87_SSE) := by
  unfold enableWidestXcr0
  intro report as
  have hvalid : ∀ v ∈ report.tried, Valid v := tried_valid _ _ _ _ _
  rw [and_iff_right hvalid]
  exact returned_iff ..

/-- A virtual processor that refuses every write keeps the mask of its reset, x87 alone. -/
theorem enableWidestXcr0_refused :
    ¬ ∀ (debugAssertions : Bool) (hypervisor : Hypervisor) (leaf : CpuidRegs) (xcr0 : UInt64),
      let report := enableWidestXcr0 debugAssertions hypervisor leaf xcr0
      (∀ v ∈ report.tried, Valid v) ∧ report.returned = some report.xcr0 := by
  intro h
  have hreport := (h false (fun _ _ => .rejected) ⟨7, 832, 832, 0⟩ 1).2
  revert hreport
  decide

end Whp
