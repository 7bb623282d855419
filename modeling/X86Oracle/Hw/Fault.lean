import Mathlib
import X86Oracle.Oracle.Snapshot
import X86Oracle.Hw.Layout

/-!
# Reading a fault back

The pure part of fault reporting in `src/hw.rs`: the vector's name and kind, the vector a halted
RIP stands for, and the exception frame at a handler's stack pointer.  `stubVector_eq_some_iff`
says which RIP stands for which vector.
-/

namespace Hw

open Oracle

/-! ## Flags and outcomes -/

/-- Drop the two flags that belong to the harness. -/
def maskHarness (rflags : UInt64) : UInt64 := rflags &&& ~~~(flagTF ||| flagRF)

theorem maskHarness_idem (x : UInt64) : maskHarness (maskHarness x) = maskHarness x := by
  rw [maskHarness, maskHarness, UInt64.and_assoc, UInt64.and_self]

/-- Normalized fault kinds (`src/lib.rs`). -/
inductive FaultKind where
  | undefinedOpcode
  | divideError
  | pageFault
  | generalProtection
  | alignmentCheck
  | controlProtection
  | otherException
  | unimplemented
deriving DecidableEq, Repr

/-- What happened during one step. -/
inductive StepOutcome where
  | retired
  | fault (kind : FaultKind) (msg : String)
  | syscall
deriving DecidableEq, Repr

/-! ## Vectors -/

/-- Vectors that push an error code. -/
def hasErrorCode (vector : UInt8) : Bool :=
  vector ∈ [8, 10, 11, 12, 13, 14, 17, 21]

def classify (vector : UInt8) : FaultKind :=
  match vector with
  | 0 => .divideError
  | 6 => .undefinedOpcode
  | 13 => .generalProtection
  | 14 => .pageFault
  | 17 => .alignmentCheck
  | 21 => .controlProtection
  | _ => .otherException

def vectorName (vector : UInt8) : String :=
  match vector with
  | 0 => "#DE divide error"
  | 1 => "#DB debug"
  | 3 => "#BP breakpoint"
  | 4 => "#OF overflow"
  | 5 => "#BR bound range"
  | 6 => "#UD invalid opcode"
  | 7 => "#NM device not available"
  | 8 => "#DF double fault"
  | 10 => "#TS invalid TSS"
  | 11 => "#NP segment not present"
  | 12 => "#SS stack fault"
  | 13 => "#GP general protection"
  | 14 => "#PF page fault"
  | 16 => "#MF x87 FP"
  | 17 => "#AC alignment check"
  | 18 => "#MC machine check"
  | 19 => "#XM SIMD FP"
  | 21 => "#CP control protection"
  | _ => "exception"

/-- Rust's `{:#x}`. -/
def lowerHex (n : UInt64) : String :=
  "0x" ++ String.ofList (Nat.toDigits 16 n.toNat)

def faultMessage (vector : UInt8) (errorCode : UInt64) : String :=
  if hasErrorCode vector then
    vectorName vector ++ " (vector " ++ toString vector.toNat ++ ", error code " ++
      lowerHex errorCode ++ ")"
  else
    vectorName vector ++ " (vector " ++ toString vector.toNat ++ ")"

/-! ## Stubs -/

/-- Which vector's stub a `HLT` exit landed in, given the RIP after the one-byte `HLT`.  `none`:
the guest executed a `HLT` of its own. -/
def stubVector (haltRip : UInt64) : Option UInt8 :=
  if haltRip > stubBase ∧ haltRip ≤ stubBase + stubArea then
    some ((haltRip - 1 - stubBase) / stubStride).toUInt8
  else none

theorem stubVector_of_inside {rip : UInt64} (h : 0xFC05000 < rip.toNat)
    (h' : rip.toNat ≤ 0xFC06000) :
    stubVector rip = some (UInt8.ofNat ((rip.toNat - 1 - 0xFC05000) / 16)) := by
  have hlt : rip > stubBase := UInt64.lt_iff_toNat_lt.2 (by rw [stubBase_toNat]; exact h)
  have hle : rip ≤ stubBase + stubArea := by
    rw [UInt64.le_iff_toNat_le, stubEnd_toNat]
    exact h'
  have hbase : (rip - 1 - stubBase).toNat = rip.toNat - 1 - 0xFC05000 := by
    rw [UInt64.toNat_sub, UInt64.toNat_sub, stubBase_toNat]
    simp only [UInt64.reduceToNat]
    omega
  rw [stubVector, if_pos ⟨hlt, hle⟩, Option.some_inj, ← UInt8.toNat_inj, UInt64.toNat_toUInt8,
    UInt64.toNat_div, hbase, stubStride_toNat, UInt8.toNat_ofNat']

theorem stubVector_of_outside {rip : UInt64} (h : rip.toNat ≤ 0xFC05000 ∨ 0xFC06000 < rip.toNat) :
    stubVector rip = none := by
  rw [stubVector, if_neg]
  rintro ⟨hlt, hle⟩
  rw [gt_iff_lt, UInt64.lt_iff_toNat_lt, stubBase_toNat] at hlt
  rw [UInt64.le_iff_toNat_le, stubEnd_toNat] at hle
  omega

/-- A RIP stands for a vector exactly when the byte before it lies in that vector's stub. -/
theorem stubVector_eq_some_iff {rip : UInt64} {v : UInt8} :
    stubVector rip = some v ↔
      0xFC05000 + 16 * v.toNat < rip.toNat ∧ rip.toNat ≤ 0xFC05000 + 16 * v.toNat + 16 := by
  have hv : v.toNat < 256 := v.toNat_lt
  by_cases hin : 0xFC05000 < rip.toNat ∧ rip.toNat ≤ 0xFC06000
  · rw [stubVector_of_inside hin.1 hin.2, Option.some_inj, ← UInt8.toNat_inj,
      UInt8.toNat_ofNat']
    omega
  · rw [stubVector_of_outside (by omega)]
    constructor
    · intro h
      exact absurd h (by simp)
    · omega

/-! ## The exception frame -/

/-- The state a faulting instruction left behind, recovered from the frame the CPU pushed. -/
structure Unwound where
  rip : UInt64
  rsp : UInt64
  rflags : UInt64
  errorCode : UInt64
deriving DecidableEq, Repr

/-- Read the exception frame at `handlerRsp`: `error?, RIP, CS, RFLAGS, RSP, SS`. -/
def unwindFrame (ram : GuestRam) (handlerRsp : UInt64) (vector : UInt8) : Unwound :=
  let (errorCode, base) :=
    if hasErrorCode vector then (ram.readU64 handlerRsp, handlerRsp + 8) else (0, handlerRsp)
  { rip := ram.readU64 base
    rflags := ram.readU64 (base + 16)
    rsp := ram.readU64 (base + 24)
    errorCode }

end Hw
