import Mathlib
import X86Oracle.Hw.Decode

/-!
# Undoing the vectoring

What each hardware backend makes of a fault that was delivered through the IDT: the processor
pushes its frame on the exception stack and halts in the vector's stub, and `unwind_fault` of
`src/kvm.rs` and `src/whp.rs` puts RIP, RSP and RFLAGS back from the frame.

* `unwound_of_frame` reads the frame back: exactly, except that `hasErrorCode` decides by the
  vector alone whether it starts with an error code.
* `undo_exact_iff`: for every event and all RAM contents, the undo is exact on both backends if
  and only if the event is not a software interrupt to an error-code vector, or its registers
  happen to hide the shift by one word.
-/

namespace Hw

open Bytes Interrupts

/-! ## The backends -/

/-- The registers a fault's undo touches. -/
structure Regs where
  rip : UInt64
  rsp : UInt64
  rflags : UInt64
deriving DecidableEq, Repr

/-- `KvmOracle::unwind_fault`: the new registers, the vector and the error code. -/
def kvmUnwindFault (ram : GuestRam) (regs : Regs) (vector : UInt8) : Regs × UInt8 × UInt64 :=
  let frame := unwindFrame ram regs.rsp vector
  ({ rip := frame.rip, rsp := frame.rsp, rflags := frame.rflags }, vector, frame.errorCode)

/-- `WhpOracle::unwind_fault`: the new registers and the error code. -/
def whpUnwindFault (ram : GuestRam) (regs : Regs) (vector : UInt8) : Regs × UInt64 :=
  let frame := unwindFrame ram regs.rsp vector
  ({ rip := frame.rip, rsp := frame.rsp, rflags := maskHarness frame.rflags }, frame.errorCode)

/-! ## Events -/

/-- An event that vectors through the IDT, with what delivery pushes for it.  `code` is the error
code of an exception that has one. -/
structure Event where
  cause : Cause
  vector : UInt8
  ss : UInt16
  rsp : UInt64
  rflags : UInt64
  cs : UInt16
  rip : UInt64
  code : UInt64
deriving DecidableEq, Repr

namespace Event

def errorCode (ev : Event) : Option UInt64 :=
  if pushesErrorCode ev.cause ev.vector then some ev.code else none

def frame (ev : Event) : Frame :=
  { ss := ev.ss, rsp := ev.rsp, rflags := ev.rflags, cs := ev.cs, rip := ev.rip
    errorCode := ev.errorCode }

end Event

/-- The halted machine a delivered event leaves: RAM, and the registers after the stub's `HLT`.
`none` if the handler's first byte is not `HLT`. -/
def haltInStub (ram : GuestRam) (ev : Event) : Option (GuestRam × Regs) := do
  let e ← deliver ram.bytes idtAddr.toNat tssAddr.toNat ev.vector ev.frame
  if e.mem e.rip.toNat = 0xF4 then
    some ({ ram with bytes := e.mem }, { rip := e.rip + 1, rsp := e.rsp, rflags := e.rflags })
  else none

/-- What a backend reports and leaves: vector, error code, registers. -/
structure Report where
  vector : UInt8
  errorCode : UInt64
  regs : Regs
deriving DecidableEq, Repr

/-- A `HLT` exit in a stub, as `KvmOracle::step` handles it. -/
def kvmReport (ram : GuestRam) (ev : Event) : Option Report := do
  let (ram, regs) ← haltInStub ram ev
  let vector ← stubVector regs.rip
  let (regs, vector, errorCode) := kvmUnwindFault ram regs vector
  some { vector, errorCode, regs }

/-- A halt exit in a stub, as `WhpOracle::step` handles it. -/
def whpReport (ram : GuestRam) (ev : Event) : Option Report := do
  let (ram, regs) ← haltInStub ram ev
  let vector ← stubVector regs.rip
  let (regs, errorCode) := whpUnwindFault ram regs vector
  some { vector, errorCode, regs }

/-- The report names the event, and the registers are the pushed ones, `TF` and `RF` aside. -/
def Exact (ev : Event) (report : Option Report) : Prop :=
  ∃ r, report = some r ∧ r.vector = ev.vector ∧ r.errorCode = ev.errorCode.getD 0 ∧
    r.regs.rip = ev.rip ∧ r.regs.rsp = ev.rsp ∧
    maskHarness r.regs.rflags = maskHarness ev.rflags

/-! ## Reading the frame back -/

/-- The exception stack after the event's frame was pushed. -/
def pushedRam (ram : GuestRam) (ev : Event) : GuestRam :=
  { ram with bytes := (pushAll ram.bytes istStackTop ev.frame.words).1 }

section Readback

variable {ram : GuestRam} {ev : Event}

theorem haltInStub_image (h : ControlImage ram) : haltInStub ram ev = some
    (pushedRam ram ev,
      { rip := UInt64.ofNat (0xFC05000 + 16 * ev.vector.toNat) + 1
        rsp := (pushAll ram.bytes istStackTop ev.frame.words).2
        rflags := ev.rflags &&& ~~~gateClears }) := by
  have hv : ev.vector.toNat < 256 := ev.vector.toNat_lt
  have hrip : (UInt64.ofNat (0xFC05000 + 16 * ev.vector.toNat)).toNat =
      0xFC05000 + 16 * ev.vector.toNat := by
    rw [UInt64.toNat_ofNat']
    omega
  have hhlt : (pushAll ram.bytes istStackTop ev.frame.words).1
      (0xFC05000 + 16 * ev.vector.toNat) = 0xF4 := by
    rw [push_keeps_structures (s := .stubs) ev.frame
      (by rw [Structure.contains_iff]; simp only; omega), h.stub _ (by omega), if_pos (by omega)]
  rw [haltInStub, deliver_image h, Option.bind_eq_bind, Option.bind_some]
  simp only [hrip, hhlt, if_true]
  rfl

theorem stubVector_stub (v : UInt8) :
    stubVector (UInt64.ofNat (0xFC05000 + 16 * v.toNat) + 1) = some v := by
  have hv : v.toNat < 256 := v.toNat_lt
  rw [stubVector_eq_some_iff, UInt64.toNat_add, UInt64.toNat_ofNat']
  simp only [UInt64.reduceToNat]
  omega

/-- The `k`-th pushed word, read where the frame reader looks for it. -/
theorem frame_word (ev : Event) (hlen : ram.len = ramSize.toNat) {k : ℕ} {w a : UInt64}
    (hw : ev.frame.words[k]? = some w) (ha : a.toNat + 8 * (k + 1) = 0xFC08000) :
    (pushedRam ram ev).readU64 a = w := by
  obtain ⟨hk, rfl⟩ := List.getElem?_eq_some_iff.1 hw
  have hwords := words_length_le ev.frame
  have hin : (pushedRam ram ev).inRange a 8 = true := inRange_of_le hlen (by omega)
  have hread := pushAll_read ram.bytes istStackTop ev.frame.words
    (by rw [istStackTop_toNat]; omega) hk
  rw [istStackTop_toNat, show 0xFC08000 - 8 * (k + 1) = a.toNat by omega] at hread
  apply UInt64.toNat_inj.1
  rw [GuestRam.readU64_toNat hin]
  exact hread

theorem handlerRsp (ram : GuestRam) (ev : Event) {n : ℕ} (hn : ev.frame.words.length = n) :
    (pushAll ram.bytes istStackTop ev.frame.words).2 = UInt64.ofNat (0xFC08000 - 8 * n) := by
  have hwords := words_length_le ev.frame
  apply UInt64.toNat_inj.1
  rw [pushAll_rsp (by rw [istStackTop_toNat]; omega), istStackTop_toNat, UInt64.toNat_ofNat', hn]
  omega

/-- The pushed words: five, and the error code if there is one. -/
theorem words_eq (ev : Event) : ev.frame.words =
    [ev.ss.toUInt64, ev.rsp, ev.rflags, ev.cs.toUInt64, ev.rip] ++ ev.errorCode.toList := rfl

/-- A frame read as if it had no error code. -/
theorem unwind_without (hlen : ram.len = ramSize.toNat) (hv : hasErrorCode ev.vector = false)
    (hcode : ev.errorCode = none) :
    unwindFrame (pushedRam ram ev) (pushAll ram.bytes istStackTop ev.frame.words).2 ev.vector =
      { rip := ev.rip, rsp := ev.rsp, rflags := ev.rflags, errorCode := 0 } := by
  have hwords := words_eq ev
  rw [hcode] at hwords
  have hrsp := handlerRsp ram ev (n := 5) (by rw [hwords]; rfl)
  rw [unwindFrame, hv, hrsp]
  simp only [Bool.false_eq_true, if_false]
  rw [frame_word ev (k := 4) hlen (by rw [hwords]; rfl) (by decide),
    frame_word ev (k := 1) hlen (by rw [hwords]; rfl) (by decide),
    frame_word ev (k := 2) hlen (by rw [hwords]; rfl) (by decide)]

/-- A frame with an error code, read as one. -/
theorem unwind_with (hlen : ram.len = ramSize.toNat) (hv : hasErrorCode ev.vector = true)
    (hcode : ev.errorCode = some ev.code) :
    unwindFrame (pushedRam ram ev) (pushAll ram.bytes istStackTop ev.frame.words).2 ev.vector =
      { rip := ev.rip, rsp := ev.rsp, rflags := ev.rflags, errorCode := ev.code } := by
  have hwords := words_eq ev
  rw [hcode] at hwords
  have hrsp := handlerRsp ram ev (n := 6) (by rw [hwords]; rfl)
  rw [unwindFrame, hv, hrsp]
  simp only [if_true]
  rw [frame_word ev (k := 4) hlen (by rw [hwords]; rfl) (by decide),
    frame_word ev (k := 1) hlen (by rw [hwords]; rfl) (by decide),
    frame_word ev (k := 2) hlen (by rw [hwords]; rfl) (by decide),
    frame_word ev (k := 5) hlen (by rw [hwords]; rfl) (by decide)]

/-- A frame without an error code, read as if it had one, comes back shifted by a word. -/
theorem unwind_shifted (hlen : ram.len = ramSize.toNat) (hv : hasErrorCode ev.vector = true)
    (hcode : ev.errorCode = none) :
    unwindFrame (pushedRam ram ev) (pushAll ram.bytes istStackTop ev.frame.words).2 ev.vector =
      { rip := ev.cs.toUInt64, rsp := ev.ss.toUInt64, rflags := ev.rsp, errorCode := ev.rip } := by
  have hwords := words_eq ev
  rw [hcode] at hwords
  have hrsp := handlerRsp ram ev (n := 5) (by rw [hwords]; rfl)
  rw [unwindFrame, hv, hrsp]
  simp only [if_true]
  rw [frame_word ev (k := 3) hlen (by rw [hwords]; rfl) (by decide),
    frame_word ev (k := 0) hlen (by rw [hwords]; rfl) (by decide),
    frame_word ev (k := 1) hlen (by rw [hwords]; rfl) (by decide),
    frame_word ev (k := 4) hlen (by rw [hwords]; rfl) (by decide)]

/-- The frame `unwind_frame` recovers: the event's own, or a shifted one after a software
interrupt to a vector that pushes an error code as an exception. -/
def recovered (ev : Event) : Unwound :=
  if ev.cause = .software ∧ hasErrorCode ev.vector = true then
    { rip := ev.cs.toUInt64, rsp := ev.ss.toUInt64, rflags := ev.rsp, errorCode := ev.rip }
  else
    { rip := ev.rip, rsp := ev.rsp, rflags := ev.rflags, errorCode := ev.errorCode.getD 0 }

theorem unwound_of_frame (hlen : ram.len = ramSize.toNat) :
    unwindFrame (pushedRam ram ev) (pushAll ram.bytes istStackTop ev.frame.words).2 ev.vector =
      recovered ev := by
  have hsame : exceptionHasErrorCode ev.vector = hasErrorCode ev.vector := rfl
  cases hv : hasErrorCode ev.vector with
  | false =>
    have hcode : ev.errorCode = none := by
      cases hc : ev.cause <;> simp [Event.errorCode, pushesErrorCode, hc, hsame, hv]
    rw [unwind_without hlen hv hcode, recovered, hcode, hv]
    simp
  | true =>
    cases hc : ev.cause with
    | hardware =>
      have hcode : ev.errorCode = some ev.code := by
        simp [Event.errorCode, pushesErrorCode, hc, hsame, hv]
      rw [unwind_with hlen hv hcode, recovered, hcode, hc]
      simp
    | software =>
      have hcode : ev.errorCode = none := by simp [Event.errorCode, pushesErrorCode, hc]
      rw [unwind_shifted hlen hv hcode, recovered, hc, hv]
      simp

/-- A delivered event halts in the vector's stub, on a frame that reads back as `recovered`. -/
theorem haltInStub_spec (h : ControlImage ram) (ev : Event) :
    ∃ ram' regs, haltInStub ram ev = some (ram', regs) ∧
      stubVector regs.rip = some ev.vector ∧
      unwindFrame ram' regs.rsp ev.vector = recovered ev :=
  ⟨_, _, haltInStub_image h, stubVector_stub ev.vector, unwound_of_frame h.len⟩

end Readback

/-! ## When the undo is exact -/

theorem kvmReport_eq {ram : GuestRam} (h : ControlImage ram) (ev : Event) :
    kvmReport ram ev = some
      { vector := ev.vector, errorCode := (recovered ev).errorCode
        regs := { rip := (recovered ev).rip, rsp := (recovered ev).rsp,
                  rflags := (recovered ev).rflags } } := by
  obtain ⟨ram', regs, hhalt, hstub, hunwind⟩ := haltInStub_spec h ev
  simp only [kvmReport, hhalt, hstub, Option.bind_eq_bind, Option.bind_some, kvmUnwindFault,
    hunwind]

theorem whpReport_eq {ram : GuestRam} (h : ControlImage ram) (ev : Event) :
    whpReport ram ev = some
      { vector := ev.vector, errorCode := (recovered ev).errorCode
        regs := { rip := (recovered ev).rip, rsp := (recovered ev).rsp,
                  rflags := maskHarness (recovered ev).rflags } } := by
  obtain ⟨ram', regs, hhalt, hstub, hunwind⟩ := haltInStub_spec h ev
  simp only [whpReport, hhalt, hstub, Option.bind_eq_bind, Option.bind_some, whpUnwindFault,
    hunwind]

/-- The event is not a software interrupt to an error-code vector, or the shifted frame happens
to coincide with the real one. -/
def UndoSound (ev : Event) : Prop :=
  ev.cause = .hardware ∨ hasErrorCode ev.vector = false ∨
    (ev.rip = 0 ∧ ev.cs = 0 ∧ ev.rsp = ev.ss.toUInt64 ∧
      maskHarness ev.rsp = maskHarness ev.rflags)

instance (ev : Event) : Decidable (UndoSound ev) := inferInstanceAs (Decidable (_ ∨ _ ∨ _))

theorem undoSound_iff_recovered (ev : Event) :
    UndoSound ev ↔ (recovered ev).errorCode = ev.errorCode.getD 0 ∧ (recovered ev).rip = ev.rip ∧
      (recovered ev).rsp = ev.rsp ∧
      maskHarness (recovered ev).rflags = maskHarness ev.rflags := by
  by_cases hs : ev.cause = .software ∧ hasErrorCode ev.vector = true
  · obtain ⟨hc, hv⟩ := hs
    have hcode : ev.errorCode.getD 0 = 0 := by simp [Event.errorCode, pushesErrorCode, hc]
    have hcs : ev.cs.toUInt64 = 0 ↔ ev.cs = 0 := UInt16.toUInt64_inj (b := 0)
    rw [recovered, if_pos ⟨hc, hv⟩, hcode, UndoSound, hc, hv]
    constructor
    · rintro (h | h | ⟨hrip, hcs0, hrsp, hflags⟩)
      · exact absurd h (by decide)
      · exact absurd h (by decide)
      · exact ⟨hrip, (hcs.2 hcs0).trans hrip.symm, hrsp.symm, hflags⟩
    · rintro ⟨hrip, hcs0, hrsp, hflags⟩
      simp only at hrip hcs0
      exact Or.inr (Or.inr ⟨hrip, hcs.1 (hcs0.trans hrip), hrsp.symm, hflags⟩)
  · have hsound : UndoSound ev := by
      cases hc : ev.cause with
      | hardware => exact Or.inl hc
      | software =>
        cases hv : hasErrorCode ev.vector with
        | false => exact Or.inr (Or.inl hv)
        | true => exact absurd ⟨hc, hv⟩ hs
    rw [recovered, if_neg hs]
    simp only [hsound, and_self]

theorem exact_some_iff (ev : Event) (r : Report) :
    Exact ev (some r) ↔ r.vector = ev.vector ∧ r.errorCode = ev.errorCode.getD 0 ∧
      r.regs.rip = ev.rip ∧ r.regs.rsp = ev.rsp ∧
      maskHarness r.regs.rflags = maskHarness ev.rflags := by
  simp [Exact]

/-- Both backends agree on when the undo is exact. -/
theorem exact_iff_undoSound {ram : GuestRam} (h : ControlImage ram) (ev : Event) :
    (Exact ev (kvmReport ram ev) ↔ UndoSound ev) ∧
      (Exact ev (whpReport ram ev) ↔ UndoSound ev) := by
  rw [kvmReport_eq h, whpReport_eq h, exact_some_iff, exact_some_iff, undoSound_iff_recovered,
    maskHarness_idem]
  simp only [true_and, and_self]

/-- For every event and all RAM contents, both backends report the event and restore the pushed
registers exactly if and only if `UndoSound` holds of the event. -/
theorem undo_exact_iff (content : Store) (ev : Event) :
    (Exact ev (kvmReport (buildControlStructures (GuestRam.ofContent content)) ev) ∧
      Exact ev (whpReport (buildControlStructures (GuestRam.ofContent content)) ev)) ↔
      UndoSound ev := by
  obtain ⟨hkvm, hwhp⟩ := exact_iff_undoSound
    (controlImage_build (GuestRam.ofContent_len content)) ev
  rw [hkvm, hwhp, and_self]

/-- `INT 13` at 0x1000, from the code and data segments the backends load. -/
def softwareInt13 : Event :=
  { cause := .software, vector := 13, ss := 0x10, rsp := 0x20000, rflags := 2, cs := 8,
    rip := 0x1000, code := 0 }

/-- `INT 13` pushes no error code, and its undo is off by one word: the error code is the RIP, the
RIP the code selector, RSP the stack selector. -/
theorem softwareInt13_shifted :
    kvmReport initialRam softwareInt13 = some
      { vector := 13, errorCode := 0x1000, regs := { rip := 8, rsp := 0x10, rflags := 0x20000 } } ∧
    ¬ Exact softwareInt13 (kvmReport initialRam softwareInt13) ∧
    ¬ Exact softwareInt13 (whpReport initialRam softwareInt13) := by
  obtain ⟨hkvm, hwhp⟩ := exact_iff_undoSound controlImage_initialRam softwareInt13
  have hunsound : ¬ UndoSound softwareInt13 := by decide
  refine ⟨?_, fun h => hunsound (hkvm.1 h), fun h => hunsound (hwhp.1 h)⟩
  rw [kvmReport_eq controlImage_initialRam]
  decide

end Hw
