import Mathlib
import X86Oracle.Lib.Bytes
import X86Oracle.Lib.Words

/-!
# Descriptors and interrupt delivery in 64-bit mode

The architecture's side of a fault: how the processor reads segment descriptors and interrupt
gates, which exceptions carry an error code, and what delivery through a gate does to the stack.

* `decodeSegment`, `decodeSystem` and `decodeGate` take a descriptor apart field by field.
* `deliver` switches to the stack the gate's IST field names, pushes the frame and enters the
  handler.
* `pushAll_rsp`, `pushAll_read` and `pushAll_frame` say where the pushed words are and that
  nothing else changed.
-/

namespace Interrupts

open Bytes

/-! ## Descriptors -/

/-- The fields of an 8-byte segment descriptor, or of a 16-byte one in 64-bit mode. -/
structure Segment where
  base : ℕ
  limit : ℕ
  /-- Type field, the `S` bit included. -/
  type : ℕ
  dpl : ℕ
  present : Bool
  avl : Bool
  long : Bool
  db : Bool
  granular : Bool
deriving DecidableEq, Repr

/-- The limit in bytes, as the processor caches it when it loads the descriptor. -/
def Segment.scaledLimit (s : Segment) : ℕ :=
  if s.granular then 2 ^ 12 * s.limit + 0xFFF else s.limit

def decodeSegment (d : ℕ) : Segment :=
  { base := d / 2 ^ 16 % 2 ^ 24 + 2 ^ 24 * (d / 2 ^ 56 % 2 ^ 8)
    limit := d % 2 ^ 16 + 2 ^ 16 * (d / 2 ^ 48 % 2 ^ 4)
    type := d / 2 ^ 40 % 2 ^ 5
    dpl := d / 2 ^ 45 % 2 ^ 2
    present := d.testBit 47
    avl := d.testBit 52
    long := d.testBit 53
    db := d.testBit 54
    granular := d.testBit 55 }

/-- A system descriptor is 16 bytes long: its third doubleword extends the base. -/
def decodeSystem (d : ℕ) : Segment :=
  { decodeSegment d with base := (decodeSegment d).base + 2 ^ 32 * (d / 2 ^ 64 % 2 ^ 32) }

/-- The fields of a 16-byte gate. -/
structure Gate where
  offset : ℕ
  selector : ℕ
  ist : ℕ
  /-- Type field, the `S` bit included. -/
  type : ℕ
  dpl : ℕ
  present : Bool
deriving DecidableEq, Repr

def decodeGate (d : ℕ) : Gate :=
  { offset := d % 2 ^ 16 + 2 ^ 16 * (d / 2 ^ 48 % 2 ^ 16) + 2 ^ 32 * (d / 2 ^ 64 % 2 ^ 32)
    selector := d / 2 ^ 16 % 2 ^ 16
    ist := d / 2 ^ 32 % 2 ^ 3
    type := d / 2 ^ 40 % 2 ^ 5
    dpl := d / 2 ^ 45 % 2 ^ 2
    present := d.testBit 47 }

/-- Type of a 64-bit interrupt gate. -/
def interruptGate : ℕ := 14

/-! ## Error codes -/

/-- Why the processor delivers an event. -/
inductive Cause where
  /-- A processor-detected exception. -/
  | hardware
  /-- `INT n`, `INT3`, `INT1` or `INTO`. -/
  | software
deriving DecidableEq, Repr

/-- The exceptions whose table entry lists an error code. -/
def exceptionHasErrorCode (vector : UInt8) : Bool :=
  vector ∈ [8, 10, 11, 12, 13, 14, 17, 21]

/-- Delivery pushes an error code for those exceptions and never for a software interrupt. -/
def pushesErrorCode (cause : Cause) (vector : UInt8) : Bool :=
  match cause with
  | .hardware => exceptionHasErrorCode vector
  | .software => false

/-! ## Delivery -/

/-- What delivery pushes. -/
structure Frame where
  ss : UInt16
  rsp : UInt64
  rflags : UInt64
  cs : UInt16
  rip : UInt64
  errorCode : Option UInt64
deriving DecidableEq, Repr

/-- The pushed words, in the order of the pushes. -/
def Frame.words (f : Frame) : List UInt64 :=
  [f.ss.toUInt64, f.rsp, f.rflags, f.cs.toUInt64, f.rip] ++ f.errorCode.toList

/-- Push words one after the other; the new stack pointer comes second. -/
def pushAll (s : Store) (rsp : UInt64) : List UInt64 → Store × UInt64
  | [] => (s, rsp)
  | w :: ws => pushAll (s.writeLe 8 (rsp - 8).toNat w.toNat) (rsp - 8) ws

/-- The machine after delivery, about to run the handler's first instruction. -/
structure Entered where
  mem : Store
  rip : UInt64
  rsp : UInt64
  rflags : UInt64

/-- `TF`, `IF`, `NT`, `RF` and `VM`, which an interrupt gate clears. -/
def gateClears : UInt64 := 0x34300

/-- Deliver `vector` through the IDT at `idt`, with the TSS at `tss`.  `none`: the gate is not
present, which raises another exception. -/
def deliver (s : Store) (idt tss : ℕ) (vector : UInt8) (f : Frame) : Option Entered :=
  let gate := decodeGate (s.readLe 16 (idt + 16 * vector.toNat))
  if gate.present then
    let stack :=
      if gate.ist = 0 then f.rsp else UInt64.ofNat (s.readLe 8 (tss + 0x1C + 8 * gate.ist))
    let pushed := pushAll s (stack &&& ~~~15) f.words
    some { mem := pushed.1, rip := UInt64.ofNat gate.offset, rsp := pushed.2,
           rflags := f.rflags &&& ~~~gateClears }
  else none

/-! ## Where the pushed words are -/

theorem sub_eight_toNat (rsp : UInt64) (h : 8 ≤ rsp.toNat) : (rsp - 8).toNat = rsp.toNat - 8 := by
  have h8 : (8 : UInt64) ≤ rsp := UInt64.le_iff_toNat_le.2 h
  rw [UInt64.toNat_sub_of_le _ _ h8]
  rfl

theorem pushAll_rsp {s : Store} {rsp : UInt64} {ws : List UInt64} (h : 8 * ws.length ≤ rsp.toNat) :
    (pushAll s rsp ws).2.toNat = rsp.toNat - 8 * ws.length := by
  induction ws generalizing s rsp with
  | nil => simp [pushAll]
  | cons w ws ih =>
    rw [List.length_cons] at h ⊢
    have hsub := sub_eight_toNat rsp (by omega)
    rw [pushAll, ih (by omega), hsub]
    omega

/-- Pushing changes no byte outside the pushed words. -/
theorem pushAll_frame {s : Store} {rsp : UInt64} {ws : List UInt64} {x : ℕ}
    (h : 8 * ws.length ≤ rsp.toNat) (hx : x < rsp.toNat - 8 * ws.length ∨ rsp.toNat ≤ x) :
    (pushAll s rsp ws).1 x = s x := by
  induction ws generalizing s rsp with
  | nil => rfl
  | cons w ws ih =>
    rw [List.length_cons] at h hx
    have hsub := sub_eight_toNat rsp (by omega)
    rw [pushAll, ih (by omega) (by omega), Store.writeLe_of_outside (by omega)]

/-- The `k`-th pushed word is the `k + 1`-th quadword below the old stack pointer. -/
theorem pushAll_read (s : Store) (rsp : UInt64) (ws : List UInt64) {k : ℕ}
    (h : 8 * ws.length ≤ rsp.toNat) (hk : k < ws.length) :
    (pushAll s rsp ws).1.readLe 8 (rsp.toNat - 8 * (k + 1)) = ws[k].toNat := by
  induction ws generalizing s rsp k with
  | nil => simp at hk
  | cons w ws ih =>
    rw [List.length_cons] at h hk
    have hsub := sub_eight_toNat rsp (by omega)
    cases k with
    | zero =>
      have hkeep : (pushAll s rsp (w :: ws)).1.readLe 8 (rsp.toNat - 8) =
          (s.writeLe 8 (rsp - 8).toNat w.toNat).readLe 8 (rsp.toNat - 8) := by
        refine Store.readLe_congr fun i hi => ?_
        rw [pushAll, pushAll_frame (by omega) (Or.inr (by omega))]
      have hw := w.toNat_lt
      rw [Nat.zero_add, Nat.mul_one, hkeep, hsub, Store.readLe_writeLe_self]
      exact Nat.mod_eq_of_lt (by simpa using hw)
    | succ k =>
      have hpos : rsp.toNat - 8 * (k + 1 + 1) = (rsp - 8).toNat - 8 * (k + 1) := by omega
      rw [hpos, pushAll]
      exact ih _ _ (by omega) (by omega)

end Interrupts
