import Mathlib
import X86Oracle.Lib.Bytes

/-!
# The guest environment of the hardware backends

The layout constants of `src/hw.rs` and the guest RAM that both hardware backends share.
`GuestRam` is the host mapping: an access that leaves it reads as zero and drops what it writes,
and an access inside it is one on the underlying byte store.
-/

namespace Hw

open Bytes

/-! ## Guest layout -/

/-- Guest RAM, 256 MiB. -/
def ramSize : UInt64 := (256 : UInt64) <<< 20

/-- Control structures live in the top 4 MiB. -/
def ctrlBase : UInt64 := ramSize - ((4 : UInt64) <<< 20)

/-- The identity map: one page of each of the upper levels, then pages of 2 MiB. -/
def pml4Addr : UInt64 := ctrlBase
def pdptAddr : UInt64 := ctrlBase + 0x1000
def pdAddr : UInt64 := ctrlBase + 0x2000

/-- The descriptor tables: null, code, data and a TSS of two entries; and 256 gates. -/
def gdtAddr : UInt64 := 0x0FC03000
def gdtLimit : UInt16 := 39
def idtAddr : UInt64 := 0x0FC04000
def idtLimit : UInt16 := 4095

/-- The selector of the TSS. -/
def selTss : UInt16 := 0x18

/-- 256 fault stubs, one per vector, `stubStride` bytes apart. -/
def stubBase : UInt64 := ctrlBase + 0x5000
def stubStride : UInt64 := 16
def stubArea : UInt64 := 256 * stubStride

/-- 64-bit TSS. Its only job is to hold IST1. -/
def tssAddr : UInt64 := ctrlBase + 0x6000

/-- A TSS without an I/O map. -/
def tssLimit : UInt32 := 0x67

/-- Top of the dedicated exception stack that IST1 names. -/
def istStackTop : UInt64 := ctrlBase + 0x8000

/-- The flat segments. -/
def selCode64 : UInt16 := 0x08
def selData : UInt16 := 0x10

/-- Present, writable, and a large page. -/
def pteP : UInt64 := (1 : UInt64) <<< 0
def pteW : UInt64 := (1 : UInt64) <<< 1
def ptePS : UInt64 := (1 : UInt64) <<< 7

@[simp] theorem ramSize_toNat : ramSize.toNat = 0x10000000 := rfl
@[simp] theorem pml4Addr_toNat : pml4Addr.toNat = 0xFC00000 := rfl
@[simp] theorem pdptAddr_toNat : pdptAddr.toNat = 0xFC01000 := rfl
@[simp] theorem pdAddr_toNat : pdAddr.toNat = 0xFC02000 := rfl
@[simp] theorem gdtAddr_toNat : gdtAddr.toNat = 0xFC03000 := rfl
@[simp] theorem idtAddr_toNat : idtAddr.toNat = 0xFC04000 := rfl
@[simp] theorem stubBase_toNat : stubBase.toNat = 0xFC05000 := rfl
@[simp] theorem stubStride_toNat : stubStride.toNat = 16 := rfl
@[simp] theorem stubEnd_toNat : (stubBase + stubArea).toNat = 0xFC06000 := rfl
@[simp] theorem tssAddr_toNat : tssAddr.toNat = 0xFC06000 := rfl
@[simp] theorem istStackTop_toNat : istStackTop.toNat = 0xFC08000 := rfl

/-! ## Host RAM -/

/-- The host mapping backing guest RAM. -/
structure GuestRam where
  len : ℕ
  bytes : Store

namespace GuestRam

/-- A fresh mapping reads as zero. -/
def new (len : ℕ) : GuestRam := { len, bytes := fun _ => 0 }

/-- The RAM the backends allocate, holding `content`. -/
def ofContent (content : Store) : GuestRam := { len := ramSize.toNat, bytes := content }

/-- `addr.checked_add(n)` succeeds on a 64-bit host and stays inside the mapping. -/
def inRange (ram : GuestRam) (addr : UInt64) (n : ℕ) : Bool :=
  decide (addr.toNat + n < 2 ^ 64) && decide (addr.toNat + n ≤ ram.len)

/-- Zeros, unless all of the range is mapped. -/
def read (ram : GuestRam) (addr : UInt64) (n : ℕ) : List UInt8 :=
  if ram.inRange addr n then ram.bytes.read addr.toNat n else List.replicate n 0

/-- Dropped, unless all of the range is mapped. -/
def write (ram : GuestRam) (addr : UInt64) (data : List UInt8) : GuestRam :=
  if ram.inRange addr data.length then { ram with bytes := ram.bytes.write addr.toNat data }
  else ram

/-- A qword, least significant byte first. -/
def writeU64 (ram : GuestRam) (addr value : UInt64) : GuestRam :=
  ram.write addr (leBytes 8 value.toNat)

/-- A qword; zero if it is not all mapped. -/
def readU64 (ram : GuestRam) (addr : UInt64) : UInt64 :=
  UInt64.ofNat (leValue (ram.read addr 8))

@[simp] theorem new_len (len : ℕ) : (new len).len = len := rfl

@[simp] theorem ofContent_len (content : Store) : (ofContent content).len = ramSize.toNat := rfl

/-- The mapping neither grows nor shrinks. -/
@[simp] theorem write_len (ram : GuestRam) (addr : UInt64) (data : List UInt8) :
    (ram.write addr data).len = ram.len := by
  rw [write]
  split <;> rfl

@[simp] theorem writeU64_len (ram : GuestRam) (addr value : UInt64) :
    (ram.writeU64 addr value).len = ram.len :=
  write_len ..

/-- The two checks, of overflow and of the length. -/
theorem inRange_iff {ram : GuestRam} {addr : UInt64} {n : ℕ} :
    ram.inRange addr n = true ↔ addr.toNat + n < 2 ^ 64 ∧ addr.toNat + n ≤ ram.len := by
  simp [inRange]

/-- A mapped write is one of the byte store. -/
theorem write_of_inRange {ram : GuestRam} {addr : UInt64} {data : List UInt8}
    (h : ram.inRange addr data.length = true) :
    (ram.write addr data).bytes = ram.bytes.write addr.toNat data := by
  rw [write, if_pos h]

/-- A mapped qword is written byte by byte. -/
theorem writeU64_of_inRange {ram : GuestRam} {addr value : UInt64}
    (h : ram.inRange addr 8 = true) :
    (ram.writeU64 addr value).bytes = ram.bytes.writeLe 8 addr.toNat value.toNat :=
  write_of_inRange (by simpa using h)

/-- No write reaches past its own bytes, in range or not. -/
theorem write_of_outside {ram : GuestRam} {addr : UInt64} {data : List UInt8} {x : ℕ}
    (h : x < addr.toNat ∨ addr.toNat + data.length ≤ x) :
    (ram.write addr data).bytes x = ram.bytes x := by
  rw [write]
  split
  · exact Store.write_of_outside h
  · rfl

/-- Nor does a qword. -/
theorem writeU64_of_outside {ram : GuestRam} {addr value : UInt64} {x : ℕ}
    (h : x < addr.toNat ∨ addr.toNat + 8 ≤ x) :
    (ram.writeU64 addr value).bytes x = ram.bytes x :=
  write_of_outside (by simpa using h)

/-- A mapped qword reads as the number its eight bytes stand for. -/
theorem readU64_toNat {ram : GuestRam} {addr : UInt64} (h : ram.inRange addr 8 = true) :
    (ram.readU64 addr).toNat = ram.bytes.readLe 8 addr.toNat := by
  have hlt := ram.bytes.readLe_lt 8 addr.toNat
  rw [readU64, read, if_pos h, UInt64.toNat_ofNat', ← Store.readLe]
  exact Nat.mod_eq_of_lt (by simpa using hlt)

end GuestRam

end Hw
