import Mathlib
import X86Oracle.Lib.Cells
import X86Oracle.Bochs.AddressSpace

/-!
# Guest memory through the host's accessors

`x86oracle_bochs_read_mem`, `write_mem` and their slice forms, which go through `GuestMemory` one
byte at a time.  An address is 64 bits wide, the page map is keyed by its low 52.

* `phys`: the physical address behind an address; two addresses with one `phys` are one byte.
* `readMem_lawful`: single bytes are the cells of a store on physical addresses.
* `host_memory`: after any writes, what every byte and every slice outside the page tables reads.
-/

namespace Bochs

open Bytes Cells

namespace GuestMemory

/-! ## The entry points -/

/-- `x86oracle_bochs_read_mem`. -/
def readMem (mem : GuestMemory) (addr : UInt64) : UInt8 := (mem.read addr 1).headD 0

/-- `x86oracle_bochs_write_mem`, on the page map. -/
def writeMem (mem : GuestMemory) (addr : UInt64) (byte : UInt8) : GuestMemory :=
  mem.write addr [byte]

/-- `x86oracle_bochs_read_mem_slice`: the bytes put in `dst`, one read at a time. -/
def readMemSlice (mem : GuestMemory) (addr : UInt64) (len : ℕ) : List UInt8 :=
  (List.range len).flatMap fun i => mem.read (addr + UInt64.ofNat i) 1

/-- `x86oracle_bochs_write_mem_slice`, on the page map: one write at a time. -/
def writeMemSlice (mem : GuestMemory) (addr : UInt64) (src : List UInt8) : GuestMemory :=
  src.zipIdx.foldl (fun mem b => mem.write (addr + UInt64.ofNat b.2) [b.1]) mem

end GuestMemory

/-- A write through the trait. -/
inductive HostWrite
  | byte (addr : UInt64) (byte : UInt8)
  | slice (addr : UInt64) (data : List UInt8)

namespace HostWrite

def apply (mem : GuestMemory) : HostWrite → GuestMemory
  | byte addr b => mem.writeMem addr b
  | slice addr data => mem.writeMemSlice addr data

/-- The bytes written, in order; addresses wrap past the end of the address space. -/
def stores : HostWrite → List (UInt64 × UInt8)
  | byte addr b => [(addr, b)]
  | slice addr data => data.zipIdx.map fun b => (addr + UInt64.ofNat b.2, b.1)

theorem apply_eq (w : HostWrite) (mem : GuestMemory) :
    w.apply mem = w.stores.foldl (fun mem s => mem.writeMem s.1 s.2) mem := by
  cases w with
  | byte addr b => rfl
  | slice addr data =>
    rw [stores, List.foldl_map]
    rfl

end HostWrite

/-- The bytes a sequence of writes stores, in order. -/
def storeLog (ws : List HostWrite) : List (UInt64 × UInt8) := ws.flatMap HostWrite.stores

theorem storeLog_cons (w : HostWrite) (ws : List HostWrite) :
    storeLog (w :: ws) = w.stores ++ storeLog ws :=
  List.flatMap_cons

theorem foldl_apply (ws : List HostWrite) (mem : GuestMemory) :
    ws.foldl (fun mem w => w.apply mem) mem =
      (storeLog ws).foldl (fun mem s => mem.writeMem s.1 s.2) mem := by
  induction ws generalizing mem with
  | nil => rfl
  | cons w ws ih =>
    rw [List.foldl_cons, ih, w.apply_eq, storeLog_cons, List.foldl_append]

/-! ## Bytes -/

/-- The physical address an address stands for. -/
def phys (addr : UInt64) : ℕ := addr.toNat % 2 ^ 52

namespace GuestMemory

theorem read_one (mem : GuestMemory) (addr : UInt64) :
    mem.read addr 1 = [mem.store (phys addr)] := by
  have hoff := offset_eq addr
  rw [read_eq (by omega), Store.read, List.range_one, List.map_singleton]
  rfl

theorem readMem_eq (mem : GuestMemory) (addr : UInt64) :
    mem.readMem addr = mem.store (phys addr) := by
  rw [readMem, read_one]
  rfl

theorem readMemSlice_eq (mem : GuestMemory) (addr : UInt64) (len : ℕ) :
    mem.readMemSlice addr len =
      (List.range len).map fun i => mem.readMem (addr + UInt64.ofNat i) := by
  simp only [readMemSlice, read_one, readMem_eq]
  exact List.flatMap_pure_eq_map ..

theorem store_writeMem (mem : GuestMemory) (addr : UInt64) (b : UInt8) :
    (mem.writeMem addr b).store = mem.store.write (phys addr) [b] := by
  have hoff := offset_eq addr
  exact store_write (by rw [List.length_singleton]; omega)

/-- Bytes are independent cells, named by the addresses that share a physical one. -/
theorem readMem_lawful :
    Lawful phys (fun _ b => b) (fun _ => True) readMem writeMem where
  keep _ _ _ _ := trivial
  self mem a b v _ h := by
    rw [readMem_eq, store_writeMem, ← h]
    exact Store.write_of_inside (i := 0) (by simp)
  other mem a b v _ h := by
    rw [readMem_eq, readMem_eq, store_writeMem]
    exact Store.write_of_outside (by rw [List.length_singleton]; omega)

end GuestMemory

/-! ## A fresh instance -/

/-- The page tables: what the constructor documents as reserved. -/
def Reserved (addr : UInt64) : Prop :=
  ptBase.toNat ≤ phys addr ∧ phys addr < ptBase.toNat + ptBytes.toNat

instance (addr : UInt64) : Decidable (Reserved addr) := inferInstanceAs (Decidable (_ ∧ _))

/-- Construction writes nothing but the page tables. -/
theorem store_buildIdentityMap {x : ℕ} (hx : x < 0x7FC0000000 ∨ 0x7FC0202000 ≤ x) :
    (buildIdentityMap .empty).store x = 0 := by
  refine foldl_range_induction (f := writeDirectory) (fun _ (m : GuestMemory) => m.store x = 0)
    ?_ fun i m hi hm => ?_
  · rw [GuestMemory.store_write64 (x := 0x7FC0000000) rfl (by norm_num) (by norm_num),
      Store.writeLe_of_outside (by omega), GuestMemory.store_empty]
  · rw [(writeDirectory_spec hi m).2.2 x (by omega) (by omega), hm]

/-- The memory of a fresh instance after a sequence of writes. -/
def memAfter (ws : List HostWrite) : GuestMemory :=
  ws.foldl (fun mem w => w.apply mem) (buildIdentityMap .empty)

/-- The byte the log has last for a physical address; zero where it has none. -/
def lastByte (log : List (UInt64 × UInt8)) (addr : UInt64) : UInt8 :=
  (lastWrite phys log (phys addr)).elim 0 Prod.snd

theorem readMem_memAfter (ws : List HostWrite) {addr : UInt64} (h : ¬ Reserved addr) :
    (memAfter ws).readMem addr = lastByte (storeLog ws) addr := by
  have hfresh : (buildIdentityMap .empty).readMem addr = 0 := by
    rw [GuestMemory.readMem_eq]
    refine store_buildIdentityMap ?_
    rw [Reserved, show ptBase.toNat = 0x7FC0000000 from rfl,
      show ptBytes.toNat = 0x202000 from rfl] at h
    omega
  rw [memAfter, foldl_apply, GuestMemory.readMem_lawful.get_run trivial, hfresh]
  rfl

/-- **Guest memory is a store on 52-bit physical addresses.**  After any writes a byte or slice
outside the page tables reads as the bytes last written to its physical addresses, and a write to
other physical addresses does not change it. -/
theorem host_memory (ws : List HostWrite) :
    (∀ addr, ¬ Reserved addr → (memAfter ws).readMem addr = lastByte (storeLog ws) addr) ∧
      (∀ addr len, (∀ i < len, ¬ Reserved (addr + UInt64.ofNat i)) →
        (memAfter ws).readMemSlice addr len =
          (List.range len).map fun i => lastByte (storeLog ws) (addr + UInt64.ofNat i)) ∧
      ∀ (w : HostWrite) (addr : UInt64), (∀ s ∈ w.stores, phys s.1 ≠ phys addr) →
        (w.apply (memAfter ws)).readMem addr = (memAfter ws).readMem addr := by
  refine ⟨fun addr h => readMem_memAfter ws h, fun addr len h => ?_, fun w addr h => ?_⟩
  · rw [GuestMemory.readMemSlice_eq]
    refine List.map_congr_left fun i hi => ?_
    exact readMem_memAfter ws (h i (List.mem_range.1 hi))
  · rw [w.apply_eq, GuestMemory.readMem_lawful.get_run trivial, lastWrite_eq_none.2 h]
    rfl

/-- An address past 52 bits is another name of a low one: a write to it is read where nothing was
written. -/
theorem write_past_mask :
    ¬ ∀ (ws : List HostWrite) (addr : UInt64), ¬ Reserved addr → (memAfter ws).readMem addr =
      (lastWrite (fun a : UInt64 => a) (storeLog ws) addr).elim 0 Prod.snd := by
  intro h
  have hread := h [.byte 0x10000000000000 1] 0 (by decide)
  rw [readMem_memAfter _ (by decide)] at hread
  exact absurd hread (by decide)

end Bochs
