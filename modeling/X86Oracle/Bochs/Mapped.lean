import Mathlib
import X86Oracle.Bochs.HostMemory

/-!
# Mapped pages of the Bochs memory

A page exists once it has been touched.  The host allocates by writing; the CPU core allocates
through `BX_MEM_C`, whose `getHostMemAddr` hands out a page for every translation the TLB caches,
whether for a load, a store or a fetch.

* `GuestAccess`: the calls the core makes while it executes, with the stores it then makes through
  the pointers it was handed.
* `mapped_memEvents`: after any history a page outside the page tables is mapped exactly if the
  host wrote a byte of it or the guest touched it.
-/

namespace Bochs

open Bytes

/-- What the CPU core does to memory during a step. -/
inductive GuestAccess
  | getHostMemAddr (addr : UInt64)
  | storeThrough (addr : UInt64) (data : List UInt8)
  | readPhysicalPage (addr : UInt64) (len : ℕ)
  | writePhysicalPage (addr : UInt64) (data : List UInt8)

/-- `page(gpa, true)`, for its effect. -/
def GuestMemory.alloc (mem : GuestMemory) (gpa : UInt64) : GuestMemory :=
  { pages := fun k => if k = key gpa then some (mem.page gpa) else mem.pages k }

namespace GuestAccess

def apply (mem : GuestMemory) : GuestAccess → GuestMemory
  | getHostMemAddr addr => mem.alloc addr
  | storeThrough addr data => mem.write addr data
  | readPhysicalPage _ _ => mem
  | writePhysicalPage addr data => mem.write addr data

/-- The address whose page the access makes exist. -/
def touches : GuestAccess → Option UInt64
  | getHostMemAddr addr | storeThrough addr _ | writePhysicalPage addr _ => some addr
  | readPhysicalPage _ _ => none

/-- The addresses at which the access stores a byte; it stays inside a page. -/
def stores : GuestAccess → List UInt64
  | storeThrough addr data | writePhysicalPage addr data =>
    (List.range data.length).map fun i => addr + UInt64.ofNat i
  | getHostMemAddr _ | readPhysicalPage _ _ => []

end GuestAccess

/-- What happens to the memory of an oracle; reads and queries leave it alone. -/
inductive MemEvent
  | host (w : HostWrite)
  | step (accesses : List GuestAccess)

namespace MemEvent

def apply (mem : GuestMemory) : MemEvent → GuestMemory
  | host w => w.apply mem
  | step accesses => accesses.foldl (fun mem a => a.apply mem) mem

/-- The addresses written by the host, and those touched by the guest. -/
def touched : MemEvent → List UInt64
  | host w => w.stores.map Prod.fst
  | step accesses => accesses.filterMap GuestAccess.touches

/-- The addresses of the bytes stored, by the host or by a guest store. -/
def stores : MemEvent → List UInt64
  | host w => w.stores.map Prod.fst
  | step accesses => accesses.flatMap GuestAccess.stores

end MemEvent

/-- The memory of an oracle after a history. -/
def memoryAfter (es : List MemEvent) : GuestMemory :=
  es.foldl (fun mem e => e.apply mem) (buildIdentityMap .empty)

/-! ## Which pages exist -/

section Mapped

variable {mem : GuestMemory} {addr gpa : UInt64} {src : List UInt8}

theorem mapped_write :
    (mem.write gpa src).mapped addr = true ↔
      mem.mapped addr = true ∨ GuestMemory.key gpa = GuestMemory.key addr := by
  unfold GuestMemory.mapped GuestMemory.write
  by_cases h : GuestMemory.key addr = GuestMemory.key gpa
  · simp [h]
  · simp [h, Ne.symm h]

theorem mapped_alloc :
    (mem.alloc gpa).mapped addr = true ↔
      mem.mapped addr = true ∨ GuestMemory.key gpa = GuestMemory.key addr := by
  unfold GuestMemory.mapped GuestMemory.alloc
  by_cases h : GuestMemory.key addr = GuestMemory.key gpa
  · simp [h]
  · simp [h, Ne.symm h]

theorem mapped_writeLog (log : List (UInt64 × UInt8)) :
    (log.foldl (fun mem s => mem.writeMem s.1 s.2) mem).mapped addr = true ↔
      mem.mapped addr = true ∨
        ∃ b ∈ log.map Prod.fst, GuestMemory.key b = GuestMemory.key addr := by
  induction log generalizing mem with
  | nil => simp
  | cons s log ih =>
    rw [List.foldl_cons, ih, GuestMemory.writeMem, mapped_write, List.map_cons]
    simp only [List.mem_cons, exists_eq_or_imp, or_assoc]

theorem mapped_access (a : GuestAccess) :
    (a.apply mem).mapped addr = true ↔ mem.mapped addr = true ∨
      ∃ b ∈ a.touches, GuestMemory.key b = GuestMemory.key addr := by
  cases a with
  | getHostMemAddr gpa =>
    rw [GuestAccess.apply, mapped_alloc]
    simp [GuestAccess.touches]
  | storeThrough gpa data =>
    rw [GuestAccess.apply, mapped_write]
    simp [GuestAccess.touches]
  | readPhysicalPage gpa len => simp [GuestAccess.apply, GuestAccess.touches]
  | writePhysicalPage gpa data =>
    rw [GuestAccess.apply, mapped_write]
    simp [GuestAccess.touches]

theorem mapped_accesses (accesses : List GuestAccess) :
    (accesses.foldl (fun mem a => a.apply mem) mem).mapped addr = true ↔ mem.mapped addr = true ∨
      ∃ b ∈ accesses.filterMap GuestAccess.touches,
        GuestMemory.key b = GuestMemory.key addr := by
  induction accesses generalizing mem with
  | nil => simp
  | cons a accesses ih =>
    rw [List.foldl_cons, ih, mapped_access]
    cases ha : a.touches with
    | none => simp [List.filterMap_cons_none ha]
    | some b =>
      rw [List.filterMap_cons_some ha]
      simp [or_assoc]

theorem mapped_event (e : MemEvent) :
    (e.apply mem).mapped addr = true ↔ mem.mapped addr = true ∨
      ∃ b ∈ e.touched, GuestMemory.key b = GuestMemory.key addr := by
  cases e with
  | host w => rw [MemEvent.apply, w.apply_eq, mapped_writeLog, MemEvent.touched]
  | step accesses => exact mapped_accesses accesses

/-- Construction maps the page tables only. -/
theorem mapped_buildIdentityMap (h : ¬ Reserved addr) :
    (buildIdentityMap .empty).mapped addr = false := by
  have hout : phys addr < 0x7FC0000000 ∨ 0x7FC0202000 ≤ phys addr := by
    rw [Reserved, show ptBase.toNat = 0x7FC0000000 from rfl,
      show ptBytes.toNat = 0x202000 from rfl] at h
    omega
  have hkey (gpa : UInt64) (hlo : 0x7FC0000000 ≤ gpa.toNat) (hhi : gpa.toNat < 0x7FC0202000) :
      GuestMemory.key gpa ≠ GuestMemory.key addr := by
    rw [Ne, GuestMemory.key_eq_iff]
    unfold phys at hout
    omega
  have hwrite (mem : GuestMemory) (gpa value : UInt64) (hlo : 0x7FC0000000 ≤ gpa.toNat)
      (hhi : gpa.toNat < 0x7FC0202000) (hmem : mem.mapped addr = false) :
      (mem.write64 gpa value).mapped addr = false := by
    rw [Bool.eq_false_iff] at hmem ⊢
    rw [Ne, GuestMemory.write64, mapped_write]
    exact not_or.2 ⟨hmem, hkey gpa hlo hhi⟩
  refine foldl_range_induction (f := writeDirectory)
    (fun _ (m : GuestMemory) => m.mapped addr = false) ?_ fun i m hi hm => ?_
  · exact hwrite _ _ _ (by decide) (by decide) rfl
  · have hslot := pdptSlot_toNat hi
    refine foldl_range_induction (f := writePde i)
      (fun _ (m : GuestMemory) => m.mapped addr = false) ?_ fun j m hj hm => ?_
    · exact hwrite _ _ _ (by omega) (by omega) hm
    · have hslot := pdSlot_toNat hi hj
      exact hwrite _ _ _ (by omega) (by omega) hm

end Mapped

/-- **Which pages are mapped.**  Outside the page tables, those the host wrote a byte of and those
the guest touched. -/
theorem mapped_memEvents (es : List MemEvent) {addr : UInt64} (h : ¬ Reserved addr) :
    (memoryAfter es).mapped addr = true ↔
      ∃ b ∈ es.flatMap MemEvent.touched, GuestMemory.key b = GuestMemory.key addr := by
  have hrun : ∀ mem : GuestMemory, (es.foldl (fun mem e => e.apply mem) mem).mapped addr = true ↔
      mem.mapped addr = true ∨
        ∃ b ∈ es.flatMap MemEvent.touched, GuestMemory.key b = GuestMemory.key addr := by
    induction es with
    | nil => simp
    | cons e es ih =>
      intro mem
      rw [List.foldl_cons, ih, mapped_event, List.flatMap_cons]
      simp only [List.mem_append, or_and_right, exists_or, or_assoc]
  rw [memoryAfter, hrun, mapped_buildIdentityMap h]
  simp

end Bochs
