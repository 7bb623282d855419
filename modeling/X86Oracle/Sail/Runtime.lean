import Mathlib
import X86Oracle.Lib.LinkedBlocks

/-!
# Memory of the Sail runtime

The memory builtins of `vendor/sail/runtime/rts.c`: a process-wide list of 16 MiB blocks, searched
by the high bits of an address and grown at the head.

`MemProg` is what a piece of model code does to this memory: byte reads whose result it may use,
byte writes, and the oracle's own query whether a block is there.  `MemProg.exec` runs it on the
heap, `MemProg.eval` on the map of blocks the list stands for; `MemProg.exec_spec` relates them.
-/

namespace Sail

open LinkedBlocks

/-! ## The builtins -/

/-- One less than the block size. -/
def MASK : UInt64 := 0xFFFFFF

/-- The bytes of a block by offset. -/
abbrev Block := UInt64 → UInt8

/-- Allocated blocks, `struct block` with its bytes. -/
abbrev MemHeap := Heap UInt64 Block

def blockId (address : UInt64) : UInt64 := address &&& ~~~MASK
def blockOffset (address : UInt64) : UInt64 := address &&& MASK

/-- `write_mem`, with `sail_memory` before and after the call. -/
def writeMem (malloc : Allocator UInt64 Block) (heap : MemHeap) (sailMemory : Option ℕ)
    (address : UInt64) (byte : UInt8) : Option (MemHeap × Option ℕ) :=
  modifyOrPush malloc heap sailMemory (blockId address)
    (fun mem => Function.update mem (blockOffset address) byte) fun _ => 0

/-- `read_mem`. -/
def readMem (heap : MemHeap) (sailMemory : Option ℕ) (address : UInt64) : Option UInt8 :=
  (lookup heap sailMemory (blockId address)).map fun mem =>
    mem.elim 0 fun mem => mem (blockOffset address)

/-- `sail_addr_mapped`. -/
def sailAddrMapped (heap : MemHeap) (sailMemory : Option ℕ) (address : UInt64) : Option Bool :=
  (find heap (blockId address) heap.used.card sailMemory).map Option.isSome

/-- `kill_mem`; afterwards `sail_memory` is null. -/
def killMem (heap : MemHeap) (sailMemory : Option ℕ) : Option MemHeap :=
  kill heap.used.card heap sailMemory

/-! ## Code that uses the memory -/

/-- What a call does to memory until it returns. -/
inductive MemProg (R : Type)
  | done (r : R)
  | read (address : UInt64) (k : UInt8 → MemProg R)
  | write (address : UInt64) (byte : UInt8) (k : MemProg R)
  | mapped (address : UInt64) (k : Bool → MemProg R)

/-- The blocks of one instance. -/
abbrev Blocks := UInt64 → Option Block

namespace Blocks

def readByte (mem : Blocks) (address : UInt64) : UInt8 :=
  (mem (blockId address)).elim 0 fun b => b (blockOffset address)

def writeByte (mem : Blocks) (address : UInt64) (byte : UInt8) : Blocks :=
  Function.update mem (blockId address)
    (some (Function.update ((mem (blockId address)).getD fun _ => 0) (blockOffset address) byte))

def isMapped (mem : Blocks) (address : UInt64) : Bool := (mem (blockId address)).isSome

end Blocks

namespace MemProg

variable {R : Type}

/-- Go on with the result. -/
def bind {R' : Type} : MemProg R → (R → MemProg R') → MemProg R'
  | done r, f => f r
  | read address k, f => read address fun b => (k b).bind f
  | write address byte k, f => write address byte (k.bind f)
  | mapped address k, f => mapped address fun b => (k b).bind f

/-- The run on the heap. -/
def exec (malloc : Allocator UInt64 Block) :
    MemHeap → Option ℕ → MemProg R → Option (MemHeap × Option ℕ × R)
  | heap, sailMemory, done r => some (heap, sailMemory, r)
  | heap, sailMemory, read address k => do
    let byte ← readMem heap sailMemory address
    exec malloc heap sailMemory (k byte)
  | heap, sailMemory, write address byte k => do
    let (heap, sailMemory) ← writeMem malloc heap sailMemory address byte
    exec malloc heap sailMemory k
  | heap, sailMemory, mapped address k => do
    let there ← sailAddrMapped heap sailMemory address
    exec malloc heap sailMemory (k there)

/-- The run on the blocks of one instance. -/
def eval : Blocks → MemProg R → Blocks × R
  | mem, done r => (mem, r)
  | mem, read address k => eval mem (k (mem.readByte address))
  | mem, write address byte k => eval (mem.writeByte address byte) k
  | mem, mapped address k => eval mem (k (mem.isMapped address))

/-- The addresses the run writes, in order. -/
def written : Blocks → MemProg R → List UInt64
  | _, done _ => []
  | mem, read address k => written mem (k (mem.readByte address))
  | mem, write address byte k => address :: written (mem.writeByte address byte) k
  | mem, mapped address k => written mem (k (mem.isMapped address))

end MemProg

section Owner

variable {ι : Type} [DecidableEq ι] {heap : MemHeap} {head : ι → Option ℕ}
  {list : ι → Entries UInt64 Block} {R : Type}

omit [DecidableEq ι] in
theorem readMem_eq (ho : Owners heap head list) (i : ι) (address : UInt64) :
    readMem heap (head i) address = some (Blocks.readByte (contents (list i)) address) := by
  rw [readMem, ho.lookup i]
  rfl

omit [DecidableEq ι] in
theorem sailAddrMapped_eq (ho : Owners heap head list) (i : ι) (address : UInt64) :
    sailAddrMapped heap (head i) address =
      some (Blocks.isMapped (contents (list i)) address) := by
  obtain ⟨r, hrun, hr⟩ := ho.find i (blockId address)
  rw [sailAddrMapped, hrun, Option.map_some, hr]
  rfl

/-- Code run with one instance's list in `sail_memory` does not fail, does to that instance's
blocks what it does on their map, and touches no other list. -/
theorem MemProg.exec_spec (malloc : Allocator UInt64 Block) (ho : Owners heap head list) (i : ι)
    (prog : MemProg R) :
    ∃ heap' head' l r, prog.exec malloc heap (head i) = some (heap', head', r) ∧
      Owners heap' (Function.update head i head') (Function.update list i l) ∧
      prog.eval (contents (list i)) = (contents l, r) ∧ heap.used ⊆ heap'.used := by
  induction prog generalizing heap head list with
  | done r =>
    refine ⟨heap, head i, list i, r, rfl, ?_, rfl, Finset.Subset.refl _⟩
    rw [Function.update_eq_self, Function.update_eq_self]
    exact ho
  | read address k ih =>
    obtain ⟨heap', head', l, r, hrun, hrest⟩ := ih (Blocks.readByte (contents (list i)) address) ho
    refine ⟨heap', head', l, r, ?_, hrest⟩
    rw [exec, readMem_eq ho i]
    exact hrun
  | write address byte k ih =>
    obtain ⟨heap₁, head₁, l₁, hwrite, ho₁, hcontents, hsub⟩ := ho.modifyOrPush malloc i
      (blockId address) (fun mem => Function.update mem (blockOffset address) byte) fun _ => 0
    obtain ⟨heap', head', l, r, hrun, ho', heval, hsub'⟩ := ih ho₁
    rw [Function.update_self] at hrun heval
    rw [Function.update_idem, Function.update_idem] at ho'
    refine ⟨heap', head', l, r, ?_, ho', ?_, hsub.trans hsub'⟩
    · rw [exec, writeMem, hwrite]
      exact hrun
    · rw [eval, ← heval, hcontents]
      rfl
  | mapped address k ih =>
    obtain ⟨heap', head', l, r, hrun, hrest⟩ := ih (Blocks.isMapped (contents (list i)) address) ho
    refine ⟨heap', head', l, r, ?_, hrest⟩
    rw [exec, sailAddrMapped_eq ho i]
    exact hrun

end Owner

end Sail
