import Mathlib
import X86Oracle.Lib.Cells
import X86Oracle.Oracle.Snapshot

/-!
# The registers of the trait

The names under which `src/lib.rs` lets a caller read and write registers, which of them are one
cell, and what may be lost of a value on the way.

* `Reg.cell`: IA32_FS_BASE and IA32_GS_BASE are the bases of FS and GS.
* `Reg.view`: the part of a value that is documented to be kept.
-/

namespace Oracle

/-- The constants `IA32_…`. -/
inductive Msr
  | efer
  | star
  | lstar
  | fmask
  | fsBase
  | gsBase
  | kernelGsBase
  | uCet
  | sCet
deriving DecidableEq, Repr

/-- The architectural number. -/
def Msr.number : Msr → ℕ
  | efer => 0xC0000080
  | star => 0xC0000081
  | lstar => 0xC0000082
  | fmask => 0xC0000084
  | fsBase => 0xC0000100
  | gsBase => 0xC0000101
  | kernelGsBase => 0xC0000102
  | uCet => 0x6A0
  | sCet => 0x6A2

/-- The control registers of `set_cr`: "0, 2, 3, 4, 8". -/
inductive Cr
  | cr0
  | cr2
  | cr3
  | cr4
  | cr8
deriving DecidableEq, Repr

def Cr.number : Cr → ℕ
  | cr0 => 0
  | cr2 => 2
  | cr3 => 3
  | cr4 => 4
  | cr8 => 8

/-- `SEG_CS`, `SEG_FS` and `SEG_GS`. -/
def segCs : Fin 6 := 1
def segFs : Fin 6 := 4
def segGs : Fin 6 := 5

/-- A register of the trait; a vector register is written and read in chunks of 64 bits. -/
inductive Reg
  | gpr (n : Fin 16)
  | rip
  | rflags
  | zmm (n : Fin 32) (chunk : Fin 8)
  | msr (m : Msr)
  | cr (c : Cr)
  | ssp
  | segSelector (n : Fin 6)
  | segBase (n : Fin 6)
  | segLimit (n : Fin 6)
deriving DecidableEq, Repr

namespace Reg

/-- Two names of one register have one cell. -/
def cell : Reg → Reg
  | msr .fsBase => segBase segFs
  | msr .gsBase => segBase segGs
  | r => r

/-- What is documented to be kept of a value: 32 bits of CR0, EFER and RFLAGS, the latter without
TF and RF; the 16 bits of a selector and the 32 of a limit are all the trait's types have. -/
def view : Reg → UInt64 → UInt64
  | rflags, v => v &&& 0xFFFFFFFF &&& ~~~(flagTF ||| flagRF)
  | msr .efer, v => v &&& 0xFFFFFFFF
  | cr .cr0, v => v &&& 0xFFFFFFFF
  | segSelector _, v => v &&& 0xFFFF
  | segLimit _, v => v &&& 0xFFFFFFFF
  | _, v => v

/-- The names of a cell share its view. -/
theorem view_cell (r : Reg) : r.cell.view = r.view := by
  cases r with
  | msr m => cases m <;> rfl
  | _ => rfl

/-- For registers that read the same under all names of a cell, a write is kept if its own name
shows it. -/
theorem kept_iff_self {σ : Type} {get : σ → Reg → UInt64} {set : σ → Reg → UInt64 → σ}
    {view : Reg → UInt64 → UInt64} (hget : ∀ s r, get s r.cell = get s r)
    (hview : ∀ r, view r.cell = view r) (s : σ) (w : Reg × UInt64) :
    Cells.Kept cell view get set s w ↔ view w.1 (get (set s w.1 w.2) w.1) = view w.1 w.2 := by
  constructor
  · exact fun h => h w.1 rfl
  · intro h j hcell
    rw [← hget _ j, ← hview j, ← hcell, hget, hview]
    exact h

end Reg

end Oracle
