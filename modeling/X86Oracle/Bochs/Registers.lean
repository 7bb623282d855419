import Mathlib
import X86Oracle.Lib.Bytes
import X86Oracle.Oracle.Snapshot
import X86Oracle.Bochs.LazyFlags

/-!
# Bochs: register accessors

The accessors of `csrc/bochs_shim.cpp` for the registers a snapshot covers.  The flags go through
`setEFlags` and `read_eflags`, with the two harness flags masked on both sides and bit 1 forced.
-/

namespace Bochs

open Oracle

/-- The registers a snapshot covers, and the part of the CPU their accessors look at. -/
structure Registers where
  gen_reg : Fin 16 → UInt64
  rip : UInt64
  prev_rip : UInt64
  flags : Flags
  /-- `long_mode()`: EFER.LMA. -/
  longMode : Bool
  vmm : Fin 32 → Fin 8 → UInt64

/-- TF and RF. -/
def kHarnessFlags : BitVec 32 := 0x100 ||| 0x10000

namespace Registers

def set_gpr (cpu : Registers) (n : Fin 16) (v : UInt64) : Registers :=
  { cpu with gen_reg := Function.update cpu.gen_reg n v }

def get_gpr (cpu : Registers) (n : Fin 16) : UInt64 := cpu.gen_reg n

/-- `x86oracle_bochs_set_rip` writes `prev_rip` as well. -/
def set_rip (cpu : Registers) (v : UInt64) : Registers := { cpu with rip := v, prev_rip := v }

def get_rip (cpu : Registers) : UInt64 := cpu.rip

/-- `x86oracle_bochs_set_rflags`: neither TF nor RF, and always bit 1. -/
def set_rflags (cpu : Registers) (v : UInt64) : Registers :=
  { cpu with
    flags := cpu.flags.setEFlags cpu.longMode
      ((v.toBitVec.setWidth 32 &&& ~~~kHarnessFlags) ||| 2) }

/-- `x86oracle_bochs_get_rflags` forces the lazy flags. -/
def get_rflags (cpu : Registers) : UInt64 :=
  UInt64.ofBitVec ((cpu.flags.read_eflags &&& ~~~kHarnessFlags).setWidth 64)

def set_zmm_chunk (cpu : Registers) (n : Fin 32) (chunk : ℕ) (v : UInt64) : Registers :=
  { cpu with
    vmm := Function.update cpu.vmm n (Function.update (cpu.vmm n) (Fin.ofNat 8 chunk) v) }

/-- `BochsOracle::set_zmm`: all eight chunks, zero past the end of `data`. -/
def set_zmm (cpu : Registers) (n : Fin 32) (data : List UInt64) : Registers :=
  (List.range 8).foldl (fun cpu i => cpu.set_zmm_chunk n i (data.getD i 0)) cpu

def oracle : X86Oracle Registers :=
  { setGpr := set_gpr
    getGpr := get_gpr
    setRip := set_rip
    getRip := get_rip
    setRflags := set_rflags
    getRflags := get_rflags
    setZmm := set_zmm
    getZmm := fun cpu n i => cpu.vmm n i }

end Registers

/-- Every chunk is kept; the flags word loses TF and RF and gains bit 1. -/
def storage : Storage := { flags := harnessFlags, holds := fun _ _ => true }

/-! ## The accessors refine the cells -/

/-- VM is not among the portable flags, so it makes no difference that long mode drops it. -/
theorem portable_and_not_vm {v : UInt64} (h : PortableFlags v) :
    ((v.toBitVec.setWidth 32 &&& ~~~kHarnessFlags) ||| 2) &&& ~~~EFlagsVMMask =
      (v.toBitVec.setWidth 32 &&& ~~~kHarnessFlags) ||| 2 := by
  have hvm : v.toBitVec[17] = false := h.getLsbD_eq_false (i := 17) (by decide)
  apply BitVec.eq_of_getLsbD_eq
  intro i hi
  interval_cases i <;> simp [EFlagsVMMask, hvm]

theorem get_set_rflags (cpu : Registers) {v : UInt64} (h : PortableFlags v) :
    (cpu.set_rflags v).get_rflags = harnessFlags v := by
  have hwide (i : ℕ) (hi : i < 64) (hge : 32 ≤ i) : v.toBitVec[i] = false := by
    have hlt : v.toNat < 2 ^ i :=
      h.toNat_lt.trans_le (Nat.pow_le_pow_right (by norm_num) (by omega))
    rw [BitVec.getElem_eq_testBit_toNat, UInt64.toNat_toBitVec, Nat.testBit_lt_two_pow hlt]
  unfold Registers.get_rflags Registers.set_rflags harnessFlags
  simp only [Flags.read_setEFlags, portable_and_not_vm h, ite_self]
  apply UInt64.toBitVec_inj.1
  apply BitVec.eq_of_getLsbD_eq
  intro i hi
  interval_cases i <;> simp [kHarnessFlags, flagTF, flagRF, hwide]

/-- The loop over the chunks of a register writes them all, and nothing else. -/
theorem set_zmm_spec (cpu : Registers) (n : Fin 32) (data : List UInt64) :
    cpu.set_zmm n data =
      { cpu with vmm := Function.update cpu.vmm n fun i => data.getD i 0 } := by
  have hloop := Bytes.foldl_range_induction
    (f := fun cpu i => Registers.set_zmm_chunk cpu n i (data.getD i 0)) (n := 8) (s := cpu)
    (fun k t => t = { cpu with
      vmm := Function.update cpu.vmm n fun i => if i.val < k then data.getD i 0 else cpu.vmm n i })
    (by simp)
    (by
      rintro k t hk rfl
      simp only [Registers.set_zmm_chunk, Function.update_self, Function.update_idem]
      congr 2
      funext i
      by_cases hik : i = Fin.ofNat 8 k
      · have hval : i.val = k := by rw [hik]; exact Nat.mod_eq_of_lt hk
        rw [hik, Function.update_self, ← hik, if_pos (by omega), hval]
      · have hne : i.val ≠ k :=
            fun heq => hik (Fin.ext (by rw [heq]; exact (Nat.mod_eq_of_lt hk).symm))
        rw [Function.update_of_ne hik]
        congr 1
        apply propext
        omega)
  unfold Registers.set_zmm
  rw [hloop]
  congr 2
  funext i
  exact if_pos i.isLt

theorem refines : Refines Registers.oracle storage where
  setGpr cpu i v := rfl
  setRip cpu v _ := rfl
  setRflags cpu v hv := by
    have hget : (cpu.set_rflags v).get_rflags = storage.flags v := get_set_rflags cpu hv
    simp only [X86Oracle.snapshot, Registers.oracle, CpuState.withRflags, hget]
    rfl
  setZmm cpu n v := by
    simp only [X86Oracle.snapshot, Registers.oracle, CpuState.withZmm, set_zmm_spec, getD_ofFn]
    rfl

end Bochs
