import Mathlib
import X86Oracle.Lib.Cells
import X86Oracle.Oracle.RegisterNames
import X86Oracle.Sail.Registers

/-!
# Sail: every register of the trait

The accessors of `sail/harness.sail` behind `src/sail.rs`, over the registers of `Sail.Registers`
and the arrays they reach besides.  The model has no SSP and no CET registers.

* `RegisterFile.get_set_of_ne`: a write changes no other cell.
* `RegisterFile.kept_iff`: the writes that read back as documented.
-/

namespace Sail

open Oracle

structure RegisterFile extends Registers where
  msrs : Fin 7 → UInt64
  ctrs : Fin 17 → UInt64
  seg_visibles : Fin 6 → UInt16
  seg_hidden_bases : Fin 6 → UInt64
  seg_hidden_limits : Fin 6 → UInt32

/-- `msr_slot`: the model's own order. -/
def msrSlot (msr : ℕ) : Option ℕ :=
  if msr = 0xC0000080 then some 0
  else if msr = 0xC0000100 then some 1
  else if msr = 0xC0000101 then some 2
  else if msr = 0xC0000102 then some 3
  else if msr = 0xC0000081 then some 4
  else if msr = 0xC0000082 then some 5
  else if msr = 0xC0000084 then some 6
  else none

namespace RegisterFile

/-- The harness's `set_msr` and `get_msr`, by index. -/
def set_msr (cpu : RegisterFile) (idx : ℕ) (value : UInt64) : RegisterFile :=
  if h : idx % 8 < 7 then { cpu with msrs := Function.update cpu.msrs ⟨idx % 8, h⟩ value } else cpu

def get_msr (cpu : RegisterFile) (idx : ℕ) : UInt64 :=
  if h : idx % 8 < 7 then cpu.msrs ⟨idx % 8, h⟩ else 0

/-- `SailOracle::set_msr` and `get_msr`, by architectural number. -/
def setMsr (cpu : RegisterFile) (msr : ℕ) (value : UInt64) : RegisterFile :=
  (msrSlot msr).elim cpu fun idx => cpu.set_msr idx value

def getMsr (cpu : RegisterFile) (msr : ℕ) : UInt64 :=
  (msrSlot msr).elim 0 fun idx => cpu.get_msr idx

def set_ctr (cpu : RegisterFile) (idx : ℕ) (value : UInt64) : RegisterFile :=
  if h : idx % 32 < 17 then { cpu with ctrs := Function.update cpu.ctrs ⟨idx % 32, h⟩ value }
  else cpu

def get_ctr (cpu : RegisterFile) (idx : ℕ) : UInt64 :=
  if h : idx % 32 < 17 then cpu.ctrs ⟨idx % 32, h⟩ else 0

def set_seg_visible (cpu : RegisterFile) (n : Fin 6) (value : UInt64) : RegisterFile :=
  { cpu with seg_visibles := Function.update cpu.seg_visibles n value.toUInt16 }

def set_seg_base (cpu : RegisterFile) (n : Fin 6) (value : UInt64) : RegisterFile :=
  { cpu with seg_hidden_bases := Function.update cpu.seg_hidden_bases n value }

def set_seg_limit (cpu : RegisterFile) (n : Fin 6) (value : UInt64) : RegisterFile :=
  { cpu with seg_hidden_limits := Function.update cpu.seg_hidden_limits n value.toUInt32 }

/-- `SailOracle::set_seg_base`: the bases of FS and GS go to their MSRs too. -/
def setSegBase (cpu : RegisterFile) (n : Fin 6) (value : UInt64) : RegisterFile :=
  let cpu := cpu.set_seg_base n value
  if n = segFs then cpu.setMsr Msr.fsBase.number value
  else if n = segGs then cpu.setMsr Msr.gsBase.number value
  else cpu

/-- `SailOracle::get_seg_base`: and come from there. -/
def getSegBase (cpu : RegisterFile) (n : Fin 6) : UInt64 :=
  if n = segFs then cpu.getMsr Msr.fsBase.number
  else if n = segGs then cpu.getMsr Msr.gsBase.number
  else cpu.seg_hidden_bases n

/-- The setter of a register; that of SSP is the trait's default. -/
def set (cpu : RegisterFile) : Reg → UInt64 → RegisterFile
  | .gpr n, v => { cpu with toRegisters := cpu.toRegisters.set_gpr n v }
  | .rip, v => { cpu with toRegisters := cpu.toRegisters.set_rip v }
  | .rflags, v => { cpu with toRegisters := cpu.toRegisters.set_rflags v }
  | .zmm n chunk, v => { cpu with toRegisters := cpu.toRegisters.set_zmm_chunk n chunk v }
  | .msr m, v => cpu.setMsr m.number v
  | .cr c, v => cpu.set_ctr c.number v
  | .ssp, _ => cpu
  | .segSelector n, v => cpu.set_seg_visible n v
  | .segBase n, v => cpu.setSegBase n v
  | .segLimit n, v => cpu.set_seg_limit n v

/-- The getter of a register. -/
def get (cpu : RegisterFile) : Reg → UInt64
  | .gpr n => cpu.toRegisters.get_gpr n
  | .rip => cpu.toRegisters.get_rip
  | .rflags => cpu.toRegisters.get_rflags
  | .zmm n chunk => cpu.toRegisters.get_zmm_chunk n chunk
  | .msr m => cpu.getMsr m.number
  | .cr c => cpu.get_ctr c.number
  | .ssp => 0
  | .segSelector n => (cpu.seg_visibles n).toUInt64
  | .segBase n => cpu.getSegBase n
  | .segLimit n => (cpu.seg_hidden_limits n).toUInt64

/-- The registers `init_harness` leaves: CR4.OSFXSR, and EFER.LMA from `initialise_64_bit_mode`. -/
def fresh : RegisterFile where
  rgfs _ := 0
  rip := 0
  rflags := 2
  zmms _ := 0
  msrs := Function.update (fun _ => 0) 0 0x400
  ctrs := Function.update (fun _ => 0) 4 0x200
  seg_visibles _ := 0
  seg_hidden_bases _ := 0
  seg_hidden_limits _ := 0

/-- The registers the model has. -/
def models : Reg → Bool
  | .ssp => false
  | .msr .uCet => false
  | .msr .sCet => false
  | _ => true

/-- What is documented to be kept: of a register the model does not have, nothing. -/
def view (r : Reg) : UInt64 → UInt64 := if models r then r.view else fun _ => 0

/-! ## Independent cells -/

variable {cpu : RegisterFile} {r r' : Reg} {v : UInt64}

/-- All names of a cell read the same. -/
theorem get_cell (cpu : RegisterFile) (r : Reg) : cpu.get r.cell = cpu.get r := by
  cases r with
  | msr m => cases m <;> rfl
  | _ => rfl

theorem view_cell (r : Reg) : view r.cell = view r := by
  cases r with
  | msr m => cases m <;> rfl
  | _ => rfl

theorem getMsr_setMsr_of_ne {m m' : Msr} (h : (Reg.msr m).cell ≠ (Reg.msr m').cell) :
    (cpu.setMsr m.number v).getMsr m'.number = cpu.getMsr m'.number := by
  cases m <;> cases m' <;> first | rfl | exact absurd rfl h

theorem get_set_of_ne (h : r.cell ≠ r'.cell) : (cpu.set r v).get r' = cpu.get r' := by
  cases r with
  | gpr n =>
    cases r' with
    | gpr k =>
      have hk : k ≠ n := by
        rintro rfl
        exact h rfl
      exact Function.update_of_ne hk ..
    | _ => rfl
  | zmm n chunk =>
    cases r' with
    | zmm k chunk' =>
      simp only [set, get, Registers.set_zmm_chunk, Registers.get_zmm_chunk,
        Nat.mod_eq_of_lt chunk.isLt, Nat.mod_eq_of_lt chunk'.isLt]
      by_cases hk : k = n
      · subst hk
        have hne : chunk'.val ≠ chunk.val := by
          intro heq
          rw [Fin.ext heq] at h
          exact h rfl
        rw [Function.update_self, chunk_setChunk _ _ chunk.isLt chunk'.isLt, if_neg hne]
      · rw [Function.update_of_ne hk]
    | _ => rfl
  | msr m =>
    cases r' with
    | msr m' => exact getMsr_setMsr_of_ne h
    | segBase k => fin_cases k <;> cases m <;> first | rfl | exact absurd rfl h
    | _ => cases m <;> rfl
  | cr c =>
    cases r' with
    | cr c' => cases c <;> cases c' <;> first | rfl | exact absurd rfl h
    | _ => cases c <;> rfl
  | segSelector n =>
    cases r' with
    | segSelector k =>
      have hk : k ≠ n := by
        rintro rfl
        exact h rfl
      exact congrArg UInt16.toUInt64 (Function.update_of_ne hk ..)
    | _ => rfl
  | segBase n =>
    cases r' with
    | msr m' => fin_cases n <;> cases m' <;> first | rfl | exact absurd rfl h
    | segBase k => fin_cases n <;> fin_cases k <;> first | rfl | exact absurd rfl h
    | _ => fin_cases n <;> rfl
  | segLimit n =>
    cases r' with
    | segLimit k =>
      have hk : k ≠ n := by
        rintro rfl
        exact h rfl
      exact congrArg UInt32.toUInt64 (Function.update_of_ne hk ..)
    | _ => rfl
  | _ => cases r' <;> first | rfl | exact absurd rfl h

/-! ## Kept writes -/

/-- What a write has to look like to read back as documented: RIP has 48 bits. -/
def Keeps : Reg × UInt64 → Prop
  | (.rip, v) => Paging.Canonical v
  | _ => True

/-- Sign extension from 48 bits gives canonical addresses. -/
theorem canonical_signExtend48 (v : BitVec 48) : Paging.Canonical (Registers.signExtend48 v) := by
  have hlt := v.isLt
  unfold Paging.Canonical Registers.signExtend48
  rw [UInt64.toNat_ofBitVec, BitVec.toNat_signExtend, BitVec.msb_eq_decide]
  simp only [BitVec.toNat_setWidth]
  by_cases hmsb : 2 ^ (48 - 1) ≤ v.toNat
  · rw [decide_eq_true hmsb, if_pos rfl]
    omega
  · rw [decide_eq_false hmsb, if_neg Bool.false_ne_true]
    omega

/-- RIP reads back exactly when it is canonical. -/
theorem get_set_rip : (cpu.set .rip v).get .rip = v ↔ Paging.Canonical v := by
  constructor
  · intro h
    rw [← h]
    exact canonical_signExtend48 _
  · intro h
    simp only [set, get, Registers.set_rip, Registers.get_rip, signExtend48_canonical h]

/-- The model keeps 32 bits of the flags. -/
theorem view_rflags : Reg.rflags.view ((cpu.set .rflags v).get .rflags) = Reg.rflags.view v := by
  have hlow : (cpu.set .rflags v).get .rflags &&& 0xFFFFFFFF = v &&& 0xFFFFFFFF := by
    apply UInt64.toBitVec_inj.1
    exact Words.setWidth_and_mask v.toBitVec (by decide)
  exact congrArg (· &&& ~~~(flagTF ||| flagRF)) hlow

theorem kept_iff (cpu : RegisterFile) (w : Reg × UInt64) :
    Cells.Kept Reg.cell view get set cpu w ↔ Keeps w := by
  obtain ⟨r, v⟩ := w
  rw [Reg.kept_iff_self get_cell view_cell]
  cases r with
  | rip => exact get_set_rip
  | rflags => exact iff_of_true view_rflags trivial
  | gpr n => exact iff_of_true (Function.update_self ..) trivial
  | zmm n chunk =>
    refine iff_of_true ?_ trivial
    simp only [view, models, if_true, set, get, Registers.set_zmm_chunk, Registers.get_zmm_chunk,
      Nat.mod_eq_of_lt chunk.isLt, Function.update_self, chunk_setChunk _ _ chunk.isLt chunk.isLt]
  | msr m => exact iff_of_true (by cases m <;> rfl) trivial
  | cr c => exact iff_of_true (by cases c <;> rfl) trivial
  | ssp => exact iff_of_true rfl trivial
  | segSelector n =>
    refine iff_of_true ?_ trivial
    simp only [view, models, set, get, set_seg_visible, Function.update_self]
    exact Words.toUInt16_and_mask v
  | segBase n => exact iff_of_true (by fin_cases n <;> rfl) trivial
  | segLimit n =>
    refine iff_of_true ?_ trivial
    simp only [view, models, set, get, set_seg_limit, Function.update_self]
    exact Words.toUInt32_and_mask v

end RegisterFile

end Sail
