import Mathlib
import X86Oracle.Lib.Cells
import X86Oracle.Oracle.RegisterNames
import X86Oracle.Bochs.Registers

/-!
# Bochs: every register of the trait

The register, MSR, control register and segment accessors of `csrc/bochs_shim.cpp`, over the
registers of `Bochs.Registers` and the fields they reach besides.

* `RegisterFile.get_set_of_ne`: a write changes no other cell.
* `RegisterFile.kept_iff`: the writes that read back as documented.
-/

namespace Bochs

open Oracle

/-- What the accessors reach of `bx_segment_reg_t`. -/
structure Segment where
  selector : UInt16
  base : UInt64
  limit_scaled : UInt32

structure RegisterFile extends Registers where
  ssp : UInt64
  sregs : Fin 6 → Segment
  cr0 : UInt32
  cr2 : UInt64
  cr3 : UInt64
  cr4 : UInt64
  efer : UInt32
  star : UInt64
  lstar : UInt64
  fmask : UInt32
  kernelgsbase : UInt64
  ia32_cet_control : Fin 2 → UInt64
  /-- How often `BX_PANIC` was reached, which ends the process. -/
  panics : ℕ
  /-- `long_mode()` is EFER.LMA. -/
  long : longMode = efer.toBitVec.getLsbD 10

namespace RegisterFile

/-- `efer.set32`. -/
def setEfer (cpu : RegisterFile) (v : UInt64) : RegisterFile :=
  { cpu with efer := v.toUInt32, longMode := v.toUInt32.toBitVec.getLsbD 10, long := rfl }

def setSegment (cpu : RegisterFile) (n : Fin 6) (seg : Segment) : RegisterFile :=
  { cpu with sregs := Function.update cpu.sregs n seg }

def setSegBase (cpu : RegisterFile) (n : Fin 6) (v : UInt64) : RegisterFile :=
  cpu.setSegment n { cpu.sregs n with base := v }

/-- `x86oracle_bochs_set_rflags`.  Writing the flags with VM set in long mode is a panic. -/
def setRflags (cpu : RegisterFile) (v : UInt64) : RegisterFile :=
  { cpu with
    toRegisters := cpu.toRegisters.set_rflags v
    panics := cpu.panics + if cpu.longMode && cpu.flags.eflags.getLsbD 17 then 1 else 0
    long := cpu.long }

/-- `x86oracle_bochs_set_msr`. -/
def setMsr (cpu : RegisterFile) (msr : ℕ) (v : UInt64) : RegisterFile :=
  if msr = 0xC0000080 then cpu.setEfer v
  else if msr = 0xC0000081 then { cpu with star := v }
  else if msr = 0xC0000082 then { cpu with lstar := v }
  else if msr = 0xC0000084 then { cpu with fmask := v.toUInt32 }
  else if msr = 0xC0000100 then cpu.setSegBase segFs v
  else if msr = 0xC0000101 then cpu.setSegBase segGs v
  else if msr = 0xC0000102 then { cpu with kernelgsbase := v }
  else if msr = 0x6A2 then
    { cpu with ia32_cet_control := Function.update cpu.ia32_cet_control 0 v }
  else if msr = 0x6A0 then
    { cpu with ia32_cet_control := Function.update cpu.ia32_cet_control 1 v }
  else cpu

/-- `x86oracle_bochs_get_msr`. -/
def getMsr (cpu : RegisterFile) (msr : ℕ) : UInt64 :=
  if msr = 0xC0000080 then cpu.efer.toUInt64
  else if msr = 0xC0000081 then cpu.star
  else if msr = 0xC0000082 then cpu.lstar
  else if msr = 0xC0000084 then cpu.fmask.toUInt64
  else if msr = 0xC0000100 then (cpu.sregs segFs).base
  else if msr = 0xC0000101 then (cpu.sregs segGs).base
  else if msr = 0xC0000102 then cpu.kernelgsbase
  else if msr = 0x6A2 then cpu.ia32_cet_control 0
  else if msr = 0x6A0 then cpu.ia32_cet_control 1
  else 0

/-- `x86oracle_bochs_set_cr`: CR8 is not among the cases; ET of CR0 is hardwired. -/
def setCr (cpu : RegisterFile) (n : ℕ) (v : UInt64) : RegisterFile :=
  if n = 0 then { cpu with cr0 := v.toUInt32 ||| 0x10 }
  else if n = 2 then { cpu with cr2 := v }
  else if n = 3 then { cpu with cr3 := v }
  else if n = 4 then { cpu with cr4 := v }
  else cpu

/-- `x86oracle_bochs_get_cr`. -/
def getCr (cpu : RegisterFile) (n : ℕ) : UInt64 :=
  if n = 0 then cpu.cr0.toUInt64
  else if n = 2 then cpu.cr2
  else if n = 3 then cpu.cr3
  else if n = 4 then cpu.cr4
  else 0

/-- The setter of a register. -/
def set (cpu : RegisterFile) : Reg → UInt64 → RegisterFile
  | .gpr n, v => { cpu with toRegisters := cpu.toRegisters.set_gpr n v, long := cpu.long }
  | .rip, v => { cpu with toRegisters := cpu.toRegisters.set_rip v, long := cpu.long }
  | .rflags, v => cpu.setRflags v
  | .zmm n chunk, v =>
    { cpu with toRegisters := cpu.toRegisters.set_zmm_chunk n chunk v, long := cpu.long }
  | .msr m, v => cpu.setMsr m.number v
  | .cr c, v => cpu.setCr c.number v
  | .ssp, v => { cpu with ssp := v }
  | .segSelector n, v => cpu.setSegment n { cpu.sregs n with selector := v.toUInt16 }
  | .segBase n, v => cpu.setSegBase n v
  | .segLimit n, v => cpu.setSegment n { cpu.sregs n with limit_scaled := v.toUInt32 }

/-- The getter of a register. -/
def get (cpu : RegisterFile) : Reg → UInt64
  | .gpr n => cpu.toRegisters.get_gpr n
  | .rip => cpu.toRegisters.get_rip
  | .rflags => cpu.toRegisters.get_rflags
  | .zmm n chunk => cpu.vmm n chunk
  | .msr m => cpu.getMsr m.number
  | .cr c => cpu.getCr c.number
  | .ssp => cpu.ssp
  | .segSelector n => (cpu.sregs n).selector.toUInt64
  | .segBase n => (cpu.sregs n).base
  | .segLimit n => (cpu.sregs n).limit_scaled.toUInt64

/-- The registers `x86oracle_bochs_new` leaves: those of `enter_long_mode`, and the MSRs of
`reset`. -/
def fresh : RegisterFile where
  gen_reg _ := 0
  rip := 0
  prev_rip := 0
  flags := { eflags := 2, oszapc := LazyFlags.setEFlagsOSZAPC { result := 1, auxbits := 0 } 2 }
  longMode := true
  vmm _ _ := 0
  ssp := 0
  sregs n :=
    { selector := if n = segCs then 0x10 else 0x18, base := 0, limit_scaled := 0xFFFFFFFF }
  cr0 := 0x80050033
  cr2 := 0
  cr3 := 0x7FC0000000
  cr4 := 0x00040220
  efer := 0xD00
  star := 0
  lstar := 0
  fmask := 0x00020200
  kernelgsbase := 0
  ia32_cet_control _ := 0
  panics := 0
  long := rfl

/-! ## Independent cells -/

variable {cpu : RegisterFile} {r r' : Reg} {v : UInt64}

/-- All names of a cell read the same. -/
theorem get_cell (cpu : RegisterFile) (r : Reg) : cpu.get r.cell = cpu.get r := by
  cases r with
  | msr m => cases m <;> rfl
  | _ => rfl

/-- A write to one segment is not seen in another. -/
theorem sregs_setSegment_of_ne {n k : Fin 6} (h : k ≠ n) (seg : Segment) :
    (cpu.setSegment n seg).sregs k = cpu.sregs k :=
  Function.update_of_ne h ..

theorem sregs_setSegment_self (n : Fin 6) (seg : Segment) :
    (cpu.setSegment n seg).sregs n = seg :=
  Function.update_self ..

/-- What a write to a segment keeps of it is the same in every segment. -/
theorem field_setSegment {α : Type} (f : Segment → α) {n k : Fin 6} {seg : Segment}
    (h : f seg = f (cpu.sregs n)) : f ((cpu.setSegment n seg).sregs k) = f (cpu.sregs k) := by
  by_cases hk : k = n
  · rw [hk, sregs_setSegment_self, h]
  · rw [sregs_setSegment_of_ne hk]

theorem getMsr_setSegBase {n : Fin 6} {m : Msr} (h : Reg.segBase n ≠ (Reg.msr m).cell) :
    (cpu.setSegBase n v).getMsr m.number = cpu.getMsr m.number := by
  have hbase : ∀ k, k ≠ n → ((cpu.setSegBase n v).sregs k).base = (cpu.sregs k).base :=
    fun k hk => congrArg Segment.base (sregs_setSegment_of_ne hk _)
  cases m with
  | fsBase => exact hbase segFs fun heq => h (heq ▸ rfl)
  | gsBase => exact hbase segGs fun heq => h (heq ▸ rfl)
  | _ => rfl

theorem getMsr_setMsr_of_ne {m m' : Msr} (h : (Reg.msr m).cell ≠ (Reg.msr m').cell) :
    (cpu.setMsr m.number v).getMsr m'.number = cpu.getMsr m'.number := by
  cases m <;> cases m' <;> first | rfl | exact absurd rfl h

/-- Of the segments an MSR write reaches the bases of FS and GS only. -/
theorem sregs_setMsr (m : Msr) (k : Fin 6) :
    ((cpu.setMsr m.number v).sregs k).selector = (cpu.sregs k).selector ∧
      ((cpu.setMsr m.number v).sregs k).limit_scaled = (cpu.sregs k).limit_scaled ∧
      ((Reg.msr m).cell ≠ .segBase k →
        ((cpu.setMsr m.number v).sregs k).base = (cpu.sregs k).base) := by
  have hseg : ∀ n, ((cpu.setSegBase n v).sregs k).selector = (cpu.sregs k).selector ∧
      ((cpu.setSegBase n v).sregs k).limit_scaled = (cpu.sregs k).limit_scaled ∧
      (Reg.segBase n ≠ .segBase k →
        ((cpu.setSegBase n v).sregs k).base = (cpu.sregs k).base) := by
    refine fun n => ⟨field_setSegment Segment.selector rfl,
      field_setSegment Segment.limit_scaled rfl, fun hne => ?_⟩
    have hk : k ≠ n := by
      rintro rfl
      exact hne rfl
    rw [setSegBase, sregs_setSegment_of_ne hk]
  cases m with
  | fsBase => exact hseg segFs
  | gsBase => exact hseg segGs
  | _ => exact ⟨rfl, rfl, fun _ => rfl⟩

theorem get_set_of_ne (h : r.cell ≠ r'.cell) : (cpu.set r v).get r' = cpu.get r' := by
  cases r with
  | gpr n =>
    cases r' with
    | gpr k =>
      have hk : k ≠ n := by
        rintro rfl
        exact h rfl
      exact Function.update_of_ne hk ..
    | _ => rfl
  | zmm n chunk =>
    cases r' with
    | zmm k chunk' =>
      have hchunk : Fin.ofNat 8 chunk.val = chunk := Fin.ofNat_val_eq_self chunk
      by_cases hk : k = n
      · subst hk
        have hne : chunk' ≠ chunk := fun heq => h (heq ▸ rfl)
        simp only [set, get, Registers.set_zmm_chunk, Function.update_self, hchunk]
        exact Function.update_of_ne hne ..
      · simp only [set, get, Registers.set_zmm_chunk, Function.update_of_ne hk]
    | _ => rfl
  | msr m =>
    cases r' with
    | msr m' => exact getMsr_setMsr_of_ne h
    | segSelector k => exact congrArg UInt16.toUInt64 (sregs_setMsr m k).1
    | segLimit k => exact congrArg UInt32.toUInt64 (sregs_setMsr m k).2.1
    | segBase k => exact (sregs_setMsr m k).2.2 h
    | _ => cases m <;> rfl
  | cr c =>
    cases r' with
    | cr c' => cases c <;> cases c' <;> first | rfl | exact absurd rfl h
    | _ => cases c <;> rfl
  | segSelector n =>
    cases r' with
    | msr m' => cases m' <;> first | rfl | exact field_setSegment Segment.base rfl
    | segSelector k =>
      have hk : k ≠ n := by
        rintro rfl
        exact h rfl
      exact congrArg (·.selector.toUInt64) (sregs_setSegment_of_ne hk _)
    | segBase k => exact field_setSegment Segment.base rfl
    | segLimit k => exact congrArg UInt32.toUInt64 (field_setSegment Segment.limit_scaled rfl)
    | _ => rfl
  | segBase n =>
    cases r' with
    | msr m' => exact getMsr_setSegBase h
    | segSelector k => exact congrArg UInt16.toUInt64 (field_setSegment Segment.selector rfl)
    | segBase k =>
      have hk : k ≠ n := by
        rintro rfl
        exact h rfl
      exact congrArg Segment.base (sregs_setSegment_of_ne hk _)
    | segLimit k => exact congrArg UInt32.toUInt64 (field_setSegment Segment.limit_scaled rfl)
    | _ => rfl
  | segLimit n =>
    cases r' with
    | msr m' => cases m' <;> first | rfl | exact field_setSegment Segment.base rfl
    | segSelector k => exact congrArg UInt16.toUInt64 (field_setSegment Segment.selector rfl)
    | segBase k => exact field_setSegment Segment.base rfl
    | segLimit k =>
      have hk : k ≠ n := by
        rintro rfl
        exact h rfl
      exact congrArg (·.limit_scaled.toUInt64) (sregs_setSegment_of_ne hk _)
    | _ => rfl
  | _ => cases r' <;> first | rfl | exact absurd rfl h

/-! ## Kept writes -/

/-- What a write has to look like to read back as documented: bit 1 of the flags is forced, VM
cannot be set in long mode, IA32_FMASK has 32 bits, ET of CR0 is forced and CR8 is dropped. -/
def Keeps (cpu : RegisterFile) : Reg × UInt64 → Prop
  | (.rflags, v) => v.toBitVec.getLsbD 1 = true ∧
      (cpu.longMode = true → v.toBitVec.getLsbD 17 = false)
  | (.msr .fmask, v) => v.toNat < 2 ^ 32
  | (.cr .cr0, v) => v.toBitVec.getLsbD 4 = true
  | (.cr .cr8, v) => v = 0
  | _ => True

/-- The flags as they read back after a write. -/
theorem get_set_rflags (cpu : RegisterFile) (v : UInt64) : (cpu.set .rflags v).get .rflags =
    UInt64.ofBitVec (((if cpu.longMode then
      ((v.toBitVec.setWidth 32 &&& ~~~kHarnessFlags) ||| 2) &&& ~~~EFlagsVMMask
      else (v.toBitVec.setWidth 32 &&& ~~~kHarnessFlags) ||| 2) &&&
          ~~~kHarnessFlags).setWidth 64) := by
  rw [← Flags.read_setEFlags cpu.flags]
  rfl

/-- The flags read back up to TF and RF exactly when bit 1 is set and VM need not be dropped. -/
theorem view_rflags : Reg.rflags.view ((cpu.set .rflags v).get .rflags) = Reg.rflags.view v ↔
    v.toBitVec.getLsbD 1 = true ∧ (cpu.longMode = true → v.toBitVec.getLsbD 17 = false) := by
  rw [get_set_rflags]
  constructor
  · intro h
    have hone := congrArg (fun x : UInt64 => x.toBitVec.getLsbD 1) h
    have hvm := congrArg (fun x : UInt64 => x.toBitVec.getLsbD 17) h
    cases hlong : cpu.longMode with
    | false =>
      simp [Reg.view, kHarnessFlags, flagTF, flagRF, hlong] at hone
      simp [hone]
    | true =>
      simp [Reg.view, kHarnessFlags, EFlagsVMMask, flagTF, flagRF, hlong] at hone hvm
      simp [hone, hvm]
  · rintro ⟨hone, hvm⟩
    apply UInt64.toBitVec_inj.1
    apply BitVec.eq_of_getLsbD_eq
    intro i hi
    have hone : v.toBitVec[1] = true := hone
    cases hlong : cpu.longMode with
    | false =>
      interval_cases i <;> simp [Reg.view, kHarnessFlags, flagTF, flagRF, hone]
    | true =>
      have hvm : v.toBitVec[17] = false := hvm hlong
      interval_cases i <;> simp [Reg.view, kHarnessFlags, EFlagsVMMask, flagTF, flagRF, hone, hvm]

/-- CR0 reads back up to its high half exactly when ET is set. -/
theorem view_cr0 : (Reg.cr .cr0).view ((cpu.set (.cr .cr0) v).get (.cr .cr0)) =
    (Reg.cr .cr0).view v ↔ v.toBitVec.getLsbD 4 = true := by
  have hbits : ((cpu.set (.cr .cr0) v).get (.cr .cr0)).toBitVec =
      (v.toBitVec.setWidth 32 ||| 0x10).setWidth 64 := rfl
  constructor
  · intro h
    have het := congrArg (fun x : UInt64 => x.toBitVec.getLsbD 4) h
    simp [Reg.view, hbits] at het
    simp [het]
  · intro het
    have het : v.toBitVec[4] = true := het
    apply UInt64.toBitVec_inj.1
    apply BitVec.eq_of_getLsbD_eq
    intro i hi
    simp only [Reg.view, UInt64.toBitVec_and, hbits]
    interval_cases i <;> simp [het]

/-- IA32_FMASK reads back exactly what fits its 32 bits. -/
theorem get_set_fmask : (cpu.set (.msr .fmask) v).get (.msr .fmask) = v ↔ v.toNat < 2 ^ 32 := by
  have hget : (cpu.set (.msr .fmask) v).get (.msr .fmask) = v.toUInt32.toUInt64 := rfl
  rw [hget, ← UInt64.toNat_inj, UInt32.toNat_toUInt64, UInt64.toNat_toUInt32]
  constructor
  · exact fun h => h ▸ Nat.mod_lt _ (by decide)
  · exact Nat.mod_eq_of_lt

theorem kept_iff (cpu : RegisterFile) (w : Reg × UInt64) :
    Cells.Kept Reg.cell Reg.view get set cpu w ↔ cpu.Keeps w := by
  obtain ⟨r, v⟩ := w
  rw [Reg.kept_iff_self get_cell Reg.view_cell]
  cases r with
  | rflags => exact view_rflags
  | cr c =>
    cases c with
    | cr0 => exact view_cr0
    | cr8 => exact eq_comm
    | _ => exact iff_of_true rfl trivial
  | gpr n => exact iff_of_true (Function.update_self ..) trivial
  | zmm n chunk =>
    refine iff_of_true ?_ trivial
    have hchunk : Fin.ofNat 8 chunk.val = chunk := Fin.ofNat_val_eq_self chunk
    simp only [set, get, Registers.set_zmm_chunk, Function.update_self, hchunk]
  | msr m =>
    cases m with
    | efer => exact iff_of_true (Words.toUInt32_and_mask v) trivial
    | fmask => exact get_set_fmask
    | fsBase => exact iff_of_true (congrArg Segment.base (sregs_setSegment_self ..)) trivial
    | gsBase => exact iff_of_true (congrArg Segment.base (sregs_setSegment_self ..)) trivial
    | _ => exact iff_of_true rfl trivial
  | segSelector n =>
    refine iff_of_true ?_ trivial
    simp only [set, get, sregs_setSegment_self]
    exact Words.toUInt16_and_mask v
  | segBase n => exact iff_of_true (congrArg Segment.base (sregs_setSegment_self ..)) trivial
  | segLimit n =>
    refine iff_of_true ?_ trivial
    simp only [set, get, sregs_setSegment_self]
    exact Words.toUInt32_and_mask v
  | _ => exact iff_of_true rfl trivial

end RegisterFile

end Bochs
