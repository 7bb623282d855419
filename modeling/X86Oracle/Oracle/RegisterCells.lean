import Mathlib
import X86Oracle.Bochs.RegisterFile
import X86Oracle.Sail.RegisterFile

/-!
# The registers of the two models as cells

One log of register writes, given to a Bochs and to a Sail oracle.

* `Agree`: after it every register reads on both as last written, up to what is documented to be
  lost; what was not written reads as before; where both have the register they agree.
* `agree_iff`: this holds all along a log exactly when every write of it is `Documented`.
-/

namespace Oracle

open Cells

/-- The Bochs registers after a log of writes. -/
def bochsRun (b : Bochs.RegisterFile) (log : List (Reg × UInt64)) : Bochs.RegisterFile :=
  log.foldl (fun b w => b.set w.1 w.2) b

/-- The Sail registers after a log of writes. -/
def sailRun (s : Sail.RegisterFile) (log : List (Reg × UInt64)) : Sail.RegisterFile :=
  log.foldl (fun s w => s.set w.1 w.2) s

/-- The trait's `set_zmm`: its eight chunks, zero past the end of `data`. -/
def zmmWrites (n : Fin 32) (data : List UInt64) : List (Reg × UInt64) :=
  (List.finRange 8).map fun i => (.zmm n i, data.getD i 0)

theorem bochsRun_zmmWrites (b : Bochs.RegisterFile) (n : Fin 32) (data : List UInt64) :
    (bochsRun b (zmmWrites n data)).toRegisters = b.toRegisters.set_zmm n data := rfl

theorem sailRun_zmmWrites (s : Sail.RegisterFile) (n : Fin 32) (data : List UInt64) :
    (sailRun s (zmmWrites n data)).toRegisters = s.toRegisters.set_zmm n data := rfl

/-- What is true of the two oracles, which start in `b` and `s`, after the writes of a log. -/
structure Agree (b : Bochs.RegisterFile) (s : Sail.RegisterFile) (log : List (Reg × UInt64)) :
    Prop where
  bochs : ∀ r, ReadsBack Reg.cell Reg.view Bochs.RegisterFile.get Bochs.RegisterFile.set b log r
  sail : ∀ r, ReadsBack Reg.cell Sail.RegisterFile.view Sail.RegisterFile.get
    Sail.RegisterFile.set s log r
  agree : ∀ r, Sail.RegisterFile.models r = true → (lastWrite Reg.cell log r.cell).isSome →
    r.view ((bochsRun b log).get r) = r.view ((sailRun s log).get r)
  /-- No write has panicked. -/
  alive : (bochsRun b log).panics = b.panics

/-- The writes that read back, given the Bochs registers they are made in: RIP canonical, bit 1 of
the flags set, IA32_FMASK within 32 bits, ET of CR0 set, CR8 zero; and while EFER.LMA is set VM is
not. -/
def Documented (b : Bochs.RegisterFile) : Reg × UInt64 → Prop
  | (.rip, v) => Paging.Canonical v
  | (.rflags, v) => v.toBitVec.getLsbD 1 = true ∧
      (b.longMode = true → v.toBitVec.getLsbD 17 = false ∧ b.flags.eflags.getLsbD 17 = false)
  | (.msr .fmask, v) => v.toNat < 2 ^ 32
  | (.cr .cr0, v) => v.toBitVec.getLsbD 4 = true
  | (.cr .cr8, v) => v = 0
  | _ => True

/-- Only a write to the flags can panic. -/
theorem panics_set (b : Bochs.RegisterFile) {r : Reg} (h : r ≠ .rflags) (v : UInt64) :
    (b.set r v).panics = b.panics := by
  cases r with
  | rflags => exact absurd rfl h
  | msr m => cases m <;> rfl
  | cr c => cases c <;> rfl
  | _ => rfl

/-- It does when VM is set in long mode. -/
theorem panics_set_rflags (b : Bochs.RegisterFile) (v : UInt64) :
    (b.set .rflags v).panics = b.panics ↔
      (b.longMode = true → b.flags.eflags.getLsbD 17 = false) := by
  have hpanics : (b.set .rflags v).panics =
      b.panics + if b.longMode && b.flags.eflags.getLsbD 17 then 1 else 0 := rfl
  rw [hpanics]
  cases b.longMode with
  | false => simp
  | true => cases b.flags.eflags.getLsbD 17 <;> simp

theorem documented_iff (b : Bochs.RegisterFile) (w : Reg × UInt64) :
    Documented b w ↔ b.Keeps w ∧ Sail.RegisterFile.Keeps w ∧
      (b.set w.1 w.2).panics = b.panics := by
  obtain ⟨r, v⟩ := w
  cases r with
  | rip => exact ⟨fun h => ⟨trivial, h, rfl⟩, fun h => h.2.1⟩
  | rflags =>
    rw [panics_set_rflags]
    constructor
    · exact fun h => ⟨⟨h.1, fun hl => (h.2 hl).1⟩, trivial, fun hl => (h.2 hl).2⟩
    · exact fun h => ⟨h.1.1, fun hl => ⟨h.1.2 hl, h.2.2 hl⟩⟩
  | msr m =>
    have hpanics := panics_set b (r := .msr m) Reg.noConfusion v
    cases m with
    | fmask => exact ⟨fun h => ⟨h, trivial, hpanics⟩, fun h => h.1⟩
    | _ => exact iff_of_true trivial ⟨trivial, trivial, hpanics⟩
  | cr c =>
    have hpanics := panics_set b (r := .cr c) Reg.noConfusion v
    cases c with
    | cr0 => exact ⟨fun h => ⟨h, trivial, hpanics⟩, fun h => h.1⟩
    | cr8 => exact ⟨fun h => ⟨h, trivial, hpanics⟩, fun h => h.1⟩
    | _ => exact iff_of_true trivial ⟨trivial, trivial, hpanics⟩
  | _ => exact iff_of_true trivial ⟨trivial, trivial, panics_set b Reg.noConfusion v⟩

/-- **The register accessors are independent cells on which the two models agree, all along a log,
exactly when every write of the log reads back.** -/
theorem agree_iff (b : Bochs.RegisterFile) (s : Sail.RegisterFile) (log : List (Reg × UInt64)) :
    (∀ pre, pre <+: log → Agree b s pre) ↔
      ∀ pre w, pre ++ [w] <+: log → Documented (bochsRun b pre) w := by
  have hbochs :=
    @tracked_iff _ _ _ _ Reg.cell Bochs.RegisterFile.get Bochs.RegisterFile.set Reg.view _
    (fun _ _ _ _ h => Bochs.RegisterFile.get_set_of_ne h) b log
  have hsail := @tracked_iff _ _ _ _ Reg.cell Sail.RegisterFile.get Sail.RegisterFile.set
    Sail.RegisterFile.view _ (fun _ _ _ _ h => Sail.RegisterFile.get_set_of_ne h) s log
  constructor
  · intro h pre w hpre
    have hbefore : pre <+: log := (List.prefix_append pre [w]).trans hpre
    have halive : ((bochsRun b pre).set w.1 w.2).panics = (bochsRun b pre).panics := by
      have hafter := (h _ hpre).alive
      rw [bochsRun, List.foldl_append] at hafter
      exact hafter.trans (h pre hbefore).alive.symm
    refine (documented_iff _ w).2 ⟨?_, ?_, halive⟩
    · exact (Bochs.RegisterFile.kept_iff _ w).1
        (hbochs.1 (fun pre hpre => (h pre hpre).bochs) pre w hpre)
    · exact (Sail.RegisterFile.kept_iff (sailRun s pre) w).1
        (hsail.1 (fun pre hpre => (h pre hpre).sail) pre w hpre)
  · intro h pre hpre
    have hread := hbochs.2 (fun pre w hpre => (Bochs.RegisterFile.kept_iff _ w).2
      ((documented_iff _ w).1 (h pre w hpre)).1) pre hpre
    have hread' := hsail.2 (fun pre w hpre => (Sail.RegisterFile.kept_iff _ w).2
      ((documented_iff _ w).1 (h pre w hpre)).2.1) pre hpre
    refine ⟨hread, hread', fun r hmodels hwritten => ?_, ?_⟩
    · -- both are the value last written
      obtain ⟨w, hw⟩ := Option.isSome_iff_exists.1 hwritten
      have hone := hread r
      have htwo := hread' r
      have hview : Sail.RegisterFile.view r = r.view := if_pos hmodels
      unfold ReadsBack at hone htwo
      rw [hw] at hone htwo
      rw [hview] at htwo
      exact hone.trans htwo.symm
    · clear hread hread'
      induction pre using List.reverseRecOn with
      | nil => rfl
      | append_singleton pre w ih =>
        have hbefore : pre <+: log := (List.prefix_append pre [w]).trans hpre
        have hlast := ((documented_iff _ w).1 (h pre w hpre)).2.2
        rw [bochsRun, List.foldl_append]
        exact hlast.trans (ih hbefore)

/-- CR8 is written and reads as zero. -/
theorem cr8_dropped :
    ¬ ∀ log, Agree Bochs.RegisterFile.fresh Sail.RegisterFile.fresh log := by
  intro h
  have hread : (0 : UInt64) = 5 := (h [(.cr .cr8, 5)]).bochs (.cr .cr8)
  exact absurd hread (by decide)

end Oracle
