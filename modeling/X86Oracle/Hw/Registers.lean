import Mathlib
import X86Oracle.Oracle.Snapshot
import X86Oracle.Hw.Xsave

/-!
# KVM and WHP: register accessors

Both hardware backends keep the general registers in the vCPU and the vector registers in its
XSAVE image, which every access copies out and every write copies back in.

* `Host` is what the hypervisor provides: the layout of its images, and what an image looks like
  after it was set and is read again.
* `VCpu` holds such an image, so that the invariant of a readable image is part of the type.
* `refines`: the accessors of either backend refine the cells of a snapshot.
-/

namespace Hw

open Oracle Bytes

/-! ## The hypervisor -/

/-- An image as the hypervisor returns it: of its own length, and with zeros for the components
it marks absent. -/
structure Settled (layout : XsaveLayout) (len : ℕ) (img : XsaveImage) : Prop where
  len_eq : img.len = len
  absent : ∀ p b, layout.base len p = some b → img.present p = false →
    ∀ x, b ≤ x → x < b + p.size → img.bytes x = 0

/-- A hypervisor: the layout of its XSAVE images, and the image it returns after one was set. A
component comes back as it was set, or in its initial state if it was marked absent. -/
structure Host where
  layout : XsaveLayout
  len : ℕ
  sound : layout.Sound len
  reload : XsaveImage → XsaveImage
  settled : ∀ img, img.len = len → Settled layout len (reload img)
  reload_bytes : ∀ img p b, layout.base len p = some b → ∀ x, b ≤ x → x < b + p.size →
    (reload img).bytes x = if img.present p then img.bytes x else 0

namespace Host

/-- Byte `x` lies in a component the image marks absent. -/
def absentAt (layout : XsaveLayout) (len : ℕ) (img : XsaveImage) (x : ℕ) : Bool :=
  [Part.xmm, .ymmHi, .zmmHi, .hi16].any fun p =>
    !img.present p && (layout.base len p).any fun b => decide (b ≤ x ∧ x < b + p.size)

theorem absentAt_iff (layout : XsaveLayout) (len : ℕ) (img : XsaveImage) (x : ℕ) :
    absentAt layout len img x = true ↔
      ∃ p b, layout.base len p = some b ∧ img.present p = false ∧ b ≤ x ∧ x < b + p.size := by
  unfold absentAt
  simp only [List.any_eq_true, Bool.and_eq_true, Bool.not_eq_true', Option.any_eq_true,
    decide_eq_true_eq]
  constructor
  · rintro ⟨p, -, habsent, b, hb, hin⟩
    exact ⟨p, b, hb, habsent, hin⟩
  · rintro ⟨p, b, hb, habsent, hin⟩
    exact ⟨p, by cases p <;> simp, habsent, b, hb, hin⟩

/-- The image with its absent components cleared. -/
def clearAbsent (layout : XsaveLayout) (len : ℕ) (img : XsaveImage) : XsaveImage :=
  { img with bytes := fun x => if absentAt layout len img x then 0 else img.bytes x }

/-- Clearing components leaves XSTATE_BV alone. -/
theorem present_clearAbsent {layout : XsaveLayout} {len : ℕ} (sound : layout.Sound len)
    (img : XsaveImage) (p : Part) : (clearAbsent layout len img).present p = img.present p := by
  have hheader (x : ℕ) (hx : 512 ≤ x) (hx' : x < 520) : absentAt layout len img x = false := by
    rw [← Bool.not_eq_true, absentAt_iff]
    rintro ⟨q, b, hb, -, hle, hlt⟩
    by_cases hq : q = .xmm
    · subst hq
      obtain rfl : xsaveXmmOffset = b := Option.some.inj hb
      simp only [xsaveXmmOffset, Part.size] at hlt
      omega
    · have := sound.above q b hq hb
      omega
  have hbyte (i : ℕ) (hi : i < 8) : (clearAbsent layout len img).bytes (xsaveXstateBv + i) =
      img.bytes (xsaveXstateBv + i) := by
    have hx : xsaveXstateBv = 512 := rfl
    have hnot := hheader (xsaveXstateBv + i) (by omega) (by omega)
    simp only [clearAbsent, hnot, Bool.false_eq_true, if_false]
  have hread := Store.readLe_congr hbyte
  unfold XsaveImage.present XsaveImage.xstateBv
  rw [hread]

/-- A host that keeps every byte of a present component and clears the absent ones. -/
def ofLayout (layout : XsaveLayout) (len : ℕ) (sound : layout.Sound len) : Host where
  layout := layout
  len := len
  sound := sound
  reload := clearAbsent layout len
  settled img hlen := by
    refine ⟨hlen, fun p b hb habsent x hle hlt => if_pos ?_⟩
    rw [present_clearAbsent sound] at habsent
    exact (absentAt_iff ..).2 ⟨p, b, hb, habsent, hle, hlt⟩
  reload_bytes img p b hb x hle hlt := by
    cases hpresent : img.present p with
    | false =>
      have habsent : absentAt layout len img x = true :=
        (absentAt_iff ..).2 ⟨p, b, hb, hpresent, hle, hlt⟩
      simp [clearAbsent, habsent]
    | true =>
      have hnot : absentAt layout len img x = false := by
        rw [← Bool.not_eq_true, absentAt_iff]
        rintro ⟨q, c, hc, hq, hle', hlt'⟩
        have hne : p ≠ q := by
          rintro rfl
          rw [hq] at hpresent
          nomatch hpresent
        have := sound.apart p q b c hne hb hc
        omega
      simp [clearAbsent, hnot]

/-- The standard format with AVX-512: the offsets and sizes processors report. -/
def avx512 : XsaveLayout :=
  { ymmHi := some ⟨576, 256⟩, zmmHi := some ⟨1152, 512⟩, zmmHi16 := some ⟨1664, 1024⟩ }

theorem avx512_sound : avx512.Sound 4096 where
  header := by norm_num
  inside p b hb := by
    cases p <;> cases hb <;> decide
  above p b hp hb := by
    cases p <;> cases hb <;> first | exact absurd rfl hp | decide
  apart p q b c hne hb hc := by
    cases p <;> cases q <;> cases hb <;> cases hc <;> first | exact absurd rfl hne | decide

end Host

/-- A vCPU: the registers a snapshot covers. -/
structure VCpu (host : Host) where
  gpr : Fin 16 → UInt64
  rip : UInt64
  rflags : UInt64
  xsave : XsaveImage
  settled : Settled host.layout host.len xsave

namespace VCpu

variable {host : Host}

def set_gpr (cpu : VCpu host) (n : Fin 16) (value : UInt64) : VCpu host :=
  { cpu with gpr := Function.update cpu.gpr n value }

def get_gpr (cpu : VCpu host) (n : Fin 16) : UInt64 := cpu.gpr n

def set_rip (cpu : VCpu host) (value : UInt64) : VCpu host := { cpu with rip := value }

def get_rip (cpu : VCpu host) : UInt64 := cpu.rip

def set_rflags (cpu : VCpu host) (value : UInt64) : VCpu host :=
  { cpu with rflags := (value &&& ~~~(flagTF ||| flagRF)) ||| 0x2 }

def get_rflags (cpu : VCpu host) : UInt64 := cpu.rflags &&& ~~~(flagTF ||| flagRF)

/-- `KVM_SET_XSAVE`, `WHvSetVirtualProcessorXsaveState`: the image has the length it was read
with. -/
def set_xsave (cpu : VCpu host) (img : XsaveImage) : VCpu host :=
  if h : img.len = host.len then
    { cpu with xsave := host.reload img, settled := host.settled img h }
  else cpu

/-- A panic in `xsave_set_zmm`, which a sound layout rules out, leaves the vCPU as it was. -/
def set_zmm (cpu : VCpu host) (n : Fin 32) (data : List UInt64) : VCpu host :=
  (xsaveSetZmm cpu.xsave host.layout n data).elim cpu cpu.set_xsave

def get_zmm (cpu : VCpu host) (n : Fin 32) (i : Fin 8) : UInt64 :=
  (xsaveGetZmm cpu.xsave host.layout n).elim 0 fun out => out i

end VCpu

/-- `KvmOracle`. -/
def kvmOracle (host : Host) : X86Oracle (VCpu host) :=
  { setGpr := VCpu.set_gpr
    getGpr := VCpu.get_gpr
    setRip := VCpu.set_rip
    getRip := VCpu.get_rip
    setRflags := VCpu.set_rflags
    getRflags := VCpu.get_rflags
    setZmm := VCpu.set_zmm
    getZmm := VCpu.get_zmm }

/-- `WhpOracle`: another hypervisor interface to the same registers. -/
def whpOracle (host : Host) : X86Oracle (VCpu host) := kvmOracle host

/-- A hardware backend has room for the chunks that have a slot in the image; the flags word
loses TF and RF and gains bit 1. -/
def storage (host : Host) : Storage :=
  { flags := harnessFlags
    holds := fun n i => (host.layout.slot host.len n i).isSome }

/-! ## The accessors refine the cells -/

section Refines

variable {host : Host}

theorem get_zmm_eq (cpu : VCpu host) (n : Fin 32) (i : Fin 8) :
    cpu.get_zmm n i = cpu.xsave.chunkAt (host.layout.slot host.len n i) := by
  have hsound : host.layout.Sound cpu.xsave.len := cpu.settled.len_eq ▸ host.sound
  unfold VCpu.get_zmm
  rw [xsaveGetZmm_spec hsound n.isLt, cpu.settled.len_eq]
  exact if_pos i.isLt

/-- A word in a component reads after `reload` as before, or as zero if the component was marked
absent. -/
theorem reload_readLe {img : XsaveImage} {n i a : ℕ} (hi : i < 8)
    (ha : host.layout.slot host.len n i = some a) :
    (host.reload img).bytes.readLe 8 a =
      if img.present (partOf n i) then img.bytes.readLe 8 a else 0 := by
  obtain ⟨b, hb, rfl⟩ := slot_eq_some ha
  have hle := chunkOffset_le (n := n) hi
  have hbyte (k : ℕ) (hk : k < 8) := host.reload_bytes img _ b hb (b + chunkOffset n i + k)
    (by omega) (by omega)
  cases hpresent : img.present (partOf n i) with
  | true =>
    simp only [hpresent, if_true] at hbyte ⊢
    exact Store.readLe_congr hbyte
  | false =>
    simp only [hpresent, Bool.false_eq_true, if_false] at hbyte ⊢
    exact Store.readLe_eq_zero hbyte

/-- The same for an image the hypervisor returned: absent components already are zero. -/
theorem settled_readLe {img : XsaveImage} (h : Settled host.layout host.len img) {n i a : ℕ}
    (hi : i < 8) (ha : host.layout.slot host.len n i = some a)
    (habsent : img.present (partOf n i) = false) : img.bytes.readLe 8 a = 0 := by
  obtain ⟨b, hb, rfl⟩ := slot_eq_some ha
  have hle := chunkOffset_le (n := n) hi
  exact Store.readLe_eq_zero fun k hk =>
    h.absent _ b hb habsent _ (by omega) (by omega)

/-- Writing one register through the hypervisor sets its chunks and keeps all others. -/
theorem get_set_zmm (cpu : VCpu host) (n m : Fin 32) (i : Fin 8) (data : List UInt64) :
    (cpu.set_zmm n data).get_zmm m i =
      if m = n then bif (storage host).holds n i then data.getD i 0 else 0
      else cpu.get_zmm m i := by
  have hlen := cpu.settled.len_eq
  have hsound : host.layout.Sound cpu.xsave.len := hlen ▸ host.sound
  obtain ⟨img, hset, hw⟩ := xsaveSetZmm_spec hsound n.isLt data
  have himg : img.len = host.len := hw.len.trans hlen
  have hnew : (cpu.set_zmm n data).xsave = host.reload img := by
    simp only [VCpu.set_zmm, hset, Option.elim_some, VCpu.set_xsave, himg, dif_pos]
  rw [get_zmm_eq, get_zmm_eq, hnew]
  cases ha : host.layout.slot host.len m i with
  | none =>
    by_cases hmn : m = n
    · rw [← hmn]
      simp [XsaveImage.chunkAt, storage, ha]
    · simp [XsaveImage.chunkAt, hmn]
  | some a =>
    have ha' : host.layout.slot cpu.xsave.len m i = some a := by rw [hlen, ha]
    obtain ⟨b, hb, -⟩ := slot_eq_some ha
    simp only [XsaveImage.chunkAt, Option.elim_some, reload_readLe i.isLt ha]
    by_cases hmn : m = n
    · subst hmn
      have hpresent : img.present (partOf m i) = true := by
        have hmem := ((partOf_eq_iff i.isLt).1 (rfl : partOf m i = partOf m i)).1
        simp [hw.present, hmem, hlen, hb]
      simp [hpresent, hw.entry i i.isLt a ha', storage, ha]
    · have hold := hw.readLe_other hsound n.isLt m.isLt (fun heq => hmn (Fin.ext heq)) i.isLt ha'
      rw [if_neg hmn]
      cases hpresent : img.present (partOf m i) with
      | true => rw [if_pos rfl, hold]
      | false =>
        have habsent : cpu.xsave.present (partOf m i) = false := by
          rw [hw.present, Bool.or_eq_false_iff] at hpresent
          exact hpresent.1
        rw [settled_readLe cpu.settled i.isLt ha habsent]
        rfl

theorem set_zmm_registers (cpu : VCpu host) (n : Fin 32) (data : List UInt64) :
    (cpu.set_zmm n data).gpr = cpu.gpr ∧ (cpu.set_zmm n data).rip = cpu.rip ∧
      (cpu.set_zmm n data).rflags = cpu.rflags := by
  unfold VCpu.set_zmm
  cases xsaveSetZmm cpu.xsave host.layout n data with
  | none => exact ⟨rfl, rfl, rfl⟩
  | some img =>
    simp only [Option.elim_some, VCpu.set_xsave]
    split <;> exact ⟨rfl, rfl, rfl⟩

theorem kvm_refines (host : Host) : Refines (kvmOracle host) (storage host) where
  setGpr cpu i v := rfl
  setRip cpu v _ := rfl
  setRflags cpu v _ := by
    have hget : (cpu.set_rflags v).get_rflags = (storage host).flags v := harnessFlags_and v
    simp only [X86Oracle.snapshot, kvmOracle, CpuState.withRflags, hget]
    rfl
  setZmm cpu n v := by
    obtain ⟨hgpr, hrip, hrflags⟩ := set_zmm_registers cpu n (List.ofFn v)
    simp only [X86Oracle.snapshot, kvmOracle, CpuState.withZmm, VCpu.get_gpr, VCpu.get_rip,
      VCpu.get_rflags, hgpr, hrip, hrflags]
    congr 1
    funext m i
    rw [get_set_zmm, getD_ofFn]
    by_cases hmn : m = n
    · subst hmn
      rw [if_pos rfl, Function.update_self]
    · rw [if_neg hmn, Function.update_of_ne hmn]

theorem whp_refines (host : Host) : Refines (whpOracle host) (storage host) := kvm_refines host

end Refines

end Hw
