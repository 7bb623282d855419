import Mathlib
import X86Oracle.Hw.XsaveLocate

/-!
# Panics of the XSAVE accessors

The guard of the accessors asks whether a component's end, as CPUID has its size, lies inside the
image; the accesses go by the architectural strides.  An index outside of the image is a panic.

* `loadPart_isSome_iff`, `storePart_isSome_iff`: one part of a register.
* `accessors_complete_iff`: all of them, for any CPUID and any masks.
-/

namespace Hw

open Bytes

/-! ## Resetting an image -/

namespace XsaveImage

/-- `bytes[first..last].fill(0)`; the slice panics if it leaves the image. -/
def fillZero (img : XsaveImage) (first last : ℕ) : Option XsaveImage :=
  if first ≤ last ∧ last ≤ img.len then
    some { img with bytes := fun x => if first ≤ x ∧ x < last then 0 else img.bytes x }
  else none

/-- A component of the image is zeroed, if it fits. -/
def clearComponent (img : XsaveImage) (c : Option XsaveComponent) : Option XsaveImage :=
  match c with
  | some c =>
    if c.offset + c.size ≤ img.len then img.fillZero c.offset (c.offset + c.size) else some img
  | none => some img

end XsaveImage

def xsaveMxcsr : ℕ := 24

/-- `xsave_reset_vectors`. -/
def xsaveResetVectors (img : XsaveImage) (layout : XsaveLayout) : Option XsaveImage := do
  let img ← img.fillZero xsaveXmmOffset (xsaveXmmOffset + 16 * 16)
  let img ← [layout.ymmHi, layout.zmmHi, layout.zmmHi16].foldlM XsaveImage.clearComponent img
  if xsaveMxcsr + 4 ≤ img.len then
    some { img with bytes := img.bytes.write xsaveMxcsr (leBytes 4 0x1F80) }
  else none

section Reset

variable {img : XsaveImage} {first last : ℕ}

theorem fillZero_spec (img : XsaveImage) (hle : first ≤ last) (hlast : last ≤ img.len) :
    ∃ img', img.fillZero first last = some img' ∧ img'.len = img.len :=
  ⟨_, if_pos ⟨hle, hlast⟩, rfl⟩

theorem clearComponent_spec (img : XsaveImage) (c : Option XsaveComponent) :
    ∃ img', img.clearComponent c = some img' ∧ img'.len = img.len := by
  cases c with
  | none => exact ⟨img, rfl, rfl⟩
  | some c =>
    unfold XsaveImage.clearComponent
    dsimp only
    split_ifs with hfits
    · exact fillZero_spec img (Nat.le_add_right ..) hfits
    · exact ⟨img, rfl, rfl⟩

/-- Clearing the located components never leaves the image. -/
theorem clearComponents_spec (img : XsaveImage) (cs : List (Option XsaveComponent)) :
    ∃ img', cs.foldlM XsaveImage.clearComponent img = some img' ∧ img'.len = img.len := by
  induction cs generalizing img with
  | nil => exact ⟨img, rfl, rfl⟩
  | cons c cs ih =>
    obtain ⟨img₁, hrun, hlen⟩ := clearComponent_spec img c
    obtain ⟨img₂, hrest, hlen'⟩ := ih img₁
    refine ⟨img₂, ?_, hlen'.trans hlen⟩
    rw [List.foldlM_cons, hrun]
    exact hrest

/-- A reset never panics on an image with a header. -/
theorem xsaveResetVectors_isSome (h : 576 ≤ img.len) (layout : XsaveLayout) :
    (xsaveResetVectors img layout).isSome = true := by
  obtain ⟨img₁, hfill, hlen₁⟩ := fillZero_spec img
    (Nat.le_add_right xsaveXmmOffset (16 * 16)) (by unfold xsaveXmmOffset; omega)
  obtain ⟨img₂, hclear, hlen₂⟩ := clearComponents_spec img₁
    [layout.ymmHi, layout.zmmHi, layout.zmmHi16]
  unfold xsaveResetVectors
  rw [Option.bind_eq_bind, hfill, Option.bind_some, hclear, Option.bind_some,
    if_pos (by unfold xsaveMxcsr; omega)]
  rfl

end Reset

/-! ## One part of a register -/

section Part

variable {img img' : XsaveImage} {offset first count : ℕ} {out chunk : Chunks}

/-- A loop over chunks that leaves the image panics, at its last chunk if not before. -/
theorem readChunks_eq_none (h : img.len < offset + 8 * (count + 1)) :
    img.readChunks offset first (count + 1) out = none := by
  have hlast : img.readU64At (offset + 8 * count) = none := if_neg (by omega)
  have hsplit : img.readChunks offset first (count + 1) out =
      (img.readChunks offset first count out).bind fun out =>
        (img.readU64At (offset + 8 * count)).bind fun v =>
          some (Function.update out (first + count) v) := by
    unfold XsaveImage.readChunks
    rw [List.range_succ, List.foldlM_append]
    simp only [List.foldlM_cons, List.foldlM_nil, Option.bind_eq_bind, Option.pure_def,
      Option.bind_fun_some]
  rw [hsplit, hlast]
  cases img.readChunks offset first count out <;> rfl

theorem len_of_writeChunks (h : img.writeChunks offset first count chunk = some img') :
    img'.len = img.len := by
  unfold XsaveImage.writeChunks at h
  generalize List.range count = is at h
  induction is generalizing img with
  | nil =>
    obtain rfl := Option.some.inj h
    rfl
  | cons i is ih =>
    rw [List.foldlM_cons] at h
    obtain ⟨img₁, hwrite, hrest⟩ := Option.bind_eq_some_iff.1 h
    rw [ih hrest]
    unfold XsaveImage.writeU64At at hwrite
    split_ifs at hwrite
    obtain rfl := Option.some.inj hwrite
    rfl

/-- A write past the end panics at its last chunk, if not before. -/
theorem writeChunks_eq_none (h : img.len < offset + 8 * (count + 1)) :
    img.writeChunks offset first (count + 1) chunk = none := by
  have hsplit : img.writeChunks offset first (count + 1) chunk =
      (img.writeChunks offset first count chunk).bind fun img' =>
        img'.writeU64At (offset + 8 * count) (chunk (first + count)) := by
    unfold XsaveImage.writeChunks
    rw [List.range_succ, List.foldlM_append]
    simp only [List.foldlM_cons, List.foldlM_nil, Option.bind_eq_bind, Option.pure_def,
      Option.bind_fun_some]
  rw [hsplit]
  cases hrun : img.writeChunks offset first count chunk with
  | none => rfl
  | some img' =>
    have hlen := len_of_writeChunks hrun
    exact if_neg (by omega)

variable {base : Option ℕ} {bv bit : UInt64}

/-- A part that is not located is not read. -/
theorem loadPart_isSome_iff : (img.loadPart base offset first (count + 1) out).isSome = true ↔
    ∀ b, base = some b → b + offset + 8 * (count + 1) ≤ img.len := by
  constructor
  · rintro h b rfl
    by_contra hlt
    have hread : (img.readChunks (b + offset) first (count + 1) out).isSome = true := h
    rw [readChunks_eq_none (by omega)] at hread
    nomatch hread
  · intro h
    rw [loadPart_spec h]
    rfl

/-- A part that is not located is not written. -/
theorem storePart_isSome_iff :
    (img.storePart bv base offset first (count + 1) chunk bit).isSome = true ↔
      ∀ b, base = some b → b + offset + 8 * (count + 1) ≤ img.len := by
  constructor
  · rintro h b rfl
    by_contra hlt
    have hwrite : ((img.writeChunks (b + offset) first (count + 1) chunk).bind fun img =>
        some (img, bv ||| bit)).isSome = true := h
    rw [writeChunks_eq_none (by omega)] at hwrite
    nomatch hwrite
  · intro h
    cases base with
    | none => rfl
    | some b =>
      obtain ⟨img', hrun, -⟩ := writeChunks_spec first chunk (h b rfl)
      have hstore : img.storePart bv (some b) offset first (count + 1) chunk bit =
          (img.writeChunks (b + offset) first (count + 1) chunk).bind fun img =>
            some (img, bv ||| bit) := rfl
      rw [hstore, hrun]
      rfl

theorem len_of_storePart {r : XsaveImage × UInt64}
    (h : img.storePart bv base offset first count chunk bit = some r) : r.1.len = img.len := by
  cases base with
  | none =>
    obtain rfl := Option.some.inj h
    rfl
  | some b =>
    obtain ⟨img', hrun, hpair⟩ := Option.bind_eq_some_iff.1 h
    obtain rfl := Option.some.inj hpair
    exact len_of_writeChunks hrun

/-- One access after the other. -/
theorem isSome_bind_iff {α β : Type} {x : Option α} {f : α → Option β} {P Q : Prop}
    (hx : x.isSome = true ↔ P) (hf : ∀ a, x = some a → ((f a).isSome = true ↔ Q)) :
    (x.bind f).isSome = true ↔ P ∧ Q := by
  cases hcase : x with
  | none =>
    rw [hcase] at hx
    exact iff_of_false Bool.false_ne_true fun h => Bool.false_ne_true (hx.2 h.1)
  | some a =>
    rw [hcase] at hx
    rw [Option.bind_some, hf a hcase, and_iff_right (hx.1 rfl)]

end Part

/-! ## The accessors -/

section Accessors

variable {img : XsaveImage} {layout : XsaveLayout} {n : ℕ}

/-- Registers 0 to 15 have their upper halves in two components. -/
theorem room_low_iff (hlen : 520 ≤ img.len) (hn : n < 16) : Room layout img.len n ↔
    (∀ b, fits img.len layout.ymmHi = some b → b + n * 16 + 8 * (1 + 1) ≤ img.len) ∧
      ∀ b, fits img.len layout.zmmHi = some b → b + n * 32 + 8 * (3 + 1) ≤ img.len := by
  have hparts : partsOf n = [.zmmHi, .ymmHi, .xmm] := if_pos hn
  have hrank : n % 16 = n := by omega
  have hxmm (b : ℕ) (hb : some xsaveXmmOffset = some b) : b + n * 16 + 16 ≤ img.len := by
    obtain rfl := Option.some.inj hb
    unfold xsaveXmmOffset
    omega
  unfold Room
  rw [hparts, hrank]
  simp only [List.forall_mem_cons, List.not_mem_nil, false_imp_iff, implies_true, and_true,
    XsaveLayout.base, Part.stride]
  exact ⟨fun h => ⟨h.2.1, h.1⟩, fun h => ⟨h.2, h.1, hxmm⟩⟩

/-- Registers 16 to 31 are in one. -/
theorem room_high_iff (hn : ¬ n < 16) (hn32 : n < 32) : Room layout img.len n ↔
    ∀ b, fits img.len layout.zmmHi16 = some b → b + (n - 16) * 64 + 8 * (7 + 1) ≤ img.len := by
  have hparts : partsOf n = [.hi16] := if_neg hn
  have hrank : n % 16 = n - 16 := by omega
  unfold Room
  rw [hparts, hrank]
  simp only [List.forall_mem_cons, List.not_mem_nil, false_imp_iff, implies_true, and_true,
    XsaveLayout.base, Part.stride]

/-- A read returns exactly where every part has room. -/
theorem xsaveGetZmm_isSome_iff (hlen : 520 ≤ img.len) (hn : n < 32) :
    (xsaveGetZmm img layout n).isSome = true ↔ Room layout img.len n := by
  unfold xsaveGetZmm
  by_cases hlow : n < 16
  · rw [if_pos hlow, room_low_iff hlen hlow,
      readChunks_spec (by unfold xsaveXmmOffset; omega), Option.bind_eq_bind, Option.bind_some]
    exact isSome_bind_iff loadPart_isSome_iff fun _ _ => loadPart_isSome_iff
  · rw [if_neg hlow, room_high_iff hlow hn]
    exact loadPart_isSome_iff

theorem writeU64At_isSome {offset : ℕ} {value : UInt64} (h : offset + 8 ≤ img.len) :
    (img.writeU64At offset value).isSome = true := by
  unfold XsaveImage.writeU64At
  rw [if_pos h]
  rfl

/-- So does a write. -/
theorem xsaveSetZmm_isSome_iff (hlen : 520 ≤ img.len) (hn : n < 32) (data : List UInt64) :
    (xsaveSetZmm img layout n data).isSome = true ↔ Room layout img.len n := by
  have hbv : img.readU64At xsaveXstateBv = some img.xstateBv := by
    rw [XsaveImage.readU64At, if_pos (by unfold xsaveXstateBv; omega)]
    rfl
  have hlast (r : XsaveImage × UInt64) (hr : r.1.len = img.len) :
      (r.1.writeU64At xsaveXstateBv r.2).isSome = true :=
    writeU64At_isSome (by unfold xsaveXstateBv; omega)
  unfold xsaveSetZmm
  simp only [hbv, Option.bind_eq_bind, Option.bind_some]
  by_cases hlow : n < 16
  · obtain ⟨img₁, hxmm, hlen₁, -⟩ := writeChunks_spec 0 (fun i => data.getD i 0)
      (show xsaveXmmOffset + n * 16 + 8 * 2 ≤ img.len by unfold xsaveXmmOffset; omega)
    rw [room_low_iff hlen hlow]
    simp only [if_pos hlow, hxmm, Option.bind_some]
    rw [← hlen₁]
    refine isSome_bind_iff storePart_isSome_iff fun r hr => ?_
    have hlen₂ := len_of_storePart hr
    rw [← hlen₂, ← and_true (∀ b, _)]
    refine isSome_bind_iff storePart_isSome_iff fun r' hr' => iff_of_true ?_ trivial
    exact hlast r' ((len_of_storePart hr').trans (hlen₂.trans hlen₁))
  · rw [room_high_iff hlow hn]
    simp only [if_neg hlow]
    rw [← and_true (∀ b, _)]
    refine isSome_bind_iff storePart_isSome_iff fun r hr => iff_of_true ?_ trivial
    exact hlast r (len_of_storePart hr)

end Accessors

/-! ## Any CPUID -/

/-- Each component of register `n` that ends in the image by CPUID's size also has the register
there by the architectural stride. -/
def Roomy (cpuid : Cpuid) (xcr0 xcompBv : UInt64) (len n : ℕ) : Prop :=
  ∀ p ∈ partsOf n, p ≠ .xmm → ∀ c, XsaveLayout.Placed cpuid xcr0 xcompBv p.bit c →
    c.offset + c.size ≤ len → c.offset + n % 16 * p.stride + p.stride ≤ len

/-- No sum of `locate` or of an accessor leaves 64 bits. -/
def NoOverflow (cpuid : Cpuid) (xcr0 xcompBv : UInt64) : Prop :=
  (∀ k ≤ 8, XsaveLayout.area cpuid (XsaveLayout.counted cpuid xcompBv) k + 63 + 2 ^ 32 < 2 ^ 64) ∧
    ∀ p : Part, p ≠ .xmm → ∀ c, XsaveLayout.locate cpuid xcr0 xcompBv p.bit = some c →
      c.offset + c.size < 2 ^ 64 ∧ c.offset + p.size < 2 ^ 64

section Probe

variable {cpuid : Cpuid} {xcr0 xcompBv : UInt64} {len n b : ℕ} {p : Part}

theorem Part.bit_lt (p : Part) : p.bit ≤ 7 := by
  cases p <;> decide

/-- Inside the image, `probe` has what `locate` finds. -/
theorem base_probe_of_locate (hp : p ≠ .xmm) {c : XsaveComponent}
    (hc : XsaveLayout.locate cpuid xcr0 xcompBv p.bit = some c) (hfits : c.offset + c.size ≤ len) :
    (XsaveLayout.probe cpuid xcr0 xcompBv).base len p = some c.offset := by
  have hbase : (XsaveLayout.probe cpuid xcr0 xcompBv).base len p =
      fits len (XsaveLayout.locate cpuid xcr0 xcompBv p.bit) := by
    cases p with
    | xmm => exact absurd rfl hp
    | _ => rfl
  have hpass : decide (c.offset + c.size ≤ len) = true := decide_eq_true hfits
  rw [hbase, hc, fits, Option.filter_some, hpass]
  rfl

theorem room_probe_iff (hlen : 576 ≤ len) :
    Room (.probe cpuid xcr0 xcompBv) len n ↔ Roomy cpuid xcr0 xcompBv len n := by
  have hplaced (p : Part) (hp : p ≠ .xmm) (c : XsaveComponent) :
      XsaveLayout.locate cpuid xcr0 xcompBv p.bit = some c ↔
        XsaveLayout.Placed cpuid xcr0 xcompBv p.bit c :=
    XsaveLayout.locate_eq_some_iff (Part.two_le_bit hp) (p.bit_lt.trans_lt (by norm_num))
  constructor
  · intro h p hmem hp c hc hfits
    exact h p hmem c.offset (base_probe_of_locate hp ((hplaced p hp c).2 hc) hfits)
  · intro h p hmem b hb
    by_cases hp : p = .xmm
    · subst hp
      obtain rfl := Option.some.inj hb
      simp only [Part.stride, xsaveXmmOffset]
      omega
    · obtain ⟨size, hc, hfits⟩ := base_probe hp hb
      exact h p hmem hp _ ((hplaced p hp _).1 hc) hfits

theorem noOverflow (cpuid : Cpuid) (xcr0 xcompBv : UInt64) : NoOverflow cpuid xcr0 xcompBv := by
  refine ⟨fun k hk => ?_, fun p hp c hc => ?_⟩
  · have harea := XsaveLayout.area_le cpuid (XsaveLayout.counted cpuid xcompBv) k
    omega
  · have hbit := p.bit_lt
    have hsize : p.size ≤ 1024 := by cases p <;> decide
    obtain ⟨-, -, hsz, hoffset⟩ :=
      (XsaveLayout.locate_eq_some_iff (Part.two_le_bit hp) (by omega)).1 hc
    have heax := (cpuid 0x0D p.bit).eax.toNat_lt
    have hlt : c.offset < 2 ^ 40 := by
      split_ifs at hoffset
      · have hstart := XsaveLayout.start_le cpuid (i := p.bit)
          (XsaveLayout.area cpuid (XsaveLayout.counted cpuid xcompBv) p.bit)
        have harea := XsaveLayout.area_le cpuid (XsaveLayout.counted cpuid xcompBv) p.bit
        rw [hoffset.2]
        unfold XsaveLayout.location
        omega
      · have hebx := (cpuid 0x0D p.bit).ebx.toNat_lt
        omega
    omega

end Probe

/-- **Panics.**  For any CPUID and any masks nothing overflows, and a reset and the accessors of
register `n` complete exactly if the components that end in the image by CPUID's size have the
register in it by the architectural stride. -/
theorem accessors_complete_iff (cpuid : Cpuid) (xcr0 xcompBv : UInt64) {img : XsaveImage}
    (hlen : 576 ≤ img.len) {n : ℕ} (hn : n < 32) (data : List UInt64) :
    let layout : XsaveLayout := .probe cpuid xcr0 xcompBv
    (NoOverflow cpuid xcr0 xcompBv ∧ (xsaveResetVectors img layout).isSome = true ∧
      (xsaveGetZmm img layout n).isSome = true ∧ (xsaveSetZmm img layout n data).isSome = true) ↔
        Roomy cpuid xcr0 xcompBv img.len n := by
  intro layout
  have hheader : 520 ≤ img.len := (by norm_num : 520 ≤ 576).trans hlen
  rw [xsaveGetZmm_isSome_iff hheader hn, xsaveSetZmm_isSome_iff hheader hn, and_self,
    room_probe_iff hlen, and_iff_right (noOverflow cpuid xcr0 xcompBv),
    and_iff_right (xsaveResetVectors_isSome hlen layout)]

theorem accessors_complete_iff_zmm :
    let layout : XsaveLayout := .probe avx512Cpuid 0xE7 0
    (NoOverflow avx512Cpuid 0xE7 0 ∧
      (xsaveResetVectors ⟨fun _ => 0, 2688⟩ layout).isSome = true ∧
        (xsaveGetZmm ⟨fun _ => 0, 2688⟩ layout 31).isSome = true ∧
          (xsaveSetZmm ⟨fun _ => 0, 2688⟩ layout 31 [1]).isSome = true) ↔
      Roomy avx512Cpuid 0xE7 0 2688 31 :=
  accessors_complete_iff avx512Cpuid 0xE7 0 (by decide) (by decide) [1]

/-- A CPUID that gives component 2 eight bytes at the end of the header. -/
def narrowCpuid : Cpuid := fun _ i => if i = 2 then ⟨8, 576, 0, 0⟩ else ⟨0, 0, 0, 0⟩

/-- In an image that ends with the component, YMM0 is out of range. -/
theorem narrow_panics :
    ¬ ∀ (cpuid : Cpuid) (xcr0 xcompBv : UInt64) (img : XsaveImage) (n : ℕ), 576 ≤ img.len → n < 32 →
      (xsaveGetZmm img (.probe cpuid xcr0 xcompBv) n).isSome = true := by
  intro h
  have hget := h narrowCpuid 7 0 ⟨fun _ => 0, 584⟩ 0 (by decide) (by decide)
  have hroom := (xsaveGetZmm_isSome_iff (by decide) (by decide)).1 hget
  exact absurd (hroom .ymmHi (by decide) 576 rfl) (by decide)

end Hw
