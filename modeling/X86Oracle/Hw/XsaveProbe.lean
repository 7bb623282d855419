import Mathlib
import X86Oracle.Hw.Xsave

/-!
# Locating the vector components of an XSAVE image

`XsaveLayout::probe` asks CPUID leaf 0DH where the components are.  In the *standard* format a
component has the absolute offset CPUID gives; in the *compacted* one (bit 63 of XCOMP_BV) the
offsets are accumulated over the components the image has room for.

* `Describes`: what is asked of CPUID, that the vector components have their architectural sizes
  and that the standard offsets are clear of the header and of each other.
* `locateCompacted_apart`: accumulated components never overlap, whatever CPUID says of the others.
* `probe_sound`: on such a CPUID every layout `probe` can produce is `XsaveLayout.Sound`, in
  either format.
* `probe_lens`: the accessors obey the laws of a lens on every such layout.
-/

namespace Hw

/-! ## CPUID -/

/-- What CPUID returns for one leaf and subleaf. -/
structure CpuidRegs where
  eax : UInt32
  ebx : UInt32
  ecx : UInt32
  edx : UInt32

/-- The CPUID a guest sees. -/
abbrev Cpuid := ℕ → ℕ → CpuidRegs

def xsaveCompactBase : ℕ := 576

/-- `(offset + 63) & !63`. -/
def alignComponent (offset : ℕ) : ℕ := (offset + 63) / 64 * 64

theorem le_alignComponent (offset : ℕ) : offset ≤ alignComponent offset := by
  unfold alignComponent
  omega

/-- Where a component goes in the compacted format: ECX[1] asks for 64-byte alignment. -/
def CpuidRegs.place (l : CpuidRegs) (offset : ℕ) : ℕ :=
  if l.ecx &&& 2 ≠ 0 then alignComponent offset else offset

theorem CpuidRegs.le_place (l : CpuidRegs) (offset : ℕ) : offset ≤ l.place offset := by
  unfold place
  split
  · exact le_alignComponent offset
  · exact le_rfl

/-- A feature mask lacks component `i`. -/
def lacks (mask : UInt64) (i : ℕ) : Bool := mask &&& (1 : UInt64) <<< UInt64.ofNat i == 0

/-! ## Probing -/

namespace XsaveLayout

/-- The loop of `locate` for the compacted format: what it finds from `offset` on over the
components still to visit. -/
def locateCompacted (cpuid : Cpuid) (xcompBv : UInt64) (index size : ℕ) :
    ℕ → List ℕ → Option XsaveComponent
  | _, [] => none
  | offset, i :: rest =>
    if lacks xcompBv i then locateCompacted cpuid xcompBv index size offset rest
    else if (cpuid 0x0D i).eax = 0 then locateCompacted cpuid xcompBv index size offset rest
    else if i = index then some ⟨(cpuid 0x0D i).place offset, size⟩
    else
      locateCompacted cpuid xcompBv index size
        ((cpuid 0x0D i).place offset + (cpuid 0x0D i).eax.toNat) rest

/-- `XsaveLayout::locate`. -/
def locate (cpuid : Cpuid) (xcr0 xcompBv : UInt64) (index : ℕ) : Option XsaveComponent :=
  if lacks xcr0 index then none
  else
    let leaf := cpuid 0x0D index
    let size := leaf.eax.toNat
    if size = 0 then none
    else if lacks xcompBv 63 then
      let offset := leaf.ebx.toNat
      if offset ≠ 0 then some ⟨offset, size⟩ else none
    else if lacks xcompBv index then none
    else locateCompacted cpuid xcompBv index size xsaveCompactBase (List.range' 2 (index - 1))

/-- `XsaveLayout::probe`. -/
def probe (cpuid : Cpuid) (xcr0 xcompBv : UInt64) : XsaveLayout where
  ymmHi := locate cpuid xcr0 xcompBv 2
  zmmHi := locate cpuid xcr0 xcompBv 6
  zmmHi16 := locate cpuid xcr0 xcompBv 7

/-! ## Accumulated offsets -/

section Compacted

variable {cpuid : Cpuid} {xcompBv : UInt64} {index size : ℕ} {c : XsaveComponent}

/-- The loop never moves back, and what it finds has the size asked for. -/
theorem le_of_locateCompacted {is : List ℕ} : ∀ {offset : ℕ},
    locateCompacted cpuid xcompBv index size offset is = some c →
      offset ≤ c.offset ∧ c.size = size := by
  induction is with
  | nil => exact fun h => nomatch h
  | cons i rest ih =>
    intro offset h
    have hplace := (cpuid 0x0D i).le_place offset
    unfold locateCompacted at h
    split_ifs at h with hbit heax hindex
    · exact ih h
    · exact ih h
    · cases h
      exact ⟨hplace, rfl⟩
    · obtain ⟨hle, hsize⟩ := ih h
      exact ⟨by omega, hsize⟩

/-- Of two components the loop finds, the one visited first ends before the other starts.  The
induction is on the components up to the first one; those after it only move the other up. -/
theorem locateCompacted_apart {i j sj : ℕ} {ci cj : XsaveComponent} {later is : List ℕ}
    (hj : j ∉ is) : ∀ {offset : ℕ},
    locateCompacted cpuid xcompBv i (cpuid 0x0D i).eax.toNat offset is = some ci →
      locateCompacted cpuid xcompBv j sj offset (is ++ later) = some cj →
        ci.offset + ci.size ≤ cj.offset := by
  induction is with
  | nil => exact fun h => nomatch h
  | cons k rest ih =>
    intro offset hi hj'
    have hne : ¬ k = j := fun heq => hj (heq ▸ List.mem_cons_self ..)
    have hrest : j ∉ rest := fun hmem => hj (List.mem_cons_of_mem _ hmem)
    rw [List.cons_append] at hj'
    unfold locateCompacted at hi hj'
    rw [if_neg hne] at hj'
    split_ifs at hi hj' with hbit heax hindex
    · exact ih hrest hi hj'
    · exact ih hrest hi hj'
    · cases hi
      rw [← hindex]
      exact (le_of_locateCompacted hj').1
    · exact ih hrest hi hj'

end Compacted

/-! ## Sound layouts -/

section Probe

variable {cpuid : Cpuid} {xcr0 xcompBv : UInt64} {i j : ℕ} {c ci cj : XsaveComponent}

/-- What a component found says about CPUID, in either format. -/
theorem locate_cases (h : locate cpuid xcr0 xcompBv i = some c) :
    (cpuid 0x0D i).eax ≠ 0 ∧ c.size = (cpuid 0x0D i).eax.toNat ∧
      (lacks xcompBv 63 = true ∧ (cpuid 0x0D i).ebx ≠ 0 ∧ c.offset = (cpuid 0x0D i).ebx.toNat ∨
        lacks xcompBv 63 = false ∧ locateCompacted cpuid xcompBv i (cpuid 0x0D i).eax.toNat
          xsaveCompactBase (List.range' 2 (i - 1)) = some c) := by
  unfold locate at h
  simp only at h
  split_ifs at h with hxcr0 hsize hformat hoffset hcomp
  · cases h
    exact ⟨fun heq => hsize (by rw [heq]; rfl), rfl, .inl ⟨hformat, fun heq => hoffset (by
      rw [heq]; rfl), rfl⟩⟩
  · refine ⟨fun heq => hsize (by rw [heq]; rfl), (le_of_locateCompacted h).2, .inr ⟨?_, h⟩⟩
    exact Bool.eq_false_iff.2 hformat

/-- Compacted components do not overlap. -/
theorem compacted_apart (h2 : 2 ≤ i) (hij : i < j) (hformat : lacks xcompBv 63 = false)
    (hi : locate cpuid xcr0 xcompBv i = some ci) (hj : locate cpuid xcr0 xcompBv j = some cj) :
    ci.offset + ci.size ≤ cj.offset := by
  obtain ⟨-, -, hstd | ⟨-, hi⟩⟩ := locate_cases hi
  · rw [hformat] at hstd
    exact absurd hstd.1 Bool.false_ne_true
  obtain ⟨-, -, hstd | ⟨-, hj⟩⟩ := locate_cases hj
  · rw [hformat] at hstd
    exact absurd hstd.1 Bool.false_ne_true
  have hsplit : List.range' 2 (j - 1) = List.range' 2 (i - 1) ++ List.range' (i + 1) (j - i) := by
    have hcount : j - 1 = (i - 1) + (j - i) := by omega
    have hstart : i + 1 = 2 + 1 * (i - 1) := by omega
    rw [hcount, hstart, List.range'_append]
  rw [hsplit] at hj
  refine locateCompacted_apart (fun hmem => ?_) hi hj
  rw [List.mem_range'_1] at hmem
  omega

end Probe

end XsaveLayout

/-- CPUID gives the vector components their architectural sizes, and standard offsets above the
header and clear of each other.  A component may be missing; nothing is said of the others. -/
structure Describes (cpuid : Cpuid) : Prop where
  size : ∀ p : Part, p ≠ .xmm → (cpuid 0x0D p.bit).eax ≠ 0 → (cpuid 0x0D p.bit).eax.toNat = p.size
  above : ∀ p : Part, p ≠ .xmm → (cpuid 0x0D p.bit).eax ≠ 0 → (cpuid 0x0D p.bit).ebx ≠ 0 →
    576 ≤ (cpuid 0x0D p.bit).ebx.toNat
  apart : ∀ p q : Part, p ≠ q → p ≠ .xmm → q ≠ .xmm →
    (cpuid 0x0D p.bit).eax ≠ 0 → (cpuid 0x0D p.bit).ebx ≠ 0 →
    (cpuid 0x0D q.bit).eax ≠ 0 → (cpuid 0x0D q.bit).ebx ≠ 0 →
    (cpuid 0x0D p.bit).ebx.toNat + p.size ≤ (cpuid 0x0D q.bit).ebx.toNat ∨
      (cpuid 0x0D q.bit).ebx.toNat + q.size ≤ (cpuid 0x0D p.bit).ebx.toNat

section Sound

variable {cpuid : Cpuid} {xcr0 xcompBv : UInt64} {len b c : ℕ} {p q : Part}

/-- A component of a probed layout is one `locate` found, inside the image. -/
theorem base_probe (hp : p ≠ .xmm)
    (hb : (XsaveLayout.probe cpuid xcr0 xcompBv).base len p = some b) :
    ∃ size, XsaveLayout.locate cpuid xcr0 xcompBv p.bit = some ⟨b, size⟩ ∧ b + size ≤ len := by
  have hfits : fits len (XsaveLayout.locate cpuid xcr0 xcompBv p.bit) = some b := by
    cases p with
    | xmm => exact absurd rfl hp
    | ymmHi => exact hb
    | zmmHi => exact hb
    | hi16 => exact hb
  unfold fits at hfits
  obtain ⟨⟨offset, size⟩, hc, rfl⟩ := Option.map_eq_some_iff.1 hfits
  obtain ⟨hlocate, hle⟩ := Option.filter_eq_some_iff.1 hc
  exact ⟨size, hlocate, of_decide_eq_true hle⟩

/-- A component found has its architectural size and lies above the header. -/
theorem Describes.locate (h : Describes cpuid) (hp : p ≠ .xmm) {comp : XsaveComponent}
    (hc : XsaveLayout.locate cpuid xcr0 xcompBv p.bit = some comp) :
    comp.size = p.size ∧ 576 ≤ comp.offset := by
  obtain ⟨heax, hsize, ⟨-, hebx, hoffset⟩ | ⟨-, hcompact⟩⟩ := XsaveLayout.locate_cases hc
  · refine ⟨hsize.trans (h.size p hp heax), ?_⟩
    rw [hoffset]
    exact h.above p hp heax hebx
  · exact ⟨hsize.trans (h.size p hp heax), (XsaveLayout.le_of_locateCompacted hcompact).1⟩

theorem Part.two_le_bit (hp : p ≠ .xmm) : 2 ≤ p.bit := by
  cases p <;> simp_all [Part.bit]

theorem Part.bit_injective : Function.Injective Part.bit := by
  intro p q h
  cases p <;> cases q <;> simp_all [Part.bit]

/-- Two components found do not overlap, in either format. -/
theorem Describes.locate_apart (h : Describes cpuid) (hne : p ≠ q) (hp : p ≠ .xmm)
    (hq : q ≠ .xmm) {cp cq : XsaveComponent}
    (hcp : XsaveLayout.locate cpuid xcr0 xcompBv p.bit = some cp)
    (hcq : XsaveLayout.locate cpuid xcr0 xcompBv q.bit = some cq) :
    cp.offset + cp.size ≤ cq.offset ∨ cq.offset + cq.size ≤ cp.offset := by
  cases hformat : lacks xcompBv 63 with
  | false =>
    rcases Nat.lt_or_gt_of_ne fun heq => hne (Part.bit_injective heq) with hlt | hlt
    · exact .inl (XsaveLayout.compacted_apart (Part.two_le_bit hp) hlt hformat hcp hcq)
    · exact .inr (XsaveLayout.compacted_apart (Part.two_le_bit hq) hlt hformat hcq hcp)
  | true =>
    have hsize := (h.locate hp hcp).1
    have hsize' := (h.locate hq hcq).1
    obtain ⟨heax, -, ⟨-, hebx, hoffset⟩ | ⟨hcompact, -⟩⟩ := XsaveLayout.locate_cases hcp
    · obtain ⟨heax', -, ⟨-, hebx', hoffset'⟩ | ⟨hcompact, -⟩⟩ := XsaveLayout.locate_cases hcq
      · rw [hoffset, hoffset', hsize, hsize']
        exact h.apart p q hne hp hq heax hebx heax' hebx'
      · rw [hformat] at hcompact
        nomatch hcompact
    · rw [hformat] at hcompact
      nomatch hcompact

/-- Every layout `probe` produces is sound for every image that has a header. -/
theorem probe_sound (h : Describes cpuid) (hlen : 576 ≤ len) :
    (XsaveLayout.probe cpuid xcr0 xcompBv).Sound len where
  header := hlen
  inside p b hb := by
    by_cases hp : p = .xmm
    · subst hp
      obtain rfl : xsaveXmmOffset = b := Option.some.inj hb
      simp only [xsaveXmmOffset, Part.size]
      omega
    · obtain ⟨size, hc, hle⟩ := base_probe hp hb
      have hsize := (h.locate hp hc).1
      simp only at hsize
      omega
  above p b hp hb := by
    obtain ⟨size, hc, -⟩ := base_probe hp hb
    exact (h.locate hp hc).2
  apart p q b c hne hb hc := by
    by_cases hp : p = .xmm
    · subst hp
      obtain rfl : xsaveXmmOffset = b := Option.some.inj hb
      obtain ⟨size, hcq, -⟩ := base_probe hne.symm hc
      have habove := (h.locate hne.symm hcq).2
      simp only [xsaveXmmOffset, Part.size] at habove ⊢
      omega
    · obtain ⟨sp, hcp, -⟩ := base_probe hp hb
      have hsize := (h.locate hp hcp).1
      by_cases hq : q = .xmm
      · subst hq
        obtain rfl : xsaveXmmOffset = c := Option.some.inj hc
        have habove := (h.locate hp hcp).2
        simp only [xsaveXmmOffset, Part.size] at habove ⊢
        omega
      · obtain ⟨sq, hcq, -⟩ := base_probe hq hc
        have hsize' := (h.locate hq hcq).1
        have hdisjoint := h.locate_apart hne hp hq hcp hcq
        simp only at hsize hsize' hdisjoint
        omega

end Sound

/-! ## The lens laws -/

/-- `img'` is `img` with `data` put into register `n`: the register reads as the data where the
layout has a place for it and as zero elsewhere, every other register reads as it did, no other
byte changed, and no component was marked absent. -/
structure ZmmPut (layout : XsaveLayout) (n : ℕ) (data : List UInt64) (img img' : XsaveImage) :
    Prop where
  len : img'.len = img.len
  get_self : xsaveGetZmm img' layout n = some fun i =>
    if i < 8 ∧ (layout.slot img.len n i).isSome then data.getD i 0 else 0
  get_other : ∀ m < 32, m ≠ n → xsaveGetZmm img' layout m = xsaveGetZmm img layout m
  frame : ∀ x, (∀ i < 8, ∀ a, layout.slot img.len n i = some a → x < a ∨ a + 8 ≤ x) →
    (x < 512 ∨ 520 ≤ x) → img'.bytes x = img.bytes x
  kept : ∀ k, img.xstateBv.toNat.testBit k = true → img'.xstateBv.toNat.testBit k = true

section Lens

variable {layout : XsaveLayout} {img img' img'' : XsaveImage} {n : ℕ} {data data' : List UInt64}

/-- What `xsave_set_zmm` writes reads back as a lens says it must. -/
theorem Written.put (h : layout.Sound img.len) (hn : n < 32) (hw : Written layout n data img img') :
    ZmmPut layout n data img img' := by
  have h' : layout.Sound img'.len := hw.len ▸ h
  refine ⟨hw.len, ?_, fun m hm hne => ?_, hw.frame, hw.kept⟩
  · rw [xsaveGetZmm_spec h' hn, hw.len]
    refine congrArg some (funext fun i => ?_)
    by_cases hi : i < 8
    · rw [if_pos hi, hw.chunkAt_self hi]
      cases hslot : (layout.slot img.len n i).isSome with
      | true => rw [if_pos ⟨hi, rfl⟩, cond_true]
      | false => rw [if_neg fun hand => Bool.false_ne_true hand.2, cond_false]
    · rw [if_neg hi, if_neg fun hand => hi hand.1]
  · rw [xsaveGetZmm_spec h' hm, xsaveGetZmm_spec h hm, hw.len]
    refine congrArg some (funext fun i => ?_)
    by_cases hi : i < 8
    · rw [if_pos hi, if_pos hi]
      unfold XsaveImage.chunkAt
      cases ha : layout.slot img.len m i with
      | none => simp only [Option.elim_none]
      | some a => simp only [Option.elim_some, hw.readLe_other h hn hm hne hi ha]
    · rw [if_neg hi, if_neg hi]

/-- A register written twice holds in its slots what the later write alone would put there. -/
theorem Written.twice {img₂ : XsaveImage} (hw : Written layout n data img img')
    (hw' : Written layout n data' img' img'') (hw₂ : Written layout n data' img img₂) {i a : ℕ}
    (hi : i < 8) (ha : layout.slot img.len n i = some a) :
    img''.bytes.readLe 8 a = img₂.bytes.readLe 8 a := by
  rw [hw'.entry i hi a (by rw [hw.len, ha]), hw₂.entry i hi a ha]

/-- The laws of a lens on any sound layout. -/
theorem XsaveLayout.Sound.lens (h : layout.Sound img.len) (hn : n < 32) (data : List UInt64) :
    ∃ img', xsaveSetZmm img layout n data = some img' ∧ ZmmPut layout n data img img' ∧
      ∀ data', ∃ img'' img₂, xsaveSetZmm img' layout n data' = some img'' ∧
        xsaveSetZmm img layout n data' = some img₂ ∧
        (∀ i < 8, ∀ a, layout.slot img.len n i = some a →
          img''.bytes.readLe 8 a = img₂.bytes.readLe 8 a) ∧
        xsaveGetZmm img'' layout n = xsaveGetZmm img₂ layout n := by
  obtain ⟨img', hrun, hw⟩ := xsaveSetZmm_spec h hn data
  refine ⟨img', hrun, hw.put h hn, fun data' => ?_⟩
  have h' : layout.Sound img'.len := hw.len ▸ h
  obtain ⟨img'', hrun', hw'⟩ := xsaveSetZmm_spec h' hn data'
  obtain ⟨img₂, hrun₂, hw₂⟩ := xsaveSetZmm_spec h hn data'
  refine ⟨img'', img₂, hrun', hrun₂, fun i hi a ha => hw.twice hw' hw₂ hi ha, ?_⟩
  rw [(hw'.put h' hn).get_self, (hw₂.put h hn).get_self, hw.len]

end Lens

/-- **The slot accessors are a lens.**  On every layout `probe` can produce, `xsave_set_zmm`
puts any data into any register, and of two writes to one register the later one alone decides
what its slots hold. -/
theorem probe_lens {cpuid : Cpuid} (hcpuid : Describes cpuid) (xcr0 xcompBv : UInt64)
    {layout : XsaveLayout} (hlayout : layout = .probe cpuid xcr0 xcompBv)
    {img : XsaveImage} (hlen : 576 ≤ img.len) {n : ℕ} (hn : n < 32) (data : List UInt64) :
    ∃ img', xsaveSetZmm img layout n data = some img' ∧ ZmmPut layout n data img img' ∧
      ∀ data', ∃ img'' img₂, xsaveSetZmm img' layout n data' = some img'' ∧
        xsaveSetZmm img layout n data' = some img₂ ∧
        (∀ i < 8, ∀ a, layout.slot img.len n i = some a →
          img''.bytes.readLe 8 a = img₂.bytes.readLe 8 a) ∧
        xsaveGetZmm img'' layout n = xsaveGetZmm img₂ layout n := by
  have hsound : layout.Sound img.len := hlayout ▸ probe_sound hcpuid hlen
  exact hsound.lens hn data

/-- CPUID of a processor with AVX-512, as far as leaf 0DH goes. -/
def avx512Cpuid : Cpuid := fun _ i =>
  match i with
  | 2 => ⟨256, 576, 0, 0⟩
  | 5 => ⟨64, 1088, 0, 0⟩
  | 6 => ⟨512, 1152, 0, 0⟩
  | 7 => ⟨1024, 1664, 0, 0⟩
  | _ => ⟨0, 0, 0, 0⟩

theorem avx512Cpuid_describes : Describes avx512Cpuid where
  size p := by cases p <;> decide
  above p := by cases p <;> decide
  apart p q := by cases p <;> cases q <;> decide

/-- The compacted layout of such a processor without the opmask component: the vector components
move down. -/
example : XsaveLayout.probe avx512Cpuid 0xE7 0x80000000000000C6 =
    ⟨some ⟨576, 256⟩, some ⟨832, 512⟩, some ⟨1344, 1024⟩⟩ := by
  decide

theorem probe_lens_avx512 : ∃ img',
    xsaveSetZmm ⟨fun _ => 0, 2688⟩ (.probe avx512Cpuid 0xE7 0) 17 [5, 6] = some img' ∧
      ZmmPut (.probe avx512Cpuid 0xE7 0) 17 [5, 6] ⟨fun _ => 0, 2688⟩ img' := by
  obtain ⟨img', hrun, hput, -⟩ := probe_lens avx512Cpuid_describes 0xE7 0 rfl
    (show 576 ≤ (⟨fun _ => 0, 2688⟩ : XsaveImage).len by decide) (n := 17) (by decide) [5, 6]
  exact ⟨img', hrun, hput⟩

end Hw
