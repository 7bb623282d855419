import Mathlib
import X86Oracle.Hw.XsaveLocate

/-!
# Width and number of the vector registers

A backend promises `vector_regs` registers of `vector_chunks` chunks, from which components `probe`
found.  The accessors go by the components one by one.

* `Holds`: masks that a processor can hold.
* `slot_isSome_iff`: the chunks there is a place for are the ones promised.
* `promise`: what reads return after any writes.
-/

namespace Hw

namespace XsaveLayout

/-- `vector_width`. -/
def vectorWidth (layout : XsaveLayout) : ℕ :=
  if layout.zmmHi.isSome then 512 else if layout.ymmHi.isSome then 256 else 128

/-- `vector_chunks` of the backends. -/
def vectorChunks (layout : XsaveLayout) : ℕ := layout.vectorWidth / 64

/-- `vector_regs`. -/
def vectorRegs (layout : XsaveLayout) : ℕ := if layout.zmmHi16.isSome then 32 else 16

end XsaveLayout

/-- A mask that a processor can hold: AVX-512's three bits all or none, and only with AVX. -/
structure Holds (mask : UInt64) : Prop where
  opmask : mask.toNat.testBit 5 = mask.toNat.testBit 6
  hi16 : mask.toNat.testBit 6 = mask.toNat.testBit 7
  avx : mask.toNat.testBit 6 = true → mask.toNat.testBit 2 = true

/-- CPUID gives every enabled component its architectural size. -/
def Sized (cpuid : Cpuid) (xcr0 : UInt64) : Prop :=
  ∀ p : Part, p ≠ .xmm → xcr0.toNat.testBit p.bit = true → (cpuid 0x0D p.bit).eax.toNat = p.size

/-- In the standard format CPUID gives the enabled components offsets above the header and clear of
each other. -/
structure Spaced (cpuid : Cpuid) (xcr0 xcompBv : UInt64) : Prop where
  above : XsaveLayout.inFormat xcompBv 63 = false → ∀ p : Part, p ≠ .xmm →
    xcr0.toNat.testBit p.bit = true → 576 ≤ (cpuid 0x0D p.bit).ebx.toNat
  apart : XsaveLayout.inFormat xcompBv 63 = false → ∀ p q : Part, p ≠ q → p ≠ .xmm → q ≠ .xmm →
    xcr0.toNat.testBit p.bit = true → xcr0.toNat.testBit q.bit = true →
      (cpuid 0x0D p.bit).ebx.toNat + p.size ≤ (cpuid 0x0D q.bit).ebx.toNat ∨
        (cpuid 0x0D q.bit).ebx.toNat + q.size ≤ (cpuid 0x0D p.bit).ebx.toNat

/-- The image has a header and every component of the layout. -/
structure LongEnough (layout : XsaveLayout) (len : ℕ) : Prop where
  header : 576 ≤ len
  ymmHi : ∀ c ∈ layout.ymmHi, c.offset + c.size ≤ len
  zmmHi : ∀ c ∈ layout.zmmHi, c.offset + c.size ≤ len
  zmmHi16 : ∀ c ∈ layout.zmmHi16, c.offset + c.size ≤ len

/-- Writes to registers, one after the other. -/
def xsaveWrites (layout : XsaveLayout) (img : XsaveImage) (ws : List (ℕ × List UInt64)) :
    Option XsaveImage :=
  ws.foldlM (fun img w => xsaveSetZmm img layout w.1 w.2) img

/-- The data of the last write to register `n`. -/
def lastData (ws : List (ℕ × List UInt64)) (n : ℕ) : Option (List UInt64) := ws.reverse.lookup n

/-! ## Runs of writes -/

section Run

variable {layout : XsaveLayout} {img : XsaveImage}

/-- Chunk `i` of register `n` after the writes, where the layout has a place for it. -/
def chunkAfter (layout : XsaveLayout) (img : XsaveImage) (ws : List (ℕ × List UInt64)) (n i : ℕ) :
    UInt64 :=
  match lastData ws n with
  | some data => data.getD i 0
  | none => img.chunkAt (layout.slot img.len n i)

/-- On a sound layout writes do not panic, and a register reads as last written. -/
theorem xsaveWrites_spec (h : layout.Sound img.len) (ws : List (ℕ × List UInt64))
    (hws : ∀ w ∈ ws, w.1 < 32) :
    ∃ img', xsaveWrites layout img ws = some img' ∧ img'.len = img.len ∧ ∀ n < 32,
      xsaveGetZmm img' layout n = some fun i =>
        if i < 8 ∧ (layout.slot img.len n i).isSome then chunkAfter layout img ws n i else 0 := by
  induction ws using List.reverseRecOn with
  | nil =>
    refine ⟨img, rfl, rfl, fun n hn => ?_⟩
    rw [xsaveGetZmm_spec h hn]
    refine congrArg some (funext fun i => ?_)
    by_cases hi : i < 8
    · rw [if_pos hi]
      cases hslot : layout.slot img.len n i with
      | none =>
        rw [if_neg (fun h => Bool.false_ne_true h.2)]
        rfl
      | some a =>
        rw [if_pos ⟨hi, rfl⟩, chunkAfter, hslot]
        rfl
    · rw [if_neg hi, if_neg fun hand => hi hand.1]
  | append_singleton ws w ih =>
    obtain ⟨img₁, hrun, hlen, hreads⟩ :=
      ih fun w' hw' => hws w' (List.mem_append_left _ hw')
    obtain ⟨n, data⟩ := w
    have hn : n < 32 := hws (n, data) (List.mem_append_right _ (List.mem_singleton_self _))
    obtain ⟨img₂, hset, hwritten⟩ := xsaveSetZmm_spec (hlen ▸ h) hn data
    have hput := hwritten.put (hlen ▸ h) hn
    refine ⟨img₂, ?_, hput.len.trans hlen, fun m hm => ?_⟩
    · unfold xsaveWrites at hrun ⊢
      rw [List.foldlM_append, hrun, Option.bind_eq_bind, Option.bind_some, List.foldlM_cons, hset]
      rfl
    · have hlast : lastData (ws ++ [(n, data)]) m = if m = n then some data else lastData ws m := by
        unfold lastData
        rw [List.reverse_append, List.reverse_singleton, List.singleton_append, List.lookup_cons]
        split_ifs with hmn
        · rw [beq_iff_eq.2 hmn]
        · rw [beq_eq_false_iff_ne.2 hmn]
      by_cases hmn : m = n
      · subst hmn
        rw [hput.get_self, hlen]
        unfold chunkAfter
        rw [hlast, if_pos rfl]
      · rw [hput.get_other m hm hmn, hreads m hm]
        unfold chunkAfter
        rw [hlast, if_neg hmn]

end Run

/-! ## Which chunks there are -/

section Slots

variable {layout : XsaveLayout} {len n i : ℕ}

theorem fits_isSome {c : Option XsaveComponent} (h : ∀ d ∈ c, d.offset + d.size ≤ len) :
    (fits len c).isSome = c.isSome := by
  cases c with
  | none => rfl
  | some d =>
    unfold fits
    rw [Option.filter_some, decide_eq_true (h d rfl)]
    rfl

/-- A layout has AVX-512's registers all or none, and only with AVX. -/
structure AllOrNone (layout : XsaveLayout) : Prop where
  hi16 : layout.zmmHi16.isSome = layout.zmmHi.isSome
  avx : layout.zmmHi.isSome = true → layout.ymmHi.isSome = true

/-- The chunks that have a place are the ones promised. -/
theorem slot_isSome_iff (h : LongEnough layout len) (hu : AllOrNone layout)
    (hn : n < 32) (hi : i < 8) :
    (layout.slot len n i).isSome = true ↔ n < layout.vectorRegs ∧ i < layout.vectorChunks := by
  have hymm := fits_isSome h.ymmHi
  have hzmm := fits_isSome h.zmmHi
  have hhi := fits_isSome h.zmmHi16
  have havx := hu.avx
  unfold XsaveLayout.slot XsaveLayout.vectorRegs XsaveLayout.vectorChunks XsaveLayout.vectorWidth
  rw [Option.isSome_map, hu.hi16]
  rw [hu.hi16] at hhi
  unfold partOf
  split_ifs <;> simp only [XsaveLayout.base, hymm, hzmm, hhi, Option.isSome_some]
  all_goals simp_all
  all_goals omega

end Slots

/-! ## Probed layouts -/

section Probe

variable {cpuid : Cpuid} {xcr0 xcompBv : UInt64} {len b c : ℕ} {p q : Part}

/-- What is known of a component that `probe` found. -/
theorem placed_of_locate (hp : p ≠ .xmm) {c : XsaveComponent}
    (h : XsaveLayout.locate cpuid xcr0 xcompBv p.bit = some c) :
    XsaveLayout.Placed cpuid xcr0 xcompBv p.bit c := by
  have hbit : p.bit < 63 := by cases p <;> decide
  exact (XsaveLayout.locate_eq_some_iff (Part.two_le_bit hp) hbit).1 h

theorem size_of_locate (hsized : Sized cpuid xcr0) (hp : p ≠ .xmm) {c : XsaveComponent}
    (h : XsaveLayout.locate cpuid xcr0 xcompBv p.bit = some c) : c.size = p.size := by
  obtain ⟨henabled, -, hsize, -⟩ := placed_of_locate hp h
  rw [hsize, hsized p hp henabled]

theorem above_of_locate (hspaced : Spaced cpuid xcr0 xcompBv) (hp : p ≠ .xmm) {c : XsaveComponent}
    (h : XsaveLayout.locate cpuid xcr0 xcompBv p.bit = some c) : 576 ≤ c.offset := by
  obtain ⟨henabled, -, -, hoffset⟩ := placed_of_locate hp h
  have hbit : p.bit < 63 := by cases p <;> decide
  cases hformat : XsaveLayout.inFormat xcompBv 63 with
  | false =>
    rw [hformat, if_neg Bool.false_ne_true] at hoffset
    rw [hoffset.2]
    exact hspaced.above hformat p hp henabled
  | true =>
    exact (XsaveLayout.locate_compacted (Part.two_le_bit hp) hformat h).1

theorem apart_of_locate (hsized : Sized cpuid xcr0) (hspaced : Spaced cpuid xcr0 xcompBv)
    (hne : p ≠ q) (hp : p ≠ .xmm) (hq : q ≠ .xmm) {c d : XsaveComponent}
    (hc : XsaveLayout.locate cpuid xcr0 xcompBv p.bit = some c)
    (hd : XsaveLayout.locate cpuid xcr0 xcompBv q.bit = some d) :
    c.offset + p.size ≤ d.offset ∨ d.offset + q.size ≤ c.offset := by
  cases hformat : XsaveLayout.inFormat xcompBv 63 with
  | false =>
    obtain ⟨henabled, -, -, hoffset⟩ := placed_of_locate hp hc
    obtain ⟨henabled', -, -, hoffset'⟩ := placed_of_locate hq hd
    rw [hformat, if_neg Bool.false_ne_true] at hoffset hoffset'
    rw [hoffset.2, hoffset'.2]
    exact hspaced.apart hformat p q hne hp hq henabled henabled'
  | true =>
    rw [← size_of_locate hsized hp hc, ← size_of_locate hsized hq hd]
    rcases Nat.lt_or_gt_of_ne fun heq => hne (Part.bit_injective heq) with hlt | hlt
    · exact .inl ((XsaveLayout.locate_compacted (Part.two_le_bit hp) hformat hc).2 _ hlt _ hd)
    · exact .inr ((XsaveLayout.locate_compacted (Part.two_le_bit hq) hformat hd).2 _ hlt _ hc)

/-- Enabled components of the right sizes in the right places are enough for a sound layout. -/
theorem sound_of_spaced (hsized : Sized cpuid xcr0) (hspaced : Spaced cpuid xcr0 xcompBv)
    (hlen : 576 ≤ len) : (XsaveLayout.probe cpuid xcr0 xcompBv).Sound len where
  header := hlen
  inside p b hb := by
    by_cases hp : p = .xmm
    · subst hp
      obtain rfl : xsaveXmmOffset = b := Option.some.inj hb
      simp only [xsaveXmmOffset, Part.size]
      omega
    · obtain ⟨size, hc, hle⟩ := base_probe hp hb
      have hsize := size_of_locate hsized hp hc
      dsimp only at hsize
      omega
  above p b hp hb := by
    obtain ⟨size, hc, -⟩ := base_probe hp hb
    exact above_of_locate hspaced hp hc
  apart p q b c hne hb hc := by
    by_cases hp : p = .xmm
    · subst hp
      obtain rfl : xsaveXmmOffset = b := Option.some.inj hb
      obtain ⟨size, hcq, -⟩ := base_probe hne.symm hc
      have habove := above_of_locate hspaced hne.symm hcq
      simp only [xsaveXmmOffset, Part.size] at habove ⊢
      omega
    · obtain ⟨sp, hcp, -⟩ := base_probe hp hb
      by_cases hq : q = .xmm
      · subst hq
        obtain rfl : xsaveXmmOffset = c := Option.some.inj hc
        have habove := above_of_locate hspaced hp hcp
        simp only [xsaveXmmOffset, Part.size] at habove ⊢
        omega
      · obtain ⟨sq, hcq, -⟩ := base_probe hq hc
        exact apart_of_locate hsized hspaced hne hp hq hcp hcq

/-- A component is there exactly if it is enabled and in the format. -/
theorem locate_isSome (hsized : Sized cpuid xcr0) (hspaced : Spaced cpuid xcr0 xcompBv)
    (hp : p ≠ .xmm) : (XsaveLayout.locate cpuid xcr0 xcompBv p.bit).isSome =
      (xcr0.toNat.testBit p.bit &&
        (!XsaveLayout.inFormat xcompBv 63 || XsaveLayout.inFormat xcompBv p.bit)) := by
  have hbit : p.bit < 63 := by cases p <;> decide
  have hiff : (XsaveLayout.locate cpuid xcr0 xcompBv p.bit).isSome = true ↔
      ∃ c, XsaveLayout.Placed cpuid xcr0 xcompBv p.bit c := by
    rw [Option.isSome_iff_exists]
    exact exists_congr fun c => XsaveLayout.locate_eq_some_iff (Part.two_le_bit hp) hbit
  rw [Bool.eq_iff_iff, hiff, Bool.and_eq_true]
  constructor
  · rintro ⟨c, henabled, -, -, hoffset⟩
    refine ⟨henabled, ?_⟩
    cases hformat : XsaveLayout.inFormat xcompBv 63 with
    | false => rfl
    | true =>
      rw [hformat, if_pos rfl] at hoffset
      rw [hoffset.1]
      rfl
  · rintro ⟨henabled, hin⟩
    have hsize := hsized p hp henabled
    have heax : (cpuid 0x0D p.bit).eax ≠ 0 := by
      intro h
      rw [h] at hsize
      cases p <;> exact absurd hsize (by decide)
    cases hformat : XsaveLayout.inFormat xcompBv 63 with
    | false =>
      have habove := hspaced.above hformat p hp henabled
      have hebx : (cpuid 0x0D p.bit).ebx ≠ 0 := by
        intro h
        rw [h] at habove
        exact absurd habove (by decide)
      refine ⟨⟨(cpuid 0x0D p.bit).ebx.toNat, _⟩, henabled, heax, rfl, ?_⟩
      rw [hformat, if_neg Bool.false_ne_true]
      exact ⟨hebx, rfl⟩
    | true =>
      rw [hformat, Bool.not_true, Bool.false_or] at hin
      refine ⟨⟨XsaveLayout.location cpuid (XsaveLayout.counted cpuid xcompBv) p.bit, _⟩, henabled,
        heax, rfl, ?_⟩
      rw [hformat, if_pos rfl]
      exact ⟨hin, rfl⟩

/-- Masks that a processor can hold leave AVX-512 out or in as a whole. -/
theorem allOrNone_probe (hsized : Sized cpuid xcr0) (hspaced : Spaced cpuid xcr0 xcompBv)
    (hxcr0 : Holds xcr0) (hxcompBv : Holds xcompBv) :
    AllOrNone (XsaveLayout.probe cpuid xcr0 xcompBv) := by
  have hymm := locate_isSome (p := .ymmHi) hsized hspaced (by decide)
  have hzmm := locate_isSome (p := .zmmHi) hsized hspaced (by decide)
  have hhi := locate_isSome (p := .hi16) hsized hspaced (by decide)
  simp only [Part.bit, XsaveLayout.inFormat] at hymm hzmm hhi
  constructor
  · unfold XsaveLayout.probe
    dsimp only
    rw [hhi, hzmm, hxcr0.hi16, hxcompBv.hi16]
  · unfold XsaveLayout.probe
    dsimp only
    rw [hymm, hzmm, Bool.and_eq_true, Bool.and_eq_true, Bool.or_eq_true, Bool.or_eq_true]
    rintro ⟨henabled, hstd | hin⟩
    · exact ⟨hxcr0.avx henabled, .inl hstd⟩
    · exact ⟨hxcr0.avx henabled, .inr (hxcompBv.avx hin)⟩

end Probe

/-- **The promise of the vector registers.**  On every layout `probe` can produce under masks that a
processor can hold, registers below `vector_regs` read in their chunks below `vector_chunks` as last
written, and all else reads as zero. -/
theorem promise {cpuid : Cpuid} {xcr0 xcompBv : UInt64} (hsized : Sized cpuid xcr0)
    (hspaced : Spaced cpuid xcr0 xcompBv) (hxcr0 : Holds xcr0) (hxcompBv : Holds xcompBv)
    {img : XsaveImage} (hlong : LongEnough (.probe cpuid xcr0 xcompBv) img.len)
    (ws : List (ℕ × List UInt64)) (hws : ∀ w ∈ ws, w.1 < 32) :
    let layout : XsaveLayout := .probe cpuid xcr0 xcompBv
    ∃ img', xsaveWrites layout img ws = some img' ∧ ∀ n < 32,
      ∃ out, xsaveGetZmm img' layout n = some out ∧ ∀ i < 8,
        (n < layout.vectorRegs ∧ i < layout.vectorChunks →
          ∀ data, lastData ws n = some data → out i = data.getD i 0) ∧
        (¬ (n < layout.vectorRegs ∧ i < layout.vectorChunks) → out i = 0) := by
  intro layout
  have hsound := sound_of_spaced hsized hspaced hlong.header
  have hall := allOrNone_probe hsized hspaced hxcr0 hxcompBv
  obtain ⟨img', hrun, -, hreads⟩ := xsaveWrites_spec hsound ws hws
  refine ⟨img', hrun, fun n hn => ⟨_, hreads n hn, fun i hi => ?_⟩⟩
  have hslot := slot_isSome_iff hlong hall hn hi
  constructor
  · intro hthere data hdata
    rw [if_pos ⟨hi, hslot.2 hthere⟩, chunkAfter, hdata]
  · intro hmissing
    rw [if_neg fun hand => hmissing (hslot.1 hand.2)]

theorem avx512Cpuid_spaced : Spaced avx512Cpuid 0xE7 0 where
  above _ p := by cases p <;> decide
  apart _ p q := by cases p <;> cases q <;> decide

theorem avx512Cpuid_sized : Sized avx512Cpuid 0xE7 := by
  intro p
  cases p <;> decide

theorem promise_avx512 :
    let layout : XsaveLayout := .probe avx512Cpuid 0xE7 0
    ∃ img', xsaveWrites layout ⟨fun _ => 0, 2688⟩ [(3, [1, 2]), (20, [7])] = some img' ∧ ∀ n < 32,
      ∃ out, xsaveGetZmm img' layout n = some out ∧ ∀ i < 8,
        (n < layout.vectorRegs ∧ i < layout.vectorChunks →
          ∀ data, lastData [(3, [1, 2]), (20, [7])] n = some data → out i = data.getD i 0) ∧
        (¬ (n < layout.vectorRegs ∧ i < layout.vectorChunks) → out i = 0) :=
  promise avx512Cpuid_sized avx512Cpuid_spaced (by constructor <;> decide)
    (by constructor <;> decide)
    ⟨by decide, by decide, by decide, by decide⟩ [(3, [1, 2]), (20, [7])] (by decide)

/-- A CPUID that has no place for YMM_Hi128 in the standard format. -/
def gapCpuid : Cpuid := fun _ i =>
  match i with
  | 2 => ⟨256, 0, 0, 0⟩
  | 6 => ⟨512, 1152, 0, 0⟩
  | 7 => ⟨1024, 1664, 0, 0⟩
  | _ => ⟨0, 0, 0, 0⟩

theorem gapCpuid_sound : (XsaveLayout.probe gapCpuid 0xE7 0).Sound 2688 where
  header := by decide
  inside p b hb := by cases p <;> cases hb <;> decide
  above p b hp hb := by
    cases p with
    | xmm => exact absurd rfl hp
    | _ => cases hb <;> decide
  apart p q b c hne hb hc := by
    cases p <;> cases q <;> cases hb <;> cases hc <;> first | exact absurd rfl hne | decide

/-- There the width is 512 all the same, and chunk 2 of a register reads as zero. -/
theorem gap_lost :
    ¬ ∀ (cpuid : Cpuid) (xcr0 xcompBv : UInt64) (img : XsaveImage) (n i : ℕ) (data : List UInt64),
      Sized cpuid xcr0 → Holds xcr0 → Holds xcompBv →
        LongEnough (.probe cpuid xcr0 xcompBv) img.len →
        n < (XsaveLayout.probe cpuid xcr0 xcompBv).vectorRegs →
        i < (XsaveLayout.probe cpuid xcr0 xcompBv).vectorChunks →
        ∃ img' out, xsaveSetZmm img (.probe cpuid xcr0 xcompBv) n data = some img' ∧
          xsaveGetZmm img' (.probe cpuid xcr0 xcompBv) n = some out ∧ out i = data.getD i 0 := by
  intro h
  obtain ⟨img', out, hset, hget, hout⟩ := h gapCpuid 0xE7 0 ⟨fun _ => 0, 2688⟩ 0 2 [0, 0, 1]
    (by intro p; cases p <;> decide) (by constructor <;> decide) (by constructor <;> decide)
    ⟨by decide, by decide, by decide, by decide⟩ (by decide) (by decide)
  obtain ⟨img₁, hset₁, hwritten⟩ := xsaveSetZmm_spec (n := 0)
    (show (XsaveLayout.probe gapCpuid 0xE7 0).Sound (⟨fun _ => 0, 2688⟩ : XsaveImage).len from
      gapCpuid_sound) (by decide) [0, 0, 1]
  obtain rfl : img₁ = img' := Option.some.inj (hset₁.symm.trans hset)
  have hreads := (hwritten.put gapCpuid_sound (by decide)).get_self
  obtain rfl := Option.some.inj (hreads.symm.trans hget)
  exact absurd hout (by decide)

end Hw
