import Mathlib
import X86Oracle.Lib.Paging
import X86Oracle.Lib.Interrupts
import X86Oracle.Hw.Fault
import X86Oracle.Hw.Image

/-!
# What the processor finds in the control image

The control structures read with the processor's own rules.

* `walk_below` and `walk_above`: in fresh RAM the page walk is the identity below the RAM size
  and finds nothing above it.
* The segment caches the two backends load are the ones the GDT's descriptors decode to.
* `gate_image`: every IDT gate enters its own stub on IST1.
* `deliver_image`: delivery of any vector with any frame pushes onto the exception stack only.
* `initialRam_consistent` puts these together.
-/

namespace Hw

open Bytes Paging Interrupts

/-! ## The page walk -/

/-- Walk from CR3 through guest RAM. -/
def GuestRam.walk (ram : GuestRam) (la : UInt64) : Walk :=
  Paging.walk (fun a => (ram.readU64 (UInt64.ofNat a)).toNat) pml4Addr.toNat la.toNat

/-- RAM as the backends set it up. -/
def initialRam : GuestRam := buildControlStructures (GuestRam.new ramSize.toNat)

theorem controlImage_initialRam : ControlImage initialRam :=
  controlImage_build rfl

theorem readU64_ofNat {ram : GuestRam} (hlen : ram.len = ramSize.toNat) {a : ℕ}
    (h : a + 8 ≤ 0x10000000) : (ram.readU64 (UInt64.ofNat a)).toNat = ram.bytes.readLe 8 a := by
  have ha : (UInt64.ofNat a).toNat = a := by
    rw [UInt64.toNat_ofNat']
    omega
  rw [GuestRam.readU64_toNat (inRange_of_le hlen (by rw [ha]; exact h)), ha]

/-- A quadword of fresh RAM that the builder did not write is zero. -/
theorem initialRam_zero {a : ℕ} (h : ∀ i < 8, ¬ builtBytes (a + i)) :
    initialRam.bytes.readLe 8 a = 0 := by
  have hzero : initialRam.bytes.readLe 8 a = (GuestRam.new ramSize.toNat).bytes.readLe 8 a :=
    Store.readLe_congr fun i hi => by
      rw [initialRam, build_frame (GuestRam.new_len _) (h i hi)]
  rw [hzero]
  rfl

/-- The walk reads paging entries through `readU64`. -/
theorem entry_read {ram : GuestRam} (h : ControlImage ram) {a e : ℕ} (ha : a + 8 ≤ 0x10000000)
    (he : ram.bytes.readLe 8 a = e) :
    (fun a => (ram.readU64 (UInt64.ofNat a)).toNat) a = e :=
  (readU64_ofNat h.len ha).trans he

theorem frame4K_cr3 : frame4K pml4Addr.toNat = 0xFC00000 := by
  rw [pml4Addr_toNat]
  decide

theorem pml4e_ptr {e : ℕ} (h : e = 0xFC01003) : TablePtr e 0xFC01 3 :=
  ⟨h, by norm_num, by norm_num, by decide, by decide⟩

theorem pdpte_ptr {e : ℕ} (h : e = 0xFC02003) : TablePtr e 0xFC02 3 :=
  ⟨h, by norm_num, by norm_num, by decide, by decide⟩

theorem pde_page {e k : ℕ} (hk : k < 128) (h : e = 2 ^ 21 * k + 0x83) : LargePage e k 0x83 :=
  ⟨h, by norm_num, by omega, by decide, by decide⟩

/-- Below the RAM size the walk is the identity. -/
theorem walk_below {ram : GuestRam} (h : ControlImage ram) {la : UInt64}
    (hla : la.toNat < ramSize.toNat) :
    ram.walk la = .page
      { phys := la.toNat, tablesWritable := true, leafWritable := true, user := false,
        dirty := false } := by
  rw [ramSize_toNat] at hla
  have h3 : index 3 la.toNat = 0 := by rw [index]; omega
  have h2 : index 2 la.toNat = 0 := by rw [index]; omega
  have h1 : index 1 la.toNat = la.toNat / 2 ^ 21 := by rw [index]; omega
  have hphys : 2 ^ 21 * (la.toNat / 2 ^ 21) + la.toNat % 2 ^ 21 = la.toNat := Nat.div_add_mod _ _
  rw [GuestRam.walk, walk_page2M
    (pml4e_ptr (by rw [frame4K_cr3, h3]; exact entry_read h (by norm_num) h.pml4))
    (pdpte_ptr (by rw [h2]; exact entry_read h (by norm_num) h.pdpt))
    (pde_page (k := la.toNat / 2 ^ 21) (by omega)
      (by rw [h1]; exact entry_read h (by omega) (h.pd _ (by omega)))), hphys]
  rfl

/-- From the RAM size on, no canonical address is mapped in fresh RAM. -/
theorem walk_above {la : UInt64} (hc : Canonical la) (hla : ramSize.toNat ≤ la.toNat) :
    initialRam.walk la = .notPresent := by
  have h := controlImage_initialRam
  have habsent {a : ℕ} (ha : a + 8 ≤ 0x10000000) (hfree : ∀ i < 8, ¬ builtBytes (a + i)) :
      present ((fun a => (initialRam.readU64 (UInt64.ofNat a)).toNat) a) = false := by
    rw [entry_read h ha (initialRam_zero hfree)]
    rfl
  rw [ramSize_toNat] at hla
  rw [GuestRam.walk]
  by_cases h3 : index 3 la.toNat = 0
  · have hlow : la.toNat < 2 ^ 39 := by
      rw [index] at h3
      rcases hc with hc | hc
      · omega
      · have := la.toNat_lt
        omega
    have hpml4 := entry_read h (by norm_num) h.pml4
    by_cases h2 : index 2 la.toNat = 0
    · rw [index] at h2
      have hi : index 1 la.toNat < 512 := index_lt 1 _
      have hge : 128 ≤ index 1 la.toNat := by rw [index]; omega
      refine walk_pd_absent
        (pml4e_ptr (by rw [frame4K_cr3, h3]; exact hpml4))
        (pdpte_ptr (by
          have hidx : index 2 la.toNat = 0 := h2
          rw [hidx]
          exact entry_read h (by norm_num) h.pdpt)) ?_
      exact habsent (by omega) fun i hi' => by rw [builtBytes]; omega
    · have hi : index 2 la.toNat < 512 := index_lt 2 _
      refine walk_pdpt_absent (pml4e_ptr (by rw [frame4K_cr3, h3]; exact hpml4)) ?_
      exact habsent (by omega) fun i hi' => by rw [builtBytes]; omega
  · have hi : index 3 la.toNat < 512 := index_lt 3 _
    refine walk_pml4_absent ?_
    rw [frame4K_cr3]
    exact habsent (by omega) fun i hi' => by rw [builtBytes]; omega

/-! ## The vCPU's segment registers -/

/-- A segment register's cached descriptor, with the type field's `S` bit included. -/
structure SegmentRegister where
  selector : UInt16
  base : ℕ
  limit : ℕ
  type : ℕ
  dpl : ℕ
  present : Bool
  avl : Bool
  long : Bool
  db : Bool
  granular : Bool
deriving DecidableEq, Repr

/-- Loading `selector` caches the descriptor it names. -/
def loadSegment (selector : UInt16) (d : Segment) : SegmentRegister :=
  { selector, base := d.base, limit := d.scaledLimit, type := d.type, dpl := d.dpl,
    present := d.present, avl := d.avl, long := d.long, db := d.db, granular := d.granular }

/-- Loading TR also marks the TSS busy. -/
def loadTask (selector : UInt16) (d : Segment) : SegmentRegister :=
  { loadSegment selector d with type := d.type ||| 2 }

/-- `kvm_segment`. -/
structure KvmSegment where
  base : UInt64
  limit : UInt32
  selector : UInt16
  type : UInt8
  present : UInt8
  dpl : UInt8
  db : UInt8
  s : UInt8
  l : UInt8
  g : UInt8
  avl : UInt8
  unusable : UInt8

def KvmSegment.cache (seg : KvmSegment) : SegmentRegister :=
  { selector := seg.selector, base := seg.base.toNat, limit := seg.limit.toNat
    type := seg.type.toNat + 16 * seg.s.toNat, dpl := seg.dpl.toNat
    present := seg.present == 1 && seg.unusable == 0, avl := seg.avl == 1, long := seg.l == 1
    db := seg.db == 1, granular := seg.g == 1 }

/-- `WHV_X64_SEGMENT_REGISTER`. -/
structure WhvSegment where
  base : UInt64
  limit : UInt32
  selector : UInt16
  attributes : UInt16

def WhvSegment.cache (seg : WhvSegment) : SegmentRegister :=
  let a := seg.attributes.toNat
  { selector := seg.selector, base := seg.base.toNat, limit := seg.limit.toNat
    type := a % 32, dpl := a / 32 % 4, present := a.testBit 7, avl := a.testBit 12
    long := a.testBit 13, db := a.testBit 14, granular := a.testBit 15 }

/-- CS, the data segments and TR as `KvmOracle::enter_long_mode` loads them. -/
def kvmCode : KvmSegment :=
  { base := 0, limit := 0xFFFFFFFF, selector := selCode64, type := 0b1011, present := 1, dpl := 0,
    db := 0, s := 1, l := 1, g := 1, avl := 0, unusable := 0 }

def kvmData : KvmSegment :=
  { base := 0, limit := 0xFFFFFFFF, selector := selData, type := 0b0011, present := 1, dpl := 0,
    db := 1, s := 1, l := 0, g := 1, avl := 0, unusable := 0 }

def kvmTask : KvmSegment :=
  { base := tssAddr, limit := tssLimit, selector := selTss, type := 11, present := 1, dpl := 0,
    db := 0, s := 0, l := 0, g := 0, avl := 0, unusable := 0 }

/-- The same as `WhpOracle::enter_long_mode` loads them. -/
def whpCode : WhvSegment :=
  { base := 0, limit := 0xFFFFFFFF, selector := selCode64, attributes := 0xA09B }

def whpData : WhvSegment :=
  { base := 0, limit := 0xFFFFFFFF, selector := selData, attributes := 0xC093 }

def whpTask : WhvSegment :=
  { base := tssAddr, limit := tssLimit, selector := selTss, attributes := 0x008B }

/-- The `n`-byte descriptor a selector names in the GDT. -/
def GuestRam.descriptor (ram : GuestRam) (n : ℕ) (selector : UInt16) : ℕ :=
  ram.bytes.readLe n (gdtAddr.toNat + 8 * (selector.toNat / 8))

/-- The GDT's descriptors decode to what both backends load. -/
def DescriptorsMatch (ram : GuestRam) : Prop :=
  (∀ cache ∈ [kvmCode.cache, whpCode.cache],
      loadSegment selCode64 (decodeSegment (ram.descriptor 8 selCode64)) = cache) ∧
    (∀ cache ∈ [kvmData.cache, whpData.cache],
      loadSegment selData (decodeSegment (ram.descriptor 8 selData)) = cache) ∧
    ∀ cache ∈ [kvmTask.cache, whpTask.cache],
      loadTask selTss (decodeSystem (ram.descriptor 16 selTss)) = cache

theorem descriptorsMatch {ram : GuestRam} (h : ControlImage ram) : DescriptorsMatch ram := by
  have hcode : ram.descriptor 8 selCode64 = 0x00AF9B000000FFFF := h.code
  have hdata : ram.descriptor 8 selData = 0x00CF93000000FFFF := h.data
  have htask : ram.descriptor 16 selTss = tssLow.toNat := h.tssDescriptor
  rw [DescriptorsMatch, hcode, hdata, htask]
  decide

/-! ## Gates and stubs -/

/-- The gate the processor finds for a vector. -/
def GuestRam.gate (ram : GuestRam) (vector : UInt8) : Gate :=
  decodeGate (ram.bytes.readLe 16 (idtAddr.toNat + 16 * vector.toNat))

theorem decodeGate_gateWord : ∀ i : Fin 256, decodeGate (gateWord i) =
    { offset := 0xFC05000 + 16 * i, selector := selCode64.toNat, ist := 1,
      type := interruptGate, dpl := 0, present := true } := by
  decide +kernel

/-- Gate `v` is a present interrupt gate on IST1 that enters stub `v`. -/
theorem gate_image {ram : GuestRam} (h : ControlImage ram) (v : UInt8) : ram.gate v =
    { offset := 0xFC05000 + 16 * v.toNat, selector := selCode64.toNat, ist := 1,
      type := interruptGate, dpl := 0, present := true } := by
  have hv : v.toNat < 256 := v.toNat_lt
  rw [GuestRam.gate, idtAddr_toNat, h.gate _ hv]
  exact decodeGate_gateWord ⟨v.toNat, hv⟩

/-- A stub byte is `HLT` exactly at a gate's target. -/
theorem stub_hlt_iff {ram : GuestRam} (h : ControlImage ram) {x : ℕ}
    (hx : Structure.stubs.Contains x) :
    ram.bytes x = 0xF4 ↔ ∃ v, (ram.gate v).offset = x := by
  rw [Structure.contains_iff] at hx
  have hbyte := h.stub (x - 0xFC05000) (by omega)
  rw [show 0xFC05000 + (x - 0xFC05000) = x by omega] at hbyte
  rw [hbyte]
  constructor
  · intro hhlt
    have hmod : (x - 0xFC05000) % 16 = 0 := by
      by_contra hne
      rw [if_neg hne] at hhlt
      exact absurd hhlt (by decide)
    refine ⟨UInt8.ofNat ((x - 0xFC05000) / 16), ?_⟩
    rw [gate_image h, UInt8.toNat_ofNat']
    simp only
    omega
  · rintro ⟨v, hv⟩
    rw [gate_image h] at hv
    simp only at hv
    rw [if_pos (by omega)]

/-! ## Delivery -/

theorem words_length_le (f : Frame) : f.words.length ≤ 6 := by
  cases h : f.errorCode <;> simp [Frame.words, h]

/-- Delivery of any vector pushes onto the exception stack and enters the vector's stub. -/
theorem deliver_image {ram : GuestRam} (h : ControlImage ram) (v : UInt8) (f : Frame) :
    deliver ram.bytes idtAddr.toNat tssAddr.toNat v f = some
      { mem := (pushAll ram.bytes istStackTop f.words).1
        rip := UInt64.ofNat (0xFC05000 + 16 * v.toNat)
        rsp := (pushAll ram.bytes istStackTop f.words).2
        rflags := f.rflags &&& ~~~gateClears } := by
  have hgate := gate_image h v
  rw [GuestRam.gate] at hgate
  have hist : UInt64.ofNat (ram.bytes.readLe 8 (tssAddr.toNat + 0x1C + 8 * 1)) &&& ~~~15 =
      istStackTop := by
    have hread : ram.bytes.readLe 8 (tssAddr.toNat + 0x1C + 8 * 1) = 0xFC08000 := h.ist1
    rw [hread]
    decide
  rw [deliver, hgate]
  simp only [if_true, one_ne_zero, if_false, hist]

/-- No byte of any structure is in reach of a frame on the exception stack. -/
theorem push_keeps_structures {ram : GuestRam} (f : Frame) {s : Structure} {x : ℕ}
    (hx : s.Contains x) : (pushAll ram.bytes istStackTop f.words).1 x = ram.bytes x := by
  have hlen := words_length_le f
  have hbound : x < 0xFC07000 := by
    rw [Structure.contains_iff] at hx
    cases s <;> simp only at hx <;> omega
  exact pushAll_frame (by rw [istStackTop_toNat]; omega) (by rw [istStackTop_toNat]; omega)

/-! ## The image as a whole -/

/-- The control structures in `ram` fit together. -/
structure Consistent (ram : GuestRam) : Prop where
  /-- The walk from CR3 is the identity on RAM and finds nothing else. -/
  walk : ∀ la, Canonical la → ram.walk la =
    if la.toNat < ramSize.toNat then
      .page { phys := la.toNat, tablesWritable := true, leafWritable := true, user := false,
              dirty := false }
    else .notPresent
  descriptors : DescriptorsMatch ram
  ist1 : ram.bytes.readLe 8 (tssAddr.toNat + 0x24) = istStackTop.toNat
  gate : ∀ v, (ram.gate v).present = true ∧ (ram.gate v).type = interruptGate ∧
    (ram.gate v).selector = selCode64.toNat ∧ (ram.gate v).ist = 1 ∧
    ram.bytes (ram.gate v).offset = 0xF4
  /-- The only `HLT` bytes in the stub area are the gates' targets. -/
  onlyHlt : ∀ x, Structure.stubs.Contains x →
    (ram.bytes x = 0xF4 ↔ ∃ v, (ram.gate v).offset = x)
  /-- After a `HLT` in the stub area, `stubVector` names the vector whose gate targets it. -/
  stubVector : ∀ x, Structure.stubs.Contains x → ram.bytes x = 0xF4 →
    ∀ v, stubVector (UInt64.ofNat (x + 1)) = some v ↔ (ram.gate v).offset = x
  /-- Outside the area there is no vector, the RIP just past its last byte set aside. -/
  stubVectorNone : ∀ rip : UInt64, ¬ Structure.stubs.Contains rip.toNat →
    rip ≠ stubBase + stubArea → Hw.stubVector rip = none
  disjoint : ∀ s t : Structure, s ≠ t → ∀ x, s.Contains x → ¬ t.Contains x
  inRam : ∀ (s : Structure) x, s.Contains x → x < ramSize.toNat
  /-- Delivery succeeds, and its frame overwrites no structure. -/
  frame : ∀ v f, ∃ e, deliver ram.bytes idtAddr.toNat tssAddr.toNat v f = some e ∧
    ∀ (s : Structure) x, s.Contains x → e.mem x = ram.bytes x

theorem stubVector_after_hlt {ram : GuestRam} (h : ControlImage ram) {x : ℕ}
    (hx : Structure.stubs.Contains x) (hhlt : ram.bytes x = 0xF4) (v : UInt8) :
    stubVector (UInt64.ofNat (x + 1)) = some v ↔ (ram.gate v).offset = x := by
  obtain ⟨w, hw⟩ := (stub_hlt_iff h hx).1 hhlt
  rw [gate_image h] at hw ⊢
  rw [Structure.contains_iff] at hx
  simp only at hx hw ⊢
  rw [stubVector_eq_some_iff, UInt64.toNat_ofNat', Nat.mod_eq_of_lt (by omega)]
  omega

/-- The RIP just past the stub area is outside it, and still stands for the last vector: the
area's bound is on the RIP after the one-byte `HLT`. -/
theorem stubVector_past_area :
    ¬ Structure.stubs.Contains (stubBase + stubArea).toNat ∧
      stubVector (stubBase + stubArea) ≠ none := by
  decide

/-- Both backends start from a consistent image. -/
theorem initialRam_consistent : Consistent initialRam := by
  have h := controlImage_initialRam
  refine
    { walk := fun la hc => ?_
      descriptors := descriptorsMatch h
      ist1 := h.ist1
      gate := fun v => ?_
      onlyHlt := fun x hx => stub_hlt_iff h hx
      stubVector := fun x hx hhlt v => stubVector_after_hlt h hx hhlt v
      stubVectorNone := fun rip hrip hend => ?_
      disjoint := fun s t hst x hs => Structure.disjoint hst hs
      inRam := fun s x hs => ?_
      frame := fun v f => ⟨_, deliver_image h v f, fun s x hs => push_keeps_structures f hs⟩ }
  · split
    · exact walk_below h ‹_›
    · exact walk_above hc (by omega)
  · have hv : v.toNat < 256 := v.toNat_lt
    rw [gate_image h]
    refine ⟨rfl, rfl, rfl, rfl, ?_⟩
    rw [h.stub _ (by omega), if_pos (by omega)]
  · rw [Structure.contains_iff] at hrip
    simp only at hrip
    have hne : rip.toNat ≠ 0xFC06000 := fun heq =>
      hend (UInt64.toNat_inj.1 (heq.trans stubEnd_toNat.symm))
    exact stubVector_of_outside (by omega)
  · rw [Structure.contains_iff] at hs
    rw [ramSize_toNat]
    cases s <;> simp only at hs <;> omega

end Hw
