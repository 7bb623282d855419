import Mathlib
import X86Oracle.Lib.Words
import X86Oracle.Hw.Layout

/-!
# The control structures as one memory image

`buildControlStructures` of `src/hw.rs`, and what the processor finds in the RAM it leaves.

* `ControlImage` collects the contents of every structure; `controlImage_build` establishes it
  over arbitrary earlier RAM contents, and `ControlImage.of_agree` carries it across anything
  that leaves the control bytes alone.
* `build_frame`: the builder touches no byte outside the structures.
-/

namespace Hw

open Bytes

/-! ## The builder -/

/-- Body of the page-directory loop. -/
def writePde (ram : GuestRam) (i : ℕ) : GuestRam :=
  let frame := UInt64.ofNat i <<< 21
  ram.writeU64 (pdAddr + UInt64.ofNat i * 8) (frame ||| pteP ||| pteW ||| ptePS)

/-- 4-level paging, 2 MiB leaves: `PML4[0] -> PDPT[0] -> PD[0..128)`. -/
def buildPageTables (ram : GuestRam) : GuestRam :=
  let ram := ram.writeU64 pml4Addr (pdptAddr ||| pteP ||| pteW)
  let ram := ram.writeU64 pdptAddr (pdAddr ||| pteP ||| pteW)
  (List.range (ramSize >>> 21).toNat).foldl writePde ram

/-- Low half of the 16-byte TSS descriptor: base split across fields, type 9, present. -/
def tssLow : UInt64 :=
  (tssLimit.toUInt64 &&& (0xFFFF : UInt64)) ||| ((tssAddr &&& (0xFFFF : UInt64)) <<< 16) |||
    (((tssAddr >>> 16) &&& (0xFF : UInt64)) <<< 32) ||| ((0x89 : UInt64) <<< 40) |||
    (((tssAddr >>> 24) &&& (0xFF : UInt64)) <<< 56)

/-- Null, 64-bit code, flat data, then the TSS descriptor at its selector. -/
def buildGdt (ram : GuestRam) : GuestRam :=
  let ram := ram.writeU64 gdtAddr 0
  let ram := ram.writeU64 (gdtAddr + 8) 0x00AF9B000000FFFF
  let ram := ram.writeU64 (gdtAddr + 16) 0x00CF93000000FFFF
  let ram := ram.writeU64 (gdtAddr + selTss.toUInt64) tssLow
  ram.writeU64 (gdtAddr + selTss.toUInt64 + 8) (tssAddr >>> 32)

/-- Everything zero except IST1. -/
def tssBytes : List UInt8 :=
  List.replicate 0x24 0 ++ leBytes 8 istStackTop.toNat ++ List.replicate (0x68 - 0x2C) 0

def buildTss (ram : GuestRam) : GuestRam :=
  ram.write tssAddr tssBytes

def stubTarget (vector : UInt64) : UInt64 := stubBase + vector * stubStride

/-- Low half of a gate: offset, code selector, IST 1, present 64-bit interrupt gate of DPL 0. -/
def gateLow (vector : UInt64) : UInt64 :=
  (stubTarget vector &&& (0xFFFF : UInt64)) ||| (selCode64.toUInt64 <<< 16) |||
    ((1 : UInt64) <<< 32) ||| ((0x8E : UInt64) <<< 40) |||
    (((stubTarget vector >>> 16) &&& (0xFFFF : UInt64)) <<< 48)

/-- Body of the IDT loop: the two halves of a gate. -/
def writeGate (ram : GuestRam) (i : ℕ) : GuestRam :=
  let vector := UInt64.ofNat i
  let ram := ram.writeU64 (idtAddr + vector * 16) (gateLow vector)
  ram.writeU64 (idtAddr + vector * 16 + 8) (stubTarget vector >>> 32)

/-- One gate per vector, targeting its stub. -/
def buildIdt (ram : GuestRam) : GuestRam :=
  (List.range 256).foldl writeGate ram

/-- A `HLT` at each multiple of the stride, zero bytes between them. -/
def stubBytes : List UInt8 :=
  (List.range stubArea.toNat).map fun i => if i % stubStride.toNat = 0 then 0xF4 else 0

def buildStubs (ram : GuestRam) : GuestRam :=
  ram.write stubBase stubBytes

def buildControlStructures (ram : GuestRam) : GuestRam :=
  buildStubs (buildIdt (buildTss (buildGdt (buildPageTables ram))))

/-! ## What each part writes -/

section Parts

variable {ram : GuestRam}

theorem inRange_of_le (hlen : ram.len = ramSize.toNat) {addr : UInt64} {n : ℕ}
    (h : addr.toNat + n ≤ 0x10000000) : ram.inRange addr n = true := by
  rw [GuestRam.inRange_iff, hlen, ramSize_toNat]
  omega

theorem pdSlot_toNat {i : ℕ} (hi : i < 128) :
    (pdAddr + UInt64.ofNat i * 8).toNat = 0xFC02000 + 8 * i := by
  rw [UInt64.toNat_add, UInt64.toNat_mul, UInt64.toNat_ofNat', pdAddr_toNat]
  simp only [UInt64.reduceToNat]
  omega

/-- The page-directory entries: 2 MiB frames, present, writable, supervisor. -/
theorem pde_toNat {i : ℕ} (hi : i < 128) :
    ((UInt64.ofNat i <<< 21) ||| pteP ||| pteW ||| ptePS).toNat = 2 ^ 21 * i + 0x83 := by
  have hframe : (UInt64.ofNat i <<< 21).toNat = 2 ^ 21 * i := by
    rw [UInt64.toNat_shiftLeft, UInt64.toNat_ofNat', Nat.shiftLeft_eq]
    simp only [UInt64.reduceToNat, Nat.reduceMod, Nat.reducePow]
    omega
  rw [UInt64.toNat_or, UInt64.toNat_or, UInt64.toNat_or, Nat.or_assoc, Nat.or_assoc, hframe]
  exact Words.mul_or_eq_add (by decide)

theorem writePde_spec (hlen : ram.len = ramSize.toNat) {s : Store} {i : ℕ} (hi : i < 128)
    (h : Table s ram.bytes 0xFC02000 8 8 i fun i => 2 ^ 21 * i + 0x83) :
    Table s (writePde ram i).bytes 0xFC02000 8 8 (i + 1) fun i => 2 ^ 21 * i + 0x83 := by
  have hslot := pdSlot_toNat hi
  have hin : ram.inRange (pdAddr + UInt64.ofNat i * 8) 8 = true := inRange_of_le hlen (by omega)
  refine h.push (le_refl 8) ?_ fun x hx => GuestRam.writeU64_of_outside (by omega)
  rw [writePde, GuestRam.writeU64_of_inRange hin, hslot, Store.readLe_writeLe_self, pde_toNat hi]
  exact Nat.mod_eq_of_lt (by norm_num; omega)

theorem pdLoop_spec (hlen : ram.len = ramSize.toNat) :
    ((List.range 128).foldl writePde ram).len = ramSize.toNat ∧
      Table ram.bytes ((List.range 128).foldl writePde ram).bytes 0xFC02000 8 8 128
        fun i => 2 ^ 21 * i + 0x83 := by
  refine foldl_range_induction (f := writePde) (fun i (r : GuestRam) => r.len = ramSize.toNat ∧
    Table ram.bytes r.bytes 0xFC02000 8 8 i fun i => 2 ^ 21 * i + 0x83) ⟨hlen, .empty ..⟩ ?_
  rintro i r hi ⟨hr, ht⟩
  exact ⟨by rw [writePde, GuestRam.writeU64_len, hr], writePde_spec hr hi ht⟩

theorem gateSlot_toNat {i : ℕ} (hi : i < 256) :
    (idtAddr + UInt64.ofNat i * 16).toNat = 0xFC04000 + 16 * i ∧
      (idtAddr + UInt64.ofNat i * 16 + 8).toNat = 0xFC04000 + 16 * i + 8 := by
  simp only [UInt64.toNat_add, UInt64.toNat_mul, UInt64.toNat_ofNat', idtAddr_toNat,
    UInt64.reduceToNat]
  omega

/-- The 16 bytes of gate `i`, as one number. -/
def gateWord (i : ℕ) : ℕ :=
  (gateLow (UInt64.ofNat i)).toNat + 2 ^ 64 * (stubTarget (UInt64.ofNat i) >>> 32).toNat

theorem writeGate_spec (hlen : ram.len = ramSize.toNat) {s : Store} {i : ℕ} (hi : i < 256)
    (h : Table s ram.bytes 0xFC04000 16 16 i gateWord) :
    Table s (writeGate ram i).bytes 0xFC04000 16 16 (i + 1) gateWord := by
  obtain ⟨hlow, hhigh⟩ := gateSlot_toNat hi
  have hin (r : GuestRam) (hr : r.len = ramSize.toNat) (a : UInt64) (ha : a.toNat < 0xFC05000) :
      r.inRange a 8 = true := inRange_of_le hr (by omega)
  have hword (v : UInt64) : v.toNat % 256 ^ 8 = v.toNat :=
    Nat.mod_eq_of_lt (by simpa using v.toNat_lt)
  refine h.push (le_refl 16) ?_ fun x hx => ?_
  · rw [Store.readLe_add _ 8 8, writeGate,
      GuestRam.writeU64_of_inRange (hin _ (by simpa using hlen) _ (by omega)), hhigh,
      Store.readLe_writeLe_self,
      Store.readLe_writeLe_of_disjoint (by omega),
      GuestRam.writeU64_of_inRange (hin _ hlen _ (by omega)), hlow, Store.readLe_writeLe_self,
      hword, hword]
    rfl
  · rw [writeGate, GuestRam.writeU64_of_outside (by omega),
      GuestRam.writeU64_of_outside (by omega)]

theorem buildIdt_spec (hlen : ram.len = ramSize.toNat) :
    (buildIdt ram).len = ramSize.toNat ∧
      Table ram.bytes (buildIdt ram).bytes 0xFC04000 16 16 256 gateWord := by
  refine foldl_range_induction (f := writeGate) (fun i (r : GuestRam) => r.len = ramSize.toNat ∧
    Table ram.bytes r.bytes 0xFC04000 16 16 i gateWord) ⟨hlen, .empty ..⟩ ?_
  rintro i r hi ⟨hr, ht⟩
  exact ⟨by simpa [writeGate] using hr, writeGate_spec hr hi ht⟩

theorem buildPageTables_spec (hlen : ram.len = ramSize.toNat) :
    let ram' := buildPageTables ram
    ram'.len = ramSize.toNat ∧ ram'.bytes.readLe 8 0xFC00000 = 0xFC01003 ∧
      ram'.bytes.readLe 8 0xFC01000 = 0xFC02003 ∧
      (∀ i < 128, ram'.bytes.readLe 8 (0xFC02000 + 8 * i) = 2 ^ 21 * i + 0x83) ∧
      ∀ x, (x < 0xFC00000 ∨ 0xFC00008 ≤ x) → (x < 0xFC01000 ∨ 0xFC01008 ≤ x) →
        (x < 0xFC02000 ∨ 0xFC02400 ≤ x) → ram'.bytes x = ram.bytes x := by
  have hin (r : GuestRam) (hr : r.len = ramSize.toNat) (a : UInt64) (ha : a.toNat < 0xFC05000) :
      r.inRange a 8 = true := inRange_of_le hr (by omega)
  set r1 := ram.writeU64 pml4Addr (pdptAddr ||| pteP ||| pteW) with h1
  set r2 := r1.writeU64 pdptAddr (pdAddr ||| pteP ||| pteW) with h2
  have hl1 : r1.len = ramSize.toNat := by rw [h1, GuestRam.writeU64_len, hlen]
  have hl2 : r2.len = ramSize.toNat := by rw [h2, GuestRam.writeU64_len, hl1]
  obtain ⟨hl3, ht⟩ := pdLoop_spec hl2
  have hr3 : buildPageTables ram = (List.range 128).foldl writePde r2 := rfl
  rw [hr3]
  refine ⟨hl3, ?_, ?_, fun i hi => ht.entry i hi, fun x hx4 hx3 hx2 => ?_⟩
  · have hkeep : ∀ i < 8, ((List.range 128).foldl writePde r2).bytes (0xFC00000 + i) =
        r1.bytes (0xFC00000 + i) := fun i hi => by
      rw [ht.frame _ (by omega), h2, GuestRam.writeU64_of_outside (by simp; omega)]
    rw [Store.readLe_congr hkeep, h1, GuestRam.writeU64_of_inRange (hin _ hlen _ (by decide))]
    exact Store.readLe_writeLe_self ..
  · have hkeep : ∀ i < 8, ((List.range 128).foldl writePde r2).bytes (0xFC01000 + i) =
        r2.bytes (0xFC01000 + i) := fun i hi => ht.frame _ (by omega)
    rw [Store.readLe_congr hkeep, h2, GuestRam.writeU64_of_inRange (hin _ hl1 _ (by decide))]
    exact Store.readLe_writeLe_self ..
  · rw [ht.frame x (by omega), h2, GuestRam.writeU64_of_outside (by simpa using hx3), h1,
      GuestRam.writeU64_of_outside (by simpa using hx4)]

theorem buildGdt_spec (hlen : ram.len = ramSize.toNat) :
    let ram' := buildGdt ram
    ram'.len = ramSize.toNat ∧ ram'.bytes.readLe 8 0xFC03000 = 0 ∧
      ram'.bytes.readLe 8 0xFC03008 = 0x00AF9B000000FFFF ∧
      ram'.bytes.readLe 8 0xFC03010 = 0x00CF93000000FFFF ∧
      ram'.bytes.readLe 16 0xFC03018 = tssLow.toNat ∧
      ∀ x, (x < 0xFC03000 ∨ 0xFC03028 ≤ x) → ram'.bytes x = ram.bytes x := by
  have hbytes : (buildGdt ram).bytes =
      ((((ram.bytes.writeLe 8 0xFC03000 0).writeLe 8 0xFC03008 0x00AF9B000000FFFF).writeLe 8
        0xFC03010 0x00CF93000000FFFF).writeLe 8 0xFC03018 tssLow.toNat).writeLe 8 0xFC03020 0 := by
    have hin (r : GuestRam) (hr : r.len = ramSize.toNat) (a : UInt64)
        (ha : a.toNat < 0xFC05000) : r.inRange a 8 = true := inRange_of_le hr (by omega)
    rw [buildGdt, GuestRam.writeU64_of_inRange (hin _ (by simpa using hlen) _ (by decide)),
      GuestRam.writeU64_of_inRange (hin _ (by simpa using hlen) _ (by decide)),
      GuestRam.writeU64_of_inRange (hin _ (by simpa using hlen) _ (by decide)),
      GuestRam.writeU64_of_inRange (hin _ (by simpa using hlen) _ (by decide)),
      GuestRam.writeU64_of_inRange (hin _ hlen _ (by decide))]
    rfl
  refine ⟨by simpa [buildGdt] using hlen, ?_, ?_, ?_, ?_, fun x hx => ?_⟩
  · rw [hbytes, Store.readLe_writeLe_of_disjoint (by omega),
      Store.readLe_writeLe_of_disjoint (by omega), Store.readLe_writeLe_of_disjoint (by omega),
      Store.readLe_writeLe_of_disjoint (by omega), Store.readLe_writeLe_self, Nat.zero_mod]
  · rw [hbytes, Store.readLe_writeLe_of_disjoint (by omega),
      Store.readLe_writeLe_of_disjoint (by omega), Store.readLe_writeLe_of_disjoint (by omega),
      Store.readLe_writeLe_self, Nat.mod_eq_of_lt (by norm_num)]
  · rw [hbytes, Store.readLe_writeLe_of_disjoint (by omega),
      Store.readLe_writeLe_of_disjoint (by omega), Store.readLe_writeLe_self,
      Nat.mod_eq_of_lt (by norm_num)]
  · rw [Store.readLe_add _ 8 8, hbytes, Store.readLe_writeLe_self,
      Store.readLe_writeLe_of_disjoint (by omega), Store.readLe_writeLe_self]
    exact Nat.mod_eq_of_lt (by simpa using tssLow.toNat_lt)
  · rw [hbytes, Store.writeLe_of_outside (by omega), Store.writeLe_of_outside (by omega),
      Store.writeLe_of_outside (by omega), Store.writeLe_of_outside (by omega),
      Store.writeLe_of_outside (by omega)]

theorem tssBytes_length : tssBytes.length = 0x68 := by
  simp [tssBytes]

theorem buildTss_spec (hlen : ram.len = ramSize.toNat) :
    let ram' := buildTss ram
    ram'.len = ramSize.toNat ∧ ram'.bytes.readLe 8 0xFC06024 = 0xFC08000 ∧
      ∀ x, (x < 0xFC06000 ∨ 0xFC06068 ≤ x) → ram'.bytes x = ram.bytes x := by
  refine ⟨by simpa [buildTss] using hlen, ?_, fun x hx => ?_⟩
  · have hin : ram.inRange tssAddr tssBytes.length = true :=
      inRange_of_le hlen (by rw [tssBytes_length, tssAddr_toNat]; omega)
    have hslice := Store.read_write_slice (s := ram.bytes) (a := 0xFC06000)
      (show 0x24 + 8 ≤ tssBytes.length by rw [tssBytes_length]; omega)
    rw [buildTss, GuestRam.write_of_inRange hin, tssAddr_toNat, Store.readLe, hslice]
    rfl
  · exact GuestRam.write_of_outside (by rw [tssBytes_length, tssAddr_toNat]; omega)

theorem stubBytes_length : stubBytes.length = 4096 := by
  rw [stubBytes, List.length_map, List.length_range]
  rfl

theorem buildStubs_spec (hlen : ram.len = ramSize.toNat) :
    let ram' := buildStubs ram
    ram'.len = ramSize.toNat ∧
      (∀ i < 4096, ram'.bytes (0xFC05000 + i) = if i % 16 = 0 then 0xF4 else 0) ∧
      ∀ x, (x < 0xFC05000 ∨ 0xFC06000 ≤ x) → ram'.bytes x = ram.bytes x := by
  refine ⟨by simpa [buildStubs] using hlen, fun i hi => ?_, fun x hx => ?_⟩
  · have hin : ram.inRange stubBase stubBytes.length = true :=
      inRange_of_le hlen (by rw [stubBytes_length, stubBase_toNat]; omega)
    rw [buildStubs, GuestRam.write_of_inRange hin, stubBase_toNat,
      Store.write_of_inside (by rw [stubBytes_length]; exact hi)]
    simp only [stubBytes, List.getElem_map, List.getElem_range]
    rfl
  · have hx' : x < stubBase.toNat ∨ stubBase.toNat + stubBytes.length ≤ x := by
      rw [stubBytes_length, stubBase_toNat]
      omega
    rw [buildStubs, GuestRam.write_of_outside hx']

end Parts

/-! ## The image -/

/-- The structures in the control region. -/
inductive Structure where
  | pml4
  | pdpt
  | pd
  | gdt
  | idt
  | stubs
  | tss
deriving DecidableEq, Repr

namespace Structure

def base : Structure → UInt64
  | pml4 => pml4Addr
  | pdpt => pdptAddr
  | pd => pdAddr
  | gdt => gdtAddr
  | idt => idtAddr
  | stubs => stubBase
  | tss => tssAddr

/-- Size in bytes: a page for a paging structure, limit plus one for the others. -/
def size : Structure → ℕ
  | pml4 | pdpt | pd => 4096
  | gdt => gdtLimit.toNat + 1
  | idt => idtLimit.toNat + 1
  | stubs => stubArea.toNat
  | tss => tssLimit.toNat + 1

/-- The address lies in the structure. -/
def Contains (s : Structure) (x : ℕ) : Prop := s.base.toNat ≤ x ∧ x < s.base.toNat + s.size

instance (s : Structure) (x : ℕ) : Decidable (s.Contains x) :=
  inferInstanceAs (Decidable (_ ∧ _))

theorem contains_iff (s : Structure) (x : ℕ) :
    s.Contains x ↔ match s with
      | pml4 => 0xFC00000 ≤ x ∧ x < 0xFC01000
      | pdpt => 0xFC01000 ≤ x ∧ x < 0xFC02000
      | pd => 0xFC02000 ≤ x ∧ x < 0xFC03000
      | gdt => 0xFC03000 ≤ x ∧ x < 0xFC03028
      | idt => 0xFC04000 ≤ x ∧ x < 0xFC05000
      | stubs => 0xFC05000 ≤ x ∧ x < 0xFC06000
      | tss => 0xFC06000 ≤ x ∧ x < 0xFC06068 := by
  cases s <;> rfl

/-- No structure's bytes overlap another's. -/
theorem disjoint {s t : Structure} (h : s ≠ t) {x : ℕ} (hs : s.Contains x) : ¬ t.Contains x := by
  rw [contains_iff] at hs ⊢
  cases s <;> cases t <;> simp at h <;> simp only at hs ⊢ <;> omega

end Structure

/-- What RAM holds when every control structure is in place. -/
structure ControlImage (ram : GuestRam) : Prop where
  len : ram.len = ramSize.toNat
  pml4 : ram.bytes.readLe 8 0xFC00000 = 0xFC01003
  pdpt : ram.bytes.readLe 8 0xFC01000 = 0xFC02003
  pd : ∀ i < 128, ram.bytes.readLe 8 (0xFC02000 + 8 * i) = 2 ^ 21 * i + 0x83
  null : ram.bytes.readLe 8 0xFC03000 = 0
  code : ram.bytes.readLe 8 0xFC03008 = 0x00AF9B000000FFFF
  data : ram.bytes.readLe 8 0xFC03010 = 0x00CF93000000FFFF
  tssDescriptor : ram.bytes.readLe 16 0xFC03018 = tssLow.toNat
  ist1 : ram.bytes.readLe 8 0xFC06024 = 0xFC08000
  gate : ∀ i < 256, ram.bytes.readLe 16 (0xFC04000 + 16 * i) = gateWord i
  stub : ∀ i < 4096, ram.bytes (0xFC05000 + i) = if i % 16 = 0 then 0xF4 else 0

/-- The image only depends on the structures' own bytes. -/
theorem ControlImage.of_agree {ram ram' : GuestRam} (h : ControlImage ram)
    (hlen : ram'.len = ram.len)
    (hagree : ∀ (s : Structure) x, s.Contains x → ram'.bytes x = ram.bytes x) :
    ControlImage ram' := by
  have hread (s : Structure) (n a : ℕ) (hn : 0 < n) (ha : s.Contains a)
      (hlast : s.Contains (a + n - 1)) : ram'.bytes.readLe n a = ram.bytes.readLe n a := by
    refine Store.readLe_congr fun i hi => hagree s _ ?_
    rw [Structure.Contains] at ha hlast ⊢
    omega
  exact
    { len := hlen.trans h.len
      pml4 := (hread .pml4 8 _ (by norm_num) (by decide) (by decide)).trans h.pml4
      pdpt := (hread .pdpt 8 _ (by norm_num) (by decide) (by decide)).trans h.pdpt
      pd := fun i hi => (hread .pd 8 _ (by norm_num)
        (by rw [Structure.contains_iff]; simp only; omega)
        (by rw [Structure.contains_iff]; simp only; omega)).trans (h.pd i hi)
      null := (hread .gdt 8 _ (by norm_num) (by decide) (by decide)).trans h.null
      code := (hread .gdt 8 _ (by norm_num) (by decide) (by decide)).trans h.code
      data := (hread .gdt 8 _ (by norm_num) (by decide) (by decide)).trans h.data
      tssDescriptor :=
        (hread .gdt 16 _ (by norm_num) (by decide) (by decide)).trans h.tssDescriptor
      ist1 := (hread .tss 8 _ (by norm_num) (by decide) (by decide)).trans h.ist1
      gate := fun i hi => (hread .idt 16 _ (by norm_num)
        (by rw [Structure.contains_iff]; simp only; omega)
        (by rw [Structure.contains_iff]; simp only; omega)).trans (h.gate i hi)
      stub := fun i hi => (hagree .stubs _
        (by rw [Structure.contains_iff]; simp only; omega)).trans (h.stub i hi) }

/-- The bytes the builder writes. -/
def builtBytes (x : ℕ) : Prop :=
  (0xFC00000 ≤ x ∧ x < 0xFC00008) ∨ (0xFC01000 ≤ x ∧ x < 0xFC01008) ∨
    (0xFC02000 ≤ x ∧ x < 0xFC02400) ∨ (0xFC03000 ≤ x ∧ x < 0xFC03028) ∨
    (0xFC04000 ≤ x ∧ x < 0xFC06068)

/-- The builder touches nothing outside the structures. -/
theorem build_frame {ram : GuestRam} (hlen : ram.len = ramSize.toNat) {x : ℕ}
    (hx : ¬ builtBytes x) : (buildControlStructures ram).bytes x = ram.bytes x := by
  obtain ⟨hl1, -, -, -, hf1⟩ := buildPageTables_spec hlen
  obtain ⟨hl2, -, -, -, -, hf2⟩ := buildGdt_spec hl1
  obtain ⟨hl3, -, hf3⟩ := buildTss_spec hl2
  obtain ⟨hl4, ht⟩ := buildIdt_spec hl3
  obtain ⟨-, -, hf5⟩ := buildStubs_spec hl4
  rw [builtBytes] at hx
  rw [buildControlStructures, hf5 x (by omega), ht.frame x (by omega), hf3 x (by omega),
    hf2 x (by omega), hf1 x (by omega) (by omega) (by omega)]

/-- Over any earlier contents, the builder leaves every structure in place. -/
theorem controlImage_build {ram : GuestRam} (hlen : ram.len = ramSize.toNat) :
    ControlImage (buildControlStructures ram) := by
  obtain ⟨r1, hr1⟩ : ∃ r, r = buildPageTables ram := ⟨_, rfl⟩
  obtain ⟨r2, hr2⟩ : ∃ r, r = buildGdt r1 := ⟨_, rfl⟩
  obtain ⟨r3, hr3⟩ : ∃ r, r = buildTss r2 := ⟨_, rfl⟩
  obtain ⟨r4, hr4⟩ : ∃ r, r = buildIdt r3 := ⟨_, rfl⟩
  obtain ⟨hl1, hpml4, hpdpt, hpd, hf1⟩ := buildPageTables_spec hlen
  rw [← hr1] at hl1 hpml4 hpdpt hpd hf1
  obtain ⟨hl2, hnull, hcode, hdata, htssd, hf2⟩ := buildGdt_spec hl1
  rw [← hr2] at hl2 hnull hcode hdata htssd hf2
  obtain ⟨hl3, hist, hf3⟩ := buildTss_spec hl2
  rw [← hr3] at hl3 hist hf3
  obtain ⟨hl4, ht⟩ := buildIdt_spec hl3
  rw [← hr4] at hl4 ht
  obtain ⟨hl5, hstub, hf5⟩ := buildStubs_spec hl4
  -- what each later part leaves of the earlier ones
  have h45 (x) (hx : x < 0xFC05000 ∨ 0xFC06000 ≤ x) : (buildStubs r4).bytes x = r4.bytes x :=
    hf5 x hx
  have h35 (x) (hx : x < 0xFC04000 ∨ 0xFC06000 ≤ x) : (buildStubs r4).bytes x = r3.bytes x := by
    rw [h45 x (by omega), ht.frame x (by omega)]
  have h25 (x) (hx : x < 0xFC04000) : (buildStubs r4).bytes x = r2.bytes x := by
    rw [h35 x (by omega), hf3 x (by omega)]
  have h15 (x) (hx : x < 0xFC03000) : (buildStubs r4).bytes x = r1.bytes x := by
    rw [h25 x (by omega), hf2 x (by omega)]
  rw [buildControlStructures, ← hr1, ← hr2, ← hr3, ← hr4]
  exact
    { len := hl5
      pml4 := by rw [Store.readLe_congr fun i hi => h15 _ (by omega), hpml4]
      pdpt := by rw [Store.readLe_congr fun i hi => h15 _ (by omega), hpdpt]
      pd := fun i hi => by rw [Store.readLe_congr fun i hi => h15 _ (by omega), hpd i hi]
      null := by rw [Store.readLe_congr fun i hi => h25 _ (by omega), hnull]
      code := by rw [Store.readLe_congr fun i hi => h25 _ (by omega), hcode]
      data := by rw [Store.readLe_congr fun i hi => h25 _ (by omega), hdata]
      tssDescriptor := by rw [Store.readLe_congr fun i hi => h25 _ (by omega), htssd]
      ist1 := by rw [Store.readLe_congr fun i hi => h35 _ (by omega), hist]
      gate := fun i hi => by
        rw [Store.readLe_congr fun i hi => h45 _ (by omega), ht.entry i hi]
      stub := hstub }

end Hw
