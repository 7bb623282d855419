import Mathlib
import X86Oracle.Lib.Bytes

/-!
# Vector registers in an XSAVE image

A ZMM register is spread over up to three places of an XSAVE image: the legacy XMM area, the
`YMM_Hi128` and `ZMM_Hi256` components for the registers below 16, and `Hi16_ZMM` for the others.

* `XsaveImage`, `XsaveLayout`, `xsaveGetZmm` and `xsaveSetZmm`, as the code has them; indexing
  outside the image panics, which is `none` here.
* `XsaveLayout.slot`: where the code looks for one 64-bit chunk of a register, if anywhere.
* `Room`: what the accessors of a register need not to panic.  `xsaveGetZmm_of_room` and
  `xsaveSetZmm_of_room` say what they do then, whatever overlaps.
* `XsaveLayout.Sound`: components of the architectural sizes, clear of each other and of the
  header.  On such a layout `xsaveGetZmm_spec` and `xsaveSetZmm_spec` describe the accessors slot
  by slot.
-/

namespace Hw

open Bytes

/-! ## Images -/

/-- An XSAVE image: the first `len` bytes of a store; what the store holds behind them is not part
of it. -/
structure XsaveImage where
  bytes : Store
  len : ℕ

def xsaveXmmOffset : ℕ := 160
def xsaveXstateBv : ℕ := 512

/-- The value of a `[u64; ZMM_CHUNKS]` array, by index. -/
abbrev Chunks := ℕ → UInt64

namespace XsaveImage

/-- `read_u64_at`; the slice panics past the end. -/
def readU64At (img : XsaveImage) (offset : ℕ) : Option UInt64 :=
  if offset + 8 ≤ img.len then some (UInt64.ofNat (img.bytes.readLe 8 offset)) else none

/-- `write_u64_at`. -/
def writeU64At (img : XsaveImage) (offset : ℕ) (value : UInt64) : Option XsaveImage :=
  if offset + 8 ≤ img.len then
    some { img with bytes := img.bytes.writeLe 8 offset value.toNat }
  else none

/-- `out[first + i] = read_u64_at(bytes, offset + i * 8)` for `i` in `0..count`. -/
def readChunks (img : XsaveImage) (offset first count : ℕ) (out : Chunks) : Option Chunks :=
  (List.range count).foldlM (fun out i => do
    let v ← img.readU64At (offset + 8 * i)
    some (Function.update out (first + i) v)) out

/-- `write_u64_at(bytes, offset + i * 8, chunk(first + i))` for `i` in `0..count`. -/
def writeChunks (img : XsaveImage) (offset first count : ℕ) (chunk : Chunks) :
    Option XsaveImage :=
  (List.range count).foldlM (fun img i => img.writeU64At (offset + 8 * i) (chunk (first + i))) img

/-- The part of a register that lies in a component, if the component is there. -/
def loadPart (img : XsaveImage) (base : Option ℕ) (offset first count : ℕ) (out : Chunks) :
    Option Chunks :=
  match base with
  | some b => img.readChunks (b + offset) first count out
  | none => some out

/-- Write a register's part in a component, if the component is there, and mark it present. -/
def storePart (img : XsaveImage) (bv : UInt64) (base : Option ℕ) (offset first count : ℕ)
    (chunk : Chunks) (bit : UInt64) : Option (XsaveImage × UInt64) :=
  match base with
  | some b => do
    let img ← img.writeChunks (b + offset) first count chunk
    some (img, bv ||| bit)
  | none => some (img, bv)

end XsaveImage

/-! ## Layouts -/

/-- One XSAVE state component's location. -/
structure XsaveComponent where
  offset : ℕ
  size : ℕ
deriving DecidableEq, Repr

/-- Where a vCPU keeps the vector state. -/
structure XsaveLayout where
  ymmHi : Option XsaveComponent
  zmmHi : Option XsaveComponent
  zmmHi16 : Option XsaveComponent
deriving DecidableEq, Repr

/-- The offset of a component, if it lies inside an image of `len` bytes. -/
def fits (len : ℕ) (c : Option XsaveComponent) : Option ℕ :=
  (c.filter fun c => c.offset + c.size ≤ len).map XsaveComponent.offset

/-- `xsave_get_zmm`. -/
def xsaveGetZmm (img : XsaveImage) (layout : XsaveLayout) (n : ℕ) : Option Chunks := do
  let out : Chunks := fun _ => 0
  if n < 16 then
    let out ← img.readChunks (xsaveXmmOffset + n * 16) 0 2 out
    let out ← img.loadPart (fits img.len layout.ymmHi) (n * 16) 2 2 out
    img.loadPart (fits img.len layout.zmmHi) (n * 32) 4 4 out
  else
    img.loadPart (fits img.len layout.zmmHi16) ((n - 16) * 64) 0 8 out

/-- `xsave_set_zmm`; chunks past the end of `data` are zero. -/
def xsaveSetZmm (img : XsaveImage) (layout : XsaveLayout) (n : ℕ) (data : List UInt64) :
    Option XsaveImage := do
  let chunk : Chunks := fun i => data.getD i 0
  let bv ← img.readU64At xsaveXstateBv
  let len := img.len
  let (img, bv) ←
    if n < 16 then do
      let img ← img.writeChunks (xsaveXmmOffset + n * 16) 0 2 chunk
      let (img, bv) ← img.storePart (bv ||| 0b10) (fits len layout.ymmHi) (n * 16) 2 2 chunk
        ((1 : UInt64) <<< 2)
      img.storePart bv (fits len layout.zmmHi) (n * 32) 4 4 chunk ((1 : UInt64) <<< 6)
    else
      img.storePart bv (fits len layout.zmmHi16) ((n - 16) * 64) 0 8 chunk ((1 : UInt64) <<< 7)
  img.writeU64At xsaveXstateBv bv

/-! ## Loops over one part -/

section Chunks

variable {img : XsaveImage} {offset first count : ℕ} {out chunk : Chunks}

theorem readChunks_spec (h : offset + 8 * count ≤ img.len) :
    img.readChunks offset first count out = some fun i =>
      if first ≤ i ∧ i < first + count then
        UInt64.ofNat (img.bytes.readLe 8 (offset + 8 * (i - first)))
      else out i := by
  obtain ⟨t, hrun, ht⟩ := foldlM_range_induction (n := count) (s := out)
    (f := fun out i => do
      let v ← img.readU64At (offset + 8 * i)
      some (Function.update out (first + i) v))
    (fun k t => ∀ i, t i = if first ≤ i ∧ i < first + k then
      UInt64.ofNat (img.bytes.readLe 8 (offset + 8 * (i - first))) else out i)
    (fun i => by rw [if_neg (by omega)])
    (by
      intro k t hk ht
      refine ⟨_, by rw [XsaveImage.readU64At, if_pos (by omega)]; rfl, fun i => ?_⟩
      by_cases hi : i = first + k
      · rw [hi, Function.update_self, if_pos (by omega), Nat.add_sub_cancel_left]
      · rw [Function.update_of_ne hi, ht i]
        congr 1
        apply propext
        omega)
  unfold XsaveImage.readChunks
  rw [hrun]
  exact congrArg some (funext ht)

theorem writeChunks_spec (first : ℕ) (chunk : Chunks) (h : offset + 8 * count ≤ img.len) :
    ∃ img', img.writeChunks offset first count chunk = some img' ∧ img'.len = img.len ∧
      Table img.bytes img'.bytes offset 8 8 count fun i => (chunk (first + i)).toNat := by
  unfold XsaveImage.writeChunks
  obtain ⟨t, hrun, hlen, ht⟩ := foldlM_range_induction (n := count) (s := img)
    (f := fun img i => img.writeU64At (offset + 8 * i) (chunk (first + i)))
    (fun k (t : XsaveImage) => t.len = img.len ∧
      Table img.bytes t.bytes offset 8 8 k fun i => (chunk (first + i)).toNat)
    ⟨rfl, .empty ..⟩
    (by
      intro k t hk ht
      refine ⟨{ t with bytes := t.bytes.writeLe 8 (offset + 8 * k) (chunk (first + k)).toNat },
        by rw [XsaveImage.writeU64At, if_pos (by rw [ht.1]; omega)], ht.1, ?_⟩
      refine ht.2.push (by omega) ?_ fun x hx => Store.writeLe_of_outside (by omega)
      rw [Store.readLe_writeLe_self]
      exact Nat.mod_eq_of_lt (chunk (first + k)).toNat_lt)
  exact ⟨t, hrun, hlen, ht⟩

theorem loadPart_spec {base : Option ℕ}
    (h : ∀ b, base = some b → b + offset + 8 * count ≤ img.len) :
    img.loadPart base offset first count out = some fun i =>
      if first ≤ i ∧ i < first + count then
        base.elim (out i) fun b => UInt64.ofNat (img.bytes.readLe 8 (b + offset + 8 * (i - first)))
      else out i := by
  cases base with
  | none =>
    refine congrArg some (funext fun i => ?_)
    split <;> rfl
  | some b => exact readChunks_spec (h b rfl)

end Chunks

/-! ## Slots -/

/-- The state components a vector register is spread over. -/
inductive Part
  | xmm
  | ymmHi
  | zmmHi
  | hi16
deriving DecidableEq, Repr

namespace Part

/-- The component's bit in XSTATE_BV. -/
def bit : Part → ℕ
  | xmm => 1
  | ymmHi => 2
  | zmmHi => 6
  | hi16 => 7

/-- The architectural size. -/
def size : Part → ℕ
  | xmm | ymmHi => 256
  | zmmHi => 512
  | hi16 => 1024

/-- The bytes one register takes. -/
def stride : Part → ℕ
  | xmm | ymmHi => 16
  | zmmHi => 32
  | hi16 => 64

/-- The first chunk the component holds. -/
def first : Part → ℕ
  | xmm | hi16 => 0
  | ymmHi => 2
  | zmmHi => 4

/-- How many chunks of a register the component holds. -/
def count : Part → ℕ
  | xmm | ymmHi => 2
  | zmmHi => 4
  | hi16 => 8

theorem stride_eq (p : Part) : p.stride = 8 * p.count := by
  cases p <;> rfl

theorem rank_le (p : Part) (n : ℕ) : n % 16 * p.stride + 8 * p.count ≤ p.size := by
  cases p <;> simp only [stride, count, size] <;> omega

end Part

/-- The component that holds chunk `i` of register `n`. -/
def partOf (n i : ℕ) : Part :=
  if n < 16 then if i < 2 then .xmm else if i < 4 then .ymmHi else .zmmHi else .hi16

/-- The components that hold register `n`, the last written first. -/
def partsOf (n : ℕ) : List Part := if n < 16 then [.zmmHi, .ymmHi, .xmm] else [.hi16]

theorem partOf_eq_iff {n i : ℕ} {p : Part} (hi : i < 8) :
    partOf n i = p ↔ p ∈ partsOf n ∧ p.first ≤ i ∧ i < p.first + p.count := by
  unfold partOf partsOf
  split_ifs <;> cases p <;> simp [Part.first, Part.count] <;> omega

theorem partOf_mem {n i : ℕ} (hi : i < 8) : partOf n i ∈ partsOf n :=
  ((partOf_eq_iff hi).1 rfl).1

/-- Where chunk `i` of register `n` lies in its component. -/
def chunkOffset (n i : ℕ) : ℕ :=
  n % 16 * (partOf n i).stride + 8 * (i - (partOf n i).first)

namespace XsaveLayout

/-- Where a component starts, if the image has it. -/
def base (layout : XsaveLayout) (len : ℕ) : Part → Option ℕ
  | .xmm => some xsaveXmmOffset
  | .ymmHi => fits len layout.ymmHi
  | .zmmHi => fits len layout.zmmHi
  | .hi16 => fits len layout.zmmHi16

/-- Where chunk `i` of register `n` lies in the image, if it is there. -/
def slot (layout : XsaveLayout) (len n i : ℕ) : Option ℕ :=
  (layout.base len (partOf n i)).map (· + chunkOffset n i)

/-- The components lie inside the image at their architectural sizes, clear of the header and of
each other. -/
structure Sound (layout : XsaveLayout) (len : ℕ) : Prop where
  header : 576 ≤ len
  inside : ∀ p b, layout.base len p = some b → b + p.size ≤ len
  above : ∀ p b, p ≠ .xmm → layout.base len p = some b → 576 ≤ b
  apart : ∀ p q b c, p ≠ q → layout.base len p = some b → layout.base len q = some c →
    b + p.size ≤ c ∨ c + q.size ≤ b

end XsaveLayout

/-- The image has room for register `n` in each component that the guard lets pass. -/
def Room (layout : XsaveLayout) (len n : ℕ) : Prop :=
  ∀ p ∈ partsOf n, ∀ b, layout.base len p = some b → b + n % 16 * p.stride + p.stride ≤ len

theorem XsaveLayout.Sound.room {layout : XsaveLayout} {len : ℕ} (h : layout.Sound len) (n : ℕ) :
    Room layout len n := by
  intro p _ b hb
  have hinside := h.inside p b hb
  have hrank := p.rank_le n
  rw [← p.stride_eq] at hrank
  omega

/-- A chunk lies inside its component. -/
theorem chunkOffset_le {n i : ℕ} (hi : i < 8) : chunkOffset n i + 8 ≤ (partOf n i).size := by
  unfold chunkOffset partOf
  split_ifs <;> simp only [Part.stride, Part.size, Part.first] <;> omega

/-- Different chunks of one component do not overlap. -/
theorem chunkOffset_apart {n m i j : ℕ} (hn : n < 32) (hm : m < 32)
    (hpart : partOf n i = partOf m j) (hne : (n, i) ≠ (m, j)) (hi : i < 8) (hj : j < 8) :
    chunkOffset n i + 8 ≤ chunkOffset m j ∨ chunkOffset m j + 8 ≤ chunkOffset n i := by
  have hne' : n = m → i ≠ j := fun h h' => hne (by rw [h, h'])
  unfold chunkOffset
  unfold partOf at hpart ⊢
  split_ifs at hpart ⊢ <;> simp only [Part.stride, Part.first] <;> omega

section Sound

variable {layout : XsaveLayout} {len n m i j a b : ℕ}

theorem slot_eq_some (h : layout.slot len n i = some a) :
    ∃ b, layout.base len (partOf n i) = some b ∧ a = b + chunkOffset n i := by
  obtain ⟨b, hb, rfl⟩ := Option.map_eq_some_iff.1 h
  exact ⟨b, hb, rfl⟩

/-- Different chunks have disjoint slots. -/
theorem XsaveLayout.Sound.slot_apart (h : layout.Sound len) (hn : n < 32) (hm : m < 32)
    (hi : i < 8) (hj : j < 8) (hne : (n, i) ≠ (m, j)) (ha : layout.slot len n i = some a)
    (hb : layout.slot len m j = some b) : a + 8 ≤ b ∨ b + 8 ≤ a := by
  obtain ⟨p, hp, rfl⟩ := slot_eq_some ha
  obtain ⟨q, hq, rfl⟩ := slot_eq_some hb
  by_cases hpart : partOf n i = partOf m j
  · have hbase : p = q := by
      rw [hpart, hq] at hp
      exact Option.some.inj hp.symm
    have := chunkOffset_apart hn hm hpart hne hi hj
    omega
  · have hle := chunkOffset_le (n := n) hi
    have hle' := chunkOffset_le (n := m) hj
    have := h.apart _ _ _ _ hpart hp hq
    omega

/-- A slot lies inside the image and clear of XSTATE_BV. -/
theorem XsaveLayout.Sound.slot_inside (h : layout.Sound len) (hi : i < 8)
    (ha : layout.slot len n i = some a) : a + 8 ≤ len ∧ (a + 8 ≤ 512 ∨ 520 ≤ a) := by
  obtain ⟨b, hb, rfl⟩ := slot_eq_some ha
  have hle := chunkOffset_le (n := n) hi
  have hinside := h.inside _ _ hb
  refine ⟨by omega, ?_⟩
  by_cases hxmm : partOf n i = .xmm
  · rw [hxmm] at hb hle
    obtain rfl : b = 160 := Option.some.inj hb.symm
    rw [Part.size] at hle
    omega
  · have := h.above _ _ hxmm hb
    omega

end Sound

/-! ## The accessors, slot by slot -/

section Accessors

variable {img : XsaveImage} {layout : XsaveLayout} {n : ℕ} {data : List UInt64}

/-- The chunk in a slot; zero where there is none. -/
def XsaveImage.chunkAt (img : XsaveImage) (slot : Option ℕ) : UInt64 :=
  slot.elim 0 fun a => UInt64.ofNat (img.bytes.readLe 8 a)

theorem chunkAt_slot {len i : ℕ} {p : Part} (hp : partOf n i = p) :
    img.chunkAt (layout.slot len n i) = (layout.base len p).elim 0 fun b =>
      UInt64.ofNat (img.bytes.readLe 8 (b + n % 16 * p.stride + 8 * (i - p.first))) := by
  simp only [XsaveImage.chunkAt, XsaveLayout.slot, chunkOffset, hp, Option.elim_map,
    Function.comp_def, Nat.add_assoc]

/-- A register reads as what its slots hold. -/
theorem xsaveGetZmm_of_room (hlen : 520 ≤ img.len) (h : Room layout img.len n) (hn : n < 32) :
    xsaveGetZmm img layout n = some fun i =>
      if i < 8 then img.chunkAt (layout.slot img.len n i) else 0 := by
  unfold xsaveGetZmm
  by_cases hlow : n < 16
  · have hrank : n % 16 = n := by omega
    have hparts : partsOf n = [.zmmHi, .ymmHi, .xmm] := if_pos hlow
    have hymm (b : ℕ) (hb : fits img.len layout.ymmHi = some b) :=
      h .ymmHi (by simp [hparts]) b hb
    have hzmm (b : ℕ) (hb : fits img.len layout.zmmHi = some b) :=
      h .zmmHi (by simp [hparts]) b hb
    simp only [hrank, Part.stride] at hymm hzmm
    rw [if_pos hlow, readChunks_spec (by rw [xsaveXmmOffset]; omega), Option.bind_eq_bind,
      Option.bind_some, loadPart_spec (fun b hb => by have := hymm b hb; omega),
      Option.bind_some, loadPart_spec (fun b hb => by have := hzmm b hb; omega)]
    refine congrArg some (funext fun i => ?_)
    by_cases h2 : i < 2
    · have hpart : partOf n i = .xmm := by rw [partOf, if_pos hlow, if_pos h2]
      rw [if_neg (by omega), if_neg (by omega), if_pos (by omega), if_pos (by omega),
        chunkAt_slot hpart, hrank]
      simp only [XsaveLayout.base, Part.stride, Part.first, Option.elim_some]
    · by_cases h4 : i < 4
      · have hpart : partOf n i = .ymmHi := by rw [partOf, if_pos hlow, if_neg h2, if_pos h4]
        rw [if_neg (by omega), if_pos (by omega), if_neg (by omega), if_pos (by omega),
          chunkAt_slot hpart, hrank]
        simp only [XsaveLayout.base, Part.stride, Part.first]
      · by_cases h8 : i < 8
        · have hpart : partOf n i = .zmmHi := by rw [partOf, if_pos hlow, if_neg h2, if_neg h4]
          rw [if_pos (by omega), if_neg (by omega), if_neg (by omega), if_pos h8,
            chunkAt_slot hpart, hrank]
          simp only [XsaveLayout.base, Part.stride, Part.first]
        · rw [if_neg (by omega), if_neg (by omega), if_neg (by omega), if_neg h8]
  · have hrank : n % 16 = n - 16 := by omega
    have hparts : partsOf n = [.hi16] := if_neg hlow
    have hhi (b : ℕ) (hb : fits img.len layout.zmmHi16 = some b) := h .hi16 (by simp [hparts]) b hb
    simp only [hrank, Part.stride] at hhi
    rw [if_neg hlow, loadPart_spec (fun b hb => by have := hhi b hb; omega)]
    refine congrArg some (funext fun i => ?_)
    have hpart : partOf n i = .hi16 := by rw [partOf, if_neg hlow]
    by_cases h8 : i < 8
    · rw [if_pos (by omega), if_pos h8, chunkAt_slot hpart, hrank]
      simp only [XsaveLayout.base, Part.stride, Part.first]
    · rw [if_neg (by omega), if_neg h8]

/-- On a sound layout too. -/
theorem xsaveGetZmm_spec (h : layout.Sound img.len) (hn : n < 32) :
    xsaveGetZmm img layout n = some fun i =>
      if i < 8 then img.chunkAt (layout.slot img.len n i) else 0 :=
  xsaveGetZmm_of_room ((by norm_num : 520 ≤ 576).trans h.header) (h.room n) hn

/-- XSTATE_BV after a component's part was stored, if the component is there. -/
def mark (bv : UInt64) (c : Bool) (bit : UInt64) : UInt64 := bif c then bv ||| bit else bv

/-- Byte `x` lies in the part of register `n` that component `p` holds. -/
def XsaveLayout.Covers (layout : XsaveLayout) (len n : ℕ) (p : Part) (x : ℕ) : Prop :=
  ∃ b, layout.base len p = some b ∧ b + n % 16 * p.stride ≤ x ∧
    x < b + n % 16 * p.stride + p.stride

/-- Such a byte lies in the slot of one of the part's chunks. -/
theorem XsaveLayout.Covers.slot {len x : ℕ} {p : Part} (h : layout.Covers len n p x)
    (hp : p ∈ partsOf n) :
    ∃ i < 8, partOf n i = p ∧ ∃ a, layout.slot len n i = some a ∧ a ≤ x ∧ x < a + 8 := by
  obtain ⟨b, hb, hle, hlt⟩ := h
  have hstride := p.stride_eq
  obtain ⟨k, hk⟩ : ∃ k, k = (x - (b + n % 16 * p.stride)) / 8 := ⟨_, rfl⟩
  have hcount : k < p.count := by omega
  have hrange : p.first + p.count ≤ 8 := by cases p <;> decide
  have hpart : partOf n (p.first + k) = p :=
    (partOf_eq_iff (by omega)).2 ⟨hp, by omega, by omega⟩
  refine ⟨p.first + k, by omega, hpart, b + n % 16 * p.stride + 8 * k, ?_, by omega, by omega⟩
  rw [XsaveLayout.slot, chunkOffset, hpart, hb, Option.map_some, Nat.add_sub_cancel_left,
    Nat.add_assoc]

theorem XsaveLayout.covers_of_slot {len i a k : ℕ} (hi : i < 8) (ha : layout.slot len n i = some a)
    (hk : k < 8) : layout.Covers len n (partOf n i) (a + k) := by
  obtain ⟨b, hb, rfl⟩ := slot_eq_some ha
  obtain ⟨-, hfirst, hcount⟩ := (partOf_eq_iff hi).1 (rfl : partOf n i = partOf n i)
  have hstride := (partOf n i).stride_eq
  refine ⟨b, hb, ?_, ?_⟩ <;> unfold chunkOffset <;> omega

/-- Every byte of every chunk is `v`. -/
def Chunks.Uniform (chunk : Chunks) (v : UInt8) : Prop :=
  ∀ i < 8, ∀ k < 8, (chunk i).toNat / 256 ^ k % 256 = v.toNat

/-- The quadwords of `chunk` are in place in the given components, the last written first, and
nothing else changed. -/
structure Stored (layout : XsaveLayout) (n : ℕ) (chunk : Chunks) (ps : List Part)
    (img img' : XsaveImage) : Prop where
  len : img'.len = img.len
  entry : ∀ p ∈ ps, ∀ b, layout.base img.len p = some b → ∀ i < p.count,
    (∀ q ∈ ps, q ≠ p → ∀ k < 8,
      ¬ layout.Covers img.len n q (b + n % 16 * p.stride + 8 * i + k)) →
      img'.bytes.readLe 8 (b + n % 16 * p.stride + 8 * i) = (chunk (p.first + i)).toNat
  /-- Overlapping parts cannot be told apart if all their bytes are the same. -/
  fill : ∀ v, chunk.Uniform v → ∀ p ∈ ps, ∀ x, layout.Covers img.len n p x → img'.bytes x = v
  frame : ∀ x, (∀ p ∈ ps, ¬ layout.Covers img.len n p x) → img'.bytes x = img.bytes x

namespace Stored

variable {chunk : Chunks} {ps : List Part} {img' : XsaveImage} {p : Part} {b : ℕ}

theorem nil (layout : XsaveLayout) (n : ℕ) (chunk : Chunks) (img : XsaveImage) :
    Stored layout n chunk [] img img :=
  ⟨rfl, nofun, nofun, fun _ _ => rfl⟩

/-- Writing one more component's part keeps the parts already written, where they are clear of
it. -/
theorem write (hroom : b + n % 16 * p.stride + p.stride ≤ img.len)
    (hs : Stored layout n chunk ps img img') (hp : p ∉ ps)
    (hb : layout.base img.len p = some b) :
    ∃ img'', img'.writeChunks (b + n % 16 * p.stride) p.first p.count chunk = some img'' ∧
      Stored layout n chunk (p :: ps) img img'' := by
  have hstride := p.stride_eq
  obtain ⟨img'', hrun, hlen, htable⟩ := writeChunks_spec p.first chunk
    (show b + n % 16 * p.stride + 8 * p.count ≤ img'.len by rw [hs.len]; omega)
  -- outside of the part just written
  have hold (x : ℕ) (hx : ¬ layout.Covers img.len n p x) : img''.bytes x = img'.bytes x :=
    htable.frame x (by
      by_contra hin
      exact hx ⟨b, hb, by omega, by omega⟩)
  refine ⟨img'', hrun, hlen.trans hs.len, ?_, ?_, ?_⟩
  · intro q hq c hc i hi hclear
    rcases List.mem_cons.1 hq with rfl | hq
    · obtain rfl : b = c := Option.some.inj (hb.symm.trans hc)
      exact htable.entry i hi
    · have hne : p ≠ q := fun heq => hp (heq ▸ hq)
      rw [← hs.entry q hq c hc i hi fun q' hq' => hclear q' (List.mem_cons_of_mem _ hq')]
      exact Store.readLe_congr fun k hk => hold _ (hclear p (List.mem_cons_self ..) hne k hk)
  · intro v hv q hq x hx
    by_cases hpx : layout.Covers img.len n p x
    · obtain ⟨b', hb', hle, hlt⟩ := hpx
      obtain rfl : b = b' := Option.some.inj (hb.symm.trans hb')
      obtain ⟨i, k, hk, rfl⟩ : ∃ i k, k < 8 ∧ x = b + n % 16 * p.stride + 8 * i + k :=
        ⟨(x - (b + n % 16 * p.stride)) / 8, (x - (b + n % 16 * p.stride)) % 8, by omega, by omega⟩
      have hrange : p.first + p.count ≤ 8 := by cases p <;> decide
      apply UInt8.toNat_inj.1
      rw [Store.toNat_byte _ hk, htable.entry i (by omega), hv (p.first + i) (by omega) k hk]
    · rw [hold x hpx]
      rcases List.mem_cons.1 hq with rfl | hq
      · exact absurd hx hpx
      · exact hs.fill v hv q hq x hx
  · intro x hx
    rw [hold x (hx p (List.mem_cons_self ..))]
    exact hs.frame x fun q hq => hx q (List.mem_cons_of_mem _ hq)

/-- The same for a component that may be missing. -/
theorem store (hroom : ∀ b, layout.base img.len p = some b →
      b + n % 16 * p.stride + p.stride ≤ img.len)
    (hs : Stored layout n chunk ps img img') (hp : p ∉ ps) (bv bit : UInt64) :
    ∃ img'', img'.storePart bv (layout.base img.len p) (n % 16 * p.stride) p.first p.count chunk
        bit = some (img'', mark bv (layout.base img.len p).isSome bit) ∧
      Stored layout n chunk (p :: ps) img img'' := by
  cases hb : layout.base img.len p with
  | none =>
    have hmissing (x : ℕ) : ¬ layout.Covers img.len n p x := by
      rintro ⟨b, hb', -⟩
      rw [hb] at hb'
      cases hb'
    refine ⟨img', rfl, hs.len, ?_, ?_, ?_⟩
    · intro q hq c hc i hi hclear
      rcases List.mem_cons.1 hq with rfl | hq
      · rw [hb] at hc
        cases hc
      · exact hs.entry q hq c hc i hi fun q' hq' => hclear q' (List.mem_cons_of_mem _ hq')
    · intro v hv q hq x hx
      rcases List.mem_cons.1 hq with rfl | hq
      · exact absurd hx (hmissing x)
      · exact hs.fill v hv q hq x hx
    · exact fun x hx => hs.frame x fun q hq => hx q (List.mem_cons_of_mem _ hq)
  | some b =>
    obtain ⟨img'', hrun, hstored⟩ := hs.write (hroom b hb) hp hb
    refine ⟨img'', ?_, hstored⟩
    simp only [XsaveImage.storePart, hrun]
    rfl

end Stored

/-- The XSTATE_BV field. -/
def XsaveImage.xstateBv (img : XsaveImage) : UInt64 :=
  UInt64.ofNat (img.bytes.readLe 8 xsaveXstateBv)

/-- The component is marked present. -/
def XsaveImage.present (img : XsaveImage) (p : Part) : Bool := img.xstateBv.toNat.testBit p.bit

/-- What `xsave_set_zmm` does on any layout: only the register's slots and XSTATE_BV change, which
is written last; a slot holds its chunk if it is clear of the others; and the register's components
are marked present. -/
structure Overwritten (layout : XsaveLayout) (n : ℕ) (data : List UInt64) (img img' : XsaveImage) :
    Prop where
  len : img'.len = img.len
  entry : ∀ i < 8, ∀ a, layout.slot img.len n i = some a → (a + 8 ≤ 512 ∨ 520 ≤ a) →
    (∀ j < 8, j ≠ i → ∀ c, layout.slot img.len n j = some c → a + 8 ≤ c ∨ c + 8 ≤ a) →
      img'.bytes.readLe 8 a = (data.getD i 0).toNat
  fill : ∀ v, Chunks.Uniform (fun i => data.getD i 0) v → ∀ i < 8, ∀ a,
    layout.slot img.len n i = some a → ∀ k < 8, (a + k < 512 ∨ 520 ≤ a + k) →
      img'.bytes (a + k) = v
  frame : ∀ x, (∀ i < 8, ∀ a, layout.slot img.len n i = some a → x < a ∨ a + 8 ≤ x) →
    (x < 512 ∨ 520 ≤ x) → img'.bytes x = img.bytes x
  bits : ∀ k, img'.xstateBv.toNat.testBit k = (img.xstateBv.toNat.testBit k ||
    (partsOf n).any fun p => (layout.base img.len p).isSome && decide (k = p.bit))

/-- What `xsave_set_zmm` does on a sound layout: the register's slots hold the data, its components
are marked present, and every byte outside the slots and XSTATE_BV is as before. -/
structure Written (layout : XsaveLayout) (n : ℕ) (data : List UInt64) (img img' : XsaveImage) :
    Prop where
  len : img'.len = img.len
  entry : ∀ i < 8, ∀ a, layout.slot img.len n i = some a →
    img'.bytes.readLe 8 a = (data.getD i 0).toNat
  frame : ∀ x, (∀ i < 8, ∀ a, layout.slot img.len n i = some a → x < a ∨ a + 8 ≤ x) →
    (x < 512 ∨ 520 ≤ x) → img'.bytes x = img.bytes x
  present : ∀ p, img'.present p =
    (img.present p || (decide (p ∈ partsOf n) && (layout.base img.len p).isSome))
  kept : ∀ k, img.xstateBv.toNat.testBit k = true → img'.xstateBv.toNat.testBit k = true

/-- Marking a component present sets its bit and no other. -/
theorem testBit_mark (bv : UInt64) (c : Bool) {bit : UInt64} {k : ℕ} (hbit : bit.toNat = 2 ^ k)
    (i : ℕ) : (mark bv c bit).toNat.testBit i = (bv.toNat.testBit i || (c && decide (i = k))) := by
  cases c with
  | false => simp [mark]
  | true => simp [mark, hbit, Nat.testBit_or, Nat.testBit_two_pow, eq_comm]

/-- Storing the parts and then the new XSTATE_BV is what `Overwritten` asks for. -/
theorem Stored.finish {img' : XsaveImage} {bv : UInt64} (hlen : 520 ≤ img.len)
    (hs : Stored layout n (fun i => data.getD i 0) (partsOf n) img img')
    (hbv : ∀ k, bv.toNat.testBit k = (img.xstateBv.toNat.testBit k ||
      (partsOf n).any fun p => (layout.base img.len p).isSome && decide (k = p.bit))) :
    ∃ img'', img'.writeU64At xsaveXstateBv bv = some img'' ∧
      Overwritten layout n data img img'' := by
  have hread : UInt64.ofNat ((img'.bytes.writeLe 8 xsaveXstateBv bv.toNat).readLe 8
      xsaveXstateBv) = bv := by
    rw [Store.readLe_writeLe_self, show 256 ^ 8 = 2 ^ 64 by norm_num,
      Nat.mod_eq_of_lt bv.toNat_lt, UInt64.ofNat_toNat]
  have hkeep (x : ℕ) (hclear : x < 512 ∨ 520 ≤ x) :
      img'.bytes.writeLe 8 xsaveXstateBv bv.toNat x = img'.bytes x :=
    Store.writeLe_of_outside (by rw [xsaveXstateBv]; omega)
  refine ⟨{ img' with bytes := img'.bytes.writeLe 8 xsaveXstateBv bv.toNat }, ?_, hs.len, ?_,
    ?_, ?_, ?_⟩
  · rw [XsaveImage.writeU64At, if_pos (by rw [hs.len, xsaveXstateBv]; omega)]
  · intro i hi a ha hclear hown
    obtain ⟨b, hb, rfl⟩ := slot_eq_some ha
    obtain ⟨hmem, hfirst, hcount⟩ := (partOf_eq_iff hi).1 (rfl : partOf n i = partOf n i)
    have hentry := hs.entry _ hmem b hb (i - (partOf n i).first) (by omega) (by
      rw [Nat.add_assoc b, ← chunkOffset]
      intro q hq hne k hk hcovers
      obtain ⟨j, hj, hpart, c, hc, hle, hlt⟩ := hcovers.slot hq
      have := hown j hj (fun heq => hne (hpart ▸ heq ▸ rfl)) c hc
      omega)
    rw [Nat.add_sub_cancel' hfirst, Nat.add_assoc, ← chunkOffset] at hentry
    rw [Store.readLe_writeLe_of_disjoint (by rw [xsaveXstateBv]; omega), hentry]
  · intro v hv i hi a ha k hk hclear
    exact (hkeep _ hclear).trans
      (hs.fill v hv _ (partOf_mem hi) _ (XsaveLayout.covers_of_slot hi ha hk))
  · intro x hx hclear
    refine (hkeep x hclear).trans (hs.frame x fun p hp hcovers => ?_)
    obtain ⟨i, hi, -, a, ha, hle, hlt⟩ := hcovers.slot hp
    have := hx i hi a ha
    omega
  · intro k
    rw [XsaveImage.xstateBv, hread, hbv]

/-- With room for the register `xsave_set_zmm` does not panic. -/
theorem xsaveSetZmm_of_room (hlen : 520 ≤ img.len) (h : Room layout img.len n) (hn : n < 32)
    (data : List UInt64) :
    ∃ img', xsaveSetZmm img layout n data = some img' ∧ Overwritten layout n data img img' := by
  have hbv : img.readU64At xsaveXstateBv = some img.xstateBv := by
    rw [XsaveImage.readU64At, if_pos (by rw [xsaveXstateBv]; omega)]
    rfl
  unfold xsaveSetZmm
  simp only [hbv, Option.bind_eq_bind, Option.bind_some]
  have hnil := Stored.nil layout n (fun i => data.getD i 0) img
  by_cases hlow : n < 16
  · have hrank : n % 16 = n := by omega
    have hparts : partsOf n = [.zmmHi, .ymmHi, .xmm] := if_pos hlow
    have hroom (p : Part) (hp : p ∈ [Part.zmmHi, .ymmHi, .xmm]) := h p (hparts ▸ hp)
    obtain ⟨img1, hrun1, hs1⟩ := hnil.write (p := .xmm) (hroom .xmm (by simp) _ rfl) (by simp) rfl
    obtain ⟨img2, hrun2, hs2⟩ := hs1.store (p := .ymmHi) (hroom .ymmHi (by simp)) (by simp)
      (img.xstateBv ||| 0b10) ((1 : UInt64) <<< 2)
    obtain ⟨bv2, hbv2⟩ : ∃ bv, bv = mark (img.xstateBv ||| 0b10) (layout.base img.len .ymmHi).isSome
      ((1 : UInt64) <<< 2) := ⟨_, rfl⟩
    rw [← hbv2] at hrun2
    obtain ⟨img3, hrun3, hs3⟩ := hs2.store (p := .zmmHi) (hroom .zmmHi (by simp)) (by simp) bv2
      ((1 : UInt64) <<< 6)
    simp only [hrank, Part.stride, Part.first, Part.count, XsaveLayout.base] at hrun1 hrun2 hrun3
    rw [← hparts] at hs3
    simp only [if_pos hlow, hrun1, hrun2, hrun3, Option.bind_some]
    have hxmm : img.xstateBv ||| 0b10 = mark img.xstateBv true 0b10 := rfl
    refine hs3.finish hlen fun k => ?_
    rw [hparts, testBit_mark bv2 _ (k := 6) rfl, hbv2, testBit_mark _ _ (k := 2) rfl, hxmm,
      testBit_mark _ _ (k := 1) rfl]
    simp [Part.bit, XsaveLayout.base, Bool.or_assoc, Bool.or_comm, Bool.or_left_comm]
    rfl
  · have hrank : n % 16 = n - 16 := by omega
    have hparts : partsOf n = [.hi16] := if_neg hlow
    obtain ⟨img1, hrun1, hs1⟩ := hnil.store (p := .hi16) (h .hi16 (by simp [hparts])) (by simp)
      img.xstateBv ((1 : UInt64) <<< 7)
    simp only [hrank, Part.stride, Part.first, Part.count, XsaveLayout.base] at hrun1
    rw [← hparts] at hs1
    simp only [if_neg hlow, hrun1, Option.bind_some]
    refine hs1.finish hlen fun k => ?_
    rw [hparts, testBit_mark _ _ (k := 7) rfl]
    simp [Part.bit, XsaveLayout.base]
    rfl

namespace Overwritten

variable {img' : XsaveImage}

theorem present (hw : Overwritten layout n data img img') (p : Part) : img'.present p =
    (img.present p || (decide (p ∈ partsOf n) && (layout.base img.len p).isSome)) := by
  have hany : (partsOf n).any (fun q => (layout.base img.len q).isSome && decide (p.bit = q.bit)) =
      (decide (p ∈ partsOf n) && (layout.base img.len p).isSome) := by
    unfold partsOf
    split_ifs <;> cases p <;> simp [Part.bit]
  rw [XsaveImage.present, hw.bits, hany]
  rfl

/-- A sound layout keeps the slots apart. -/
theorem written (hw : Overwritten layout n data img img') (h : layout.Sound img.len)
    (hn : n < 32) : Written layout n data img img' where
  len := hw.len
  entry i hi a ha := hw.entry i hi a ha (h.slot_inside hi ha).2 fun j hj hne c hc =>
    h.slot_apart hn hn hi hj (fun heq => hne (congrArg Prod.snd heq).symm) ha hc
  frame := hw.frame
  present := hw.present
  kept k hk := by rw [hw.bits, hk, Bool.true_or]

end Overwritten

/-- On a sound layout `xsave_set_zmm` does not panic and writes the register. -/
theorem xsaveSetZmm_spec (h : layout.Sound img.len) (hn : n < 32) (data : List UInt64) :
    ∃ img', xsaveSetZmm img layout n data = some img' ∧ Written layout n data img img' := by
  obtain ⟨img', hrun, hw⟩ :=
    xsaveSetZmm_of_room ((by norm_num : 520 ≤ 576).trans h.header) (h.room n) hn data
  exact ⟨img', hrun, hw.written h hn⟩

namespace Written

variable {img' : XsaveImage} {m i : ℕ}

/-- The register written holds the data where it has slots. -/
theorem chunkAt_self (hw : Written layout n data img img') (hi : i < 8) :
    img'.chunkAt (layout.slot img.len n i) =
      bif (layout.slot img.len n i).isSome then data.getD i 0 else 0 := by
  unfold XsaveImage.chunkAt
  cases ha : layout.slot img.len n i with
  | none => rfl
  | some a =>
    simp only [Option.elim_some, hw.entry i hi a ha, UInt64.ofNat_toNat, Option.isSome_some,
      cond_true]

/-- Every other register holds what it held. -/
theorem readLe_other (hw : Written layout n data img img') (h : layout.Sound img.len)
    (hn : n < 32) (hm : m < 32) (hne : m ≠ n) (hi : i < 8) {a : ℕ}
    (ha : layout.slot img.len m i = some a) : img'.bytes.readLe 8 a = img.bytes.readLe 8 a := by
  refine Store.readLe_congr fun k hk => hw.frame _ (fun j hj b hb => ?_) ?_
  · have hdiff : (m, i) ≠ (n, j) := fun heq => hne (congrArg Prod.fst heq)
    have := h.slot_apart hm hn hi hj hdiff ha hb
    omega
  · have := (h.slot_inside hi ha).2
    omega

end Written

end Accessors

end Hw
