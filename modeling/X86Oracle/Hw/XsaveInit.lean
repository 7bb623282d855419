import Mathlib
import X86Oracle.Hw.XsaveProbe
import X86Oracle.Hw.XsaveBounds

/-!
# The initial state of a component in an XSAVE image

A component whose bit in XSTATE_BV is clear is in its initial state: XRSTOR loads zeros, whatever
bytes the component's area holds.  `xsave_get_zmm` reads the area all the same, and
`xsave_set_zmm` sets the bit of every component it writes to, which brings the bytes of the
component's other fifteen registers back to life.

* `archZmm`: the value XRSTOR of the image would load.
* `Alters`: the bytes that a write to a register can change, whatever the layout.
* `accessors_architectural_iff`: for any layout and any image both accessors respect XSTATE_BV
  exactly if the image has room for the register, no other register shares a byte with it, and the
  areas of its absent components hold no stale bytes.
* `architectural_iff_of_sound`: on a sound layout the stale bytes are all there is to it.
-/

namespace Hw

open Bytes

/-- The quadword in a slot; zero where there is none or the image ends before it. -/
def XsaveImage.held (img : XsaveImage) (slot : Option ℕ) : UInt64 :=
  (slot.bind img.readU64At).getD 0

/-- The value XRSTOR of the image would load into register `n`: zero where the component is absent
from XSTATE_BV. -/
def archZmm (layout : XsaveLayout) (img : XsaveImage) (n : ℕ) : Chunks := fun i =>
  if i < 8 ∧ img.present (partOf n i) then img.held (layout.slot img.len n i) else 0

/-- The quadwords of component `p` that the image holds are zero, unless XSTATE_BV says that the
component holds state. -/
def NoStale (layout : XsaveLayout) (img : XsaveImage) (p : Part) : Prop :=
  ∀ b, layout.base img.len p = some b → img.present p = false →
    ∀ k < p.size / 8, b + 8 * k + 8 ≤ img.len → img.bytes.readLe 8 (b + 8 * k) = 0

/-- Both accessors give XSTATE_BV its architectural meaning for register `n`: it reads as what
XRSTOR would load, and no write to it changes what XRSTOR would load into another register. -/
def Architectural (layout : XsaveLayout) (img : XsaveImage) (n : ℕ) : Prop :=
  xsaveGetZmm img layout n = some (archZmm layout img n) ∧
    ∀ data, ∃ img', xsaveSetZmm img layout n data = some img' ∧
      ∀ m < 32, m ≠ n → archZmm layout img' m = archZmm layout img m

/-- A write to register `n` can change byte `x`: it turns a component on, whose bit is in the first
byte of XSTATE_BV, or the byte is in a slot of the register.  XSTATE_BV is written last. -/
def Alters (layout : XsaveLayout) (img : XsaveImage) (n x : ℕ) : Prop :=
  (x = 512 ∧ ∃ p ∈ partsOf n, (layout.base img.len p).isSome = true ∧ img.present p = false) ∨
    ((x < 512 ∨ 520 ≤ x) ∧ ∃ i < 8, ∃ a, layout.slot img.len n i = some a ∧ a ≤ x ∧ x < a + 8)

/-- A write to register `n` can change no quadword of another register that XSTATE_BV counts after
the write. -/
def Apart (layout : XsaveLayout) (img : XsaveImage) (n : ℕ) : Prop :=
  ∀ m < 32, m ≠ n → ∀ i < 8, ∀ a, layout.slot img.len m i = some a → a + 8 ≤ img.len →
    (img.present (partOf m i) = true ∨ partOf m i ∈ partsOf n) →
      ∀ k < 8, ¬ Alters layout img n (a + k)

/-! ## Quadwords of a component -/

section Quadword

variable {layout : XsaveLayout} {img : XsaveImage} {n m i a : ℕ} {p : Part}

/-- Every quadword of a component is a chunk of one of the registers kept there. -/
theorem exists_chunk {k : ℕ} (hk : k < p.size / 8) :
    ∃ m < 32, ∃ i < 8, partOf m i = p ∧ chunkOffset m i = 8 * k := by
  cases p with
  | xmm =>
    simp only [Part.size] at hk
    have hpart : partOf (k / 2) (k % 2) = .xmm := by
      rw [partOf, if_pos (by omega), if_pos (by omega)]
    refine ⟨k / 2, by omega, k % 2, by omega, hpart, ?_⟩
    simp only [chunkOffset, hpart, Part.stride, Part.first]
    omega
  | ymmHi =>
    simp only [Part.size] at hk
    have hpart : partOf (k / 2) (2 + k % 2) = .ymmHi := by
      rw [partOf, if_pos (by omega), if_neg (by omega), if_pos (by omega)]
    refine ⟨k / 2, by omega, 2 + k % 2, by omega, hpart, ?_⟩
    simp only [chunkOffset, hpart, Part.stride, Part.first]
    omega
  | zmmHi =>
    simp only [Part.size] at hk
    have hpart : partOf (k / 4) (4 + k % 4) = .zmmHi := by
      rw [partOf, if_pos (by omega), if_neg (by omega), if_neg (by omega)]
    refine ⟨k / 4, by omega, 4 + k % 4, by omega, hpart, ?_⟩
    simp only [chunkOffset, hpart, Part.stride, Part.first]
    omega
  | hi16 =>
    simp only [Part.size] at hk
    have hpart : partOf (16 + k / 8) (k % 8) = .hi16 := by
      rw [partOf, if_neg (by omega)]
    refine ⟨16 + k / 8, by omega, k % 8, by omega, hpart, ?_⟩
    simp only [chunkOffset, hpart, Part.stride, Part.first]
    omega

/-- A chunk is one of the quadwords of its component. -/
theorem chunkOffset_eq (hi : i < 8) :
    ∃ k < (partOf n i).size / 8, chunkOffset n i = 8 * k := by
  have hle := chunkOffset_le (n := n) hi
  have hsize : (partOf n i).size % 8 = 0 := by
    cases partOf n i <;> rfl
  have hstride := (partOf n i).stride_eq
  refine ⟨n % 16 * (partOf n i).count + (i - (partOf n i).first), ?_, ?_⟩
  · unfold chunkOffset at hle
    rw [hstride, Nat.mul_left_comm] at hle
    omega
  · rw [chunkOffset, hstride]
    ring

/-- A chunk in a component without stale bytes is zero if the component is absent. -/
theorem NoStale.readLe (h : NoStale layout img (partOf n i)) (hi : i < 8)
    (habsent : img.present (partOf n i) = false) (ha : layout.slot img.len n i = some a)
    (hin : a + 8 ≤ img.len) : img.bytes.readLe 8 a = 0 := by
  obtain ⟨b, hb, rfl⟩ := slot_eq_some ha
  obtain ⟨k, hk, hoffset⟩ := chunkOffset_eq (n := n) hi
  rw [hoffset] at hin ⊢
  exact h b hb habsent k hk hin

/-- The slots of a register that the image has room for lie inside it. -/
theorem Room.slot_inside {len : ℕ} (h : Room layout len n) (hi : i < 8)
    (ha : layout.slot len n i = some a) : a + 8 ≤ len := by
  obtain ⟨b, -, hle, hlt⟩ := XsaveLayout.covers_of_slot hi ha (by norm_num : 0 < 8)
  obtain ⟨c, hc, -, hend⟩ := XsaveLayout.covers_of_slot hi ha (by norm_num : 7 < 8)
  have hroom := h _ (partOf_mem hi) c hc
  omega

theorem held_of_inside (hin : a + 8 ≤ img.len) :
    img.held (some a) = UInt64.ofNat (img.bytes.readLe 8 a) := by
  rw [XsaveImage.held, Option.bind_some, XsaveImage.readU64At, if_pos hin, Option.getD_some]

theorem held_of_outside (hin : ¬ a + 8 ≤ img.len) : img.held (some a) = 0 := by
  rw [XsaveImage.held, Option.bind_some, XsaveImage.readU64At, if_neg hin, Option.getD_none]

/-- With room for the register its slots hold what the getter reads. -/
theorem Room.held (h : Room layout img.len n) (hi : i < 8) :
    img.held (layout.slot img.len n i) = img.chunkAt (layout.slot img.len n i) := by
  cases ha : layout.slot img.len n i with
  | none => rfl
  | some a => exact held_of_inside (h.slot_inside hi ha)

/-- Eight bytes fit a word. -/
theorem toNat_ofNat_readLe (s : Store) (a : ℕ) :
    (UInt64.ofNat (s.readLe 8 a)).toNat = s.readLe 8 a := by
  have hlt := Store.readLe_lt s 8 a
  rw [UInt64.toNat_ofNat', Nat.mod_eq_of_lt (by omega)]

/-- Words of equal value have equal bytes. -/
theorem byte_of_readLe_eq {s t : Store} {k : ℕ}
    (h : UInt64.ofNat (s.readLe 8 a) = UInt64.ofNat (t.readLe 8 a)) (hk : k < 8) :
    s (a + k) = t (a + k) := by
  have hword := congrArg UInt64.toNat h
  rw [toNat_ofNat_readLe, toNat_ofNat_readLe] at hword
  apply UInt8.toNat_inj.1
  rw [Store.toNat_byte s hk, Store.toNat_byte t hk, hword]

end Quadword

/-! ## What a write changes -/

section Write

variable {layout : XsaveLayout} {img img' : XsaveImage} {n m i a x k : ℕ} {p : Part}
  {data : List UInt64}

theorem toNat_xstateBv (img : XsaveImage) : img.xstateBv.toNat = img.bytes.readLe 8 512 :=
  toNat_ofNat_readLe ..

/-- A bit of XSTATE_BV in its byte. -/
theorem testBit_xstateByte (img : XsaveImage) (hk : k < 8) {j : ℕ} (hj : j < 8) :
    (img.bytes (512 + k)).toNat.testBit j = img.xstateBv.toNat.testBit (8 * k + j) := by
  rw [Store.toNat_byte img.bytes hk, ← toNat_xstateBv, show 256 = 2 ^ 8 by norm_num, ← pow_mul,
    Nat.testBit_mod_two_pow, Nat.testBit_div_two_pow, decide_eq_true hj, Bool.true_and,
    Nat.add_comm j]

/-- The bytes of XSTATE_BV differ in the bits of the components that are turned on. -/
theorem Overwritten.testBit_byte (hw : Overwritten layout n data img img') (hk : k < 8) {j : ℕ}
    (hj : j < 8) : (img'.bytes (512 + k)).toNat.testBit j =
      ((img.bytes (512 + k)).toNat.testBit j ||
        (partsOf n).any fun p => (layout.base img.len p).isSome && decide (8 * k + j = p.bit)) := by
  rw [testBit_xstateByte _ hk hj, testBit_xstateByte _ hk hj, hw.bits]

/-- Every other byte is as before. -/
theorem Overwritten.byte_eq (hw : Overwritten layout n data img img')
    (h : ¬ Alters layout img n x) : img'.bytes x = img.bytes x := by
  by_cases hclear : x < 512 ∨ 520 ≤ x
  · refine hw.frame x (fun i hi a ha => ?_) hclear
    by_contra hin
    exact h (.inr ⟨hclear, i, hi, a, ha, by omega, by omega⟩)
  · obtain ⟨k, hk, rfl⟩ : ∃ k < 8, x = 512 + k := ⟨x - 512, by omega, by omega⟩
    apply UInt8.toNat_inj.1
    apply Nat.eq_of_testBit_eq
    intro j
    by_cases hj : j < 8
    · rw [hw.testBit_byte hk hj]
      -- a bit that is set here belongs to a component that was already on
      cases hany : (partsOf n).any fun p =>
          (layout.base img.len p).isSome && decide (8 * k + j = p.bit) with
      | false => rw [Bool.or_false]
      | true =>
        obtain ⟨p, hp, hand⟩ := List.any_eq_true.1 hany
        obtain ⟨hbase, hbit⟩ := Bool.and_eq_true_iff.1 hand
        have hbit := of_decide_eq_true hbit
        have hlow := p.bit_lt
        obtain rfl : k = 0 := by omega
        have hon : img.present p = true := by
          by_contra hoff
          exact h (.inl ⟨rfl, p, hp, hbase, Bool.eq_false_iff.2 hoff⟩)
        rw [testBit_xstateByte _ hk hj, hbit, Bool.or_true]
        exact hon.symm
    · have hbig : 2 ^ 8 ≤ 2 ^ j := Nat.pow_le_pow_right (by norm_num) (by omega)
      have hlt := (img'.bytes (512 + k)).toNat_lt
      have hlt' := (img.bytes (512 + k)).toNat_lt
      rw [Nat.testBit_lt_two_pow (by omega), Nat.testBit_lt_two_pow (by omega)]

/-- Turning a component on changes the first byte of XSTATE_BV, which is not zero then. -/
theorem Overwritten.byte_ne (hw : Overwritten layout n data img img') (hp : p ∈ partsOf n)
    (hbase : (layout.base img.len p).isSome = true) (hoff : img.present p = false) :
    img'.bytes 512 ≠ img.bytes 512 ∧ img'.bytes 512 ≠ 0 := by
  have hlow : p.bit < 8 := Nat.lt_succ_of_le p.bit_lt
  have hnew : (img'.bytes 512).toNat.testBit p.bit = true := by
    rw [hw.testBit_byte (k := 0) (by norm_num) hlow, Bool.or_eq_true_iff]
    refine .inr (List.any_eq_true.2 ⟨p, hp, ?_⟩)
    simp [hbase]
  have hold : (img.bytes 512).toNat.testBit p.bit = false := by
    rw [testBit_xstateByte img (k := 0) (by norm_num) hlow, Nat.mul_zero, Nat.zero_add]
    exact hoff
  constructor <;> intro heq
  · rw [heq, hold] at hnew
    cases hnew
  · rw [heq] at hnew
    simp at hnew

/-- Data that fills a register with zeros, and with ones. -/
def blankData : List UInt64 := []
def fullData : List UInt64 := List.replicate 8 0xFFFFFFFFFFFFFFFF

theorem uniform_blankData : Chunks.Uniform (fun i => blankData.getD i 0) 0 := by
  intro i hi k hk
  simp [blankData]

theorem uniform_fullData : Chunks.Uniform (fun i => fullData.getD i 0) 255 := by
  intro i hi k hk
  interval_cases i <;> interval_cases k <;> rfl

/-- The quadword that XRSTOR loads for a chunk that counts after a write. -/
theorem Overwritten.archZmm (hw : Overwritten layout n data img img') (hi : i < 8)
    (ha : layout.slot img.len m i = some a) (hin : a + 8 ≤ img.len)
    (hcounts : img.present (partOf m i) = true ∨ partOf m i ∈ partsOf n) :
    Hw.archZmm layout img' m i = UInt64.ofNat (img'.bytes.readLe 8 a) := by
  obtain ⟨b, hb, -⟩ := slot_eq_some ha
  have hpresent : img'.present (partOf m i) = true := by
    rw [hw.present, hb]
    rcases hcounts with hon | hmem
    · rw [hon, Bool.true_or]
    · rw [decide_eq_true hmem, Option.isSome_some, Bool.and_self, Bool.or_true]
  rw [Hw.archZmm, if_pos ⟨hi, hpresent⟩, hw.len, ha, held_of_inside (by rw [hw.len]; exact hin)]

/-- A quadword apart from the write is what it was. -/
theorem Overwritten.readLe_eq (hw : Overwritten layout n data img img')
    (h : ∀ k < 8, ¬ Alters layout img n (a + k)) :
    img'.bytes.readLe 8 a = img.bytes.readLe 8 a :=
  Store.readLe_congr fun k hk => hw.byte_eq (h k hk)

end Write

/-! ## When the accessors are architectural -/

section Iff

variable {layout : XsaveLayout} {img : XsaveImage} {n : ℕ}

/-- The accessors respect XSTATE_BV on an image with room, apart and without stale bytes. -/
theorem architectural_of_noStale (hlen : 520 ≤ img.len) (hroom : Room layout img.len n)
    (hn : n < 32) (hapart : Apart layout img n) (hclean : ∀ p ∈ partsOf n, NoStale layout img p) :
    Architectural layout img n := by
  refine ⟨?_, fun data => ?_⟩
  · rw [xsaveGetZmm_of_room hlen hroom hn]
    refine congrArg some (funext fun i => ?_)
    unfold archZmm
    by_cases hi : i < 8
    · rw [if_pos hi, ← hroom.held hi]
      cases hp : img.present (partOf n i) with
      | true => rw [if_pos ⟨hi, rfl⟩]
      | false =>
        rw [if_neg (by simp)]
        cases ha : layout.slot img.len n i with
        | none => rfl
        | some a =>
          have hin := hroom.slot_inside hi ha
          rw [held_of_inside hin, (hclean _ (partOf_mem hi)).readLe hi hp ha hin]
          rfl
    · rw [if_neg hi, if_neg fun hand => hi hand.1]
  · obtain ⟨img', hrun, hw⟩ := xsaveSetZmm_of_room hlen hroom hn data
    refine ⟨img', hrun, fun m hm hne => funext fun i => ?_⟩
    by_cases hi : i < 8
    · cases ha : layout.slot img.len m i with
      | none =>
        unfold archZmm
        rw [hw.len, ha]
        simp [XsaveImage.held]
      | some a =>
        by_cases hin : a + 8 ≤ img.len
        · by_cases hcounts : img.present (partOf m i) = true ∨ partOf m i ∈ partsOf n
          · rw [hw.archZmm hi ha hin hcounts,
              hw.readLe_eq (hapart m hm hne i hi a ha hin hcounts), archZmm, ha,
              held_of_inside hin]
            cases hp : img.present (partOf m i) with
            | true => rw [if_pos ⟨hi, rfl⟩]
            | false =>
              have hmem := hcounts.resolve_left (by rw [hp]; exact Bool.false_ne_true)
              rw [if_neg (by simp), (hclean _ hmem).readLe hi hp ha hin]
              rfl
          · -- absent before and after
            obtain ⟨hoff, hmem⟩ := not_or.1 hcounts
            have hoff' : img'.present (partOf m i) = false := by
              rw [hw.present, Bool.eq_false_iff.2 hoff, decide_eq_false hmem]
              rfl
            rw [archZmm, archZmm, hoff', Bool.eq_false_iff.2 hoff]
            simp
        · unfold archZmm
          rw [hw.len, ha, held_of_outside hin, held_of_outside (by rw [hw.len]; exact hin)]
          simp
    · rw [archZmm, archZmm, if_neg fun hand => hi hand.1, if_neg fun hand => hi hand.1]

/-- Accessors that do not panic have room. -/
theorem room_of_architectural (hn : n < 32) (h : Architectural layout img n) :
    520 ≤ img.len ∧ Room layout img.len n := by
  obtain ⟨img', hrun, -⟩ := h.2 []
  have hlen : 520 ≤ img.len := by
    by_contra hlt
    have hread : img.readU64At xsaveXstateBv = none := if_neg (by unfold xsaveXstateBv; omega)
    unfold xsaveSetZmm at hrun
    rw [hread] at hrun
    cases hrun
  refine ⟨hlen, (xsaveSetZmm_isSome_iff hlen hn []).1 ?_⟩
  rw [hrun]
  rfl

/-- Where they respect XSTATE_BV, registers that count share no byte: filled with zeros and with
ones, a shared byte would come out differently. -/
theorem apart_of_architectural (hn : n < 32) (h : Architectural layout img n) :
    Apart layout img n := by
  obtain ⟨hlen, hroom⟩ := room_of_architectural hn h
  intro m hm hne i hi a ha hin hcounts k hk halters
  -- what XRSTOR loads after any write is what it loaded before
  have hword (data : List UInt64) : ∃ img', Overwritten layout n data img img' ∧
      UInt64.ofNat (img'.bytes.readLe 8 a) = archZmm layout img m i := by
    obtain ⟨img', hrun, hkeep⟩ := h.2 data
    obtain ⟨img₂, hrun₂, hw⟩ := xsaveSetZmm_of_room hlen hroom hn data
    obtain rfl : img' = img₂ := Option.some.inj (hrun.symm.trans hrun₂)
    exact ⟨img', hw, (hw.archZmm hi ha hin hcounts).symm.trans (congrFun (hkeep m hm hne) i)⟩
  obtain ⟨img₀, hw₀, hword₀⟩ := hword blankData
  rcases halters with ⟨hx, p, hp, hbase, hoff⟩ | ⟨hclear, j, hj, c, hc, hle, hlt⟩
  · obtain ⟨hold, hzero⟩ := hw₀.byte_ne hp hbase hoff
    rw [← hx] at hold hzero
    rw [archZmm, ha, held_of_inside hin] at hword₀
    split_ifs at hword₀
    · exact hold (byte_of_readLe_eq hword₀ hk)
    · have hnat := congrArg UInt64.toNat hword₀
      rw [toNat_ofNat_readLe] at hnat
      exact hzero (Store.eq_zero_of_readLe_eq_zero hnat hk)
  · obtain ⟨img₁, hw₁, hword₁⟩ := hword fullData
    have hsame := byte_of_readLe_eq (hword₀.trans hword₁.symm) hk
    obtain ⟨l, hl, heq⟩ : ∃ l < 8, a + k = c + l := ⟨a + k - c, by omega, by omega⟩
    rw [heq] at hsame hclear
    rw [hw₀.fill 0 uniform_blankData j hj c hc l hl hclear,
      hw₁.fill 255 uniform_fullData j hj c hc l hl hclear] at hsame
    exact absurd hsame (by decide)

/-- Where they respect it there is no stale byte. -/
theorem noStale_of_architectural (hn : n < 32) (h : Architectural layout img n) {p : Part}
    (hp : p ∈ partsOf n) : NoStale layout img p := by
  obtain ⟨hlen, hroom⟩ := room_of_architectural hn h
  intro b hb habsent k hk hin
  obtain ⟨m, hm, i, hi, rfl, hoffset⟩ := exists_chunk hk
  have ha : layout.slot img.len m i = some (b + 8 * k) := by
    rw [XsaveLayout.slot, hb, Option.map_some, hoffset]
  have hzero : archZmm layout img m i = 0 := by
    rw [archZmm, habsent, if_neg (by simp)]
  -- the quadword is zero: through the getter if it is register `n`'s own, through what the setter
  -- turns on if it is another register's
  have hword : UInt64.ofNat (img.bytes.readLe 8 (b + 8 * k)) = 0 := by
    by_cases hne : m = n
    · subst hne
      have hget := h.1
      rw [xsaveGetZmm_of_room hlen hroom hm] at hget
      have hchunk := congrFun (Option.some.inj hget) i
      rw [if_pos hi, hzero, ← hroom.held hi, ha, held_of_inside hin] at hchunk
      exact hchunk
    · obtain ⟨img', hrun, hkeep⟩ := h.2 []
      obtain ⟨img₂, hrun₂, hw⟩ := xsaveSetZmm_of_room hlen hroom hn []
      obtain rfl : img' = img₂ := Option.some.inj (hrun.symm.trans hrun₂)
      have hchunk := congrFun (hkeep m hm hne) i
      have hapart := apart_of_architectural hn h m hm hne i hi _ ha hin (.inr hp)
      rw [hw.archZmm hi ha hin (.inr hp), hw.readLe_eq hapart, hzero] at hchunk
      exact hchunk
  have hnat := congrArg UInt64.toNat hword
  rw [toNat_ofNat_readLe] at hnat
  exact hnat

/-- **XSTATE_BV.**  For any layout and any image the accessors give register `n` its architectural
meaning exactly when the image has room for the register, a write to it can change no quadword of
another register that counts, and no component that holds a part of it has stale bytes under a
clear bit. -/
theorem accessors_architectural_iff (hn : n < 32) : Architectural layout img n ↔
    (520 ≤ img.len ∧ Room layout img.len n) ∧ Apart layout img n ∧
      ∀ p ∈ partsOf n, NoStale layout img p :=
  ⟨fun h => ⟨room_of_architectural hn h, apart_of_architectural hn h,
    fun _ => noStale_of_architectural hn h⟩,
    fun h => architectural_of_noStale h.1.1 h.1.2 hn h.2.1 h.2.2⟩

theorem accessors_architectural_iff_zero :
    Architectural (.probe avx512Cpuid 7 0) ⟨fun _ => 0, 832⟩ 3 ↔
      (520 ≤ 832 ∧ Room (.probe avx512Cpuid 7 0) 832 3) ∧
        Apart (.probe avx512Cpuid 7 0) ⟨fun _ => 0, 832⟩ 3 ∧
          ∀ p ∈ partsOf 3, NoStale (.probe avx512Cpuid 7 0) ⟨fun _ => 0, 832⟩ p :=
  accessors_architectural_iff (by decide)

/-- A sound layout keeps the registers apart. -/
theorem XsaveLayout.Sound.apart_slots (h : layout.Sound img.len) (hn : n < 32) :
    Apart layout img n := by
  intro m hm hne i hi a ha _ _ k hk halters
  have hclear := (h.slot_inside hi ha).2
  rcases halters with ⟨hx, -⟩ | ⟨-, j, hj, c, hc, hle, hlt⟩
  · omega
  · have := h.slot_apart hm hn hi hj (fun heq => hne (congrArg Prod.fst heq)) ha hc
    omega

/-- On a sound layout stale bytes are the only obstacle. -/
theorem architectural_iff_of_sound (h : layout.Sound img.len) (hn : n < 32) :
    Architectural layout img n ↔ ∀ p ∈ partsOf n, NoStale layout img p :=
  ⟨fun harch _ => noStale_of_architectural hn harch,
    architectural_of_noStale ((by norm_num : 520 ≤ 576).trans h.header) (h.room n) hn
      (h.apart_slots hn)⟩

end Iff

/-! ## Stale bytes -/

/-- An AVX image in the standard format, with a stale byte in the upper half of YMM0 and XSTATE_BV
clear. -/
def staleImage : XsaveImage where
  bytes := fun x => if x = 576 then 1 else 0
  len := 832

theorem staleImage_stale : ¬ NoStale (.probe avx512Cpuid 7 0) staleImage .ymmHi := by
  intro h
  have hbv : staleImage.bytes.readLe 8 xsaveXstateBv = 0 := by
    refine Store.readLe_eq_zero fun k hk => ?_
    show (if 512 + k = 576 then (1 : UInt8) else 0) = 0
    rw [if_neg (by omega)]
  have habsent : staleImage.present .ymmHi = false := by
    rw [XsaveImage.present, XsaveImage.xstateBv, hbv]
    rfl
  have hzero := h 576 rfl habsent 0 (by decide) (by decide)
  exact absurd hzero (by decide)

/-- The stale byte is read, although XRSTOR would load zero; and a write to YMM1 makes XRSTOR load
it into YMM0. -/
theorem stale_byte_read :
    ¬ Architectural (.probe avx512Cpuid 7 0) staleImage 0 ∧
      ¬ Architectural (.probe avx512Cpuid 7 0) staleImage 1 := by
  constructor <;> intro h
  · exact staleImage_stale (noStale_of_architectural (by decide) h (by decide))
  · exact staleImage_stale (noStale_of_architectural (by decide) h (by decide))

end Hw
