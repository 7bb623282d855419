import Mathlib
import X86Oracle.Lib.Paging
import X86Oracle.Bochs.Memory

/-!
# The Bochs address space

`build_identity_map`, `map_shadow_stack` and `x86oracle_bochs_enable_shadow_stack` of
`csrc/bochs_shim.cpp`.

* `IdentityTables` says what the page tables hold, with the flag bits of every 2 MiB leaf as a
  parameter.  `identityTables_build` establishes it, `mapShadowStack_eq` follows it through a
  remapping.
* `walk_below` and `walk_above` read the tables with the processor's page walk.
* `Accepts` is the condition for a range to be accepted, over unbounded integers;
  `mapShadowStack_eq` shows that the 64-bit code decides it and that its loop ends, and `noWrap`
  that nothing wraps.
* `addressSpace_run` puts them together for any sequence of calls.
-/

namespace Bochs

open Bytes Paging

/-! ## The code -/

def ptBase : UInt64 := 0x7FC0000000
def ptPml4 : UInt64 := ptBase
def ptPdpt : UInt64 := ptBase + 0x1000
/-- 512 consecutive page directories. -/
def ptPd0 : UInt64 := ptBase + 0x2000
def ptBytes : UInt64 := 0x2000 + 512 * 0x1000
/-- 512 GiB. -/
def identityLimit : UInt64 := (512 : UInt64) <<< 30

def pteP : UInt64 := 0x001
def pteW : UInt64 := 0x002
def pteUS : UInt64 := 0x004
def pteD : UInt64 := 0x040
def ptePS : UInt64 := 0x080
def frame2MiB : UInt64 := (2 : UInt64) <<< 20

/-- Body of the inner loop of `build_identity_map`. -/
def writePde (i : ℕ) (mem : GuestMemory) (j : ℕ) : GuestMemory :=
  let pd := ptPd0 + UInt64.ofNat i * 0x1000
  let base := (UInt64.ofNat i <<< 30) ||| (UInt64.ofNat j <<< 21)
  mem.write64 (pd + UInt64.ofNat j * 8) (base ||| pteP ||| pteW ||| pteUS ||| ptePS)

/-- Body of the outer loop: a page-directory-pointer entry and its page directory. -/
def writeDirectory (mem : GuestMemory) (i : ℕ) : GuestMemory :=
  let pd := ptPd0 + UInt64.ofNat i * 0x1000
  let mem := mem.write64 (ptPdpt + UInt64.ofNat i * 8) (pd ||| pteP ||| pteW ||| pteUS)
  (List.range 512).foldl (writePde i) mem

def buildIdentityMap (mem : GuestMemory) : GuestMemory :=
  let mem := mem.write64 ptPml4 (ptPdpt ||| pteP ||| pteW ||| pteUS)
  (List.range 512).foldl writeDirectory mem

/-- Body of the remapping loop. -/
def mapFrame (mem : GuestMemory) (a : UInt64) : GuestMemory :=
  let pd := ptPd0 + (a >>> 30) * 0x1000
  let pde := a ||| pteP ||| pteD ||| ptePS
  mem.write64 (pd + ((a >>> 21) &&& 0x1FF) * 8) pde

/-- `for (a = first; a <= last; a += FRAME_2M)`; `none` if it has not ended after `fuel` tests of
the condition. -/
def mapFrames (last : UInt64) : ℕ → GuestMemory → UInt64 → Option GuestMemory
  | 0, _, _ => none
  | fuel + 1, mem, a =>
    if a ≤ last then mapFrames last fuel (mapFrame mem a) (a + frame2MiB) else some mem

/-- More tests than the loop ever makes (`mapShadowStack_eq`). -/
def mapFuel : ℕ := 2 ^ 18 + 1

def mapShadowStack (mem : GuestMemory) (base len : UInt64) : Option (Bool × GuestMemory) :=
  if len = 0 ∨ base ≥ identityLimit ∨ len > identityLimit - base then some (false, mem)
  else
    let first := base &&& ~~~(frame2MiB - 1)
    let last := (base + len - 1) ||| (frame2MiB - 1)
    let ptFirst := ptBase &&& ~~~(frame2MiB - 1)
    let ptLast := (ptBase + ptBytes - 1) ||| (frame2MiB - 1)
    if first ≤ ptLast ∧ ptFirst ≤ last then some (false, mem)
    else do
      let mem ← mapFrames last mapFuel mem first
      some (true, mem)

/-- The part of the machine these entry points touch. -/
structure Space where
  mem : GuestMemory
  cr0 : UInt32
  cr4 : UInt64
  sCet : UInt64
  uCet : UInt64

/-- `x86oracle_bochs_new`, on this part: cleared memory, the map, the reset register values. -/
def Space.new : Space :=
  { mem := buildIdentityMap .empty, cr0 := 0x80050033, cr4 := 0x00040220, sCet := 0, uCet := 0 }

/-- `x86oracle_bochs_enable_shadow_stack` on a CPU model with (`cet`) or without CET. -/
def enableShadowStack (cet : Bool) (s : Space) (base len : UInt64) : Option (UInt32 × Space) :=
  if !cet then some (1, s)
  else do
    let (ok, mem) ← mapShadowStack s.mem base len
    if !ok then some (2, { s with mem })
    else some (0,
      { s with
        mem
        cr0 := s.cr0 ||| ((1 : UInt32) <<< 16)
        cr4 := s.cr4 ||| ((1 : UInt64) <<< 23)
        sCet := 3
        uCet := 3 })

/-! ## Addresses -/

section Addresses

theorem pdptSlot_toNat {i : ℕ} (hi : i < 512) :
    (ptPdpt + UInt64.ofNat i * 8).toNat = 0x7FC0001000 + 8 * i := by
  have hbase : ptPdpt.toNat = 0x7FC0001000 := rfl
  rw [UInt64.toNat_add, UInt64.toNat_mul, UInt64.toNat_ofNat', hbase]
  simp only [UInt64.reduceToNat]
  omega

theorem directory_toNat {i : ℕ} (hi : i < 512) :
    (ptPd0 + UInt64.ofNat i * 0x1000).toNat = 0x7FC0002000 + 0x1000 * i := by
  have hbase : ptPd0.toNat = 0x7FC0002000 := rfl
  rw [UInt64.toNat_add, UInt64.toNat_mul, UInt64.toNat_ofNat', hbase]
  simp only [UInt64.reduceToNat]
  omega

theorem pdSlot_toNat {i j : ℕ} (hi : i < 512) (hj : j < 512) :
    (ptPd0 + UInt64.ofNat i * 0x1000 + UInt64.ofNat j * 8).toNat =
      0x7FC0002000 + 0x1000 * i + 8 * j := by
  rw [UInt64.toNat_add, directory_toNat hi, UInt64.toNat_mul, UInt64.toNat_ofNat']
  simp only [UInt64.reduceToNat]
  omega

/-- Page-directory-pointer entries: present, writable, user. -/
theorem pdpte_toNat {i : ℕ} (hi : i < 512) :
    ((ptPd0 + UInt64.ofNat i * 0x1000) ||| pteP ||| pteW ||| pteUS).toNat =
      2 ^ 12 * (0x7FC0002 + i) + 7 := by
  rw [UInt64.toNat_or, UInt64.toNat_or, UInt64.toNat_or, Nat.or_assoc, Nat.or_assoc,
    directory_toNat hi, show 0x7FC0002000 + 0x1000 * i = 2 ^ 12 * (0x7FC0002 + i) by ring]
  exact Words.mul_or_eq_add (by decide)

/-- The frame the inner loop maps. -/
theorem frameBase_toNat {i j : ℕ} (hi : i < 512) (hj : j < 512) :
    ((UInt64.ofNat i <<< 30) ||| (UInt64.ofNat j <<< 21)).toNat = 2 ^ 21 * (512 * i + j) := by
  have hhigh : (UInt64.ofNat i <<< 30).toNat = 2 ^ 30 * i := by
    rw [UInt64.toNat_shiftLeft, UInt64.toNat_ofNat', Nat.shiftLeft_eq]
    simp only [UInt64.reduceToNat, Nat.reduceMod, Nat.reducePow]
    omega
  have hlow : (UInt64.ofNat j <<< 21).toNat = 2 ^ 21 * j := by
    rw [UInt64.toNat_shiftLeft, UInt64.toNat_ofNat', Nat.shiftLeft_eq]
    simp only [UInt64.reduceToNat, Nat.reduceMod, Nat.reducePow]
    omega
  rw [UInt64.toNat_or, hhigh, hlow, Words.mul_or_eq_add (by omega)]
  ring

/-- Ordinary leaves: present, writable, user, 2 MiB. -/
theorem pde_toNat {i j : ℕ} (hi : i < 512) (hj : j < 512) :
    (((UInt64.ofNat i <<< 30) ||| (UInt64.ofNat j <<< 21)) ||| pteP ||| pteW ||| pteUS |||
      ptePS).toNat = 2 ^ 21 * (512 * i + j) + 0x87 := by
  rw [UInt64.toNat_or, UInt64.toNat_or, UInt64.toNat_or, UInt64.toNat_or, Nat.or_assoc,
    Nat.or_assoc, Nat.or_assoc, frameBase_toNat hi hj]
  exact Words.mul_or_eq_add (by decide)

variable {a : UInt64} {k : ℕ}

/-- The slot `map_shadow_stack` computes for frame `k` is that frame's leaf. -/
theorem frameSlot_toNat (ha : a.toNat = 2 ^ 21 * k) (hk : k < 2 ^ 18) :
    (ptPd0 + (a >>> 30) * (0x1000 : UInt64) + ((a >>> 21) &&& (0x1FF : UInt64)) * 8).toNat =
      0x7FC0002000 + 8 * k := by
  have hbase : ptPd0.toNat = 0x7FC0002000 := rfl
  have hhigh : (a >>> 30).toNat = k / 512 := by
    rw [UInt64.toNat_shiftRight, ha, Nat.shiftRight_eq_div_pow]
    simp only [UInt64.reduceToNat, Nat.reduceMod, Nat.reducePow]
    omega
  have hlow : ((a >>> 21) &&& (0x1FF : UInt64)).toNat = k % 512 := by
    have hmask := Nat.and_two_pow_sub_one_eq_mod k 9
    have hshift : (a >>> 21).toNat = k := by
      rw [UInt64.toNat_shiftRight, ha, Nat.shiftRight_eq_div_pow]
      simp only [UInt64.reduceToNat, Nat.reduceMod, Nat.reducePow]
      omega
    rw [UInt64.toNat_and, hshift]
    exact hmask
  rw [UInt64.toNat_add, UInt64.toNat_add, UInt64.toNat_mul, UInt64.toNat_mul, hbase, hhigh, hlow]
  simp only [UInt64.reduceToNat]
  omega

/-- Shadow-stack leaves: present, dirty, read-only, supervisor, 2 MiB. -/
theorem framePde_toNat (ha : a.toNat = 2 ^ 21 * k) :
    (a ||| pteP ||| pteD ||| ptePS).toNat = 2 ^ 21 * k + 0xC1 := by
  rw [UInt64.toNat_or, UInt64.toNat_or, UInt64.toNat_or, Nat.or_assoc, Nat.or_assoc, ha]
  exact Words.mul_or_eq_add (by decide)

end Addresses

/-! ## The tables -/

/-- Flag bits of an ordinary leaf and of a shadow-stack leaf. -/
def dataFlags : ℕ := 0x87
def shadowFlags : ℕ := 0xC1

/-- The page tables map 512 GiB onto itself in 2 MiB pages; leaf `k` has the flags `leaf k`. -/
structure IdentityTables (mem : GuestMemory) (leaf : ℕ → ℕ) : Prop where
  pml4 : mem.store.readLe 8 0x7FC0000000 = 0x7FC0001007
  pml4Rest : ∀ i, 0 < i → i < 512 → mem.store.readLe 8 (0x7FC0000000 + 8 * i) = 0
  pdpt : ∀ i < 512, mem.store.readLe 8 (0x7FC0001000 + 8 * i) = 2 ^ 12 * (0x7FC0002 + i) + 7
  pd : ∀ k < 2 ^ 18, mem.store.readLe 8 (0x7FC0002000 + 8 * k) = 2 ^ 21 * k + leaf k
  leaf_eq : ∀ k < 2 ^ 18, leaf k = dataFlags ∨ leaf k = shadowFlags

theorem innerLoop_spec {i : ℕ} (hi : i < 512) (mem : GuestMemory) :
    Table mem.store ((List.range 512).foldl (writePde i) mem).store
      (0x7FC0002000 + 0x1000 * i) 8 8 512 fun j => 2 ^ 21 * (512 * i + j) + 0x87 := by
  refine foldl_range_induction (f := writePde i) (fun j (m : GuestMemory) =>
    Table mem.store m.store (0x7FC0002000 + 0x1000 * i) 8 8 j
      fun j => 2 ^ 21 * (512 * i + j) + 0x87) (.empty ..) fun j m hj ht => ?_
  have hstore : (writePde i m j).store = m.store.writeLe 8 (0x7FC0002000 + 0x1000 * i + 8 * j)
      (2 ^ 21 * (512 * i + j) + 0x87) := by
    rw [writePde, GuestMemory.store_write64 (pdSlot_toNat hi hj) (by omega) (by omega),
      pde_toNat hi hj]
  refine ht.push (le_refl 8) ?_ fun x hx => ?_
  · rw [hstore, Store.readLe_writeLe_self]
    exact Nat.mod_eq_of_lt (by norm_num; omega)
  · rw [hstore, Store.writeLe_of_outside (by omega)]

/-- One round of the outer loop lays out one directory and the entry that names it. -/
theorem writeDirectory_spec {i : ℕ} (hi : i < 512) (mem : GuestMemory) :
    let mem' := writeDirectory mem i
    mem'.store.readLe 8 (0x7FC0001000 + 8 * i) = 2 ^ 12 * (0x7FC0002 + i) + 7 ∧
      (∀ j < 512, mem'.store.readLe 8 (0x7FC0002000 + 0x1000 * i + 8 * j) =
        2 ^ 21 * (512 * i + j) + 0x87) ∧
      ∀ x, (x < 0x7FC0001000 + 8 * i ∨ 0x7FC0001000 + 8 * i + 8 ≤ x) →
        (x < 0x7FC0002000 + 0x1000 * i ∨ 0x7FC0002000 + 0x1000 * i + 0x1000 ≤ x) →
        mem'.store x = mem.store x := by
  obtain ⟨m1, hm1⟩ : ∃ m, m = mem.write64 (ptPdpt + UInt64.ofNat i * 8)
    ((ptPd0 + UInt64.ofNat i * 0x1000) ||| pteP ||| pteW ||| pteUS) := ⟨_, rfl⟩
  have hstore : m1.store = mem.store.writeLe 8 (0x7FC0001000 + 8 * i)
      (2 ^ 12 * (0x7FC0002 + i) + 7) := by
    rw [hm1, GuestMemory.store_write64 (pdptSlot_toNat hi) (by omega) (by omega),
      pdpte_toNat hi]
  have ht := innerLoop_spec hi m1
  have hdef : writeDirectory mem i = (List.range 512).foldl (writePde i) m1 := by
    rw [hm1]
    rfl
  rw [hdef]
  refine ⟨?_, fun j hj => by rw [ht.entry j hj], fun x hx hx' => ?_⟩
  · rw [Store.readLe_congr fun k hk => ht.frame _ (by omega), hstore, Store.readLe_writeLe_self]
    exact Nat.mod_eq_of_lt (by norm_num; omega)
  · rw [ht.frame x (by omega), hstore, Store.writeLe_of_outside hx]

/-- What the outer loop has laid out after `n` rounds. -/
structure Built (start mem : GuestMemory) (n : ℕ) : Prop where
  pdpt : ∀ i < n, mem.store.readLe 8 (0x7FC0001000 + 8 * i) = 2 ^ 12 * (0x7FC0002 + i) + 7
  pd : ∀ k < 512 * n, mem.store.readLe 8 (0x7FC0002000 + 8 * k) = 2 ^ 21 * k + 0x87
  frame : ∀ x, x < 0x7FC0001000 → mem.store x = start.store x

theorem Built.step {start mem : GuestMemory} {n : ℕ} (h : Built start mem n) (hn : n < 512) :
    Built start (writeDirectory mem n) (n + 1) := by
  obtain ⟨hpdpt, hpd, hframe⟩ := writeDirectory_spec hn mem
  refine ⟨fun i hi => ?_, fun k hk => ?_, fun x hx => ?_⟩
  · rcases Nat.lt_succ_iff_lt_or_eq.1 hi with hlt | rfl
    · rw [Store.readLe_congr fun j hj => hframe _ (by omega) (by omega), h.pdpt i hlt]
    · exact hpdpt
  · by_cases hold : k < 512 * n
    · rw [Store.readLe_congr fun j hj => hframe _ (by omega) (by omega), h.pd k hold]
    · obtain ⟨j, rfl⟩ := Nat.exists_eq_add_of_le (Nat.le_of_not_lt hold)
      have hj := hpd j (by omega)
      rw [show 0x7FC0002000 + 8 * (512 * n + j) = 0x7FC0002000 + 0x1000 * n + 8 * j by omega]
      exact hj
  · rw [hframe x (by omega) (by omega), h.frame x hx]

/-- Construction maps everything as ordinary memory. -/
theorem identityTables_build : IdentityTables (buildIdentityMap .empty) fun _ => dataFlags := by
  obtain ⟨m1, hm1⟩ : ∃ m, m = GuestMemory.empty.write64 ptPml4
    (ptPdpt ||| pteP ||| pteW ||| pteUS) := ⟨_, rfl⟩
  have hstore : m1.store = GuestMemory.empty.store.writeLe 8 0x7FC0000000 0x7FC0001007 := by
    rw [hm1, GuestMemory.store_write64 (x := 0x7FC0000000) rfl (by norm_num) (by norm_num)]
    rfl
  have hbuilt : Built m1 (buildIdentityMap .empty) 512 := by
    have hdef : buildIdentityMap .empty = (List.range 512).foldl writeDirectory m1 := by
      rw [hm1]
      rfl
    rw [hdef]
    refine foldl_range_induction (f := writeDirectory) (fun n m => Built m1 m n)
      ⟨fun i hi => absurd hi (by omega), fun k hk => absurd hk (by omega), fun x _ => rfl⟩ ?_
    exact fun i m hi h => h.step hi
  refine ⟨?_, fun i hpos hi => ?_, hbuilt.pdpt, hbuilt.pd, fun k _ => Or.inl rfl⟩
  · rw [Store.readLe_congr fun j hj => hbuilt.frame _ (by omega), hstore,
      Store.readLe_writeLe_self, Nat.mod_eq_of_lt (by norm_num)]
  · rw [Store.readLe_congr fun j hj => hbuilt.frame _ (by omega), hstore,
      Store.readLe_writeLe_of_disjoint (by omega), GuestMemory.store_empty]
    rfl

/-! ## Remapping -/

section Remap

variable {mem : GuestMemory} {leaf : ℕ → ℕ}

/-- Remapping one frame changes that frame's leaf and nothing else. -/
theorem identityTables_mapFrame (h : IdentityTables mem leaf) {a : UInt64} {k : ℕ}
    (ha : a.toNat = 2 ^ 21 * k) (hk : k < 2 ^ 18) :
    IdentityTables (mapFrame mem a) fun j => if j = k then shadowFlags else leaf j := by
  have hstore : (mapFrame mem a).store =
      mem.store.writeLe 8 (0x7FC0002000 + 8 * k) (2 ^ 21 * k + shadowFlags) := by
    rw [mapFrame, GuestMemory.store_write64 (frameSlot_toNat ha hk) (by omega) (by omega),
      framePde_toNat ha, shadowFlags]
  refine ⟨?_, fun i hpos hi => ?_, fun i hi => ?_, fun j hj => ?_, fun j hj => ?_⟩
  · rw [hstore, Store.readLe_writeLe_of_disjoint (by omega), h.pml4]
  · rw [hstore, Store.readLe_writeLe_of_disjoint (by omega), h.pml4Rest i hpos hi]
  · rw [hstore, Store.readLe_writeLe_of_disjoint (by omega), h.pdpt i hi]
  · rw [hstore]
    by_cases hjk : j = k
    · rw [hjk, Store.readLe_writeLe_self, if_pos rfl, shadowFlags]
      exact Nat.mod_eq_of_lt (by norm_num; omega)
    · rw [Store.readLe_writeLe_of_disjoint (by omega), h.pd j hj, if_neg hjk]
  · split
    · exact Or.inr rfl
    · exact h.leaf_eq j hj

theorem addFrame_toNat {a : UInt64} {k : ℕ} (ha : a.toNat = 2 ^ 21 * k) (hk : k < 2 ^ 18) :
    (a + frame2MiB).toNat = 2 ^ 21 * (k + 1) := by
  have hframe : frame2MiB.toNat = 2 ^ 21 := rfl
  rw [UInt64.toNat_add, ha, hframe]
  omega

/-- The loop ends, after remapping every frame from the current one to the last. -/
theorem mapFrames_spec {last : UInt64} {hi : ℕ} (hlast : last.toNat = 2 ^ 21 * hi + 0x1FFFFF)
    (hhi : hi < 2 ^ 18) {fuel : ℕ} (h : IdentityTables mem leaf) {a : UInt64} {k : ℕ}
    (ha : a.toNat = 2 ^ 21 * k) (hk : k ≤ hi + 1) (hfuel : hi + 1 - k < fuel) :
    ∃ mem', mapFrames last fuel mem a = some mem' ∧
      IdentityTables mem' fun j => if k ≤ j ∧ j ≤ hi then shadowFlags else leaf j := by
  induction fuel generalizing mem leaf a k with
  | zero => exact absurd hfuel (by omega)
  | succ fuel ih =>
    by_cases hle : k ≤ hi
    · have htest : a ≤ last := by
        rw [UInt64.le_iff_toNat_le, ha, hlast]
        omega
      obtain ⟨mem', hrun, htables⟩ := ih (identityTables_mapFrame h ha (by omega))
        (addFrame_toNat ha (by omega)) (by omega) (by omega)
      refine ⟨mem', by rw [mapFrames, if_pos htest, hrun], ?_⟩
      have hleaf : (fun j => if k + 1 ≤ j ∧ j ≤ hi then shadowFlags else
          if j = k then shadowFlags else leaf j) =
          fun j => if k ≤ j ∧ j ≤ hi then shadowFlags else leaf j := by
        funext j
        by_cases hj : j = k
        · rw [if_neg (by omega), if_pos hj, if_pos (by omega)]
        · rw [if_neg hj]
          exact if_congr (by omega) rfl rfl
      rw [← hleaf]
      exact htables
    · have htest : ¬ a ≤ last := by
        rw [UInt64.le_iff_toNat_le, ha, hlast]
        omega
      refine ⟨mem, by rw [mapFrames, if_neg htest], ?_⟩
      have hleaf : (fun j => if k ≤ j ∧ j ≤ hi then shadowFlags else leaf j) = leaf := by
        funext j
        rw [if_neg (by omega)]
      rw [hleaf]
      exact h

end Remap

/-! ## Which ranges are accepted -/

/-- First and last 2 MiB frame of a range, rounded outward. -/
def firstFrame (base : UInt64) : ℕ := base.toNat / 2 ^ 21
def lastFrame (base len : UInt64) : ℕ := (base.toNat + len.toNat - 1) / 2 ^ 21

/-- The range, rounded outward, meets the frame. -/
def Covers (base len : UInt64) (k : ℕ) : Prop := firstFrame base ≤ k ∧ k ≤ lastFrame base len

/-- The range is not empty and lies below the limit, over unbounded integers. -/
def InLimit (base len : UInt64) : Prop :=
  len.toNat ≠ 0 ∧ base.toNat + len.toNat ≤ identityLimit.toNat

/-- In addition, the rounded range does not meet the rounded page-table window. -/
def Accepts (base len : UInt64) : Prop :=
  InLimit base len ∧
    (lastFrame ptBase ptBytes < firstFrame base ∨ lastFrame base len < firstFrame ptBase)

instance (base len : UInt64) (k : ℕ) : Decidable (Covers base len k) :=
  inferInstanceAs (Decidable (_ ∧ _))

instance (base len : UInt64) : Decidable (Accepts base len) :=
  inferInstanceAs (Decidable ((_ ∧ _) ∧ (_ ∨ _)))

section Range

variable {base len : UInt64}

theorem identityLimit_toNat : identityLimit.toNat = 2 ^ 39 := rfl

theorem roundDown_toNat (x : UInt64) :
    (x &&& ~~~(frame2MiB - 1)).toNat = 2 ^ 21 * (x.toNat / 2 ^ 21) := by
  have hmask : (~~~(frame2MiB - 1)).toNat = 2 ^ 64 - 2 ^ 21 := by decide
  rw [UInt64.toNat_and, hmask]
  exact Words.and_highMask (by norm_num) x.toNat_lt

theorem roundUp_toNat (x : UInt64) :
    (x ||| (frame2MiB - 1)).toNat = 2 ^ 21 * (x.toNat / 2 ^ 21) + 0x1FFFFF := by
  rw [UInt64.toNat_or]
  exact Words.or_lowMask 21 x.toNat

/-- The difference is only formed below the limit, and the 64-bit test is the unbounded one. -/
theorem inLimit_iff :
    ¬ (len = 0 ∨ base ≥ identityLimit ∨ len > identityLimit - base) ↔ InLimit base len := by
  rw [InLimit, identityLimit_toNat, ← UInt64.toNat_inj, ge_iff_le, UInt64.le_iff_toNat_le,
    gt_iff_lt, UInt64.lt_iff_toNat_lt, identityLimit_toNat]
  by_cases hbase : base.toNat < 2 ^ 39
  · have hsub : (identityLimit - base).toNat = 2 ^ 39 - base.toNat := by
      rw [UInt64.toNat_sub_of_le _ _ (by
        rw [UInt64.le_iff_toNat_le, identityLimit_toNat]; omega), identityLimit_toNat]
    rw [hsub, UInt64.toNat_zero]
    omega
  · rw [UInt64.toNat_zero]
    omega

theorem rangeEnd_toNat (h : InLimit base len) :
    (base + len - 1).toNat = base.toNat + len.toNat - 1 := by
  obtain ⟨hlen, hlim⟩ := h
  rw [identityLimit_toNat] at hlim
  have hadd : (base + len).toNat = base.toNat + len.toNat := by
    rw [UInt64.toNat_add]
    omega
  rw [UInt64.toNat_sub_of_le _ _ (by
    rw [UInt64.le_iff_toNat_le, hadd]; simp only [UInt64.reduceToNat]; omega), hadd]
  rfl

end Range

/-- `map_shadow_stack` decides `Accepts`, remaps the covered frames if it holds, and changes
nothing otherwise; in both cases it ends. -/
theorem mapShadowStack_eq {mem : GuestMemory} {leaf : ℕ → ℕ} (h : IdentityTables mem leaf)
    (base len : UInt64) :
    (Accepts base len → ∃ mem', mapShadowStack mem base len = some (true, mem') ∧
      IdentityTables mem' fun k => if Covers base len k then shadowFlags else leaf k) ∧
    (¬ Accepts base len → mapShadowStack mem base len = some (false, mem)) := by
  by_cases hlim : InLimit base len
  · have hguard := inLimit_iff.2 hlim
    have hlast : ((base + len - 1) ||| (frame2MiB - 1)).toNat =
        2 ^ 21 * lastFrame base len + 0x1FFFFF := by
      rw [roundUp_toNat, rangeEnd_toNat hlim, lastFrame]
    have hhi : lastFrame base len < 2 ^ 18 := by
      obtain ⟨hlen, hle⟩ := hlim
      rw [identityLimit_toNat] at hle
      rw [lastFrame]
      omega
    have hfirst : (base &&& ~~~(frame2MiB - 1)).toNat = 2 ^ 21 * firstFrame base :=
      roundDown_toNat base
    have hfl : firstFrame base ≤ lastFrame base len := by
      obtain ⟨hlen, -⟩ := hlim
      rw [firstFrame, lastFrame]
      omega
    have hwindow : (base &&& ~~~(frame2MiB - 1) ≤ (ptBase + ptBytes - 1) ||| (frame2MiB - 1) ∧
        ptBase &&& ~~~(frame2MiB - 1) ≤ (base + len - 1) ||| (frame2MiB - 1)) ↔
        ¬ (lastFrame ptBase ptBytes < firstFrame base ∨
          lastFrame base len < firstFrame ptBase) := by
      have hptLast : ((ptBase + ptBytes - 1) ||| (frame2MiB - 1)).toNat =
          2 ^ 21 * lastFrame ptBase ptBytes + 0x1FFFFF := by decide
      have hptFirst : (ptBase &&& ~~~(frame2MiB - 1)).toNat = 2 ^ 21 * firstFrame ptBase := by
        decide
      rw [UInt64.le_iff_toNat_le, UInt64.le_iff_toNat_le, hfirst, hlast, hptFirst, hptLast]
      omega
    rw [Accepts]
    by_cases hmeet : lastFrame ptBase ptBytes < firstFrame base ∨
        lastFrame base len < firstFrame ptBase
    · obtain ⟨mem', hrun, htables⟩ := mapFrames_spec hlast hhi h hfirst (by omega)
        (show lastFrame base len + 1 - firstFrame base < mapFuel by rw [mapFuel]; omega)
      refine ⟨fun _ => ⟨mem', ?_, htables⟩, fun hno => absurd ⟨hlim, hmeet⟩ hno⟩
      rw [mapShadowStack, if_neg hguard]
      simp only [hwindow, hmeet, not_true_eq_false, if_false, hrun, Option.bind_eq_bind,
        Option.bind_some]
    · refine ⟨fun hyes => absurd hyes.2 hmeet, fun _ => ?_⟩
      rw [mapShadowStack, if_neg hguard]
      simp only [hwindow, hmeet, not_false_eq_true, if_true]
  · have hguard : len = 0 ∨ base ≥ identityLimit ∨ len > identityLimit - base := by
      by_contra hno
      exact hlim (inLimit_iff.1 hno)
    refine ⟨fun hyes => absurd hyes.1 hlim, fun _ => ?_⟩
    rw [mapShadowStack, if_pos hguard]

/-! ## The walk -/

/-- Walk from CR3 through guest memory. -/
def GuestMemory.walk (mem : GuestMemory) (la : UInt64) : Walk :=
  Paging.walk (fun a => (mem.read64 (UInt64.ofNat a)).toNat) ptPml4.toNat la.toNat

section Walk

variable {mem : GuestMemory} {leaf : ℕ → ℕ}

/-- The walk reads paging entries through `read64`. -/
theorem entry_read {a e : ℕ} (ha : a < 2 ^ 52) (halign : a % 8 = 0)
    (he : mem.store.readLe 8 a = e) :
    (fun a => (mem.read64 (UInt64.ofNat a)).toNat) a = e := by
  have hnat : (UInt64.ofNat a).toNat = a := by
    rw [UInt64.toNat_ofNat']
    omega
  exact (GuestMemory.read64_toNat hnat ha halign).trans he

theorem frame4K_cr3 : frame4K ptPml4.toNat = 0x7FC0000000 := by
  decide

theorem pml4e_ptr {e : ℕ} (h : e = 0x7FC0001007) : TablePtr e 0x7FC0001 7 :=
  ⟨h, by norm_num, by norm_num, by decide, by decide⟩

theorem pdpte_ptr {e i : ℕ} (hi : i < 512) (h : e = 2 ^ 12 * (0x7FC0002 + i) + 7) :
    TablePtr e (0x7FC0002 + i) 7 :=
  ⟨h, by norm_num, by omega, by decide, by decide⟩

theorem pde_page {e k f : ℕ} (hk : k < 2 ^ 18) (hf : f = dataFlags ∨ f = shadowFlags)
    (h : e = 2 ^ 21 * k + f) : LargePage e k f := by
  refine ⟨h, ?_, by omega, ?_, ?_⟩ <;> rcases hf with rfl | rfl <;> decide

/-- A page of the map: the identity, as ordinary memory or as shadow stack. -/
def identityPage (shadow : Bool) (la : ℕ) : Translation :=
  { phys := la, tablesWritable := true, leafWritable := !shadow, user := !shadow,
    dirty := shadow }

theorem identityPage_shadowStack (shadow : Bool) (la : ℕ) :
    (identityPage shadow la).shadowStack = shadow ∧
      (identityPage shadow la).writable = !shadow := by
  cases shadow <;> exact ⟨rfl, rfl⟩

/-- Below the limit the walk is the identity, with the rights of the leaf. -/
theorem walk_below (h : IdentityTables mem leaf) {la : UInt64}
    (hla : la.toNat < identityLimit.toNat) :
    mem.walk la = .page
      (identityPage (decide (leaf (la.toNat / 2 ^ 21) = shadowFlags)) la.toNat) := by
  rw [identityLimit_toNat] at hla
  have h3 : index 3 la.toNat = 0 := by rw [index]; omega
  have h2 : index 2 la.toNat = la.toNat / 2 ^ 30 := by rw [index]; omega
  have h1 : 0x7FC0002000 + 0x1000 * (la.toNat / 2 ^ 30) + 8 * index 1 la.toNat =
      0x7FC0002000 + 8 * (la.toNat / 2 ^ 21) := by rw [index]; omega
  have hbase : 2 ^ 12 * (0x7FC0002 + la.toNat / 2 ^ 30) =
      0x7FC0002000 + 0x1000 * (la.toNat / 2 ^ 30) := by omega
  have hphys : 2 ^ 21 * (la.toNat / 2 ^ 21) + la.toNat % 2 ^ 21 = la.toNat := Nat.div_add_mod _ _
  have hleaf := h.leaf_eq (la.toNat / 2 ^ 21) (by omega)
  rw [GuestMemory.walk, walk_page2M
    (pml4e_ptr (by rw [frame4K_cr3, h3]; exact entry_read (by norm_num) (by norm_num) h.pml4))
    (pdpte_ptr (i := la.toNat / 2 ^ 30) (by omega)
      (by rw [h2]; exact entry_read (by omega) (by omega) (h.pdpt _ (by omega))))
    (pde_page (k := la.toNat / 2 ^ 21) (by omega) hleaf
      (by rw [hbase, h1]; exact entry_read (by omega) (by omega) (h.pd _ (by omega)))), hphys]
  rcases hleaf with hl | hl <;> rw [hl] <;> rfl

/-- From the limit on, no canonical address is mapped. -/
theorem walk_above (h : IdentityTables mem leaf) {la : UInt64} (hc : Canonical la)
    (hla : identityLimit.toNat ≤ la.toNat) : mem.walk la = .notPresent := by
  have hpos : 0 < index 3 la.toNat := by
    rw [identityLimit_toNat] at hla
    rw [index]
    have := la.toNat_lt
    rcases hc with hc | hc <;> omega
  have hlt : index 3 la.toNat < 512 := index_lt 3 _
  refine walk_pml4_absent ?_
  have hentry : (mem.read64 (UInt64.ofNat (0x7FC0000000 + 8 * index 3 la.toNat))).toNat = 0 :=
    entry_read (by omega) (by omega) (h.pml4Rest _ hpos hlt)
  rw [frame4K_cr3, hentry]
  rfl

end Walk

/-! ## Sequences of calls -/

/-- Calls of `enable_shadow_stack` in order; `none` if a loop does not end. -/
def runCalls (s : Space) : List (UInt64 × UInt64) → Option Space
  | [] => some s
  | (base, len) :: calls => do
    let (_, s) ← enableShadowStack true s base len
    runCalls s calls

/-- Frame `k` meets an accepted range. -/
def Shadowed (calls : List (UInt64 × UInt64)) (k : ℕ) : Prop :=
  ∃ call ∈ calls, Accepts call.1 call.2 ∧ Covers call.1 call.2 k

instance (calls : List (UInt64 × UInt64)) (k : ℕ) : Decidable (Shadowed calls k) :=
  inferInstanceAs (Decidable (∃ call ∈ calls, _))

/-- The leaves after some calls: shadow stack where an accepted range was. -/
def leafAfter (calls : List (UInt64 × UInt64)) (k : ℕ) : ℕ :=
  if Shadowed calls k then shadowFlags else dataFlags

theorem leafAfter_append (calls : List (UInt64 × UInt64)) (base len : UInt64) :
    leafAfter (calls ++ [(base, len)]) =
      if Accepts base len then fun k => if Covers base len k then shadowFlags else leafAfter calls k
      else leafAfter calls := by
  funext k
  have hiff : Shadowed (calls ++ [(base, len)]) k ↔
      Shadowed calls k ∨ (Accepts base len ∧ Covers base len k) := by
    simp [Shadowed, or_and_right, exists_or]
  by_cases hacc : Accepts base len
  · by_cases hcov : Covers base len k
    · simp [leafAfter, hiff, hacc, hcov]
    · simp [leafAfter, hiff, hacc, hcov]
  · simp [leafAfter, hiff, hacc]

/-- One call: its result, and what it leaves. -/
theorem enableShadowStack_spec {s : Space} {calls : List (UInt64 × UInt64)}
    (h : IdentityTables s.mem (leafAfter calls)) (base len : UInt64) :
    ∃ s', IdentityTables s'.mem (leafAfter (calls ++ [(base, len)])) ∧
      (Accepts base len → enableShadowStack true s base len = some (0, s')) ∧
      (¬ Accepts base len → enableShadowStack true s base len = some (2, s) ∧ s' = s) := by
  obtain ⟨hyes, hno⟩ := mapShadowStack_eq h base len
  by_cases hacc : Accepts base len
  · obtain ⟨mem', hrun, htables⟩ := hyes hacc
    refine ⟨{ mem := mem', cr0 := s.cr0 ||| ((1 : UInt32) <<< 16),
              cr4 := s.cr4 ||| ((1 : UInt64) <<< 23), sCet := 3, uCet := 3 }, ?_, fun _ => ?_,
      fun h' => absurd hacc h'⟩
    · rw [leafAfter_append, if_pos hacc]
      exact htables
    · simp [enableShadowStack, hrun]
  · refine ⟨s, ?_, fun h' => absurd h' hacc, fun _ => ⟨?_, rfl⟩⟩
    · rw [leafAfter_append, if_neg hacc]
      exact h
    · simp [enableShadowStack, hno hacc]

/-- Any run of calls ends, with the tables the accepted ranges call for. -/
theorem runCalls_tables (calls : List (UInt64 × UInt64)) :
    ∃ s, runCalls Space.new calls = some s ∧ IdentityTables s.mem (leafAfter calls) := by
  have hgen (past calls : List (UInt64 × UInt64)) (s : Space)
      (h : IdentityTables s.mem (leafAfter past)) :
      ∃ s', runCalls s calls = some s' ∧ IdentityTables s'.mem (leafAfter (past ++ calls)) := by
    induction calls generalizing past s with
    | nil => exact ⟨s, rfl, by rw [List.append_nil]; exact h⟩
    | cons call calls ih =>
      obtain ⟨base, len⟩ := call
      obtain ⟨s1, htables, hyes, hno⟩ := enableShadowStack_spec h base len
      obtain ⟨s2, hrun, hfinal⟩ := ih (past ++ [(base, len)]) s1 htables
      rw [List.append_assoc, List.singleton_append] at hfinal
      refine ⟨s2, ?_, hfinal⟩
      by_cases hacc : Accepts base len
      · rw [runCalls, hyes hacc]
        exact hrun
      · obtain ⟨hres, rfl⟩ := hno hacc
        rw [runCalls, hres]
        exact hrun
  have hstart : IdentityTables Space.new.mem (leafAfter []) := by
    have hleaf : leafAfter [] = fun _ => dataFlags := by
      funext k
      simp [leafAfter, Shadowed]
    simpa only [hleaf, Space.new] using identityTables_build
  simpa using hgen [] calls Space.new hstart

/-! ## The address space -/

/-- The 64-bit computations of `map_shadow_stack` have their mathematical values. -/
structure NoWrap (base len : UInt64) : Prop where
  /-- `IDENTITY_LIMIT - base`, which is only formed for a base below the limit. -/
  room : base < identityLimit →
    (identityLimit - base).toNat + base.toNat = identityLimit.toNat
  /-- `base + len - 1`, which is only formed for a range below the limit. -/
  last : InLimit base len → (base + len - 1).toNat = base.toNat + len.toNat - 1
  /-- `a += FRAME_2M` and the leaf's address, in every round of the loop. -/
  round : InLimit base len → ∀ a : UInt64, a.toNat % 2 ^ 21 = 0 →
    a ≤ ((base + len - 1) ||| (frame2MiB - 1)) →
    (a + frame2MiB).toNat = a.toNat + frame2MiB.toNat ∧
      (ptPd0 + (a >>> 30) * (0x1000 : UInt64) + ((a >>> 21) &&& (0x1FF : UInt64)) * 8).toNat =
        ptPd0.toNat + a.toNat / 2 ^ 30 * 0x1000 + a.toNat / 2 ^ 21 % 2 ^ 9 * 8

theorem noWrap (base len : UInt64) : NoWrap base len := by
  refine ⟨fun hbase => ?_, rangeEnd_toNat, fun hlim a halign hle => ?_⟩
  · rw [UInt64.lt_iff_toNat_lt] at hbase
    rw [UInt64.toNat_sub_of_le _ _ (by rw [UInt64.le_iff_toNat_le]; omega)]
    omega
  · have hend := rangeEnd_toNat hlim
    obtain ⟨hlen, hle39⟩ := hlim
    rw [identityLimit_toNat] at hle39
    rw [UInt64.le_iff_toNat_le, roundUp_toNat, hend] at hle
    have ha : a.toNat = 2 ^ 21 * (a.toNat / 2 ^ 21) := by omega
    have hk : a.toNat / 2 ^ 21 < 2 ^ 18 := by omega
    have hframe : frame2MiB.toNat = 2 ^ 21 := rfl
    have hbase : ptPd0.toNat = 0x7FC0002000 := rfl
    refine ⟨?_, ?_⟩
    · rw [addFrame_toNat ha hk, hframe]
      omega
    · rw [frameSlot_toNat ha hk, hbase]
      omega

/-- So have those of `build_identity_map`, in every round of its two loops. -/
def BuildNoWrap (i j : ℕ) : Prop :=
  (ptPdpt + UInt64.ofNat i * 8).toNat = ptPdpt.toNat + i * 8 ∧
    (ptPd0 + UInt64.ofNat i * 0x1000 + UInt64.ofNat j * 8).toNat =
      ptPd0.toNat + i * 0x1000 + j * 8 ∧
    ((UInt64.ofNat i <<< 30) ||| (UInt64.ofNat j <<< 21)).toNat = 2 ^ 30 * i + 2 ^ 21 * j

theorem buildNoWrap {i j : ℕ} (hi : i < 512) (hj : j < 512) : BuildNoWrap i j := by
  have hpdpt : ptPdpt.toNat = 0x7FC0001000 := rfl
  have hpd : ptPd0.toNat = 0x7FC0002000 := rfl
  refine ⟨?_, ?_, ?_⟩
  · rw [pdptSlot_toNat hi, hpdpt]
    omega
  · rw [pdSlot_toNat hi hj, hpd]
    omega
  · rw [frameBase_toNat hi hj]
    ring

/-- The address-space invariant, after construction and any calls: the run ends, the walk is the
identity below 512 GiB with shadow-stack rights exactly on the frames of accepted ranges, and the
next call is accepted exactly when its range is acceptable, and changes nothing otherwise. -/
theorem addressSpace_run (calls : List (UInt64 × UInt64)) :
    ∃ s, runCalls Space.new calls = some s ∧
      (∀ la, Canonical la → s.mem.walk la =
        if la.toNat < identityLimit.toNat then
          .page (identityPage (decide (Shadowed calls (la.toNat / 2 ^ 21))) la.toNat)
        else .notPresent) ∧
      (∀ base len, Accepts base len → ∃ s', enableShadowStack true s base len = some (0, s')) ∧
      (∀ base len, ¬ Accepts base len → enableShadowStack true s base len = some (2, s)) ∧
      (∀ base len, NoWrap base len) ∧ ∀ i < 512, ∀ j < 512, BuildNoWrap i j := by
  obtain ⟨s, hrun, htables⟩ := runCalls_tables calls
  refine ⟨s, hrun, fun la hc => ?_, fun base len hacc => ?_, fun base len hacc => ?_, noWrap,
    fun i hi j hj => buildNoWrap hi hj⟩
  · split
    · have hshadow : leafAfter calls (la.toNat / 2 ^ 21) = shadowFlags ↔
          Shadowed calls (la.toNat / 2 ^ 21) := by
        rw [leafAfter]
        split
        · exact iff_of_true rfl ‹_›
        · exact iff_of_false (by decide) ‹_›
      rw [walk_below htables ‹_›, decide_eq_decide.2 hshadow]
    · exact walk_above htables hc (by omega)
  · obtain ⟨s', -, hyes, -⟩ := enableShadowStack_spec htables base len
    exact ⟨s', hyes hacc⟩
  · obtain ⟨s', -, -, hno⟩ := enableShadowStack_spec htables base len
    exact (hno hacc).1

end Bochs
