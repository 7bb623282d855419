import Mathlib
import X86Oracle.Lib.Bytes
import X86Oracle.Lib.Run
import X86Oracle.Bochs.Machine

/-!
# Tile state and its XSAVE images

The instructions that change the AMX unit (`cpu/avx/amx.cc`), and the handlers of XSAVE components
17, the tile configuration, and 18, the tile data (`cpu/xsave.cc`).

* `configure_tiles_iff`: which configurations are accepted; `sttilecfg_configure` reads one back.
* `Amx.Configured`, `Amx.Clean`: what saving and restoring needs; `roundTrips_iff`.
* `amx_roundTrips`: in which runs every state comes back.
-/

namespace Bochs

open Bytes Run

/-! ## Configurations -/

theorem neZero_eight : NeZero 8 := ⟨by decide⟩

theorem neZero_sixteen : NeZero 16 := ⟨by decide⟩

-- the numbers of tiles and of rows wrap
attribute [local instance] neZero_eight neZero_sixteen

/-- A `BxPackedAvxRegister`. -/
abbrev ZmmWord := Fin 64 → UInt8

namespace ZmmWord

def ubyte (w : ZmmWord) (k : ℕ) : UInt8 := w (Fin.ofNat 64 k)

def u16 (w : ZmmWord) (k : ℕ) : ℕ := (w.ubyte (2 * k)).toNat + 256 * (w.ubyte (2 * k + 1)).toNat

def u64 (w : ZmmWord) (k : ℕ) : ℕ := leValue ((List.range 8).map fun i => w.ubyte (8 * k + i))

end ZmmWord

/-- One row of a tile, by doublewords. -/
abbrev Row := Fin 16 → UInt32

namespace Amx

/-- The checks of `configure_tiles` on one tile. -/
def badTile (bytes_per_row rows : ℕ) : Bool :=
  decide (bytes_per_row > 64) || decide (rows > 16) ||
    (rows == 0 && bytes_per_row != 0 || rows != 0 && bytes_per_row == 0)

def configure_tiles (amx : Amx) (tilecfg : ZmmWord) : Bool × Amx :=
  let palette_id := tilecfg.ubyte 0
  let start_row := tilecfg.ubyte 1
  if palette_id = 0 then (true, .clear)
  else if palette_id = 1 then
    if tilecfg.u64 0 >>> 16 ≠ 0 ∨ tilecfg.u64 1 ≠ 0 ∨ tilecfg.u64 4 ≠ 0 ∨ tilecfg.u64 5 ≠ 0 ∨
        tilecfg.u64 7 ≠ 0 then (false, amx)
    else if (List.finRange 8).any fun n =>
        badTile (tilecfg.u16 (8 + n)) (tilecfg.ubyte (48 + n)).toNat then (false, amx)
    else
      (true, { Amx.clear with
        palette_id := 1
        start_row := start_row.toNat
        tilecfg := fun n => ((tilecfg.ubyte (48 + n)).toNat, tilecfg.u16 (8 + n)) })
  else (false, amx)

/-- `xsave_tilecfg_state`, which is `STTILECFG` too: palette, start row, bytes per row as 16-bit
words from byte 16 on, rows from byte 48 on. -/
def xsave_tilecfg_state (amx : Amx) : ZmmWord := fun i =>
  if amx.palette_id = 0 then 0
  else if i.val = 0 then UInt8.ofNat amx.palette_id
  else if i.val = 1 then UInt8.ofNat amx.start_row
  else if 16 ≤ i.val ∧ i.val < 32 then
    UInt8.ofNat ((amx.tilecfg (Fin.ofNat 8 ((i.val - 16) / 2))).2 / 256 ^ (i.val % 2))
  else if 48 ≤ i.val ∧ i.val < 56 then UInt8.ofNat (amx.tilecfg (Fin.ofNat 8 (i.val - 48))).1
  else 0

/-- What `LDTILECFG` has to accept. -/
def ValidConfig (w : ZmmWord) : Prop :=
  w 0 = 0 ∨ w 0 = 1 ∧
    (∀ i : Fin 64, 2 ≤ i.val ∧ i.val < 16 ∨ 32 ≤ i.val ∧ i.val < 48 ∨ 56 ≤ i.val → w i = 0) ∧
    ∀ n : Fin 8, w.u16 (8 + n) ≤ 64 ∧ (w.ubyte (48 + n)).toNat ≤ 16 ∧
      ((w.ubyte (48 + n)).toNat = 0 ↔ w.u16 (8 + n) = 0)

section Config

variable {amx : Amx} {w : ZmmWord}

theorem ubyte_val (i : Fin 64) : w.ubyte i.val = w i := by
  unfold ZmmWord.ubyte
  congr 1
  exact Fin.ext (Nat.mod_eq_of_lt i.isLt)

theorem u64_eq_zero_iff (k : ℕ) : w.u64 k = 0 ↔ ∀ i < 8, w.ubyte (8 * k + i) = 0 := by
  unfold ZmmWord.u64
  constructor
  · intro h i hi
    exact eq_zero_of_leValue_eq_zero h _ (List.mem_map.2 ⟨i, List.mem_range.2 hi, rfl⟩)
  · intro h
    refine leValue_eq_zero fun b hb => ?_
    obtain ⟨i, hi, rfl⟩ := List.mem_map.1 hb
    exact h i (List.mem_range.1 hi)

theorem badTile_eq_false_iff {bytes rows : ℕ} :
    badTile bytes rows = false ↔ bytes ≤ 64 ∧ rows ≤ 16 ∧ (rows = 0 ↔ bytes = 0) := by
  unfold badTile
  by_cases hrows : rows = 0 <;> by_cases hbytes : bytes = 0 <;> simp [hrows, hbytes]

theorem u64_shift_eq_zero_iff :
    w.u64 0 >>> 16 = 0 ↔ ∀ i, 2 ≤ i → i < 8 → w.ubyte i = 0 := by
  have hhigh : w.u64 0 >>> 16 = leValue ((List.range 6).map fun i => w.ubyte (2 + i)) := by
    have hsplit : w.u64 0 = (w.ubyte 0).toNat + 256 * ((w.ubyte 1).toNat +
        256 * leValue ((List.range 6).map fun i => w.ubyte (2 + i))) := rfl
    have h0 := (w.ubyte 0).toNat_lt
    have h1 := (w.ubyte 1).toNat_lt
    rw [hsplit, Nat.shiftRight_eq_div_pow]
    omega
  rw [hhigh]
  constructor
  · intro h i h2 h8
    have hmem : w.ubyte (2 + (i - 2)) ∈ (List.range 6).map fun i => w.ubyte (2 + i) :=
      List.mem_map.2 ⟨i - 2, List.mem_range.2 (by omega), rfl⟩
    have hbyte := eq_zero_of_leValue_eq_zero h _ hmem
    rwa [Nat.add_sub_cancel' h2] at hbyte
  · intro h
    refine leValue_eq_zero fun b hb => ?_
    obtain ⟨i, hi, rfl⟩ := List.mem_map.1 hb
    have hlt := List.mem_range.1 hi
    exact h (2 + i) (by omega) (by omega)

/-- The reserved bytes of palette 1. -/
theorem reserved_iff : (w.u64 0 >>> 16 = 0 ∧ w.u64 1 = 0 ∧ w.u64 4 = 0 ∧ w.u64 5 = 0 ∧
      w.u64 7 = 0) ↔
    ∀ i : Fin 64, 2 ≤ i.val ∧ i.val < 16 ∨ 32 ≤ i.val ∧ i.val < 48 ∨ 56 ≤ i.val → w i = 0 := by
  have hbyte (i : Fin 64) : w.ubyte i.val = w i := ubyte_val i
  simp only [u64_shift_eq_zero_iff, u64_eq_zero_iff]
  constructor
  · rintro ⟨h0, h1, h4, h5, h7⟩ i hi
    rw [← hbyte]
    have hlt := i.isLt
    rcases lt_or_ge i.val 8 with h | h
    · exact h0 i.val (by omega) h
    · have hword (k : ℕ) (hk : ∀ j < 8, w.ubyte (8 * k + j) = 0) (heq : i.val / 8 = k) :
          w.ubyte i.val = 0 := by
        have hsum : 8 * k + i.val % 8 = i.val := by omega
        rw [← hsum]
        exact hk _ (Nat.mod_lt _ (by norm_num))
      rcases hi with hi | hi | hi
      · exact hword 1 h1 (by omega)
      · rcases lt_or_ge i.val 40 with h' | h'
        · exact hword 4 h4 (by omega)
        · exact hword 5 h5 (by omega)
      · exact hword 7 h7 (by omega)
  · intro h
    have hzero (k : ℕ) (hk : k < 64)
        (hres : 2 ≤ k ∧ k < 16 ∨ 32 ≤ k ∧ k < 48 ∨ 56 ≤ k) : w.ubyte k = 0 := by
      have hfin := hbyte ⟨k, hk⟩
      dsimp only at hfin
      rw [hfin]
      exact h ⟨k, hk⟩ hres
    refine ⟨fun i h2 h8 => hzero i (by omega) (by omega), ?_, ?_, ?_, ?_⟩
    all_goals
      intro i hi
      exact hzero _ (by omega) (by omega)

theorem configure_tiles_cases (amx : Amx) (w : ZmmWord) :
    (w 0 = 0 ∧ amx.configure_tiles w = (true, .clear)) ∨
      (w 0 = 1 ∧ ValidConfig w ∧ amx.configure_tiles w = (true, { Amx.clear with
        palette_id := 1
        start_row := (w 1).toNat
        tilecfg := fun n => ((w.ubyte (48 + n)).toNat, w.u16 (8 + n)) })) ∨
      (¬ ValidConfig w ∧ amx.configure_tiles w = (false, amx)) := by
  have h0 : w.ubyte 0 = w 0 := rfl
  have h1 : w.ubyte 1 = w 1 := rfl
  unfold configure_tiles
  dsimp only
  rw [h0, h1]
  by_cases hp0 : w 0 = 0
  · rw [if_pos hp0]
    exact .inl ⟨hp0, rfl⟩
  rw [if_neg hp0]
  by_cases hp1 : w 0 = 1
  swap
  · rw [if_neg hp1]
    exact .inr (.inr ⟨fun h => h.elim hp0 fun h => hp1 h.1, rfl⟩)
  rw [if_pos hp1]
  by_cases hres : w.u64 0 >>> 16 ≠ 0 ∨ w.u64 1 ≠ 0 ∨ w.u64 4 ≠ 0 ∨ w.u64 5 ≠ 0 ∨ w.u64 7 ≠ 0
  · rw [if_pos hres]
    refine .inr (.inr ⟨fun h => ?_, rfl⟩)
    rcases h with h | ⟨-, hbytes, -⟩
    · exact hp0 h
    · obtain ⟨hz0, hz1, hz4, hz5, hz7⟩ := reserved_iff.2 hbytes
      rcases hres with h | h | h | h | h
      · exact h hz0
      · exact h hz1
      · exact h hz4
      · exact h hz5
      · exact h hz7
  rw [if_neg hres]
  rw [not_or, not_or, not_or, not_or, not_not, not_not, not_not, not_not, not_not] at hres
  have hbytes := reserved_iff.1 hres
  by_cases hbad : ((List.finRange 8).any fun n =>
      badTile (w.u16 (8 + n)) (w.ubyte (48 + n)).toNat) = true
  · rw [if_pos hbad]
    refine .inr (.inr ⟨fun h => ?_, rfl⟩)
    rcases h with h | ⟨-, -, htiles⟩
    · exact hp0 h
    · obtain ⟨n, -, hn⟩ := List.any_eq_true.1 hbad
      rw [badTile_eq_false_iff.2 (htiles n)] at hn
      exact Bool.false_ne_true hn
  · rw [if_neg hbad]
    refine .inr (.inl ⟨hp1, .inr ⟨hp1, hbytes, fun n => ?_⟩, rfl⟩)
    refine badTile_eq_false_iff.1 (Bool.eq_false_iff.2 fun hn => hbad ?_)
    exact List.any_eq_true.2 ⟨n, List.mem_finRange n, hn⟩

/-- A configuration is accepted exactly if it is valid, and a rejected one changes nothing. -/
theorem configure_tiles_iff (amx : Amx) (w : ZmmWord) :
    ((amx.configure_tiles w).1 = true ↔ ValidConfig w) ∧
      ((amx.configure_tiles w).1 = false → (amx.configure_tiles w).2 = amx) := by
  rcases configure_tiles_cases amx w with ⟨hp, heq⟩ | ⟨-, hvalid, heq⟩ | ⟨hinvalid, heq⟩
  · rw [heq]
    exact ⟨iff_of_true rfl (.inl hp), nofun⟩
  · rw [heq]
    exact ⟨iff_of_true rfl hvalid, nofun⟩
  · rw [heq]
    exact ⟨iff_of_false Bool.false_ne_true hinvalid, fun _ => rfl⟩

/-- A word of two bytes, by bytes. -/
theorem u16_bytes (k : ℕ) :
    UInt8.ofNat (w.u16 k) = w.ubyte (2 * k) ∧
      UInt8.ofNat (w.u16 k / 256) = w.ubyte (2 * k + 1) := by
  have hlow := (w.ubyte (2 * k)).toNat_lt
  have hhigh := (w.ubyte (2 * k + 1)).toNat_lt
  unfold ZmmWord.u16
  constructor
  · apply UInt8.toNat_inj.1
    rw [UInt8.toNat_ofNat']
    omega
  · apply UInt8.toNat_inj.1
    rw [UInt8.toNat_ofNat']
    omega

/-- `STTILECFG` right after an accepted `LDTILECFG` stores the image again, or zeros. -/
theorem sttilecfg_configure (amx : Amx) (h : (amx.configure_tiles w).1 = true) :
    xsave_tilecfg_state (amx.configure_tiles w).2 = if w 0 = 0 then fun _ => 0 else w := by
  rcases configure_tiles_cases amx w with ⟨hp, heq⟩ | ⟨hp, hvalid, heq⟩ | ⟨-, heq⟩
  · rw [heq, if_pos hp]
    rfl
  · rw [heq, if_neg (by rw [hp]; decide)]
    obtain hzero | ⟨-, hres, -⟩ := hvalid
    · rw [hp] at hzero
      exact absurd hzero (by decide)
    funext i
    have hlt := i.isLt
    have hword (k : ℕ) (hk : k < 8) : ((Fin.ofNat 8 k : Fin 8) : ℕ) = k := Nat.mod_eq_of_lt hk
    unfold xsave_tilecfg_state
    dsimp only
    rw [if_neg one_ne_zero]
    split_ifs with h0 h1 hcols hrows
    · obtain rfl : i = 0 := Fin.ext h0
      exact hp.symm
    · obtain rfl : i = 1 := Fin.ext h1
      exact UInt8.ofNat_toNat
    · have hbytes := u16_bytes (w := w) (8 + (i.val - 16) / 2)
      rw [hword _ (by omega), ← ubyte_val (w := w) i]
      rcases Nat.mod_two_eq_zero_or_one i.val with heven | hodd
      · have hpos : 2 * (8 + (i.val - 16) / 2) = i.val := by omega
        rw [heven, pow_zero, Nat.div_one, hbytes.1, hpos]
      · have hpos : 2 * (8 + (i.val - 16) / 2) + 1 = i.val := by omega
        rw [hodd, pow_one, hbytes.2, hpos]
    · have hpos : 48 + (i.val - 48) = i.val := by omega
      rw [hword _ (by omega), hpos, ubyte_val]
      exact UInt8.ofNat_toNat
    · exact (hres i (by omega)).symm
  · rw [heq] at h
    nomatch h

end Config

/-! ## Tile data -/

def set_tile_used (amx : Amx) (tile : ℕ) : Amx :=
  { amx with tile_use_tracker := amx.tile_use_tracker ||| 1 <<< tile.toUInt32 }

def clear_tile_used (amx : Amx) (tile : ℕ) : Amx :=
  { amx with tile_use_tracker := amx.tile_use_tracker &&& ~~~(1 <<< tile.toUInt32) }

def setRow (amx : Amx) (tile row : ℕ) (data : Row) : Amx :=
  { amx with
    tile := Function.update amx.tile (Fin.ofNat 8 tile)
      (Function.update (amx.tile (Fin.ofNat 8 tile)) (Fin.ofNat 16 row) data) }

/-- The rows of an image of component 18: line `k` is row `k % 16` of tile `k / 16`. -/
abbrev Lines := ℕ → Row

/-- `xsave_tiledata_state`, its two loops as one. -/
def xsave_tiledata_state (amx : Amx) (lines : Lines) : Lines :=
  (List.range (8 * 16)).foldl (fun lines k =>
    Function.update lines k (amx.tile (Fin.ofNat 8 (k / 16)) (Fin.ofNat 16 (k % 16)))) lines

/-- `xrstor_tiledata_state`, its two loops as one; a fault ends them when `n` lines are read.  A
tile is in use after its last row. -/
def xrstor_tiledata_state (amx : Amx) (lines : Lines) (n : ℕ) : Amx :=
  (List.range (min n (8 * 16))).foldl (fun amx k =>
    let amx := amx.setRow (k / 16) (k % 16) (lines k)
    if k % 16 = 15 then amx.set_tile_used (k / 16) else amx) amx

def xrstor_init_tiledata_state (amx : Amx) : Amx :=
  (List.range 8).foldl (fun amx tile =>
    clear_tile_used { amx with
      tile := Function.update amx.tile (Fin.ofNat 8 tile) fun _ _ => 0 } tile) amx

def xrstor_tilecfg_state (amx : Amx) (tilecfg : ZmmWord) : Amx :=
  let (ok, amx) := amx.configure_tiles tilecfg
  if ok then amx else .clear

/-- Components 17 and 18 of an XSAVE image, with their bits in XSTATE_BV. -/
structure Image where
  tilecfg_inuse : Bool
  tiledata_inuse : Bool
  tilecfg : ZmmWord
  lines : Lines

/-- `xsave_tilecfg_state_xinuse`. -/
def tilecfgInuse (amx : Amx) : Bool := amx.palette_id != 0

/-- `xsave_tiledata_state_xinuse`. -/
def tiledataInuse (amx : Amx) : Bool := amx.tile_use_tracker != 0

/-- Saving to an image; `opt` of XSAVEOPT and XSAVEC, which skip a component not in use. -/
def xsave (opt : Bool) (amx : Amx) (image : Image) : Image where
  tilecfg_inuse := amx.tilecfgInuse
  tiledata_inuse := amx.tiledataInuse
  tilecfg := if opt && !amx.tilecfgInuse then image.tilecfg else amx.xsave_tilecfg_state
  lines := if opt && !amx.tiledataInuse then image.lines else amx.xsave_tiledata_state image.lines

/-- Restoring: first what is not in the image is initialized, then the rest is loaded, 17 before
18. -/
def xrstor (image : Image) (amx : Amx) : Amx :=
  let amx := if image.tilecfg_inuse then amx else .clear
  let amx := if image.tiledata_inuse then amx else amx.xrstor_init_tiledata_state
  let amx := if image.tilecfg_inuse then amx.xrstor_tilecfg_state image.tilecfg else amx
  if image.tiledata_inuse then amx.xrstor_tiledata_state image.lines (8 * 16) else amx

section Data

variable {amx t : Amx} {lines : Lines}

theorem setRow_tile (amx : Amx) (tile row : ℕ) (data : Row) (i : Fin 8) (j : Fin 16) :
    (amx.setRow tile row data).tile i j =
      if i = Fin.ofNat 8 tile ∧ j = Fin.ofNat 16 row then data else amx.tile i j := by
  unfold setRow
  dsimp only
  by_cases hi : i = Fin.ofNat 8 tile
  · subst hi
    rw [Function.update_self]
    by_cases hj : j = Fin.ofNat 16 row
    · subst hj
      rw [Function.update_self, if_pos ⟨rfl, rfl⟩]
    · rw [Function.update_of_ne hj, if_neg fun h => hj h.2]
  · rw [Function.update_of_ne hi, if_neg fun h => hi h.1]

theorem xsave_tiledata_state_eq (amx : Amx) (lines : Lines) {k : ℕ} (hk : k < 128) :
    amx.xsave_tiledata_state lines k = amx.tile (Fin.ofNat 8 (k / 16)) (Fin.ofNat 16 (k % 16)) := by
  unfold xsave_tiledata_state
  have hloop := foldl_range_induction (n := 8 * 16) (s := lines)
    (f := fun lines k => Function.update lines k
      (amx.tile (Fin.ofNat 8 (k / 16)) (Fin.ofNat 16 (k % 16))))
    (fun m out => ∀ k < m, out k = amx.tile (Fin.ofNat 8 (k / 16)) (Fin.ofNat 16 (k % 16)))
    (fun k hk => absurd hk (Nat.not_lt_zero k))
    (fun i out _ h k hk => by
      by_cases hki : k = i
      · rw [hki, Function.update_self]
      · rw [Function.update_of_ne hki]
        exact h k (by omega))
  exact hloop k (by omega)

theorem set_tile_used_ne_zero (amx : Amx) {tile : ℕ} (h : tile < 8) :
    (amx.set_tile_used tile).tile_use_tracker ≠ 0 := by
  have hbit : (1 : UInt32) <<< tile.toUInt32 ≠ 0 := by
    interval_cases tile <;> decide
  intro hzero
  apply hbit
  have hor := congrArg UInt32.toNat hzero
  unfold set_tile_used at hor
  rw [UInt32.toNat_or] at hor
  exact UInt32.toNat_inj.1 (Nat.or_eq_zero_iff.1 hor).2

/-- What is in place when `m` lines are loaded. -/
structure Loaded (amx : Amx) (lines : Lines) (m : ℕ) (amx' : Amx) : Prop where
  config : amx'.palette_id = amx.palette_id ∧ amx'.start_row = amx.start_row ∧
    amx'.tilecfg = amx.tilecfg
  tile : ∀ i j, amx'.tile i j =
    if 16 * i.val + j.val < m then lines (16 * i.val + j.val) else amx.tile i j
  tracker : if m < 16 then amx'.tile_use_tracker = amx.tile_use_tracker
    else amx'.tile_use_tracker ≠ 0

theorem Loaded.line {k : ℕ} (h : Loaded amx lines k t) (hk : k < 128) :
    Loaded amx lines (k + 1) (if k % 16 = 15
      then (t.setRow (k / 16) (k % 16) (lines k)).set_tile_used (k / 16)
      else t.setRow (k / 16) (k % 16) (lines k)) := by
  have htile (i : Fin 8) (j : Fin 16) : (t.setRow (k / 16) (k % 16) (lines k)).tile i j =
      if 16 * i.val + j.val < k + 1 then lines (16 * i.val + j.val) else amx.tile i j := by
    have hi : i = Fin.ofNat 8 (k / 16) ↔ i.val = k / 16 := by
      rw [Fin.ext_iff]
      exact Iff.of_eq (congrArg _ (Nat.mod_eq_of_lt (by omega)))
    have hj : j = Fin.ofNat 16 (k % 16) ↔ j.val = k % 16 := by
      rw [Fin.ext_iff]
      exact Iff.of_eq (congrArg _ (Nat.mod_eq_of_lt (by omega)))
    have hlt := j.isLt
    rw [setRow_tile, h.tile]
    by_cases hhere : i = Fin.ofNat 8 (k / 16) ∧ j = Fin.ofNat 16 (k % 16)
    · have hpos : 16 * i.val + j.val = k := by
        have hi' := hi.1 hhere.1
        have hj' := hj.1 hhere.2
        omega
      rw [if_pos hhere, if_pos (by omega), hpos]
    · rw [if_neg hhere]
      rw [hi, hj] at hhere
      exact if_congr (by omega) rfl rfl
  have htracker := h.tracker
  by_cases hlast : k % 16 = 15
  · rw [if_pos hlast]
    refine ⟨h.config, htile, ?_⟩
    rw [if_neg (by omega)]
    exact set_tile_used_ne_zero _ (by omega)
  · rw [if_neg hlast]
    refine ⟨h.config, htile, ?_⟩
    by_cases hk16 : k < 16
    · rw [if_pos hk16] at htracker
      rw [if_pos (by omega)]
      exact htracker
    · rw [if_neg hk16] at htracker
      rw [if_neg (by omega)]
      exact htracker

/-- What is loaded before a fault. -/
theorem loaded_xrstor_tiledata_state (amx : Amx) (lines : Lines) (n : ℕ) :
    Loaded amx lines n (amx.xrstor_tiledata_state lines n) := by
  have hloop : Loaded amx lines (min n (8 * 16)) (amx.xrstor_tiledata_state lines n) := by
    unfold xrstor_tiledata_state
    refine foldl_range_induction (fun m t => Loaded amx lines m t) ⟨⟨rfl, rfl, rfl⟩, ?_, rfl⟩ ?_
    · exact fun i j => (if_neg (Nat.not_lt_zero _)).symm
    · exact fun k t hk h => h.line (by omega)
  refine ⟨hloop.config, fun i j => ?_, ?_⟩
  · have hi := i.isLt
    have hj := j.isLt
    rw [hloop.tile]
    exact if_congr (by omega) rfl rfl
  · have htracker := hloop.tracker
    by_cases hn : n < 16
    · rw [if_pos (by omega)] at htracker
      rw [if_pos hn]
      exact htracker
    · rw [if_neg (by omega)] at htracker
      rw [if_neg hn]
      exact htracker

/-- An initialization leaves clear tiles as they are. -/
theorem xrstor_init_tiledata_state_clear : clear.xrstor_init_tiledata_state = clear := by
  unfold xrstor_init_tiledata_state
  refine foldl_range_induction (fun _ t => t = clear) rfl fun k t _ h => ?_
  subst h
  have htile : Function.update clear.tile (Fin.ofNat 8 k) (fun _ _ => 0) = clear.tile :=
    Function.update_eq_self _ _
  have htracker : clear.tile_use_tracker &&& ~~~(1 <<< k.toUInt32) = clear.tile_use_tracker :=
    UInt32.zero_and
  unfold clear_tile_used
  rw [htile]
  dsimp only
  rw [htracker]

/-! ## Saving and restoring -/

/-- A configuration that `LDTILECFG` may leave, with a start row that it or a tile load may. -/
structure Configured (amx : Amx) : Prop where
  palette : amx.palette_id = 0 ∨ amx.palette_id = 1
  released : amx.palette_id = 0 → amx.start_row = 0 ∧ amx.tilecfg = fun _ => (0, 0)
  start_row : amx.start_row < 256
  tiles : ∀ n, (amx.tilecfg n).2 ≤ 64 ∧ (amx.tilecfg n).1 ≤ 16 ∧
    ((amx.tilecfg n).1 = 0 ↔ (amx.tilecfg n).2 = 0)

/-- If no tile is in use all are zero. -/
def Clean (amx : Amx) : Prop := amx.tile_use_tracker = 0 → ∀ i j, amx.tile i j = 0

/-- What a round trip has to bring back. -/
structure Same (s t : Amx) : Prop where
  palette : s.palette_id = t.palette_id
  start_row : s.start_row = t.start_row
  shape : s.tilecfg = t.tilecfg
  data : s.tile = t.tile
  tilecfg_inuse : s.tilecfgInuse = t.tilecfgInuse
  tiledata_inuse : s.tiledataInuse = t.tiledataInuse

/-- Saving to any image and restoring into any state brings everything back. -/
def RoundTrips (amx : Amx) : Prop :=
  ∀ (opt : Bool) (image : Image) (t : Amx), Same (xrstor (xsave opt amx image) t) amx

/-- Each field of a saved configuration. -/
theorem saved_fields (h : amx.Configured) (hp : amx.palette_id = 1) :
    amx.xsave_tilecfg_state 0 = 1 ∧ (amx.xsave_tilecfg_state 1).toNat = amx.start_row ∧
      ∀ n : Fin 8, (amx.xsave_tilecfg_state.ubyte (48 + n)).toNat = (amx.tilecfg n).1 ∧
        amx.xsave_tilecfg_state.u16 (8 + n) = (amx.tilecfg n).2 := by
  have hp0 : amx.palette_id ≠ 0 := by rw [hp]; exact one_ne_zero
  have hbyte (k : ℕ) (hk : k < 64) : amx.xsave_tilecfg_state.ubyte k =
      amx.xsave_tilecfg_state ⟨k, hk⟩ := ubyte_val ⟨k, hk⟩
  refine ⟨?_, ?_, fun n => ?_⟩
  · unfold xsave_tilecfg_state
    rw [if_neg hp0, if_pos (show ((0 : Fin 64) : ℕ) = 0 by decide), hp]
    rfl
  · have hstart := h.start_row
    unfold xsave_tilecfg_state
    rw [if_neg hp0, if_neg (by decide), if_pos (show ((1 : Fin 64) : ℕ) = 1 by decide),
      UInt8.toNat_ofNat']
    exact Nat.mod_eq_of_lt hstart
  obtain ⟨hbytes, hrows, -⟩ := h.tiles n
  have hn := n.isLt
  constructor
  · have hpos : Fin.ofNat 8 (48 + n.val - 48) = n := Fin.ext (by
      show (48 + n.val - 48) % 8 = n.val
      omega)
    rw [hbyte _ (by omega)]
    unfold xsave_tilecfg_state
    dsimp only
    rw [if_neg hp0, if_neg (by omega), if_neg (by omega), if_neg (by omega), if_pos (by omega),
      hpos, UInt8.toNat_ofNat']
    omega
  · have hlow : (amx.xsave_tilecfg_state.ubyte (2 * (8 + n))).toNat = (amx.tilecfg n).2 := by
      have hpos : Fin.ofNat 8 ((2 * (8 + n.val) - 16) / 2) = n := Fin.ext (by
        show (2 * (8 + n.val) - 16) / 2 % 8 = n.val
        omega)
      have hpar : 2 * (8 + n.val) % 2 = 0 := by omega
      rw [hbyte _ (by omega)]
      unfold xsave_tilecfg_state
      dsimp only
      rw [if_neg hp0, if_neg (by omega), if_neg (by omega), if_pos (by omega), hpos, hpar, pow_zero,
        Nat.div_one, UInt8.toNat_ofNat']
      omega
    have hhigh : (amx.xsave_tilecfg_state.ubyte (2 * (8 + n) + 1)).toNat = 0 := by
      have hpos : Fin.ofNat 8 ((2 * (8 + n.val) + 1 - 16) / 2) = n := Fin.ext (by
        show (2 * (8 + n.val) + 1 - 16) / 2 % 8 = n.val
        omega)
      have hpar : (2 * (8 + n.val) + 1) % 2 = 1 := by omega
      rw [hbyte _ (by omega)]
      unfold xsave_tilecfg_state
      dsimp only
      rw [if_neg hp0, if_neg (by omega), if_neg (by omega), if_pos (by omega), hpos, hpar, pow_one,
        UInt8.toNat_ofNat']
      omega
    unfold ZmmWord.u16
    rw [hlow, hhigh, mul_zero, add_zero]

theorem validConfig_saved (h : amx.Configured) (hp : amx.palette_id = 1) :
    ValidConfig amx.xsave_tilecfg_state := by
  obtain ⟨hpal, -, htiles⟩ := saved_fields h hp
  refine .inr ⟨hpal, fun i hi => ?_, fun n => ?_⟩
  · unfold xsave_tilecfg_state
    rw [if_neg (by rw [hp]; exact one_ne_zero), if_neg (by omega), if_neg (by omega),
      if_neg (by omega), if_neg (by omega)]
  · obtain ⟨hrows, hbytes⟩ := htiles n
    rw [hrows, hbytes]
    exact h.tiles n

/-- A saved configuration loads again. -/
theorem configure_xsave (h : amx.Configured) (hp : amx.palette_id = 1) (t : Amx) :
    t.configure_tiles amx.xsave_tilecfg_state = (true, { Amx.clear with
      palette_id := 1
      start_row := amx.start_row
      tilecfg := amx.tilecfg }) := by
  obtain ⟨hpal, hstart, htiles⟩ := saved_fields h hp
  rcases configure_tiles_cases t amx.xsave_tilecfg_state with
    ⟨hzero, -⟩ | ⟨-, -, heq⟩ | ⟨hinvalid, -⟩
  · rw [hpal] at hzero
    exact absurd hzero (by decide)
  · have hshape : (fun n : Fin 8 => ((amx.xsave_tilecfg_state.ubyte (48 + n)).toNat,
        amx.xsave_tilecfg_state.u16 (8 + n))) = amx.tilecfg := by
      funext n
      rw [(htiles n).1, (htiles n).2]
    rw [heq, hstart, hshape]
  · exact absurd (validConfig_saved h hp) hinvalid

/-- The configuration of a state, with all tiles released. -/
def untouched (amx : Amx) : Amx := { amx with tile := fun _ _ _ => 0, tile_use_tracker := 0 }

theorem untouched_eq (h : amx.Configured) (hp : amx.palette_id = 0) : amx.untouched = .clear := by
  obtain ⟨hstart, hshape⟩ := h.released hp
  unfold untouched
  rw [hp, hstart, hshape]
  rfl

/-- The state that a restore leaves, whatever state it finds. -/
theorem xrstor_xsave (h : amx.Configured) (opt : Bool) (image : Image) (t : Amx) :
    xrstor (xsave opt amx image) t =
      if amx.tiledataInuse then
        amx.untouched.xrstor_tiledata_state (amx.xsave_tiledata_state image.lines) (8 * 16)
      else amx.untouched := by
  have hconfig : (let s := if amx.tilecfgInuse then t else .clear
      let s := if amx.tiledataInuse then s else s.xrstor_init_tiledata_state
      if amx.tilecfgInuse then s.xrstor_tilecfg_state (xsave opt amx image).tilecfg else s) =
      amx.untouched := by
    rcases h.palette with hp | hp
    · have hinuse : amx.tilecfgInuse = false := by rw [tilecfgInuse, hp]; rfl
      rw [hinuse, untouched_eq h hp]
      dsimp only
      rw [if_neg Bool.false_ne_true, if_neg Bool.false_ne_true, xrstor_init_tiledata_state_clear,
        ite_self]
    · have hinuse : amx.tilecfgInuse = true := by rw [tilecfgInuse, hp]; rfl
      have hcfg : (xsave opt amx image).tilecfg = amx.xsave_tilecfg_state := by
        unfold xsave
        dsimp only
        rw [hinuse, if_neg (by rw [Bool.not_true, Bool.and_false]; exact Bool.false_ne_true)]
      rw [hinuse, hcfg]
      dsimp only
      rw [if_pos rfl, if_pos rfl]
      unfold xrstor_tilecfg_state
      rw [configure_xsave h hp]
      dsimp only
      rw [if_pos rfl]
      unfold untouched
      rw [hp]
      rfl
  have hlines : amx.tiledataInuse = true →
      (xsave opt amx image).lines = amx.xsave_tiledata_state image.lines := by
    intro hinuse
    unfold xsave
    dsimp only
    rw [hinuse, if_neg (by rw [Bool.not_true, Bool.and_false]; exact Bool.false_ne_true)]
  show (if amx.tiledataInuse then _ else _) = _
  by_cases hinuse : amx.tiledataInuse = true
  · rw [if_pos hinuse, if_pos hinuse, hlines hinuse]
    exact congrArg (xrstor_tiledata_state · _ _) hconfig
  · rw [if_neg hinuse, if_neg hinuse]
    exact hconfig

/-- A configured state makes the round trip exactly if it is clean. -/
theorem roundTrips_iff (h : amx.Configured) : RoundTrips amx ↔ Clean amx := by
  have hinuse : amx.tiledataInuse = true ↔ amx.tile_use_tracker ≠ 0 := bne_iff_ne
  constructor
  · intro hrt hzero i j
    have hsame := hrt false ⟨false, false, fun _ => 0, fun _ _ => 0⟩ .clear
    have hdata := hsame.data
    rw [xrstor_xsave h, if_neg fun hu => hinuse.1 hu hzero] at hdata
    exact (congrFun (congrFun hdata i) j).symm
  · intro hclean opt image t
    rw [xrstor_xsave h]
    by_cases hu : amx.tiledataInuse = true
    · rw [if_pos hu]
      have hl := loaded_xrstor_tiledata_state amx.untouched
        (amx.xsave_tiledata_state image.lines) (8 * 16)
      obtain ⟨hpal, hstart, hshape⟩ := hl.config
      refine ⟨hpal, hstart, hshape, ?_, ?_, ?_⟩
      · funext i j
        have hi := i.isLt
        have hj := j.isLt
        have hdiv : Fin.ofNat 8 ((16 * i.val + j.val) / 16) = i := Fin.ext (by
          show (16 * i.val + j.val) / 16 % 8 = i.val
          omega)
        have hmod : Fin.ofNat 16 ((16 * i.val + j.val) % 16) = j := Fin.ext (by
          show (16 * i.val + j.val) % 16 % 16 = j.val
          omega)
        rw [hl.tile, if_pos (by omega), xsave_tiledata_state_eq _ _ (by omega), hdiv, hmod]
      · exact congrArg (· != 0) hpal
      · have htracker := hl.tracker
        rw [if_neg (by norm_num)] at htracker
        rw [hu]
        exact bne_iff_ne.2 htracker
    · rw [if_neg hu]
      have hzero : amx.tile_use_tracker = 0 := not_not.1 fun h => hu (hinuse.2 h)
      refine ⟨rfl, rfl, rfl, ?_, rfl, ?_⟩
      · funext i j
        exact (hclean hzero i j).symm
      · rw [Bool.eq_false_iff.2 hu]
        rfl

end Data

/-! ## Instructions -/

def restart (amx : Amx) : Amx := { amx with start_row := 0 }

def nextRow (amx : Amx) : Amx := { amx with start_row := amx.start_row + 1 }

def setTile (amx : Amx) (tile : Fin 8) (rows : Fin 16 → Row) : Amx :=
  { amx with tile := Function.update amx.tile tile rows }

def tile_valid (amx : Amx) (tile : Fin 8) : Bool := (amx.tilecfg tile).1 != 0

def check_tile (amx : Amx) (tile : Fin 8) : Bool :=
  amx.tile_valid tile && (amx.tilecfg tile).2 &&& 3 == 0

def check_tiles (amx : Amx) (tile_dst tile_src1 tile_src2 : Fin 8) : Bool :=
  let n := (amx.tilecfg tile_dst).2 / 4
  let m := (amx.tilecfg tile_src1).1
  let k := (amx.tilecfg tile_src2).1
  tile_dst != tile_src1 && tile_dst != tile_src2 && tile_src1 != tile_src2 &&
    amx.check_tile tile_dst && amx.check_tile tile_src1 && amx.check_tile tile_src2 &&
    n == (amx.tilecfg tile_src2).2 / 4 && m == (amx.tilecfg tile_dst).1 &&
    k == (amx.tilecfg tile_src1).2 / 4 && decide (n ≤ 16) && decide (k ≤ 16)

def zero_upper_row_data32 (row : Row) (limit : ℕ) : Row := fun i => if i < limit then row i else 0

/-- The loop of `TILELOADD` over `n` rows. -/
def loadRows (amx : Amx) (tile : Fin 8) (data : ℕ → Row) (n : ℕ) : Amx :=
  (List.range n).foldl (fun amx _ => (amx.setRow tile amx.start_row (data amx.start_row)).nextRow)
    amx

/-- `TILELOADD`.  A fault comes in the row after `n` and leaves `part` there. -/
def tileloadd (amx : Amx) (tile : Fin 8) (data : ℕ → Row) (fault : Option (ℕ × Row)) : Amx :=
  let rows := (amx.tilecfg tile).1
  let dword_elements_per_row := (amx.tilecfg tile).2 / 4
  if !amx.check_tile tile then amx
  else if amx.start_row ≥ rows then amx
  else
    let amx := (amx.set_tile_used tile).setTile tile fun row =>
      if row < amx.start_row then zero_upper_row_data32 (amx.tile tile row) dword_elements_per_row
      else 0
    match fault with
    | none => (amx.loadRows tile data (rows - amx.start_row)).restart
    | some (n, part) =>
      let amx := amx.loadRows tile data (min n (rows - 1 - amx.start_row))
      amx.setRow tile amx.start_row part

/-- `TILESTORED`, which only counts rows; a fault comes in the row after `n`. -/
def tilestored (amx : Amx) (tile : Fin 8) (fault : Option ℕ) : Amx :=
  let rows := (amx.tilecfg tile).1
  if !amx.check_tile tile then amx
  else if amx.start_row ≥ rows then amx
  else
    match fault with
    | none => amx.restart
    | some n => { amx with start_row := amx.start_row + min n (rows - 1 - amx.start_row) }

def tilezero (amx : Amx) (tile : Fin 8) : Amx :=
  if !amx.tile_valid tile then amx
  else ((amx.clear_tile_used tile).setTile tile fun _ _ => 0).restart

/-- A dot product into `tile_dst`, whose new rows are `data`. -/
def tdp (amx : Amx) (tile_dst tile_src1 tile_src2 : Fin 8) (data : Fin 16 → Row) : Amx :=
  if !amx.check_tiles tile_dst tile_src1 tile_src2 then amx
  else
    let max_n := (amx.tilecfg tile_dst).2 / 4
    let max_m := (amx.tilecfg tile_dst).1
    ((amx.set_tile_used tile_dst).setTile tile_dst fun row =>
      if row < max_m then zero_upper_row_data32 (data row) max_n else 0).restart

/-- What changes the unit, with what memory and arithmetic give.  An XRSTOR takes one step for each
component that it reaches. -/
inductive AmxOp where
  | ldtilecfg (tilecfg : ZmmWord)
  | tileloadd (tile : Fin 8) (data : ℕ → Row) (fault : Option (ℕ × Row))
  | tilestored (tile : Fin 8) (fault : Option ℕ)
  | tilezero (tile : Fin 8)
  | tilerelease
  | tdp (tile_dst tile_src1 tile_src2 : Fin 8) (data : Fin 16 → Row)
  | readRow
  | xrstor_tilecfg (tilecfg : ZmmWord)
  | xrstor_init_tilecfg
  /-- Component 18, up to a fault when `n` lines are read. -/
  | xrstor_tiledata (lines : Lines) (n : ℕ)
  | xrstor_init_tiledata

def AmxOp.next (amx : Amx) : AmxOp → Amx
  | ldtilecfg w => (amx.configure_tiles w).2
  | tileloadd tile data fault => amx.tileloadd tile data fault
  | tilestored tile fault => amx.tilestored tile fault
  | tilezero tile => amx.tilezero tile
  | tilerelease => .clear
  | tdp dst src1 src2 data => amx.tdp dst src1 src2 data
  | readRow => amx.restart
  | xrstor_tilecfg w => amx.xrstor_tilecfg_state w
  | xrstor_init_tilecfg => .clear
  | xrstor_tiledata lines n => amx.xrstor_tiledata_state lines n
  | xrstor_init_tiledata => amx.xrstor_init_tiledata_state

def amxSystem : System Amx AmxOp where
  enabled _ _ := True
  next := AmxOp.next

/-- A step that leaves no data in a tile while no tile is in use: an XRSTOR that ends in its first
tile has read only zeros there or finds a tile in use, and the last tile in use is not zeroed while
others hold data. -/
def GoodOp (amx : Amx) : AmxOp → Prop
  | .xrstor_tiledata lines n => n < 16 → amx.tile_use_tracker = 0 → ∀ k < n, lines k = fun _ => 0
  | .tilezero tile => amx.tile_valid tile = true →
      (amx.clear_tile_used tile).tile_use_tracker = 0 → ∀ i ≠ tile, ∀ j, amx.tile i j = 0
  | _ => True

section Run

variable {amx t : Amx} {tile : Fin 8}

/-- A configured start row is zero if no tile is configured. -/
theorem Configured.start_row_cases (h : amx.Configured) :
    amx.start_row = 0 ∨ amx.palette_id ≠ 0 ∧ amx.start_row < 256 := by
  by_cases hp : amx.palette_id = 0
  · exact .inl (h.released hp).1
  · exact .inr ⟨hp, h.start_row⟩

theorem Configured.of_config (h : amx.Configured) (hpal : t.palette_id = amx.palette_id)
    (hcfg : t.tilecfg = amx.tilecfg)
    (hstart : t.start_row = 0 ∨ amx.palette_id ≠ 0 ∧ t.start_row < 256) : t.Configured where
  palette := by
    rw [hpal]
    exact h.palette
  released hp := by
    rw [hpal] at hp
    refine ⟨?_, ?_⟩
    · exact hstart.elim id fun h => absurd hp h.1
    · rw [hcfg]
      exact (h.released hp).2
  start_row := by
    rcases hstart with hzero | ⟨-, hlt⟩
    · rw [hzero]
      norm_num
    · exact hlt
  tiles := by
    rw [hcfg]
    exact h.tiles

theorem configured_clear : clear.Configured where
  palette := .inl rfl
  released _ := ⟨rfl, rfl⟩
  start_row := by show 0 < 256; norm_num
  tiles _ := ⟨Nat.zero_le _, Nat.zero_le _, Iff.rfl⟩

theorem clean_clear : Clean .clear := fun _ _ _ => rfl

theorem configured_configure_tiles (h : amx.Configured) (w : ZmmWord) :
    (amx.configure_tiles w).2.Configured := by
  rcases configure_tiles_cases amx w with ⟨-, heq⟩ | ⟨hp, hvalid, heq⟩ | ⟨-, heq⟩
  · rw [heq]
    exact configured_clear
  · rw [heq]
    obtain hzero | ⟨-, -, htiles⟩ := hvalid
    · rw [hp] at hzero
      exact absurd hzero (by decide)
    exact
      { palette := .inr rfl
        released := fun hone => absurd hone one_ne_zero
        start_row := (w 1).toNat_lt
        tiles := fun n => htiles n }
  · rw [heq]
    exact h

theorem clean_configure_tiles (h : Clean amx) (w : ZmmWord) :
    Clean (amx.configure_tiles w).2 := by
  rcases configure_tiles_cases amx w with ⟨-, heq⟩ | ⟨-, -, heq⟩ | ⟨-, heq⟩
  · rw [heq]
    exact clean_clear
  · rw [heq]
    exact fun _ _ _ => rfl
  · rw [heq]
    exact h

/-- Only a configured unit has valid tiles. -/
theorem Configured.palette_of_valid (h : amx.Configured) (tile : Fin 8)
    (hvalid : (amx.tilecfg tile).1 ≠ 0) :
    amx.palette_id ≠ 0 := by
  intro hp
  rw [(h.released hp).2] at hvalid
  exact hvalid rfl

theorem loadRows_fields (amx : Amx) (tile : Fin 8) (data : ℕ → Row) (n : ℕ) :
    (amx.loadRows tile data n).palette_id = amx.palette_id ∧
      (amx.loadRows tile data n).tilecfg = amx.tilecfg ∧
      (amx.loadRows tile data n).tile_use_tracker = amx.tile_use_tracker ∧
      (amx.loadRows tile data n).start_row = amx.start_row + n := by
  unfold loadRows
  refine foldl_range_induction (fun m (t : Amx) => t.palette_id = amx.palette_id ∧
    t.tilecfg = amx.tilecfg ∧ t.tile_use_tracker = amx.tile_use_tracker ∧
    t.start_row = amx.start_row + m) ⟨rfl, rfl, rfl, rfl⟩ ?_
  rintro m t - ⟨hpal, hcfg, htracker, hstart⟩
  exact ⟨hpal, hcfg, htracker, congrArg (· + 1) hstart⟩

/-- A tile load does nothing, or it leaves its tile in use. -/
theorem tileloadd_cases (amx : Amx) (tile : Fin 8) (data : ℕ → Row) (fault : Option (ℕ × Row)) :
    amx.tileloadd tile data fault = amx ∨
      ((amx.tilecfg tile).1 ≠ 0 ∧
        (amx.tileloadd tile data fault).palette_id = amx.palette_id ∧
        (amx.tileloadd tile data fault).tilecfg = amx.tilecfg ∧
        (amx.tileloadd tile data fault).tile_use_tracker ≠ 0 ∧
        (amx.tileloadd tile data fault).start_row ≤ (amx.tilecfg tile).1) := by
  unfold tileloadd
  dsimp only
  split_ifs with hcheck hstart
  · exact .inl rfl
  · exact .inl rfl
  refine .inr ⟨by omega, ?_⟩
  cases fault with
  | none =>
    obtain ⟨hpal, hcfg, htracker, -⟩ := loadRows_fields ((amx.set_tile_used tile).setTile tile
      fun row => if row < amx.start_row
        then zero_upper_row_data32 (amx.tile tile row) ((amx.tilecfg tile).2 / 4) else 0)
      tile data ((amx.tilecfg tile).1 - amx.start_row)
    refine ⟨hpal, hcfg, ?_, Nat.zero_le _⟩
    intro hzero
    exact set_tile_used_ne_zero amx tile.isLt (htracker.symm.trans hzero)
  | some stop =>
    obtain ⟨n, part⟩ := stop
    obtain ⟨hpal, hcfg, htracker, hrow⟩ := loadRows_fields ((amx.set_tile_used tile).setTile tile
      fun row => if row < amx.start_row
        then zero_upper_row_data32 (amx.tile tile row) ((amx.tilecfg tile).2 / 4) else 0)
      tile data (min n ((amx.tilecfg tile).1 - 1 - amx.start_row))
    refine ⟨hpal, hcfg, ?_, ?_⟩
    · intro hzero
      exact set_tile_used_ne_zero amx tile.isLt (htracker.symm.trans hzero)
    · have hle : amx.start_row + min n ((amx.tilecfg tile).1 - 1 - amx.start_row) ≤
          (amx.tilecfg tile).1 := by omega
      exact hrow.le.trans hle

/-- An initialization of the tiles zeroes them all and leaves the configuration. -/
theorem xrstor_init_tiledata_state_fields (amx : Amx) :
    amx.xrstor_init_tiledata_state.palette_id = amx.palette_id ∧
      amx.xrstor_init_tiledata_state.tilecfg = amx.tilecfg ∧
      amx.xrstor_init_tiledata_state.start_row = amx.start_row ∧
      ∀ i j, amx.xrstor_init_tiledata_state.tile i j = 0 := by
  have hloop := foldl_range_induction (n := 8) (s := amx)
    (f := fun amx tile => clear_tile_used { amx with
      tile := Function.update amx.tile (Fin.ofNat 8 tile) fun _ _ => 0 } tile)
    (fun m (t : Amx) => t.palette_id = amx.palette_id ∧ t.tilecfg = amx.tilecfg ∧
      t.start_row = amx.start_row ∧ ∀ i : Fin 8, i < m → ∀ j, t.tile i j = 0)
    ⟨rfl, rfl, rfl, fun _ hi => absurd hi (Nat.not_lt_zero _)⟩
    (by
      rintro m t hm ⟨hpal, hcfg, hstart, hzero⟩
      refine ⟨hpal, hcfg, hstart, fun i hi j => ?_⟩
      show Function.update t.tile (Fin.ofNat 8 m) (fun _ _ => 0) i j = 0
      by_cases him : i = Fin.ofNat 8 m
      · rw [him, Function.update_self]
        rfl
      · rw [Function.update_of_ne him]
        have hne : i.val ≠ m := fun heq => him (Fin.ext (heq.trans (Nat.mod_eq_of_lt hm).symm))
        exact hzero i (by omega) j)
  exact ⟨hloop.1, hloop.2.1, hloop.2.2.1, fun i => hloop.2.2.2 i i.isLt⟩

/-- Every instruction keeps the configuration well formed. -/
theorem Configured.next (h : amx.Configured) (op : AmxOp) : (op.next amx).Configured := by
  cases op with
  | ldtilecfg w => exact configured_configure_tiles h w
  | tileloadd tile data fault =>
    show (amx.tileloadd tile data fault).Configured
    rcases tileloadd_cases amx tile data fault with heq | ⟨hvalid, hpal, hcfg, -, hrow⟩
    · rw [heq]
      exact h
    · have hrows := (h.tiles tile).2.1
      exact h.of_config hpal hcfg (.inr ⟨h.palette_of_valid tile hvalid, by omega⟩)
  | tilestored tile fault =>
    show (amx.tilestored tile fault).Configured
    unfold tilestored
    dsimp only
    split_ifs with hcheck hstart
    · exact h
    · exact h
    cases fault with
    | none => exact h.of_config rfl rfl (.inl rfl)
    | some n =>
      have hrows := (h.tiles tile).2.1
      have hpal : amx.palette_id ≠ 0 := h.palette_of_valid tile (by omega)
      refine h.of_config rfl rfl (.inr ⟨hpal, ?_⟩)
      dsimp only
      omega
  | tilezero tile =>
    show (amx.tilezero tile).Configured
    unfold tilezero
    split_ifs with hvalid
    · exact h
    · exact h.of_config rfl rfl (.inl rfl)
  | tilerelease => exact configured_clear
  | tdp dst src1 src2 data =>
    show (amx.tdp dst src1 src2 data).Configured
    unfold tdp
    split_ifs with hcheck
    · exact h
    · exact h.of_config rfl rfl (.inl rfl)
  | readRow => exact h.of_config rfl rfl (.inl rfl)
  | xrstor_tilecfg w =>
    show (amx.xrstor_tilecfg_state w).Configured
    unfold xrstor_tilecfg_state
    dsimp only
    split_ifs with hok
    · exact configured_configure_tiles h w
    · exact configured_clear
  | xrstor_init_tilecfg => exact configured_clear
  | xrstor_tiledata lines n =>
    obtain ⟨hpal, hstart, hshape⟩ := (loaded_xrstor_tiledata_state amx lines n).config
    refine h.of_config hpal hshape ?_
    show (amx.xrstor_tiledata_state lines n).start_row = 0 ∨ _ ∧
      (amx.xrstor_tiledata_state lines n).start_row < 256
    rw [hstart]
    exact h.start_row_cases
  | xrstor_init_tiledata =>
    obtain ⟨hpal, hcfg, hstart, -⟩ := xrstor_init_tiledata_state_fields amx
    refine h.of_config hpal hcfg ?_
    show amx.xrstor_init_tiledata_state.start_row = 0 ∨ _ ∧
      amx.xrstor_init_tiledata_state.start_row < 256
    rw [hstart]
    exact h.start_row_cases

theorem clean_of_used (h : amx.tile_use_tracker ≠ 0) : Clean amx := fun hzero => absurd hzero h

theorem Clean.tileloadd (h : Clean amx) (tile : Fin 8) (data : ℕ → Row)
    (fault : Option (ℕ × Row)) : Clean (amx.tileloadd tile data fault) := by
  rcases tileloadd_cases amx tile data fault with heq | ⟨-, -, -, hused, -⟩
  · rw [heq]
    exact h
  · exact clean_of_used hused

theorem Clean.tilestored (h : Clean amx) (tile : Fin 8) (fault : Option ℕ) :
    Clean (amx.tilestored tile fault) := by
  unfold Amx.tilestored
  dsimp only
  split_ifs with hcheck hstart
  · exact h
  · exact h
  · cases fault with
    | none => exact h
    | some n => exact h

theorem Clean.tdp (h : Clean amx) (dst src1 src2 : Fin 8) (data : Fin 16 → Row) :
    Clean (amx.tdp dst src1 src2 data) := by
  unfold Amx.tdp
  split_ifs with hcheck
  · exact h
  · exact clean_of_used (set_tile_used_ne_zero amx dst.isLt)

theorem Clean.xrstor_tilecfg (h : Clean amx) (w : ZmmWord) :
    Clean (amx.xrstor_tilecfg_state w) := by
  unfold xrstor_tilecfg_state
  dsimp only
  split_ifs with hok
  · exact clean_configure_tiles h w
  · exact clean_clear

/-- `TILEZERO` zeroes one tile, which is then not in use; the others may still hold data. -/
theorem Clean.tilezero_iff (h : Clean amx) (tile : Fin 8) :
    Clean (amx.tilezero tile) ↔ GoodOp amx (.tilezero tile) := by
  show Clean (amx.tilezero tile) ↔ (amx.tile_valid tile = true → _)
  unfold tilezero
  by_cases hvalid : amx.tile_valid tile = true
  swap
  · rw [if_pos (by rw [Bool.eq_false_iff.2 hvalid]; rfl)]
    exact iff_of_true h fun hv => absurd hv hvalid
  rw [if_neg (by rw [hvalid]; exact Bool.false_ne_true), forall_prop_of_true hvalid]
  refine forall_congr' fun hzero => ?_
  constructor
  · intro hclean i hi j
    have htile := hclean i j
    have hupd : Function.update amx.tile tile (fun _ _ => 0) i j = 0 := htile
    rwa [Function.update_of_ne hi] at hupd
  · intro hothers i j
    show Function.update amx.tile tile (fun _ _ => 0) i j = 0
    by_cases hi : i = tile
    · rw [hi, Function.update_self]
      rfl
    · rw [Function.update_of_ne hi]
      exact hothers i hi j

/-- A restore of the tiles that stops in the first one has called no tile used. -/
theorem Clean.xrstor_tiledata_iff (h : Clean amx) (lines : Lines) (n : ℕ) :
    Clean (amx.xrstor_tiledata_state lines n) ↔ GoodOp amx (.xrstor_tiledata lines n) := by
  show Clean (amx.xrstor_tiledata_state lines n) ↔ (n < 16 → _)
  have hl := loaded_xrstor_tiledata_state amx lines n
  have htracker := hl.tracker
  by_cases hn : n < 16
  swap
  · rw [if_neg hn] at htracker
    exact iff_of_true (clean_of_used htracker) fun h => absurd h hn
  rw [if_pos hn] at htracker
  rw [forall_prop_of_true hn]
  unfold Clean
  rw [htracker]
  refine forall_congr' fun hzero => ?_
  constructor
  · intro hclean k hk
    have hline := hclean 0 ⟨k, by omega⟩
    rw [hl.tile] at hline
    have hpos : 16 * (0 : Fin 8).val + k = k := Nat.zero_add k
    dsimp only at hline
    rw [hpos, if_pos hk] at hline
    exact hline
  · intro hlines i j
    rw [hl.tile]
    by_cases hread : 16 * i.val + j.val < n
    · rw [if_pos hread]
      exact hlines _ hread
    · rw [if_neg hread]
      exact h hzero i j

/-- A step from a clean state leaves one exactly if it is good. -/
theorem clean_next_iff (h : Clean amx) (op : AmxOp) :
    Clean (op.next amx) ↔ GoodOp amx op := by
  cases op with
  | ldtilecfg w => exact iff_of_true (clean_configure_tiles h w) trivial
  | tileloadd tile data fault => exact iff_of_true (h.tileloadd tile data fault) trivial
  | tilestored tile fault => exact iff_of_true (h.tilestored tile fault) trivial
  | tilezero tile => exact h.tilezero_iff tile
  | tilerelease => exact iff_of_true clean_clear trivial
  | tdp dst src1 src2 data => exact iff_of_true (h.tdp dst src1 src2 data) trivial
  | readRow => exact iff_of_true h trivial
  | xrstor_tilecfg w => exact iff_of_true (h.xrstor_tilecfg w) trivial
  | xrstor_init_tilecfg => exact iff_of_true clean_clear trivial
  | xrstor_tiledata lines n => exact h.xrstor_tiledata_iff lines n
  | xrstor_init_tiledata =>
    exact iff_of_true (fun _ => (xrstor_init_tiledata_state_fields amx).2.2.2) trivial

/-- What `LDTILECFG` accepts and `STTILECFG` gives back, and the runs in which every state makes the
round trip through an image. -/
theorem amx_roundTrips (amx : Amx) (w : ZmmWord) (ops : List AmxOp) :
    ((amx.configure_tiles w).1 = true ↔ ValidConfig w) ∧
    ((amx.configure_tiles w).1 = false → (amx.configure_tiles w).2 = amx) ∧
    ((amx.configure_tiles w).1 = true →
      xsave_tilecfg_state (amx.configure_tiles w).2 = if w 0 = 0 then fun _ => 0 else w) ∧
    (amxSystem.Always RoundTrips .clear ops ↔ amxSystem.EachStep GoodOp .clear ops) := by
  obtain ⟨haccept, hreject⟩ := configure_tiles_iff amx w
  refine ⟨haccept, hreject, sttilecfg_configure amx, ?_⟩
  refine System.always_iff_eachStep (fun amx => amx.Configured ∧ Clean amx) GoodOp ?_ ?_ ?_
    ⟨configured_clear, clean_clear⟩ (System.runs_of_enabled (fun _ _ => trivial) _ _)
  · rintro amx ⟨hcfg, hclean⟩
    exact (roundTrips_iff hcfg).2 hclean
  · rintro amx op ⟨hcfg, hclean⟩ - hgood
    exact ⟨hcfg.next op, (clean_next_iff hclean op).2 hgood⟩
  · rintro amx op ⟨hcfg, hclean⟩ - hbad hrt
    exact hbad ((clean_next_iff hclean op).1 ((roundTrips_iff (hcfg.next op)).1 hrt))

/-- One tile of one row of four bytes. -/
def smallConfig : ZmmWord := fun i => if i = 0 ∨ i = 48 then 1 else if i = 16 then 4 else 0

/-- A restore of the tiles that faults after one nonzero row loses that row at the next round
trip. -/
theorem faulted_xrstor_not_roundTrips :
    ¬ RoundTrips (amxSystem.after .clear
      [.ldtilecfg smallConfig, .xrstor_tiledata (fun _ _ => 1) 1]) := by
  intro hrt
  have hdata := (hrt false ⟨false, false, fun _ => 0, fun _ _ => 0⟩ .clear).data
  have hrow := congrFun (congrFun (congrFun hdata 0) 0) 0
  revert hrow
  decide

end Run

end Amx

end Bochs
