import Mathlib
import X86Oracle.Hw.Touched

/-!
# Bulk memory calls on the hardware backends

`read_mem` and `write_mem` of `src/kvm.rs` and `src/whp.rs`, beside the loops over single bytes that
the trait gives by default (`src/lib.rs`).  A bulk call decides once for its whole range; a loop
decides for each byte, at addresses that wrap.

* `read_bulk_iff`, `write_bulk_iff`: when the two are the same.
* `bulk_iff`: both, for the RAM of a backend.
-/

namespace Hw

open Bytes

namespace GuestRam

/-- `read_mem_byte`: the buffer of one byte. -/
def readMemByte (ram : GuestRam) (addr : UInt64) : UInt8 := (ram.read addr 1).headD 0

variable {ram : GuestRam} {addr : UInt64} {byte : UInt8}

theorem readMemByte_eq (hlen : ram.len < 2 ^ 64) :
    ram.readMemByte addr = if addr.toNat < ram.len then ram.bytes addr.toNat else 0 := by
  unfold readMemByte read
  by_cases h : addr.toNat < ram.len
  · rw [if_pos h, if_pos (inRange_iff.2 (by omega))]
    rfl
  · rw [if_neg h, if_neg (fun hin => h (by have := (inRange_iff.1 hin).2; omega))]
    rfl

theorem write_one (hlen : ram.len < 2 ^ 64) (x : ℕ) :
    (ram.write addr [byte]).bytes x =
      if addr.toNat = x ∧ x < ram.len then byte else ram.bytes x := by
  by_cases hx : addr.toNat = x
  · subst hx
    unfold write
    simp only [true_and]
    by_cases h : addr.toNat < ram.len
    · rw [if_pos h, if_pos (inRange_iff.2 (by simp only [List.length_singleton]; omega))]
      exact Store.write_of_inside (i := 0) (by simp)
    · rw [if_neg h, if_neg (fun hin => h (by
        have := (inRange_iff.1 hin).2
        simp only [List.length_singleton] at this
        omega))]
  · rw [if_neg (fun h => hx h.1)]
    refine write_of_outside ?_
    simp only [List.length_singleton]
    omega

end GuestRam

namespace Tracked

/-- `read_mem`. -/
def readMem (s : Tracked) (addr : UInt64) (n : ℕ) : List UInt8 := s.ram.read addr n

/-- `read_mem` as the trait has it. -/
def readMemDefault (s : Tracked) (addr : UInt64) (n : ℕ) : List UInt8 :=
  (List.range n).map fun i => s.ram.readMemByte (addr + UInt64.ofNat i)

/-- `write_mem` as the trait has it. -/
def writeMemDefault (s : Tracked) (addr : UInt64) (data : List UInt8) : Tracked :=
  data.zipIdx.foldl (fun s b => s.writeMemByte (addr + UInt64.ofNat b.2) b.1) s

end Tracked

/-- The byte of RAM that the `i`-th byte of a buffer at `addr` belongs to, if there is one. -/
def cell (addr : UInt64) (i : ℕ) : ℕ := (addr + UInt64.ofNat i).toNat

section Bulk

variable {s : Tracked} {addr : UInt64} {n i : ℕ} {data : List UInt8}

theorem cell_of_lt (addr : UInt64) {i : ℕ} (h : addr.toNat + i < 2 ^ 64) :
    cell addr i = addr.toNat + i := by
  rw [cell, UInt64.toNat_add, UInt64.toNat_ofNat']
  omega

/-! ## Reading -/

/-- A bulk read is the loop where its range is in RAM, or where the bytes in RAM are zero. -/
theorem read_bulk_iff (hlen : s.ram.len < 2 ^ 64) :
    s.readMem addr n = s.readMemDefault addr n ↔ addr.toNat + n ≤ s.ram.len ∨
      ∀ i < n, cell addr i < s.ram.len → s.ram.bytes (cell addr i) = 0 := by
  unfold Tracked.readMem Tracked.readMemDefault GuestRam.read
  simp only [GuestRam.readMemByte_eq hlen]
  by_cases hin : addr.toNat + n ≤ s.ram.len
  · rw [if_pos (GuestRam.inRange_iff.2 ⟨by omega, hin⟩)]
    refine iff_of_true (List.map_congr_left fun i hi => ?_) (.inl hin)
    have hcell := cell_of_lt addr (i := i) (by have := List.mem_range.1 hi; omega)
    have hlt := List.mem_range.1 hi
    unfold cell at hcell
    rw [hcell, if_pos (by omega)]
  · have hzero : List.replicate n (0 : UInt8) = (List.range n).map fun _ => 0 := by
      rw [List.map_const', List.length_range]
    rw [if_neg (fun h => hin (GuestRam.inRange_iff.1 h).2), or_iff_right hin, hzero,
      List.map_inj_left]
    refine forall_congr' fun i => imp_congr List.mem_range ?_
    change 0 = (if cell addr i < s.ram.len then s.ram.bytes (cell addr i) else 0) ↔ _
    split_ifs with hcell
    · exact ⟨fun h _ => h.symm, fun h => (h hcell).symm⟩
    · exact ⟨fun _ h => absurd h hcell, fun _ => rfl⟩

/-! ## Writing -/

/-- What the loop leaves, from the `k`-th byte of the buffer on. -/
theorem bytes_foldl_writeMemByte (hlen : s.ram.len < 2 ^ 64) (k : ℕ)
    (hend : addr.toNat + k + data.length < 2 ^ 64) (x : ℕ) :
    ((data.zipIdx k).foldl (fun s b => s.writeMemByte (addr + UInt64.ofNat b.2) b.1) s).ram.bytes x
      = if x < s.ram.len then s.ram.bytes.write (addr.toNat + k) data x else s.ram.bytes x := by
  induction data generalizing s k with
  | nil =>
    have hnil : s.ram.bytes.write (addr.toNat + k) [] x = s.ram.bytes x :=
      Store.write_of_outside (by simp only [List.length_nil]; omega)
    rw [hnil, ite_self]
    rfl
  | cons byte data ih =>
    rw [List.length_cons] at hend
    have hlen' : (s.writeMemByte (addr + UInt64.ofNat k) byte).ram.len = s.ram.len :=
      GuestRam.write_len ..
    have hone (x : ℕ) : (s.writeMemByte (addr + UInt64.ofNat k) byte).ram.bytes x =
        if addr.toNat + k = x ∧ x < s.ram.len then byte else s.ram.bytes x := by
      have hcell := cell_of_lt addr (i := k) (by omega)
      unfold cell at hcell
      rw [← hcell]
      exact GuestRam.write_one hlen x
    rw [List.zipIdx_cons, List.foldl_cons, ih (hlen' ▸ hlen) (k + 1) (by omega), hlen']
    split_ifs with hx
    · rw [Store.write_cons]
      refine Store.write_congr ?_
      rw [hone]
      by_cases hhead : addr.toNat + k = x
      · rw [if_pos ⟨hhead, hx⟩, ← hhead, Function.update_self]
      · rw [if_neg (fun h => hhead h.1), Function.update_of_ne (Ne.symm hhead)]
    · rw [hone, if_neg (fun h => hx h.2)]

theorem bytes_writeMemDefault (hlen : s.ram.len < 2 ^ 64)
    (hend : addr.toNat + data.length < 2 ^ 64) (x : ℕ) :
    (s.writeMemDefault addr data).ram.bytes x =
      if x < s.ram.len then s.ram.bytes.write addr.toNat data x else s.ram.bytes x :=
  bytes_foldl_writeMemByte hlen 0 (by omega) x

/-- A bulk write is the loop where its range ends in the address space, and is in RAM or changes
nothing there. -/
theorem write_bulk_iff (hlen : s.ram.len < 2 ^ 64) :
    (∃ t, s.writeMem addr data = some t ∧
        t.ram.bytes = (s.writeMemDefault addr data).ram.bytes) ↔
      addr.toNat + data.length < 2 ^ 64 ∧ (addr.toNat + data.length ≤ s.ram.len ∨
        ∀ i (hi : i < data.length), cell addr i < s.ram.len →
          s.ram.bytes (cell addr i) = data[i]) := by
  by_cases hend : addr.toNat + data.length < 2 ^ 64
  · have hsome : s.writeMem addr data = some
        { ram := s.ram.write addr data
          touched := Tracked.markRange (pageOf addr) (pageOf (addr + UInt64.ofNat data.length))
            s.touched } := if_pos hend
    have hleaves := bytes_writeMemDefault hlen hend
    rw [hsome, and_iff_right hend]
    simp only [Option.some.injEq, exists_eq_left', GuestRam.write]
    by_cases hin : addr.toNat + data.length ≤ s.ram.len
    · rw [if_pos (GuestRam.inRange_iff.2 ⟨hend, hin⟩)]
      refine iff_of_true (funext fun x => ?_) (.inl hin)
      rw [hleaves]
      split_ifs with hx
      · rfl
      · exact Store.write_of_outside (by omega)
    · rw [if_neg (fun h => hin (GuestRam.inRange_iff.1 h).2), or_iff_right hin]
      constructor
      · intro heq i hi hram
        have hcell := cell_of_lt addr (i := i) (by omega)
        rw [heq, hleaves, if_pos hram, hcell, Store.write_of_inside hi]
      · intro hsame
        funext x
        rw [hleaves]
        split_ifs with hx
        · by_cases hout : x < addr.toNat ∨ addr.toNat + data.length ≤ x
          · rw [Store.write_of_outside hout]
          · obtain ⟨i, rfl⟩ : ∃ i, x = addr.toNat + i := ⟨x - addr.toNat, by omega⟩
            have hi : i < data.length := by omega
            have hcell := cell_of_lt addr (i := i) (by omega)
            rw [Store.write_of_inside hi, ← hsame i hi (by rw [hcell]; exact hx), hcell]
        · rfl
  · have hnone : s.writeMem addr data = none := if_neg hend
    rw [hnone]
    refine iff_of_false ?_ fun h => hend h.1
    rintro ⟨t, ht, -⟩
    exact Option.some_ne_none t ht.symm

end Bulk

/-- **Bulk calls and the default loops**, for any content of the RAM of a backend.  They read the
same exactly if the range is in RAM or covers zeros only; and a bulk write does what the loop does
exactly if its end is an address, and the range is in RAM or the RAM it covers keeps its bytes. -/
theorem bulk_iff (content : Store) (touched : Finset UInt64) (addr : UInt64) (n : ℕ)
    (data : List UInt8) :
    let s : Tracked := { ram := .ofContent content, touched }
    (s.readMem addr n = s.readMemDefault addr n ↔ addr.toNat + n ≤ ramSize.toNat ∨
      ∀ i < n, cell addr i < ramSize.toNat → content (cell addr i) = 0) ∧
    ((∃ t, s.writeMem addr data = some t ∧
        t.ram.bytes = (s.writeMemDefault addr data).ram.bytes) ↔
      addr.toNat + data.length < 2 ^ 64 ∧ (addr.toNat + data.length ≤ ramSize.toNat ∨
        ∀ i (hi : i < data.length), cell addr i < ramSize.toNat →
          content (cell addr i) = data[i])) :=
  ⟨read_bulk_iff ramSize.toNat_lt, write_bulk_iff ramSize.toNat_lt⟩

/-- Two bytes that start with the last of RAM: the loop stores the first, the bulk call neither. -/
theorem bulk_differs :
    ¬ ∀ (content : Store) (addr : UInt64) (data : List UInt8),
      ∃ t, Tracked.writeMem { ram := .ofContent content, touched := ∅ } addr data = some t ∧
        t.ram.bytes =
          (Tracked.writeMemDefault { ram := .ofContent content, touched := ∅ } addr data).ram.bytes
    := by
  intro h
  have hsame := ((write_bulk_iff (s := { ram := .ofContent fun _ => 0, touched := ∅ })
    ramSize.toNat_lt).1 (h (fun _ => 0) 0xFFFFFFF [1, 2])).2
  rcases hsame with hin | hzero
  · exact absurd hin (by decide)
  · exact absurd (hzero 0 (by decide) (by decide)) (by decide)

end Hw
