import Mathlib
import X86Oracle.Lib.Bytes
import X86Oracle.Lib.Words

/-!
# Sparse guest memory

`GuestMemory` of `csrc/bochs_shim.cpp`: a map from guest physical page to a 4 KiB host page,
allocated and zero-filled on first touch.

`GuestMemory.store` is the byte store it stands for, and an access that stays inside a page is
the access on that store: `read_eq` and `store_write`.
-/

namespace Bochs

open Bytes

def pgSize : UInt64 := 0x1000
def pgMask : UInt64 := ~~~(pgSize - 1)

/-- Bochs' physical addresses are 52-bit. -/
def phyMask : UInt64 := 0x000FFFFFFFFFFFFF

/-- The page map.  A page is its bytes by offset. -/
structure GuestMemory where
  pages : UInt64 → Option Store

namespace GuestMemory

def empty : GuestMemory := { pages := fun _ => none }

/-- The page an address is in; 52 bits of it count. -/
def key (gpa : UInt64) : UInt64 := (gpa &&& phyMask) &&& pgMask

def offset (gpa : UInt64) : ℕ := ((gpa &&& phyMask) &&& (pgSize - 1)).toNat

/-- `page(gpa, true)`: the page, allocated and zero-filled if it was absent. -/
def page (mem : GuestMemory) (gpa : UInt64) : Store :=
  (mem.pages (key gpa)).getD fun _ => 0

/-- `x86oracle_bochs_is_mapped`: the page was touched before. -/
def mapped (mem : GuestMemory) (gpa : UInt64) : Bool := (mem.pages (key gpa)).isSome

/-- Within one page; a page never touched reads as zero. -/
def read (mem : GuestMemory) (gpa : UInt64) (len : ℕ) : List UInt8 :=
  match mem.pages (key gpa) with
  | none => List.replicate len 0
  | some p => p.read (offset gpa) len

def write (mem : GuestMemory) (gpa : UInt64) (src : List UInt8) : GuestMemory :=
  { pages := fun k =>
      if k = key gpa then some ((mem.page gpa).write (offset gpa) src) else mem.pages k }

/-- An 8-byte value, as the shim writes its page-table entries. -/
def write64 (mem : GuestMemory) (gpa value : UInt64) : GuestMemory :=
  mem.write gpa (leBytes 8 value.toNat)

def read64 (mem : GuestMemory) (gpa : UInt64) : UInt64 :=
  UInt64.ofNat (leValue (mem.read gpa 8))

/-! ## The byte store -/

/-- The byte store the page map stands for, on the 52-bit physical addresses. -/
def store (mem : GuestMemory) : Store := fun x =>
  if x < 2 ^ 52 then mem.page (UInt64.ofNat x) (offset (UInt64.ofNat x)) else 0

theorem phys_toNat (gpa : UInt64) : (gpa &&& phyMask).toNat = gpa.toNat % 2 ^ 52 := by
  rw [UInt64.toNat_and]
  exact Nat.and_two_pow_sub_one_eq_mod gpa.toNat 52

theorem key_toNat (gpa : UInt64) : (key gpa).toNat = 2 ^ 12 * (gpa.toNat % 2 ^ 52 / 2 ^ 12) := by
  have hlt : gpa.toNat % 2 ^ 52 < 2 ^ 64 := by omega
  rw [key, UInt64.toNat_and, phys_toNat]
  exact Words.and_highMask (k := 12) (w := 64) (by norm_num) hlt

theorem offset_eq (gpa : UInt64) : offset gpa = gpa.toNat % 2 ^ 12 := by
  rw [offset, UInt64.toNat_and, phys_toNat]
  have hmask := Nat.and_two_pow_sub_one_eq_mod (gpa.toNat % 2 ^ 52) 12
  rw [show (pgSize - 1).toNat = 2 ^ 12 - 1 from rfl, hmask]
  omega

/-- Two addresses share a page if they agree above the offset, up to bit 52. -/
theorem key_eq_iff {a b : UInt64} :
    key a = key b ↔ a.toNat % 2 ^ 52 / 2 ^ 12 = b.toNat % 2 ^ 52 / 2 ^ 12 := by
  rw [← UInt64.toNat_inj, key_toNat, key_toNat]
  omega

@[simp] theorem store_empty : empty.store = fun _ => 0 := by
  funext x
  simp [store, page, empty]

/-- Addresses of one page share their key and differ in their offset. -/
theorem store_of_page {mem : GuestMemory} {gpa : UInt64} {i : ℕ}
    (h : offset gpa + i < 2 ^ 12) :
    mem.store (gpa.toNat % 2 ^ 52 + i) = mem.page gpa (offset gpa + i) := by
  rw [offset_eq] at h ⊢
  have hlt : gpa.toNat % 2 ^ 52 + i < 2 ^ 52 := by omega
  have hnat : (UInt64.ofNat (gpa.toNat % 2 ^ 52 + i)).toNat = gpa.toNat % 2 ^ 52 + i := by
    rw [UInt64.toNat_ofNat']
    omega
  have hkey : key (UInt64.ofNat (gpa.toNat % 2 ^ 52 + i)) = key gpa := by
    rw [key_eq_iff, hnat]
    omega
  have hoff : offset (UInt64.ofNat (gpa.toNat % 2 ^ 52 + i)) = gpa.toNat % 2 ^ 12 + i := by
    rw [offset_eq, hnat]
    omega
  rw [store, if_pos hlt, page, page, hkey, hoff]

/-- A read inside one page reads the store. -/
theorem read_eq {mem : GuestMemory} {gpa : UInt64} {len : ℕ} (h : offset gpa + len ≤ 2 ^ 12) :
    mem.read gpa len = mem.store.read (gpa.toNat % 2 ^ 52) len := by
  have hpage : mem.read gpa len = (mem.page gpa).read (offset gpa) len := by
    rw [read, page]
    cases mem.pages (key gpa) with
    | none =>
      rw [Option.getD_none]
      exact (List.eq_replicate_iff.2 ⟨Store.read_length .., by simp [Store.read]⟩).symm
    | some p => rfl
  rw [hpage]
  apply List.map_congr_left
  intro i hi
  exact (store_of_page (by have := List.mem_range.1 hi; omega)).symm

/-- A write inside one page writes the store. -/
theorem store_write {mem : GuestMemory} {gpa : UInt64} {src : List UInt8}
    (h : offset gpa + src.length ≤ 2 ^ 12) :
    (mem.write gpa src).store = mem.store.write (gpa.toNat % 2 ^ 52) src := by
  funext x
  have hoff := offset_eq gpa
  by_cases hx : x < 2 ^ 52
  · have hnat : (UInt64.ofNat x).toNat = x := by
      rw [UInt64.toNat_ofNat']
      omega
    have hoffx : offset (UInt64.ofNat x) = x % 2 ^ 12 := by rw [offset_eq, hnat]
    rw [store, if_pos hx]
    by_cases hkey : key (UInt64.ofNat x) = key gpa
    · have hpage : (mem.write gpa src).page (UInt64.ofNat x) =
          (mem.page gpa).write (offset gpa) src := by
        simp only [page, write, hkey, if_true, Option.getD_some]
      have hsame := key_eq_iff.1 hkey
      rw [hnat] at hsame
      rw [hpage, hoffx]
      by_cases hin : gpa.toNat % 2 ^ 52 ≤ x ∧ x < gpa.toNat % 2 ^ 52 + src.length
      · obtain ⟨i, rfl⟩ := Nat.exists_eq_add_of_le hin.1
        have hmod : (gpa.toNat % 2 ^ 52 + i) % 2 ^ 12 = offset gpa + i := by omega
        rw [Store.write_of_inside (by omega), hmod, Store.write_of_inside (by omega)]
      · rw [Store.write_of_outside (by omega), Store.write_of_outside (by omega), store,
          if_pos hx, hoffx, page, page, hkey]
    · have hpage : (mem.write gpa src).page (UInt64.ofNat x) = mem.page (UInt64.ofNat x) := by
        simp only [page, write, hkey, if_false]
      have hdiff := mt key_eq_iff.2 hkey
      rw [hnat] at hdiff
      rw [hpage, Store.write_of_outside (by omega), store, if_pos hx]
  · rw [store, if_neg hx, Store.write_of_outside (by omega), store, if_neg hx]

/-- The same for an aligned 8-byte write to a physical address. -/
theorem store_write64 {mem : GuestMemory} {gpa value : UInt64} {x : ℕ} (hx : gpa.toNat = x)
    (hlt : x < 2 ^ 52) (halign : x % 8 = 0) :
    (mem.write64 gpa value).store = mem.store.writeLe 8 x value.toNat := by
  have hoff := offset_eq gpa
  rw [write64, store_write (by rw [leBytes_length]; omega), hx, Nat.mod_eq_of_lt hlt]
  rfl

theorem read64_toNat {mem : GuestMemory} {gpa : UInt64} {x : ℕ} (hx : gpa.toNat = x)
    (hlt : x < 2 ^ 52) (halign : x % 8 = 0) : (mem.read64 gpa).toNat = mem.store.readLe 8 x := by
  have hoff := offset_eq gpa
  have hbound := mem.store.readLe_lt 8 x
  rw [read64, read_eq (by omega), hx, Nat.mod_eq_of_lt hlt, UInt64.toNat_ofNat', ← Store.readLe]
  exact Nat.mod_eq_of_lt (by simpa using hbound)

end GuestMemory

end Bochs
