import Mathlib

/-!
# Four-level paging

The page walk of an x86 processor in 64-bit mode over an arbitrary quadword reader, with the
paging-structure entries as plain numbers.  Both address spaces of the project (the hardware
backends' and the Bochs one) are laid out as 2 MiB pages, so the rules of use are

* `walk_page2M`, for an address whose three entries are present down to a 2 MiB leaf;
* `walk_pml4_absent`, `walk_pdpt_absent` and `walk_pd_absent`, for the three ways to be unmapped;
* `testBit_base_add`, `frame4K_base_add` and `frame2M_base_add`, which decode an entry written as
  an aligned base plus low flag bits.
-/

namespace Paging

/-! ## Entries -/

/-- Bit 0: the entry is valid. -/
def present (e : ℕ) : Bool := e.testBit 0

/-- Bit 1: writes are allowed. -/
def writable (e : ℕ) : Bool := e.testBit 1

/-- Bit 2: user-mode accesses are allowed. -/
def user (e : ℕ) : Bool := e.testBit 2

/-- Bit 6 of a leaf: the page has been written. -/
def dirty (e : ℕ) : Bool := e.testBit 6

/-- Bit 7 above the last level: the entry maps a page instead of naming a table. -/
def pageSize (e : ℕ) : Bool := e.testBit 7

/-- Bits 51:12, the table or the 4 KiB page an entry points at. -/
def frame4K (e : ℕ) : ℕ := 2 ^ 12 * (e / 2 ^ 12 % 2 ^ 40)

/-- Bits 51:21, the 2 MiB page a page-directory leaf points at. -/
def frame2M (e : ℕ) : ℕ := 2 ^ 21 * (e / 2 ^ 21 % 2 ^ 31)

/-- Bits 51:30, the 1 GiB page a page-directory-pointer leaf points at. -/
def frame1G (e : ℕ) : ℕ := 2 ^ 30 * (e / 2 ^ 30 % 2 ^ 22)

/-- An entry written as an aligned base plus flags: the flag bits are those of the flags. -/
theorem testBit_base_add {m k f i : ℕ} (hf : f < 2 ^ m) (hi : i < m) :
    (2 ^ m * k + f).testBit i = f.testBit i := by
  rw [Nat.testBit_two_pow_mul_add k hf, if_pos hi]

theorem frame4K_base_add {k f : ℕ} (hf : f < 2 ^ 12) (hk : k < 2 ^ 40) :
    frame4K (2 ^ 12 * k + f) = 2 ^ 12 * k := by
  rw [frame4K]
  omega

theorem frame2M_base_add {k f : ℕ} (hf : f < 2 ^ 12) (hk : k < 2 ^ 31) :
    frame2M (2 ^ 21 * k + f) = 2 ^ 21 * k := by
  rw [frame2M]
  omega

/-! ## The walk -/

/-- A 48-bit linear address, sign-extended to 64 bits. -/
def Canonical (la : UInt64) : Prop := la.toNat < 2 ^ 47 ∨ 2 ^ 64 - 2 ^ 47 ≤ la.toNat

/-- The nine address bits that index the table of a level, counted from 0 at the last level. -/
def index (level la : ℕ) : ℕ := la / 2 ^ (12 + 9 * level) % 2 ^ 9

theorem index_lt (level la : ℕ) : index level la < 2 ^ 9 :=
  Nat.mod_lt _ (by norm_num)

/-- What a walk that reaches a page found: the physical address and the access rights. -/
structure Translation where
  phys : ℕ
  /-- `R/W` of every entry above the leaf. -/
  tablesWritable : Bool
  /-- `R/W` of the leaf. -/
  leafWritable : Bool
  /-- `U/S` of every entry, the leaf included. -/
  user : Bool
  /-- `D` of the leaf. -/
  dirty : Bool
deriving DecidableEq, Repr

namespace Translation

/-- Ordinary stores are allowed. -/
def writable (t : Translation) : Bool := t.tablesWritable && t.leafWritable

/-- The shadow-stack encoding: dirty and read-only in the leaf, writable in every table above. -/
def shadowStack (t : Translation) : Bool := t.tablesWritable && !t.leafWritable && t.dirty

end Translation

/-- The outcome of a walk. -/
inductive Walk where
  | notPresent
  | reserved
  | page (t : Translation)
deriving DecidableEq, Repr

/-- Walk from `cr3` for the linear address `la`, reading entries through `read`. -/
def walk (read : ℕ → ℕ) (cr3 la : ℕ) : Walk :=
  let pml4e := read (frame4K cr3 + 8 * index 3 la)
  if !present pml4e then .notPresent
  else if pageSize pml4e then .reserved
  else
    let pdpte := read (frame4K pml4e + 8 * index 2 la)
    if !present pdpte then .notPresent
    else if pageSize pdpte then
      -- bits 29:13 of a 1 GiB leaf are reserved
      if pdpte / 2 ^ 13 % 2 ^ 17 ≠ 0 then .reserved
      else .page
        { phys := frame1G pdpte + la % 2 ^ 30
          tablesWritable := writable pml4e
          leafWritable := writable pdpte
          user := user pml4e && user pdpte
          dirty := dirty pdpte }
    else
      let pde := read (frame4K pdpte + 8 * index 1 la)
      if !present pde then .notPresent
      else if pageSize pde then
        -- bits 20:13 of a 2 MiB leaf are reserved
        if pde / 2 ^ 13 % 2 ^ 8 ≠ 0 then .reserved
        else .page
          { phys := frame2M pde + la % 2 ^ 21
            tablesWritable := writable pml4e && writable pdpte
            leafWritable := writable pde
            user := user pml4e && user pdpte && user pde
            dirty := dirty pde }
      else
        let pte := read (frame4K pde + 8 * index 0 la)
        if !present pte then .notPresent
        else .page
          { phys := frame4K pte + la % 2 ^ 12
            tablesWritable := writable pml4e && writable pdpte && writable pde
            leafWritable := writable pte
            user := user pml4e && user pdpte && user pde && user pte
            dirty := dirty pte }

/-! ## Rules -/

/-- The entry points to the table at frame `k`, with flag bits `f`. -/
structure TablePtr (e k f : ℕ) : Prop where
  eq : e = 2 ^ 12 * k + f
  flags_lt : f < 2 ^ 12
  frame_lt : k < 2 ^ 40
  present : present f = true
  table : pageSize f = false

/-- The entry maps the 2 MiB frame `k`, with flag bits `f`. -/
structure LargePage (e k f : ℕ) : Prop where
  eq : e = 2 ^ 21 * k + f
  flags_lt : f < 2 ^ 12
  frame_lt : k < 2 ^ 31
  present : present f = true
  large : pageSize f = true

namespace TablePtr

variable {e k f : ℕ}

theorem testBit (h : TablePtr e k f) {i : ℕ} (hi : i < 12) : e.testBit i = f.testBit i := by
  rw [h.eq, testBit_base_add h.flags_lt hi]

theorem frame (h : TablePtr e k f) : frame4K e = 2 ^ 12 * k := by
  rw [h.eq, frame4K_base_add h.flags_lt h.frame_lt]

theorem present_entry (h : TablePtr e k f) : Paging.present e = true := by
  rw [Paging.present, h.testBit (by norm_num), ← Paging.present, h.present]

theorem pageSize_entry (h : TablePtr e k f) : pageSize e = false := by
  rw [pageSize, h.testBit (by norm_num), ← pageSize, h.table]

theorem writable_entry (h : TablePtr e k f) : writable e = writable f := h.testBit (by norm_num)

theorem user_entry (h : TablePtr e k f) : user e = user f := h.testBit (by norm_num)

end TablePtr

namespace LargePage

variable {e k f : ℕ}

theorem testBit (h : LargePage e k f) {i : ℕ} (hi : i < 12) : e.testBit i = f.testBit i := by
  rw [h.eq, testBit_base_add (h.flags_lt.trans (by norm_num)) (hi.trans (by norm_num))]

theorem frame (h : LargePage e k f) : frame2M e = 2 ^ 21 * k := by
  rw [h.eq, frame2M_base_add h.flags_lt h.frame_lt]

theorem present_entry (h : LargePage e k f) : Paging.present e = true := by
  rw [Paging.present, h.testBit (by norm_num), ← Paging.present, h.present]

theorem pageSize_entry (h : LargePage e k f) : pageSize e = true := by
  rw [pageSize, h.testBit (by norm_num), ← pageSize, h.large]

theorem reserved_clear (h : LargePage e k f) : e / 2 ^ 13 % 2 ^ 8 = 0 := by
  have := h.eq
  have := h.flags_lt
  omega

theorem writable_entry (h : LargePage e k f) : writable e = writable f := h.testBit (by norm_num)

theorem user_entry (h : LargePage e k f) : user e = user f := h.testBit (by norm_num)

theorem dirty_entry (h : LargePage e k f) : dirty e = dirty f := h.testBit (by norm_num)

end LargePage

section Rules

variable {read : ℕ → ℕ} {cr3 la k4 f4 k3 f3 k2 f2 : ℕ}

theorem walk_pml4_absent (h4 : present (read (frame4K cr3 + 8 * index 3 la)) = false) :
    walk read cr3 la = .notPresent := by
  simp only [walk, h4, Bool.not_false, if_true]

theorem walk_pdpt_absent (h4 : TablePtr (read (frame4K cr3 + 8 * index 3 la)) k4 f4)
    (h3 : present (read (2 ^ 12 * k4 + 8 * index 2 la)) = false) :
    walk read cr3 la = .notPresent := by
  simp only [walk, h4.present_entry, h4.pageSize_entry, h4.frame, h3, Bool.not_true,
    Bool.not_false, Bool.false_eq_true, if_false, if_true]

theorem walk_pd_absent (h4 : TablePtr (read (frame4K cr3 + 8 * index 3 la)) k4 f4)
    (h3 : TablePtr (read (2 ^ 12 * k4 + 8 * index 2 la)) k3 f3)
    (h2 : present (read (2 ^ 12 * k3 + 8 * index 1 la)) = false) :
    walk read cr3 la = .notPresent := by
  simp only [walk, h4.present_entry, h4.pageSize_entry, h4.frame, h3.present_entry,
    h3.pageSize_entry, h3.frame, h2, Bool.not_true, Bool.not_false, Bool.false_eq_true, if_false,
    if_true]

/-- A walk through two tables to a 2 MiB leaf. -/
theorem walk_page2M (h4 : TablePtr (read (frame4K cr3 + 8 * index 3 la)) k4 f4)
    (h3 : TablePtr (read (2 ^ 12 * k4 + 8 * index 2 la)) k3 f3)
    (h2 : LargePage (read (2 ^ 12 * k3 + 8 * index 1 la)) k2 f2) :
    walk read cr3 la = .page
      { phys := 2 ^ 21 * k2 + la % 2 ^ 21
        tablesWritable := writable f4 && writable f3
        leafWritable := writable f2
        user := user f4 && user f3 && user f2
        dirty := dirty f2 } := by
  simp only [walk, h4.present_entry, h4.pageSize_entry, h4.frame, h3.present_entry,
    h3.pageSize_entry, h3.frame, h2.present_entry, h2.pageSize_entry, h2.frame,
    h2.reserved_clear, h4.writable_entry, h4.user_entry, h3.writable_entry, h3.user_entry,
    h2.writable_entry, h2.user_entry, h2.dirty_entry, Bool.not_true, Bool.false_eq_true,
    if_false, if_true, ne_eq, not_true_eq_false]

end Rules

end Paging
