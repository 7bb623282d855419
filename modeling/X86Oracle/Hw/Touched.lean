import Mathlib
import X86Oracle.Lib.Words
import X86Oracle.Hw.Layout

/-!
# Written pages on the hardware backends

`write_mem_byte`, `write_mem` and `is_mapped` of `src/kvm.rs` and `src/whp.rs`, which are the same
text in both: a set of page addresses beside the RAM, to which every write of the API adds.

* `Tracked.run`: the events of an oracle's life that may concern the set.  A step changes RAM
  behind its back; reads and queries change nothing and need no event.
* `mem_markRange`: the pages `write_mem` marks, from the page of the first address to the page of
  the address *after* the last.
* `isMapped_iff`: on writes that stay in RAM and do not end a page, the answer is whether a byte of
  the page was stored.
-/

namespace Hw

/-- `addr & !0xFFF`. -/
def pageOf (addr : UInt64) : UInt64 := addr &&& ~~~0xFFF

theorem pageOf_toNat (addr : UInt64) : (pageOf addr).toNat = 2 ^ 12 * (addr.toNat / 2 ^ 12) := by
  rw [pageOf, UInt64.toNat_and]
  exact Words.and_highMask (k := 12) (w := 64) (by norm_num) addr.toNat_lt

theorem pageOf_eq_iff {a b : UInt64} :
    pageOf a = pageOf b ↔ a.toNat / 2 ^ 12 = b.toNat / 2 ^ 12 := by
  rw [← UInt64.toNat_inj, pageOf_toNat, pageOf_toNat]
  omega

/-- The part of the oracle that `is_mapped` is about. -/
structure Tracked where
  ram : GuestRam
  touched : Finset UInt64

namespace Tracked

/-- A new oracle: RAM with the control structures in it, no page written. -/
def fresh (content : Bytes.Store) : Tracked := { ram := .ofContent content, touched := ∅ }

/-- `write_mem_byte`. -/
def writeMemByte (s : Tracked) (addr : UInt64) (byte : UInt8) : Tracked :=
  { ram := s.ram.write addr [byte], touched := insert (pageOf addr) s.touched }

/-- `for page in first..=last { touched.insert(page & !0xFFF) }`, one address after the other. -/
def markRange (first last : UInt64) (touched : Finset UInt64) : Finset UInt64 :=
  (List.range' first.toNat (last.toNat + 1 - first.toNat)).foldl
    (fun touched page => insert (pageOf (UInt64.ofNat page)) touched) touched

/-- `write_mem`; the addition `addr + data.len()` panics if it overflows. -/
def writeMem (s : Tracked) (addr : UInt64) (data : List UInt8) : Option Tracked :=
  if addr.toNat + data.length < 2 ^ 64 then
    some {
      ram := s.ram.write addr data
      touched := markRange (pageOf addr) (pageOf (addr + UInt64.ofNat data.length)) s.touched }
  else none

/-- `is_mapped`. -/
def isMapped (s : Tracked) (addr : UInt64) : Bool := pageOf addr ∈ s.touched

end Tracked

/-- What happens to an oracle, as far as RAM and the set are concerned. -/
inductive MemEvent
  | writeByte (addr : UInt64) (byte : UInt8)
  | write (addr : UInt64) (data : List UInt8)
  | step (content : Bytes.Store)

namespace Tracked

def next (s : Tracked) : MemEvent → Option Tracked
  | .writeByte addr byte => some (s.writeMemByte addr byte)
  | .write addr data => s.writeMem addr data
  | .step content => some { s with ram := .ofContent content }

def run (s : Tracked) (es : List MemEvent) : Option Tracked := es.foldlM next s

end Tracked

/-- The addresses at which an event of the API stores a byte in RAM. -/
def stored : MemEvent → List UInt64
  | .writeByte addr _ => if (GuestRam.ofContent fun _ => 0).inRange addr 1 then [addr] else []
  | .write addr data =>
    if (GuestRam.ofContent fun _ => 0).inRange addr data.length then
      (List.range data.length).map fun i => addr + UInt64.ofNat i
    else []
  | .step _ => []

/-- A write of at least one byte, inside RAM, that does not end on a page boundary. -/
def MemEvent.Plain : MemEvent → Prop
  | .writeByte addr _ => addr.toNat < ramSize.toNat
  | .write addr data => data ≠ [] ∧ addr.toNat + data.length ≤ ramSize.toNat ∧
      (addr.toNat + data.length) % 0x1000 ≠ 0
  | .step _ => True

/-! ## What one event marks -/

section Mark

variable {first last addr a : UInt64} {touched : Finset UInt64} {s s' : Tracked} {e : MemEvent}
  {data : List UInt8}

theorem mem_foldl_insert {f : ℕ → UInt64} {is : List ℕ} {x : UInt64} :
    x ∈ is.foldl (fun t i => insert (f i) t) touched ↔ x ∈ touched ∨ ∃ i ∈ is, x = f i := by
  induction is generalizing touched with
  | nil => simp
  | cons i is ih =>
    rw [List.foldl_cons, ih, Finset.mem_insert]
    simp only [List.mem_cons, exists_eq_or_imp]
    tauto

theorem mem_markRange :
    pageOf a ∈ Tracked.markRange (pageOf first) (pageOf last) touched ↔ pageOf a ∈ touched ∨
      first.toNat / 2 ^ 12 ≤ a.toNat / 2 ^ 12 ∧ a.toNat / 2 ^ 12 ≤ last.toNat / 2 ^ 12 := by
  have hlast := last.toNat_lt
  have ha := a.toNat_lt
  unfold Tracked.markRange
  rw [mem_foldl_insert, pageOf_toNat, pageOf_toNat]
  refine or_congr_right ⟨?_, fun ⟨hlo, hhi⟩ => ?_⟩
  · rintro ⟨i, hi, heq⟩
    rw [List.mem_range'_1] at hi
    rw [pageOf_eq_iff, UInt64.toNat_ofNat'] at heq
    omega
  · refine ⟨2 ^ 12 * (a.toNat / 2 ^ 12), ?_, ?_⟩
    · rw [List.mem_range'_1]
      omega
    · rw [pageOf_eq_iff, UInt64.toNat_ofNat']
      omega

/-- A write in RAM stores in the pages from its first to its last byte. -/
theorem mem_stored_write (hin : (GuestRam.ofContent fun _ => 0).inRange addr data.length = true) :
    (∃ b ∈ stored (.write addr data), pageOf b = pageOf a) ↔ data ≠ [] ∧
      addr.toNat / 2 ^ 12 ≤ a.toNat / 2 ^ 12 ∧
        a.toNat / 2 ^ 12 ≤ (addr.toNat + data.length - 1) / 2 ^ 12 := by
  have hlt := (GuestRam.inRange_iff.1 hin).1
  have haddr (i : ℕ) (hi : i < data.length) : (addr + UInt64.ofNat i).toNat = addr.toNat + i := by
    rw [UInt64.toNat_add, UInt64.toNat_ofNat']
    omega
  rw [stored, if_pos hin]
  simp only [List.mem_map, List.mem_range, exists_exists_and_eq_and, pageOf_eq_iff]
  constructor
  · rintro ⟨i, hi, heq⟩
    rw [haddr i hi] at heq
    refine ⟨fun hnil => ?_, by omega, by omega⟩
    rw [hnil, List.length_nil] at hi
    omega
  · rintro ⟨hne, hlo, hhi⟩
    have hpos : 0 < data.length := List.length_pos_iff.2 hne
    refine ⟨max addr.toNat (2 ^ 12 * (a.toNat / 2 ^ 12)) - addr.toNat, by omega, ?_⟩
    rw [haddr _ (by omega)]
    omega

/-- Every page an event stores in is marked by it, and marks stay. -/
theorem marked_of_stored (h : s.next e = some s')
    (ha : s.isMapped a = true ∨ ∃ b ∈ stored e, pageOf b = pageOf a) : s'.isMapped a = true := by
  cases e with
  | step content =>
    obtain rfl := Option.some.inj h
    rcases ha with ha | ⟨b, hb, -⟩
    · exact ha
    · nomatch hb
  | writeByte addr byte =>
    obtain rfl := Option.some.inj h
    refine decide_eq_true (Finset.mem_insert.2 ?_)
    rcases ha with ha | ⟨b, hb, heq⟩
    · exact .inr (of_decide_eq_true ha)
    · by_cases hin : (GuestRam.ofContent fun _ => 0).inRange addr 1 = true
      · rw [stored, if_pos hin] at hb
        exact .inl (by rw [← heq, List.mem_singleton.1 hb])
      · rw [stored, if_neg hin] at hb
        nomatch hb
  | write addr data =>
    rw [Tracked.next, Tracked.writeMem] at h
    split at h
    · rename_i hfit
      obtain rfl := Option.some.inj h
      have hend : (addr + UInt64.ofNat data.length).toNat = addr.toNat + data.length := by
        rw [UInt64.toNat_add, UInt64.toNat_ofNat']
        omega
      refine decide_eq_true (mem_markRange.2 ?_)
      rcases ha with ha | hb
      · exact .inl (of_decide_eq_true ha)
      · by_cases hin : (GuestRam.ofContent fun _ => 0).inRange addr data.length = true
        · obtain ⟨-, hlo, hhi⟩ := (mem_stored_write hin).1 hb
          exact .inr ⟨hlo, by omega⟩
        · obtain ⟨b, hb, -⟩ := hb
          rw [stored, if_neg hin] at hb
          nomatch hb
    · nomatch h

/-- A plain event succeeds and marks exactly the pages it stores in. -/
theorem next_plain (s : Tracked) (hp : e.Plain) :
    ∃ s', s.next e = some s' ∧ ∀ a, s'.isMapped a = true ↔
      s.isMapped a = true ∨ ∃ b ∈ stored e, pageOf b = pageOf a := by
  cases e with
  | step content =>
    refine ⟨_, rfl, fun a => ?_⟩
    simp [stored, Tracked.isMapped]
  | writeByte addr byte =>
    have haddr : addr.toNat < ramSize.toNat := hp
    have hin : (GuestRam.ofContent fun _ => 0).inRange addr 1 = true := by
      rw [GuestRam.inRange_iff, GuestRam.ofContent_len]
      rw [ramSize_toNat] at haddr ⊢
      omega
    refine ⟨_, rfl, fun a => ?_⟩
    rw [stored, if_pos hin]
    simp only [Tracked.isMapped, Tracked.writeMemByte, Finset.mem_insert, decide_eq_true_eq,
      List.mem_singleton, exists_eq_left]
    rw [or_comm, eq_comm]
  | write addr data =>
    obtain ⟨hne, hle, hend⟩ := hp
    have hpos : 0 < data.length := List.length_pos_iff.2 hne
    rw [ramSize_toNat] at hle
    have hin : (GuestRam.ofContent fun _ => 0).inRange addr data.length = true := by
      rw [GuestRam.inRange_iff, GuestRam.ofContent_len, ramSize_toNat]
      omega
    have hafter : (addr + UInt64.ofNat data.length).toNat = addr.toNat + data.length := by
      rw [UInt64.toNat_add, UInt64.toNat_ofNat']
      omega
    refine ⟨_, if_pos (by omega), fun a => ?_⟩
    rw [mem_stored_write hin]
    simp only [Tracked.isMapped, decide_eq_true_eq, mem_markRange, hafter]
    refine or_congr_right ⟨fun ⟨hlo, hhi⟩ => ⟨hne, hlo, by omega⟩, ?_⟩
    rintro ⟨-, hlo, hhi⟩
    exact ⟨hlo, by omega⟩

end Mark

/-! ## Histories -/

section History

variable {s s' : Tracked} {es : List MemEvent} {a : UInt64}

/-- In any history that does not panic a page with a stored byte is mapped. -/
theorem isMapped_of_stored (hrun : s.run es = some s')
    (ha : s.isMapped a = true ∨ ∃ b ∈ es.flatMap stored, pageOf b = pageOf a) :
    s'.isMapped a = true := by
  induction es generalizing s with
  | nil =>
    obtain rfl := Option.some.inj hrun
    rcases ha with ha | ⟨b, hb, -⟩
    · exact ha
    · nomatch hb
  | cons e es ih =>
    rw [Tracked.run, List.foldlM_cons] at hrun
    obtain ⟨s₁, hnext, hrest⟩ := Option.bind_eq_some_iff.1 hrun
    rw [List.flatMap_cons] at ha
    refine ih hrest ?_
    rcases ha with ha | ⟨b, hb, heq⟩
    · exact .inl (marked_of_stored hnext (.inl ha))
    · rcases List.mem_append.1 hb with hb | hb
      · exact .inl (marked_of_stored hnext (.inr ⟨b, hb, heq⟩))
      · exact .inr ⟨b, hb, heq⟩

/-- In a history of plain events a page is mapped exactly if a byte of it was stored. -/
theorem isMapped_iff (s : Tracked) (h : ∀ e ∈ es, e.Plain) :
    ∃ s', s.run es = some s' ∧ ∀ a, s'.isMapped a = true ↔
      s.isMapped a = true ∨ ∃ b ∈ es.flatMap stored, pageOf b = pageOf a := by
  induction es generalizing s with
  | nil => exact ⟨s, rfl, fun a => by simp⟩
  | cons e es ih =>
    obtain ⟨s₁, hnext, hone⟩ := next_plain s (h e (List.mem_cons_self ..))
    obtain ⟨s', hrun, hrest⟩ := ih s₁ fun e' he' => h e' (List.mem_cons_of_mem _ he')
    refine ⟨s', ?_, fun a => ?_⟩
    · rw [Tracked.run, List.foldlM_cons, hnext]
      exact hrun
    · rw [hrest, hone, List.flatMap_cons]
      simp only [List.mem_append, or_and_right, exists_or, or_assoc]

end History

end Hw
