import Mathlib
import X86Oracle.Bochs.HostMemory

/-!
# The trace cache

`bxICache_c` and `bxPageWriteStampTable` of `cpu/icache.h`, kept honest by `handleSMC`, and the
shim's `invalidate_decoded` in front of them.  A trace is filed under a hash of its physical address
and the fetch mode; it covers lines of 128 bytes of its page, and its page's stamp has a bit for
each of them.  A trace whose first instruction crosses into a second page is listed in
`pageSplitIndex` besides.

* `walk_reaches`: the walk of `handleSMC` comes past every index a trace that covers a written line
  can be filed under.
* `handleSMC_spec`: what it drops: the traces its walk hits and every listed page-crossing one.
-/

namespace Bochs

/-! ## Addresses and lines -/

/-- `BX_ICACHE_INVALID_PHY_ADDRESS`. -/
def invalidPhyAddress : UInt64 := 0xFFFFFFFFFFFFFFFF

/-- `bxPageWriteStampTable::hash`: `((Bit32u) pAddr) >> 12`. -/
def stampHash (pAddr : UInt64) : ℕ := pAddr.toNat % 2 ^ 32 / 2 ^ 12

/-- `PAGE_OFFSET((Bit32u) pAddr)`. -/
def pageOffset (pAddr : UInt64) : ℕ := pAddr.toNat % 2 ^ 12

/-- The 128-byte line of a page. -/
def lineOf (pAddr : UInt64) : ℕ := pageOffset pAddr / 128

def bxICacheEntries : ℕ := 64 * 1024
def bxICacheMemPool : ℕ := 576 * 1024
def bxMaxTraceLength : ℕ := 32

/-- `bxICache_c::hash`. -/
def icacheHash (pAddr : UInt64) (fetchModeMask : ℕ) : ℕ :=
  (pAddr.toNat &&& (bxICacheEntries - 1)) ^^^ fetchModeMask

/-- `LPFOf`. -/
def lpfOf (pAddr : UInt64) : UInt64 := pAddr &&& ~~~0xFFF

/-! ## The cache -/

/-- `bxICacheEntry_c`.  The decoded instructions are left out; what they were decoded from is kept,
which the code does not store: `size` bytes from `pAddr` on, and the begin of a second page when
the instruction crosses into one. -/
structure Trace where
  pAddr : UInt64
  traceMask : BitVec 32
  tlen : ℕ
  size : ℕ
  crosses : Option UInt64

def Trace.live (e : Trace) : Bool := e.pAddr != invalidPhyAddress

/-- A slot of `pageSplitIndex`. -/
structure PageSplit where
  ppf : UInt64
  e : ℕ

structure ICache where
  entry : ℕ → Trace
  mpindex : ℕ
  traceLinkTimeStamp : BitVec 32
  pageSplitIndex : ℕ → PageSplit
  nextPageSplitIndex : ℕ

namespace ICache

/-- `flushICacheEntries`. -/
def flushICacheEntries (c : ICache) : ICache where
  entry i := { c.entry i with pAddr := invalidPhyAddress, traceMask := 0 }
  mpindex := 0
  traceLinkTimeStamp := 0
  pageSplitIndex k := { c.pageSplitIndex k with ppf := invalidPhyAddress }
  nextPageSplitIndex := 0

def setEntry (c : ICache) (i : ℕ) (e : Trace) : ICache :=
  { c with entry := Function.update c.entry i e }

/-- `flushSMC`; the dummy opcode it leaves in the trace only ends one that is running. -/
def flushSMC (c : ICache) (i : ℕ) : ICache :=
  c.setEntry i { c.entry i with pAddr := invalidPhyAddress }

/-- One slot of `pageSplitIndex` is given up, and its trace flushed. -/
def dropSplit (c : ICache) (k : ℕ) : ICache :=
  ({ c with
      pageSplitIndex := Function.update c.pageSplitIndex k
        { c.pageSplitIndex k with ppf := invalidPhyAddress } }).flushSMC (c.pageSplitIndex k).e

/-- The same for a slot that may be free. -/
def dropUsed (c : ICache) (k : ℕ) : ICache :=
  if (c.pageSplitIndex k).ppf ≠ invalidPhyAddress then c.dropSplit k else c

/-- `invalidatePageSplitICacheEntries`. -/
def invalidatePageSplitICacheEntries (c : ICache) : ICache :=
  { (List.range 8).foldl dropUsed c with nextPageSplitIndex := 0 }

/-- `breakLinks`; true if the time stamp ran over and everything was flushed. -/
def breakLinks (c : ICache) : ICache × Bool :=
  let c := c.invalidatePageSplitICacheEntries
  let stamp := c.traceLinkTimeStamp + 1
  if stamp = 0xFFFFFFFF then (c.flushICacheEntries, true)
  else ({ c with traceLinkTimeStamp := stamp }, false)

/-- The entries the walk of `handleSMC` looks at, in order: 128 for each line up to the first one
above the walk mask. -/
def walk (pAddr : UInt64) (mask : BitVec 32) : List ℕ :=
  let walkMask := mask ||| (mask <<< 1)
  ((List.range 32).takeWhile fun n => (1#32 <<< n).toNat ≤ walkMask.toNat).flatMap fun n =>
    (List.range 128).map fun index => icacheHash (lpfOf pAddr) 0 + 128 * n + index

/-- `bxICache_c::handleSMC`. -/
def handleSMC (c : ICache) (pAddr : UInt64) (mask : BitVec 32) : ICache :=
  let pAddrIndex := stampHash pAddr
  let (c, flushed) := c.breakLinks
  if flushed then c
  else
    let c := if mask.getLsbD 0 then
        (List.range 8).foldl (fun c k =>
          if (c.pageSplitIndex k).ppf ≠ invalidPhyAddress ∧
              pAddrIndex = stampHash (c.pageSplitIndex k).ppf then c.dropSplit k else c) c
      else c
    (walk pAddr mask).foldl (fun c i =>
      if pAddrIndex = stampHash (c.entry i).pAddr ∧ (c.entry i).traceMask &&& mask ≠ 0 then
        c.flushSMC i else c) c

/-- `find_entry`. -/
def findEntry (c : ICache) (pAddr : UInt64) (fetchModeMask : ℕ) : Option Trace :=
  let e := c.entry (icacheHash pAddr fetchModeMask)
  if e.pAddr = pAddr then some e else none

end ICache

/-- The cache of the one CPU, and the table of page stamps. -/
structure TraceCache where
  icache : ICache
  stamps : ℕ → BitVec 32

namespace TraceCache

/-- `markICacheMask`. -/
def markICacheMask (s : TraceCache) (pAddr : UInt64) (mask : BitVec 32) : TraceCache :=
  { s with stamps :=
      Function.update s.stamps (stampHash pAddr) (s.stamps (stampHash pAddr) ||| mask) }

/-- The mask of the lines the first and the last byte of a write lie in. -/
def writeMask (pAddr : UInt64) (len : ℕ) : BitVec 32 :=
  1#32 <<< (pageOffset pAddr / 128) ||| 1#32 <<< ((pageOffset pAddr + len - 1) % 2 ^ 12 / 128)

/-- `decWriteStamp(pAddr, len)`. -/
def decWriteStamp (s : TraceCache) (pAddr : UInt64) (len : ℕ) : TraceCache :=
  let index := stampHash pAddr
  let mask := writeMask pAddr len
  if s.stamps index ≠ 0 ∧ s.stamps index &&& mask ≠ 0 then
    { icache := s.icache.handleSMC pAddr mask
      stamps := Function.update s.stamps index (s.stamps index &&& ~~~mask) }
  else s

/-- `decWriteStamp(pAddr)`: the whole page is altered. -/
def decWriteStampPage (s : TraceCache) (pAddr : UInt64) : TraceCache :=
  let index := stampHash pAddr
  if s.stamps index ≠ 0 then
    { icache := s.icache.handleSMC pAddr 0xFFFFFFFF
      stamps := Function.update s.stamps index 0 }
  else s

/-- `flushICaches`. -/
def flushICaches (s : TraceCache) : TraceCache :=
  { icache := s.icache.flushICacheEntries, stamps := fun _ => 0 }

/-- `x86oracle_bochs_write_mem` and its slice form, on the cache: `invalidate_decoded` for every
byte, with the address as the host gave it. -/
def hostWrite (s : TraceCache) (w : HostWrite) : TraceCache :=
  w.stores.foldl (fun s b => s.decWriteStamp b.1 1) s

end TraceCache

/-! ## Numbers -/

theorem icacheHash_eq (pAddr : UInt64) (fm : ℕ) :
    icacheHash pAddr fm = pAddr.toNat % 2 ^ 16 ^^^ fm := by
  rw [icacheHash, show bxICacheEntries - 1 = 2 ^ 16 - 1 from rfl, Nat.and_two_pow_sub_one_eq_mod]

/-- A fetch mode mask moves an entry by one line at most, and not out of its page. -/
theorem xor_near {x fm : ℕ} (hfm : fm < 0x100) :
    (x ^^^ fm) / 2 ^ 12 = x / 2 ^ 12 ∧ (x ^^^ fm) / 128 ≤ x / 128 + 1 := by
  have hpage : (x ^^^ fm) / 2 ^ 12 = x / 2 ^ 12 := by
    rw [Nat.xor_div_two_pow, Nat.div_eq_of_lt (by omega : fm < 2 ^ 12), Nat.xor_zero]
  refine ⟨hpage, ?_⟩
  have hline : (x ^^^ fm) / 2 ^ 7 = x / 2 ^ 7 ^^^ fm / 2 ^ 7 := Nat.xor_div_two_pow
  have hsmall : fm / 2 ^ 7 = 0 ∨ fm / 2 ^ 7 = 1 := by omega
  rcases hsmall with h | h
  · rw [h, Nat.xor_zero] at hline
    omega
  · -- the highest bit of the mask only flips the lowest bit of the line
    rw [h] at hline
    have hhalf : (x / 2 ^ 7 ^^^ 1) / 2 = x / 2 ^ 7 / 2 := by
      rw [Nat.xor_div_two]
      simp
    omega

theorem lpfOf_toNat (pAddr : UInt64) : (lpfOf pAddr).toNat = 2 ^ 12 * (pAddr.toNat / 2 ^ 12) := by
  rw [lpfOf, UInt64.toNat_and]
  exact Words.and_highMask (k := 12) (w := 64) (by norm_num) pAddr.toNat_lt

theorem lineOf_lt (pAddr : UInt64) : lineOf pAddr < 32 := by
  unfold lineOf pageOffset
  omega

/-- A bit of a mask is below its value. -/
theorem two_pow_le_of_getLsbD {mask : BitVec 32} {n : ℕ} (h : mask.getLsbD n = true) :
    2 ^ n ≤ mask.toNat :=
  Nat.ge_two_pow_of_testBit h

/-! ## The walk -/

section Walk

variable {pAddr : UInt64} {mask : BitVec 32} {i n index : ℕ}

/-- The walk gets as far as every line below the walk mask. -/
theorem mem_walk (hn : n < 32) (hle : 2 ^ n ≤ (mask ||| (mask <<< 1)).toNat)
    (hindex : index < 128) :
    icacheHash (lpfOf pAddr) 0 + 128 * n + index ∈ ICache.walk pAddr mask := by
  unfold ICache.walk
  refine List.mem_flatMap.2 ⟨n, ?_, List.mem_map.2 ⟨index, List.mem_range.2 hindex, rfl⟩⟩
  have hsplit : List.range 32 = List.range (n + 1) ++ List.range' (n + 1) (32 - (n + 1)) := by
    rw [List.range_eq_range', List.range_eq_range']
    have happend : List.range' 0 (n + 1) 1 ++ List.range' (0 + 1 * (n + 1)) (32 - (n + 1)) 1 =
        List.range' 0 (n + 1 + (32 - (n + 1))) 1 := List.range'_append
    rw [Nat.one_mul, Nat.zero_add, Nat.add_sub_cancel' hn] at happend
    exact happend.symm
  have hpos : ∀ m ∈ List.range (n + 1),
      decide ((1#32 <<< m).toNat ≤ (mask ||| (mask <<< 1)).toNat) = true := by
    intro m hm
    have hm : m ≤ n := Nat.le_of_lt_succ (List.mem_range.1 hm)
    have hpow : 2 ^ m ≤ 2 ^ n := Nat.pow_le_pow_right (by norm_num) hm
    have hshift : (1#32 <<< m).toNat ≤ 2 ^ m := by
      rw [BitVec.toNat_shiftLeft, Nat.shiftLeft_eq]
      exact (Nat.mod_le _ _).trans (by simp)
    exact decide_eq_true (by omega)
  rw [hsplit, List.takeWhile_append_of_pos hpos]
  exact List.mem_append_left _ (List.mem_range.2 (Nat.lt_succ_self n))

/-- **The walk comes past every trace that covers a line of the mask**: its entry lies in the line
where it starts or the next one, and it starts no later than a line it covers. -/
theorem walk_reaches {start : UInt64} {fm l : ℕ} (hfm : fm < 0x100)
    (hpage : stampHash pAddr = stampHash start) (hl : mask.getLsbD l = true)
    (hforward : lineOf start ≤ l) : icacheHash start fm ∈ ICache.walk pAddr mask := by
  have hl32 : l < 32 := BitVec.lt_of_getLsbD hl
  obtain ⟨x, hx⟩ : ∃ x, x = start.toNat % 2 ^ 16 := ⟨_, rfl⟩
  obtain ⟨hsame, hnear⟩ := xor_near (x := x) hfm
  obtain ⟨i, hi⟩ : ∃ i, i = x ^^^ fm := ⟨_, rfl⟩
  rw [← hi] at hsame hnear
  have hbase : icacheHash (lpfOf pAddr) 0 = 2 ^ 12 * (i / 2 ^ 12) := by
    rw [icacheHash_eq, Nat.xor_zero, lpfOf_toNat, hsame]
    unfold stampHash at hpage
    omega
  have hline : lineOf start = x % 2 ^ 12 / 128 := by
    unfold lineOf pageOffset
    omega
  have hindex : icacheHash start fm =
      icacheHash (lpfOf pAddr) 0 + 128 * (i % 2 ^ 12 / 128) + i % 128 := by
    rw [hbase, icacheHash_eq, ← hx, ← hi]
    omega
  rw [hindex]
  refine mem_walk (by omega) ?_ (by omega)
  have hwalk : (mask ||| (mask <<< 1)).getLsbD (i % 2 ^ 12 / 128) = true ∨
      i % 2 ^ 12 / 128 ≤ l := by
    by_cases hle : i % 2 ^ 12 / 128 ≤ l
    · exact .inr hle
    · have hnext : i % 2 ^ 12 / 128 = l + 1 := by omega
      refine .inl ?_
      rw [hnext, BitVec.getLsbD_or, BitVec.getLsbD_shiftLeft]
      have hlt : l + 1 < 32 := by omega
      simp [hlt, hl]
  rcases hwalk with hbit | hle
  · exact two_pow_le_of_getLsbD hbit
  · have hpow : 2 ^ (i % 2 ^ 12 / 128) ≤ 2 ^ l := Nat.pow_le_pow_right (by norm_num) hle
    have hbit : (mask ||| (mask <<< 1)).getLsbD l = true := by
      rw [BitVec.getLsbD_or, hl, Bool.true_or]
    exact hpow.trans (two_pow_le_of_getLsbD hbit)

end Walk

/-! ## What a flush drops -/

/-- The trace, made invalid. -/
def Trace.dead (e : Trace) : Trace := { e with pAddr := invalidPhyAddress }

@[simp] theorem Trace.live_dead (e : Trace) : e.dead.live = false := by
  simp [Trace.live, Trace.dead]

namespace ICache

variable {c : ICache} {i j k : ℕ} {pAddr : UInt64} {mask : BitVec 32}

@[simp] theorem entry_flushSMC_self : (c.flushSMC i).entry i = (c.entry i).dead :=
  Function.update_self ..

theorem entry_flushSMC_of_ne (h : j ≠ i) : (c.flushSMC i).entry j = c.entry j :=
  Function.update_of_ne h ..

@[simp] theorem pageSplitIndex_flushSMC : (c.flushSMC i).pageSplitIndex = c.pageSplitIndex := rfl

/-- A loop that flushes the entries it visits and that satisfy a test. -/
theorem entry_foldl_flush (P : Trace → Prop) [DecidablePred P] (is : List ℕ) (c : ICache) (j : ℕ) :
    (is.foldl (fun c i => if P (c.entry i) then c.flushSMC i else c) c).entry j =
      if j ∈ is ∧ P (c.entry j) then (c.entry j).dead else c.entry j := by
  induction is generalizing c with
  | nil => simp
  | cons i is ih =>
    rw [List.foldl_cons, ih]
    by_cases hP : P (c.entry i)
    · rw [if_pos hP]
      by_cases hj : j = i
      · subst hj
        have hdead : (c.entry j).dead.dead = (c.entry j).dead := rfl
        rw [entry_flushSMC_self, hdead, ite_self, if_pos ⟨List.mem_cons_self .., hP⟩]
      · rw [entry_flushSMC_of_ne hj]
        simp [hj]
    · rw [if_neg hP]
      by_cases hj : j = i
      · subst hj
        simp [hP]
      · simp [hj]

/-- It changes entries only. -/
theorem foldl_flush_frame (P : Trace → Prop) [DecidablePred P] (is : List ℕ) (c : ICache) :
    ∃ f, is.foldl (fun c i => if P (c.entry i) then c.flushSMC i else c) c =
      { c with entry := f } := by
  induction is generalizing c with
  | nil => exact ⟨c.entry, rfl⟩
  | cons i is ih =>
    obtain ⟨f, hf⟩ := ih (if P (c.entry i) then c.flushSMC i else c)
    refine ⟨f, ?_⟩
    rw [List.foldl_cons, hf]
    split <;> rfl

/-- Slot `k` is in use, for entry `j`. -/
def Uses (c : ICache) (k j : ℕ) : Prop :=
  (c.pageSplitIndex k).ppf ≠ invalidPhyAddress ∧ (c.pageSplitIndex k).e = j

theorem uses_dropUsed : (c.dropUsed k).Uses i j ↔ i ≠ k ∧ c.Uses i j := by
  unfold dropUsed Uses
  by_cases hused : (c.pageSplitIndex k).ppf ≠ invalidPhyAddress
  · rw [if_pos hused]
    by_cases hi : i = k
    · simp [dropSplit, hi]
    · simp [dropSplit, hi]
  · rw [if_neg hused]
    constructor
    · exact fun h => ⟨fun hi => hused (hi ▸ h.1), h⟩
    · exact fun h => h.2

theorem entry_dropUsed_of_uses (h : c.Uses k j) : (c.dropUsed k).entry j = (c.entry j).dead := by
  obtain ⟨hused, rfl⟩ := h
  rw [dropUsed, if_pos hused]
  exact entry_flushSMC_self

theorem entry_dropUsed_of_not (h : ¬ c.Uses k j) : (c.dropUsed k).entry j = c.entry j := by
  unfold dropUsed
  by_cases hused : (c.pageSplitIndex k).ppf ≠ invalidPhyAddress
  · rw [if_pos hused]
    exact entry_flushSMC_of_ne fun heq => h ⟨hused, heq.symm⟩
  · rw [if_neg hused]

/-- Giving up the slots of a list kills the entries they are in use for, and no other. -/
theorem foldl_dropUsed (ks : List ℕ) (c : ICache) (j : ℕ) :
    ((∃ k ∈ ks, c.Uses k j) → (ks.foldl dropUsed c).entry j = (c.entry j).dead) ∧
      ((¬ ∃ k ∈ ks, c.Uses k j) → (ks.foldl dropUsed c).entry j = c.entry j) ∧
      (∀ i, (ks.foldl dropUsed c).Uses i j ↔ i ∉ ks ∧ c.Uses i j) ∧
      (ks.foldl dropUsed c).traceLinkTimeStamp = c.traceLinkTimeStamp := by
  induction ks generalizing c with
  | nil => simp
  | cons k ks ih =>
    obtain ⟨hdead, hsame, huses, hstamp⟩ := ih (c.dropUsed k)
    have hrest : (∃ i ∈ ks, (c.dropUsed k).Uses i j) ↔ ∃ i ∈ ks, i ≠ k ∧ c.Uses i j := by
      simp only [uses_dropUsed]
    rw [List.foldl_cons]
    refine ⟨?_, ?_, fun i => ?_, hstamp.trans ?_⟩
    · rintro ⟨i, hi, huse⟩
      by_cases hk : c.Uses k j
      · have hentry := entry_dropUsed_of_uses hk
        by_cases hlater : ∃ i ∈ ks, (c.dropUsed k).Uses i j
        · rw [hdead hlater, hentry]
          rfl
        · rw [hsame hlater, hentry]
      · have hne : i ≠ k := fun heq => hk (heq ▸ huse)
        have hmem : i ∈ ks := (List.mem_cons.1 hi).resolve_left hne
        rw [hdead (hrest.2 ⟨i, hmem, hne, huse⟩), entry_dropUsed_of_not hk]
    · intro hno
      have hk : ¬ c.Uses k j := fun h => hno ⟨k, List.mem_cons_self .., h⟩
      have hlater : ¬ ∃ i ∈ ks, (c.dropUsed k).Uses i j := fun h => by
        obtain ⟨i, hi, -, huse⟩ := hrest.1 h
        exact hno ⟨i, List.mem_cons_of_mem _ hi, huse⟩
      rw [hsame hlater, entry_dropUsed_of_not hk]
    · rw [huses, uses_dropUsed, List.mem_cons]
      tauto
    · unfold dropUsed
      split <;> rfl

/-- The entry is listed as that of a page-crossing trace. -/
def SplitTarget (c : ICache) (j : ℕ) : Prop := ∃ k < 8, c.Uses k j

/-- Every slot is given up, and the entries they were in use for are dead. -/
theorem invalidatePageSplit_entry (c : ICache) (j : ℕ) :
    (c.SplitTarget j → c.invalidatePageSplitICacheEntries.entry j = (c.entry j).dead) ∧
      (¬ c.SplitTarget j → c.invalidatePageSplitICacheEntries.entry j = c.entry j) ∧
      (∀ k < 8, ¬ c.invalidatePageSplitICacheEntries.Uses k j) ∧
      c.invalidatePageSplitICacheEntries.traceLinkTimeStamp = c.traceLinkTimeStamp := by
  obtain ⟨ks, hks⟩ : ∃ ks, ks = List.range 8 := ⟨_, rfl⟩
  obtain ⟨hdead, hsame, huses, hstamp⟩ := foldl_dropUsed ks c j
  have htarget : c.SplitTarget j ↔ ∃ k ∈ ks, c.Uses k j := by
    simp only [hks, List.mem_range, SplitTarget]
  unfold invalidatePageSplitICacheEntries
  rw [htarget, ← hks]
  exact ⟨hdead, hsame, fun k hk huse => ((huses k).1 huse).1 (hks ▸ List.mem_range.2 hk), hstamp⟩

/-- `breakLinks` unless the time stamp runs over: the page-crossing traces are gone. -/
theorem breakLinks_spec (c : ICache) (hstamp : c.traceLinkTimeStamp + 1 ≠ 0xFFFFFFFF) :
    ∃ c', c.breakLinks = (c', false) ∧ c'.traceLinkTimeStamp = c.traceLinkTimeStamp + 1 ∧
      c'.nextPageSplitIndex = 0 ∧ (∀ k < 8, (c'.pageSplitIndex k).ppf = invalidPhyAddress) ∧
      ∀ j, (c.SplitTarget j → c'.entry j = (c.entry j).dead) ∧
        (¬ c.SplitTarget j → c'.entry j = c.entry j) := by
  obtain ⟨d, hd⟩ : ∃ d, d = c.invalidatePageSplitICacheEntries := ⟨_, rfl⟩
  have hspec := invalidatePageSplit_entry c
  rw [← hd] at hspec
  refine ⟨{ d with traceLinkTimeStamp := c.traceLinkTimeStamp + 1 }, ?_, rfl, ?_, fun k hk => ?_,
    fun j => ⟨(hspec j).1, (hspec j).2.1⟩⟩
  · unfold breakLinks
    simp only
    rw [← hd, (hspec 0).2.2.2, if_neg hstamp]
  · rw [hd]
    rfl
  · by_contra hused
    exact (hspec (d.pageSplitIndex k).e).2.2.1 k hk ⟨hused, rfl⟩

theorem breakLinks_of_overflow (c : ICache) (hstamp : c.traceLinkTimeStamp + 1 = 0xFFFFFFFF) :
    c.breakLinks = (c.invalidatePageSplitICacheEntries.flushICacheEntries, true) := by
  unfold breakLinks
  simp only
  rw [(invalidatePageSplit_entry c 0).2.2.2, if_pos hstamp]

/-- Its loop over the split entries is idle: `breakLinks` has already given them up. -/
theorem foldl_split_idle (h : ∀ k < 8, (c.pageSplitIndex k).ppf = invalidPhyAddress) (n : ℕ) :
    (List.range 8).foldl (fun c k =>
      if (c.pageSplitIndex k).ppf ≠ invalidPhyAddress ∧
          n = stampHash (c.pageSplitIndex k).ppf then c.dropSplit k else c) c = c := by
  refine Bytes.foldl_range_induction (fun _ c' => c' = c) rfl ?_
  rintro k c' hk rfl
  rw [if_neg fun hand => hand.1 (h k hk)]

/-- The entries the walk flushes. -/
def Hit (c : ICache) (pAddr : UInt64) (mask : BitVec 32) (j : ℕ) : Prop :=
  j ∈ walk pAddr mask ∧ stampHash pAddr = stampHash (c.entry j).pAddr ∧
    (c.entry j).traceMask &&& mask ≠ 0

/-- `handleSMC` unless the time stamp runs over: what the walk hits and the page-crossing traces
are gone, everything else stays. -/
theorem handleSMC_spec (c : ICache) (pAddr : UInt64) (mask : BitVec 32)
    (hstamp : c.traceLinkTimeStamp + 1 ≠ 0xFFFFFFFF) :
    (c.handleSMC pAddr mask).traceLinkTimeStamp = c.traceLinkTimeStamp + 1 ∧
      (c.handleSMC pAddr mask).nextPageSplitIndex = 0 ∧
      (∀ k < 8, ((c.handleSMC pAddr mask).pageSplitIndex k).ppf = invalidPhyAddress) ∧
      ∀ j, (c.SplitTarget j ∨ c.Hit pAddr mask j →
          ((c.handleSMC pAddr mask).entry j).live = false) ∧
        (¬ (c.SplitTarget j ∨ c.Hit pAddr mask j) →
          (c.handleSMC pAddr mask).entry j = c.entry j) := by
  obtain ⟨d, hbreak, hlink, hnext, hfree, hentry⟩ := breakLinks_spec c hstamp
  have hsmc : c.handleSMC pAddr mask =
      (walk pAddr mask).foldl (fun c i => if stampHash pAddr = stampHash (c.entry i).pAddr ∧
        (c.entry i).traceMask &&& mask ≠ 0 then c.flushSMC i else c) d := by
    unfold handleSMC
    simp only [hbreak, foldl_split_idle hfree, ite_self, Bool.false_eq_true, if_false]
  have hwalk := entry_foldl_flush (fun e => stampHash pAddr = stampHash e.pAddr ∧
    e.traceMask &&& mask ≠ 0) (walk pAddr mask) d
  obtain ⟨f, hframe⟩ := foldl_flush_frame (fun e => stampHash pAddr = stampHash e.pAddr ∧
    e.traceMask &&& mask ≠ 0) (walk pAddr mask) d
  rw [hsmc]
  rw [hframe] at hwalk ⊢
  refine ⟨hlink, hnext, hfree, fun j => ⟨fun h => ?_, fun h => ?_⟩⟩
  · rw [hwalk j]
    by_cases htarget : c.SplitTarget j
    · rw [(hentry j).1 htarget]
      split
      · exact Trace.live_dead _
      · exact Trace.live_dead _
    · obtain ⟨hmem, hpage, hmask⟩ := h.resolve_left htarget
      rw [(hentry j).2 htarget, if_pos ⟨hmem, hpage, hmask⟩]
      exact Trace.live_dead _
  · rw [not_or] at h
    rw [hwalk j, (hentry j).2 h.1, if_neg fun hit => h.2 ⟨hit.1, hit.2.1, hit.2.2⟩]

/-- Otherwise nothing is left. -/
theorem handleSMC_of_overflow (c : ICache) (pAddr : UInt64) (mask : BitVec 32)
    (hstamp : c.traceLinkTimeStamp + 1 = 0xFFFFFFFF) :
    c.handleSMC pAddr mask = c.invalidatePageSplitICacheEntries.flushICacheEntries := by
  unfold handleSMC
  simp only [breakLinks_of_overflow c hstamp, if_true]

theorem splitTarget_handleSMC {j : ℕ} : ¬ (c.handleSMC pAddr mask).SplitTarget j := by
  rintro ⟨k, hk, hused, -⟩
  by_cases hstamp : c.traceLinkTimeStamp + 1 = 0xFFFFFFFF
  · rw [handleSMC_of_overflow c pAddr mask hstamp] at hused
    exact hused rfl
  · exact hused ((handleSMC_spec c pAddr mask hstamp).2.2.1 k hk)

theorem nextPageSplitIndex_handleSMC : (c.handleSMC pAddr mask).nextPageSplitIndex < 8 := by
  by_cases hstamp : c.traceLinkTimeStamp + 1 = 0xFFFFFFFF
  · rw [handleSMC_of_overflow c pAddr mask hstamp]
    norm_num [flushICacheEntries]
  · rw [(handleSMC_spec c pAddr mask hstamp).2.1]
    norm_num

/-- What is live after `handleSMC` was so before, and was neither listed nor hit. -/
theorem live_handleSMC {j : ℕ} (h : ((c.handleSMC pAddr mask).entry j).live = true) :
    (c.handleSMC pAddr mask).entry j = c.entry j ∧ ¬ c.SplitTarget j ∧ ¬ c.Hit pAddr mask j := by
  by_cases hstamp : c.traceLinkTimeStamp + 1 = 0xFFFFFFFF
  · rw [handleSMC_of_overflow c pAddr mask hstamp] at h
    simp [flushICacheEntries, Trace.live] at h
  · obtain ⟨hdead, hsame⟩ := (handleSMC_spec c pAddr mask hstamp).2.2.2 j
    have hnot : ¬ (c.SplitTarget j ∨ c.Hit pAddr mask j) := by
      intro hor
      rw [hdead hor] at h
      exact Bool.false_ne_true h
    exact ⟨hsame hnot, not_or.1 hnot⟩

-- from here on `handleSMC` is what these lemmas say of it: unfolded, its loops swamp every `simp`
attribute [irreducible] handleSMC

end ICache

end Bochs
