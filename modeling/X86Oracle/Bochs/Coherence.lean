import Mathlib
import X86Oracle.Bochs.ICache

/-!
# The trace cache under host writes

`serveICacheMiss` of `cpu/icache.cc` fills the cache of `Bochs.ICache`; guest stores, and the host's
through `invalidate_decoded`, are announced to it with `decWriteStamp`.

* `TraceCache.Coherent`: every live trace is filed where its address and a fetch mode put it, starts
  no later than the lines it covers, has the stamp of its page for each of them, and covers the
  bytes it was decoded from; a page-crossing one is listed besides.
* `Coherent.serveICacheMiss`, `Coherent.decWriteStamp`: filling the cache and writing keep it so.
* `coherent_run`: the cache is coherent after any sequence of operations.
* `hostWrite_coherent`: after a host write no live trace covers a written byte; what else is
  dropped.
-/

namespace Bochs

/-! ## Filling the cache -/

/-- What `fetchDecode64` and `assignHandler` say of the bytes at an address: how long the
instruction is, and whether the trace ends with it. -/
structure Decoded where
  iLen : ℕ
  stop : Bool

/-- What `serveICacheMiss` is called with, and finds: the place and mode of the fetch, the bytes
left in the fetch window, the decoder on the memory of that moment, and the page `prefetch` moves to
for an instruction that does not fit, none if it raises. -/
structure Fetch where
  pAddr : UInt64
  fetchModeMask : ℕ
  remainingInPage : ℕ
  fetchDecode : UInt64 → ℕ → Option Decoded
  secondPage : Option UInt64
  mode_lt : fetchModeMask < 0x100
  window : pageOffset pAddr + remainingInPage ≤ 4096
  /-- A decoded instruction has 1 to 15 bytes, all of them in the window. -/
  fits : ∀ {a n d}, fetchDecode a n = some d → 1 ≤ d.iLen ∧ d.iLen ≤ 15 ∧ d.iLen ≤ n
  /-- Short of the page's end the window is cut by the segment limit, and `prefetch` raises. -/
  second : secondPage.isSome → pageOffset pAddr + remainingInPage = 4096
  aligned : ∀ ppf, secondPage = some ppf → pageOffset ppf = 0

namespace ICache

/-- `alloc_trace`. -/
def allocTrace (c : ICache) : ICache :=
  if c.mpindex + bxMaxTraceLength + 1 > bxICacheMemPool then c.flushICacheEntries else c

/-- `commit_trace`. -/
def commitTrace (c : ICache) (len : ℕ) : ICache := { c with mpindex := c.mpindex + len }

/-- `commit_page_split_trace`. -/
def commitPageSplitTrace (c : ICache) (paddr : UInt64) (i : ℕ) : ICache :=
  let c := { c with mpindex := c.mpindex + (c.entry i).tlen }
  let k := c.nextPageSplitIndex
  let c := if (c.pageSplitIndex k).ppf ≠ invalidPhyAddress then
      c.flushSMC (c.pageSplitIndex k).e else c
  { c with
    pageSplitIndex := Function.update c.pageSplitIndex k { ppf := paddr, e := i }
    nextPageSplitIndex := (k + 1) % 8 }

/-- `mergeTraces`; none if there is nothing to merge with. -/
def mergeTraces (c : ICache) (entry : Trace) (pAddr : UInt64) (fetchModeMask : ℕ) : Option Trace :=
  match c.findEntry pAddr fetchModeMask with
  | none => none
  | some e =>
    if e.tlen + entry.tlen > bxMaxTraceLength then none
    else some { entry with
      tlen := entry.tlen + e.tlen
      traceMask := entry.traceMask ||| e.traceMask
      size := entry.size + e.size
      crosses := e.crosses }

end ICache

/-- The mask of the lines an instruction begins and ends in. -/
def lineMask (pAddr : UInt64) (iLen : ℕ) : BitVec 32 :=
  1#32 <<< (pageOffset pAddr / 128) ||| 1#32 <<< ((pageOffset pAddr + iLen - 1) / 128)

/-- The variables of the loop of `serveICacheMiss`. -/
structure Build where
  entry : Trace
  traceMask : BitVec 32
  pAddr : UInt64
  remainingInPage : ℕ

namespace Build

/-- One instruction is added to the trace. -/
def add (b : Build) (d : Decoded) : Build where
  entry := { b.entry with tlen := b.entry.tlen + 1, size := b.entry.size + d.iLen }
  traceMask := b.traceMask ||| lineMask b.pAddr d.iLen
  pAddr := b.pAddr
  remainingInPage := b.remainingInPage - d.iLen

def advance (b : Build) (d : Decoded) : Build := { b with pAddr := b.pAddr + UInt64.ofNat d.iLen }

/-- Everything the trace covers so far. -/
def mask (b : Build) : BitVec 32 := b.entry.traceMask ||| b.traceMask

end Build

/-- The loop, for at most so many instructions; true if it ended in a merge. -/
def buildTrace (f : Fetch) (c : ICache) : ℕ → Build → Build × Bool
  | 0, b => (b, false)
  | n + 1, b =>
    match f.fetchDecode b.pAddr b.remainingInPage with
    | none => (b, false)
    | some d =>
      if d.stop ∨ (b.add d).remainingInPage = 0 then (b.add d, false)
      else
        let b := (b.add d).advance d
        -- 15 bytes left: no merging with a page-crossing trace
        match if 15 ≤ b.remainingInPage then c.mergeTraces b.entry b.pAddr f.fetchModeMask
          else none with
        | some entry => ({ b with entry }, true)
        | none => buildTrace f c n b

namespace TraceCache

/-- The entry as `serveICacheMiss` begins to fill it. -/
def newEntry (pAddr : UInt64) : Trace :=
  { pAddr, traceMask := 0, tlen := 0, size := 0, crosses := none }

/-- `serveICacheMiss`. -/
def serveICacheMiss (s : TraceCache) (f : Fetch) : TraceCache :=
  let i := icacheHash f.pAddr f.fetchModeMask
  let entry := newEntry f.pAddr
  let c := s.icache.allocTrace.setEntry i entry
  match f.fetchDecode f.pAddr f.remainingInPage with
  | none =>
    -- `boundaryFetch`
    match if f.remainingInPage < 15 then f.secondPage else none with
    | none => { s with icache := c.setEntry i { entry with pAddr := ~~~f.pAddr, tlen := 1 } }
    | some ppf =>
      let entry := { entry with
        traceMask := 0x80000000, tlen := 2, size := f.remainingInPage, crosses := some ppf }
      let s := { s with icache := c.setEntry i entry }
      let s := (s.markICacheMask f.pAddr 0x80000000).markICacheMask ppf 1
      { s with icache := s.icache.commitPageSplitTrace ppf i }
  | some _ =>
    let (b, merged) := buildTrace f c bxMaxTraceLength
      { entry, traceMask := 0, pAddr := f.pAddr, remainingInPage := f.remainingInPage }
    let tlen := if merged then b.entry.tlen else b.entry.tlen + 1
    let c := (c.setEntry i { b.entry with traceMask := b.mask, tlen }).commitTrace tlen
    markICacheMask { s with icache := c } b.pAddr b.mask

end TraceCache

/-! ## Coherence -/

/-- What holds of a live trace in entry `i`. -/
structure Trace.Stamped (e : Trace) (i : ℕ) (stamps : ℕ → BitVec 32) : Prop where
  filed : e.traceMask ≠ 0 → ∃ fm < 0x100, i = icacheHash e.pAddr fm
  forward : ∀ l, e.traceMask.getLsbD l = true → lineOf e.pAddr ≤ l
  stamped : ∀ l, e.traceMask.getLsbD l = true → (stamps (stampHash e.pAddr)).getLsbD l = true
  covered : ∀ k < e.size, pageOffset e.pAddr + k < 4096 ∧
    e.traceMask.getLsbD ((pageOffset e.pAddr + k) / 128) = true
  edge : ∀ ppf, e.crosses = some ppf →
    pageOffset ppf = 0 ∧ 4096 < pageOffset e.pAddr + 15 ∧
      (stamps (stampHash ppf)).getLsbD 0 = true

/-- The stamp invariant. -/
structure TraceCache.Coherent (s : TraceCache) : Prop where
  stamped : ∀ i, (s.icache.entry i).live = true → (s.icache.entry i).Stamped i s.stamps
  split : ∀ i, (s.icache.entry i).live = true → (s.icache.entry i).crosses.isSome →
    s.icache.SplitTarget i
  next : s.icache.nextPageSplitIndex < 8

/-- The bytes a trace was decoded from. -/
def Trace.DecodedFrom (e : Trace) (addr : UInt64) : Prop :=
  (∃ k < e.size, phys addr = phys e.pAddr + k) ∨
    ∃ ppf, e.crosses = some ppf ∧ ∃ k < 15, phys addr = phys ppf + k

/-- The lines a trace covers: those of its mask, and the first of the page it crosses into. -/
def Trace.Covers (e : Trace) (addr : UInt64) : Prop :=
  (phys addr / 2 ^ 12 = phys e.pAddr / 2 ^ 12 ∧ e.traceMask.getLsbD (lineOf addr) = true) ∨
    ∃ ppf, e.crosses = some ppf ∧ phys addr / 2 ^ 12 = phys ppf / 2 ^ 12 ∧ lineOf addr = 0

/-- A trace covers what it was decoded from. -/
theorem Trace.Stamped.covers {e : Trace} {i : ℕ} {stamps : ℕ → BitVec 32} {addr : UInt64}
    (h : e.Stamped i stamps) (hfrom : e.DecodedFrom addr) : e.Covers addr := by
  rcases hfrom with ⟨k, hk, haddr⟩ | ⟨ppf, hcross, k, hk, haddr⟩
  · obtain ⟨hlt, hbit⟩ := h.covered k hk
    have hline : lineOf addr = (pageOffset e.pAddr + k) / 128 := by
      unfold phys at haddr
      unfold lineOf pageOffset at *
      omega
    refine .inl ⟨?_, hline ▸ hbit⟩
    unfold pageOffset at hlt
    unfold phys at haddr ⊢
    omega
  · have hzero := (h.edge ppf hcross).1
    refine .inr ⟨ppf, hcross, ?_, ?_⟩
    · unfold pageOffset at hzero
      unfold phys at haddr ⊢
      omega
    · unfold pageOffset at hzero
      unfold phys at haddr
      unfold lineOf pageOffset
      omega

/-- More stamps do no harm. -/
theorem Trace.Stamped.mono {e : Trace} {i : ℕ} {stamps stamps' : ℕ → BitVec 32}
    (h : e.Stamped i stamps)
    (hle : ∀ x l, (stamps x).getLsbD l = true → (stamps' x).getLsbD l = true) :
    e.Stamped i stamps' where
  filed := h.filed
  forward := h.forward
  stamped l hl := hle _ _ (h.stamped l hl)
  covered := h.covered
  edge ppf hppf := ⟨(h.edge ppf hppf).1, (h.edge ppf hppf).2.1, hle _ _ (h.edge ppf hppf).2.2⟩

namespace TraceCache

variable {s : TraceCache} {i : ℕ} {e : Trace}

theorem getLsbD_markICacheMask {pAddr : UInt64} {mask : BitVec 32} {x l : ℕ} :
    ((s.markICacheMask pAddr mask).stamps x).getLsbD l = true ↔
      (s.stamps x).getLsbD l = true ∨ x = stampHash pAddr ∧ mask.getLsbD l = true := by
  unfold markICacheMask
  by_cases hx : x = stampHash pAddr
  · simp [hx]
  · simp [hx]

theorem Coherent.markICacheMask (h : s.Coherent) (pAddr : UInt64) (mask : BitVec 32) :
    (s.markICacheMask pAddr mask).Coherent where
  stamped i hlive := (h.stamped i hlive).mono fun _ _ hl => getLsbD_markICacheMask.2 (.inl hl)
  split := h.split
  next := h.next

/-- An entry may be replaced by a stamped trace that does not cross into a second page. -/
theorem Coherent.setEntry (h : s.Coherent) (he : e.live = true → e.Stamped i s.stamps)
    (hcross : e.crosses = none) : Coherent { s with icache := s.icache.setEntry i e } where
  stamped j hlive := by
    by_cases hj : j = i
    · subst hj
      simp only [ICache.setEntry, Function.update_self] at hlive ⊢
      exact he hlive
    · simp only [ICache.setEntry, Function.update_of_ne hj] at hlive ⊢
      exact h.stamped j hlive
  split j hlive hsome := by
    by_cases hj : j = i
    · subst hj
      simp only [ICache.setEntry, Function.update_self, hcross, Option.isSome_none,
        Bool.false_eq_true] at hsome
    · simp only [ICache.setEntry, Function.update_of_ne hj] at hlive hsome
      exact h.split j hlive hsome
  next := h.next

theorem coherent_flushICacheEntries (c : ICache) (stamps : ℕ → BitVec 32) :
    Coherent { icache := c.flushICacheEntries, stamps } where
  stamped j hlive := by simp [ICache.flushICacheEntries, Trace.live] at hlive
  split j hlive := by simp [ICache.flushICacheEntries, Trace.live] at hlive
  next := by norm_num [ICache.flushICacheEntries]

theorem Coherent.allocTrace (h : s.Coherent) :
    Coherent { s with icache := s.icache.allocTrace } := by
  unfold ICache.allocTrace
  split
  · exact coherent_flushICacheEntries _ _
  · exact h

theorem Coherent.commitTrace (h : s.Coherent) (len : ℕ) :
    Coherent { s with icache := s.icache.commitTrace len } where
  stamped := h.stamped
  split := h.split
  next := h.next

/-- A page-crossing trace just built is listed; the one it takes the slot of is dropped. -/
theorem coherent_commitPageSplitTrace {ppf : UInt64} (hppf : ppf ≠ invalidPhyAddress)
    (hstamped : ∀ j, (s.icache.entry j).live = true → (s.icache.entry j).Stamped j s.stamps)
    (hsplit : ∀ j ≠ i, (s.icache.entry j).live = true → (s.icache.entry j).crosses.isSome →
      s.icache.SplitTarget j) (hnext : s.icache.nextPageSplitIndex < 8) :
    Coherent { s with icache := s.icache.commitPageSplitTrace ppf i } := by
  obtain ⟨k, hk⟩ : ∃ k, k = s.icache.nextPageSplitIndex := ⟨_, rfl⟩
  have hindex : (s.icache.commitPageSplitTrace ppf i).pageSplitIndex =
      Function.update s.icache.pageSplitIndex k { ppf := ppf, e := i } := by
    unfold ICache.commitPageSplitTrace
    simp only [← hk]
    split <;> rfl
  -- the trace in the slot's old entry is dead, the others are what they were
  have hentry : ∀ j, ((s.icache.commitPageSplitTrace ppf i).entry j).live = true →
      (s.icache.commitPageSplitTrace ppf i).entry j = s.icache.entry j ∧ ¬ s.icache.Uses k j := by
    intro j hlive
    unfold ICache.commitPageSplitTrace at hlive ⊢
    simp only [← hk] at hlive ⊢
    by_cases hused : (s.icache.pageSplitIndex k).ppf ≠ invalidPhyAddress
    · rw [if_pos hused] at hlive ⊢
      have hj : j ≠ (s.icache.pageSplitIndex k).e := by
        rintro rfl
        rw [ICache.entry_flushSMC_self, Trace.live_dead] at hlive
        exact Bool.false_ne_true hlive
      rw [ICache.entry_flushSMC_of_ne hj]
      exact ⟨rfl, fun huse => hj huse.2.symm⟩
    · rw [if_neg hused]
      exact ⟨rfl, fun huse => hused huse.1⟩
  refine ⟨fun j hlive => ?_, fun j hlive hsome => ?_, Nat.mod_lt _ (by norm_num)⟩
  · have hsame := (hentry j hlive).1
    simp only [hsame] at hlive ⊢
    exact hstamped j hlive
  · obtain ⟨hsame, hunused⟩ := hentry j hlive
    simp only [hsame] at hlive hsome
    by_cases hj : j = i
    · refine ⟨k, hk ▸ hnext, ?_⟩
      unfold ICache.Uses
      rw [hindex, Function.update_self]
      exact ⟨hppf, hj.symm⟩
    · obtain ⟨m, hm, huse⟩ := hsplit j hj hlive hsome
      have hmk : m ≠ k := by
        rintro rfl
        exact hunused huse
      refine ⟨m, hm, ?_⟩
      unfold ICache.Uses
      rw [hindex, Function.update_of_ne hmk]
      exact huse

end TraceCache

/-! ## The loop -/

/-- A range of bytes lies in its page, and the mask has its lines. -/
def CoveredBy (pAddr : UInt64) (size : ℕ) (mask : BitVec 32) : Prop :=
  ∀ k < size, pageOffset pAddr + k < 4096 ∧ mask.getLsbD ((pageOffset pAddr + k) / 128) = true

theorem getLsbD_lineMask {pAddr : UInt64} {iLen l : ℕ} :
    (lineMask pAddr iLen).getLsbD l = true ↔
      l < 32 ∧ (l = pageOffset pAddr / 128 ∨ l = (pageOffset pAddr + iLen - 1) / 128) := by
  unfold lineMask
  simp only [BitVec.getLsbD_or, BitVec.getLsbD_shiftLeft, Bool.or_eq_true, Bool.and_eq_true,
    decide_eq_true_eq, Bool.not_eq_true', decide_eq_false_iff_not, BitVec.getLsbD_one]
  omega

/-- Bits that a trace under construction has, started at `start`. -/
structure Build.Sound (start : UInt64) (b : Build) : Prop where
  page : b.pAddr.toNat / 2 ^ 12 = start.toNat / 2 ^ 12
  address : b.entry.pAddr = start
  covered : CoveredBy start b.entry.size b.mask
  forward : ∀ l, b.mask.getLsbD l = true → lineOf start ≤ l
  crosses : b.entry.crosses = none

/-- At the head of the loop its cursor stands where the trace ends. -/
structure Build.Ready (start : UInt64) (b : Build) : Prop extends b.Sound start where
  cursor : pageOffset b.pAddr = pageOffset start + b.entry.size
  window : pageOffset b.pAddr + b.remainingInPage ≤ 4096

section Loop

variable {start : UInt64} {b : Build} {d : Decoded}

theorem Build.getLsbD_mask_add {l : ℕ} : (b.add d).mask.getLsbD l = true ↔
    b.mask.getLsbD l = true ∨ (lineMask b.pAddr d.iLen).getLsbD l = true := by
  unfold Build.mask Build.add
  simp only [BitVec.getLsbD_or, Bool.or_eq_true]
  tauto

theorem Build.Ready.add (h : b.Ready start) (hlen : 1 ≤ d.iLen) (hlen' : d.iLen ≤ 15)
    (hfit : d.iLen ≤ b.remainingInPage) : (b.add d).Sound start where
  page := h.page
  address := h.address
  covered k hk := by
    have hcursor := h.cursor
    have hwindow := h.window
    by_cases hold : k < b.entry.size
    · obtain ⟨hlt, hbit⟩ := h.covered k hold
      exact ⟨hlt, Build.getLsbD_mask_add.2 (.inl hbit)⟩
    · -- a byte of the new instruction: it is at most two lines long
      have hnew : k < b.entry.size + d.iLen := hk
      refine ⟨by omega, Build.getLsbD_mask_add.2 (.inr (getLsbD_lineMask.2 ?_))⟩
      omega
  forward l hl := by
    have hcursor := h.cursor
    rcases Build.getLsbD_mask_add.1 hl with hbit | hbit
    · exact h.forward l hbit
    · obtain ⟨-, hline⟩ := getLsbD_lineMask.1 hbit
      unfold lineOf
      omega
  crosses := h.crosses

theorem Build.Ready.advance (h : b.Ready start) (hadd : (b.add d).Sound start)
    (hfit : d.iLen < b.remainingInPage) : ((b.add d).advance d).Ready start := by
  have hcursor := h.cursor
  have hwindow := h.window
  have hpage := h.page
  have haddr : ((b.add d).advance d).pAddr.toNat = b.pAddr.toNat + d.iLen := by
    have hlt := b.pAddr.toNat_lt
    unfold pageOffset at hwindow
    simp only [Build.advance, Build.add, UInt64.toNat_add, UInt64.toNat_ofNat']
    omega
  have hoff : pageOffset ((b.add d).advance d).pAddr = pageOffset b.pAddr + d.iLen := by
    unfold pageOffset at hwindow ⊢
    rw [haddr]
    omega
  have hremaining : ((b.add d).advance d).remainingInPage = b.remainingInPage - d.iLen := rfl
  have hsize : ((b.add d).advance d).entry.size = b.entry.size + d.iLen := rfl
  refine ⟨⟨?_, hadd.address, hadd.covered, hadd.forward, hadd.crosses⟩, ?_, ?_⟩
  · rw [haddr]
    unfold pageOffset at hwindow
    omega
  · rw [hoff, hsize]
    omega
  · rw [hoff, hremaining]
    omega

/-- A merge continues the trace with one that starts at the cursor. -/
theorem Build.Ready.merge {s : TraceCache} (hs : s.Coherent) (h : b.Ready start)
    {fetchModeMask : ℕ} {entry : Trace} (hroom : 15 ≤ b.remainingInPage)
    (hmerge : s.icache.mergeTraces b.entry b.pAddr fetchModeMask = some entry) :
    ({ b with entry } : Build).Sound start := by
  have hcursor := h.cursor
  have hwindow := h.window
  unfold ICache.mergeTraces ICache.findEntry at hmerge
  obtain ⟨j, hj⟩ : ∃ j, j = icacheHash b.pAddr fetchModeMask := ⟨_, rfl⟩
  rw [← hj] at hmerge
  by_cases hfound : (s.icache.entry j).pAddr = b.pAddr
  · simp only [hfound, if_true] at hmerge
    split at hmerge
    · cases hmerge
    · obtain ⟨e, he⟩ : ∃ e, e = s.icache.entry j := ⟨_, rfl⟩
      rw [← he] at hmerge hfound
      have hlive : e.live = true := by
        refine bne_iff_ne.2 fun hinvalid => ?_
        rw [hfound] at hinvalid
        have hoff : pageOffset b.pAddr = 4095 := by
          rw [hinvalid]
          rfl
        omega
      have hstamped : e.Stamped j s.stamps := he ▸ hs.stamped j (he ▸ hlive)
      have hmask : ∀ l, ({ b with entry } : Build).mask.getLsbD l = true ↔
          b.mask.getLsbD l = true ∨ e.traceMask.getLsbD l = true := by
        intro l
        cases hmerge
        unfold Build.mask
        simp only [BitVec.getLsbD_or, Bool.or_eq_true]
        tauto
      refine ⟨h.page, ?_, fun k hk => ?_, fun l hl => ?_, ?_⟩
      · cases hmerge
        exact h.address
      · have hsize : k < b.entry.size + e.size := by
          cases hmerge
          exact hk
        by_cases hold : k < b.entry.size
        · obtain ⟨hlt, hbit⟩ := h.covered k hold
          exact ⟨hlt, (hmask _).2 (.inl hbit)⟩
        · obtain ⟨hlt, hbit⟩ := hstamped.covered (k - b.entry.size) (by omega)
          have hplace : pageOffset e.pAddr + (k - b.entry.size) = pageOffset start + k := by
            rw [hfound]
            omega
          rw [hplace] at hlt hbit
          exact ⟨hlt, (hmask _).2 (.inr hbit)⟩
      · rcases (hmask l).1 hl with hbit | hbit
        · exact h.forward l hbit
        · have hline := hstamped.forward l hbit
          rw [hfound] at hline
          unfold lineOf at hline ⊢
          omega
      · -- a page-crossing trace starts in the last 15 bytes of its page
        have hcross : entry.crosses = e.crosses := by
          cases hmerge
          rfl
        rw [hcross, Option.eq_none_iff_forall_ne_some]
        intro ppf hppf
        have hedge := (hstamped.edge ppf hppf).2.1
        rw [hfound] at hedge
        omega
  · simp only [hfound, if_false] at hmerge
    cases hmerge

theorem buildTrace_sound {s : TraceCache} (hs : s.Coherent) (f : Fetch) (n : ℕ)
    (h : b.Ready start) : (buildTrace f s.icache n b).1.Sound start := by
  induction n generalizing b with
  | zero => exact h.toSound
  | succ n ih =>
    unfold buildTrace
    split
    · exact h.toSound
    · rename_i d hd
      obtain ⟨hlen, hlen', hfit⟩ := f.fits hd
      have hadd := h.add hlen hlen' hfit
      split
      · exact hadd
      · rename_i hgo
        rw [not_or] at hgo
        have hrest : d.iLen < b.remainingInPage := by
          have hne : b.remainingInPage - d.iLen ≠ 0 := hgo.2
          omega
        have hnext := h.advance hadd hrest
        dsimp only
        split
        · rename_i entry hmerge
          split at hmerge
          · rename_i hroom
            exact hnext.merge hs hroom hmerge
          · cases hmerge
        · exact ih hnext

end Loop

/-! ## Filling keeps coherence -/

namespace TraceCache

variable {s : TraceCache}

theorem stampHash_congr {a b : UInt64} (h : a.toNat / 2 ^ 12 = b.toNat / 2 ^ 12) :
    stampHash a = stampHash b := by
  unfold stampHash
  omega

/-- A trace without lines and bytes says nothing. -/
theorem stamped_of_empty {e : Trace} {j : ℕ} {stamps : ℕ → BitVec 32} (hmask : e.traceMask = 0)
    (hsize : e.size = 0) (hcross : e.crosses = none) : e.Stamped j stamps where
  filed hne := absurd hmask hne
  forward l hl := by simp [hmask] at hl
  stamped l hl := by simp [hmask] at hl
  covered k hk := by omega
  edge ppf hppf := by simp [hcross] at hppf

/-- A trace the loop has built, filed where its fetch looks for it and marked. -/
theorem Sound.stamped {f : Fetch} {b : Build} (h : b.Sound f.pAddr) {tlen : ℕ}
    {stamps : ℕ → BitVec 32}
    (hmark : ∀ l, b.mask.getLsbD l = true → (stamps (stampHash b.pAddr)).getLsbD l = true) :
    ({ b.entry with traceMask := b.mask, tlen } : Trace).Stamped
      (icacheHash f.pAddr f.fetchModeMask) stamps := by
  obtain ⟨hpage, haddr, hcovered, hforward, hcrosses⟩ := h
  rw [← haddr] at hpage hcovered hforward
  refine ⟨fun _ => ⟨f.fetchModeMask, f.mode_lt, congrArg (icacheHash · _) haddr.symm⟩, hforward,
    fun l hl => ?_, hcovered, fun ppf hppf => ?_⟩
  · rw [← stampHash_congr hpage]
    exact hmark l hl
  · exact absurd (hcrosses.symm.trans hppf) (by simp)

/-- The one page-crossing instruction of a trace is filed, stamped in both pages and listed. -/
theorem Coherent.pageSplit (h : s.Coherent) (f : Fetch) {i : ℕ} {entry : Trace} {ppf : UInt64}
    (hi : i = icacheHash f.pAddr f.fetchModeMask) (hshort : f.remainingInPage < 15)
    (hsecond : f.secondPage = some ppf) (hentry : entry.pAddr = f.pAddr) :
    Coherent
      { icache := (s.icache.setEntry i { entry with
          traceMask := 0x80000000, tlen := 2, size := f.remainingInPage,
          crosses := some ppf }).commitPageSplitTrace ppf i
        stamps := ((s.markICacheMask f.pAddr 0x80000000).markICacheMask ppf 1).stamps } := by
  have hend := f.second (hsecond ▸ rfl)
  have hppf : ppf ≠ invalidPhyAddress := by
    rintro rfl
    exact absurd (f.aligned _ hsecond) (by decide)
  have hmarked := (h.markICacheMask f.pAddr 0x80000000).markICacheMask ppf 1
  -- the instruction begins in the last line
  have hline : lineOf f.pAddr = 31 := by
    have hlt : pageOffset f.pAddr < 2 ^ 12 := Nat.mod_lt _ (by norm_num)
    unfold lineOf
    omega
  have hlast : ∀ l, (0x80000000 : BitVec 32).getLsbD l = true ↔ l = 31 := by
    intro l
    rw [show (0x80000000 : BitVec 32) = BitVec.twoPow 32 31 from rfl, BitVec.getLsbD_twoPow]
    simp [eq_comm]
  refine coherent_commitPageSplitTrace
    (s := { icache := s.icache.setEntry i _, stamps := _ }) hppf (fun j hlive => ?_)
    (fun j hj hlive hsome => ?_) h.next
  · by_cases hj : j = i
    · simp only [ICache.setEntry, hj, Function.update_self]
      refine ⟨fun _ => ⟨f.fetchModeMask, f.mode_lt, ?_⟩, fun l hl => ?_, fun l hl => ?_,
        fun k hk => ?_, fun ppf' hppf' => ?_⟩
      · rw [hi, hentry]
      · simp only [hentry, hline]
        exact ((hlast l).1 hl).ge
      · simp only [hentry]
        exact getLsbD_markICacheMask.2 (.inl (getLsbD_markICacheMask.2 (.inr ⟨rfl, hl⟩)))
      · simp only [hentry] at hk ⊢
        have hlt : pageOffset f.pAddr + k < 4096 := by omega
        exact ⟨hlt, (hlast _).2 (by omega)⟩
      · obtain rfl : ppf = ppf' := Option.some.inj hppf'
        simp only [hentry]
        exact ⟨f.aligned _ hsecond, by omega, getLsbD_markICacheMask.2 (.inr ⟨rfl, rfl⟩)⟩
    · simp only [ICache.setEntry, Function.update_of_ne hj] at hlive ⊢
      exact hmarked.stamped j hlive
  · simp only [ICache.setEntry, Function.update_of_ne hj] at hlive hsome
    exact h.split j hlive hsome

theorem Coherent.serveICacheMiss (h : s.Coherent) (f : Fetch) : (s.serveICacheMiss f).Coherent := by
  obtain ⟨i, hi⟩ : ∃ i, i = icacheHash f.pAddr f.fetchModeMask := ⟨_, rfl⟩
  have hset : Coherent { s with icache := s.icache.allocTrace.setEntry i (newEntry f.pAddr) } :=
    h.allocTrace.setEntry (fun _ => stamped_of_empty rfl rfl rfl) rfl
  unfold TraceCache.serveICacheMiss
  simp only [← hi]
  split
  · split
    · exact hset.setEntry (fun _ => stamped_of_empty rfl rfl rfl) rfl
    · rename_i ppf hsecond
      split at hsecond
      · rename_i hshort
        exact hset.pageSplit f hi hshort hsecond rfl
      · cases hsecond
  · have hready : Build.Ready f.pAddr
        { entry := newEntry f.pAddr, traceMask := 0, pAddr := f.pAddr
          remainingInPage := f.remainingInPage } := by
      refine ⟨⟨rfl, rfl, fun k hk => absurd hk (Nat.not_lt_zero k), fun l hl => ?_, rfl⟩, rfl,
        f.window⟩
      simp [Build.mask, newEntry] at hl
    have hsound := buildTrace_sound hset f bxMaxTraceLength hready
    generalize buildTrace f _ _ _ = r at hsound ⊢
    obtain ⟨b, merged⟩ := r
    subst hi
    refine ((hset.markICacheMask b.pAddr b.mask).setEntry (fun _ => Sound.stamped hsound ?_)
      hsound.crosses).commitTrace (if merged then b.entry.tlen else b.entry.tlen + 1)
    exact fun l hl => getLsbD_markICacheMask.2 (.inr ⟨rfl, hl⟩)

/-! ## Writing keeps coherence -/

/-- The walk hits a stamped trace that covers a line of the mask. -/
theorem Stamped.hit {c : ICache} {j l : ℕ} {stamps : ℕ → BitVec 32} {pAddr : UInt64}
    {mask : BitVec 32} (h : (c.entry j).Stamped j stamps)
    (hl : (c.entry j).traceMask.getLsbD l = true) (hmask : mask.getLsbD l = true)
    (hpage : stampHash pAddr = stampHash (c.entry j).pAddr) : c.Hit pAddr mask j := by
  have hboth : ((c.entry j).traceMask &&& mask).getLsbD l = true := by
    rw [BitVec.getLsbD_and, hl, hmask, Bool.true_and]
  obtain ⟨fm, hfm, hj⟩ := h.filed fun hzero => by simp [hzero] at hl
  have hreach := walk_reaches hfm hpage hmask (h.forward l hl)
  exact ⟨hj ▸ hreach, hpage, fun hzero => by simp [hzero] at hboth⟩

theorem Coherent.handleSMC (h : s.Coherent) (pAddr : UInt64) (mask : BitVec 32)
    {stamps : ℕ → BitVec 32}
    (hstamps : ∀ x l, (s.stamps x).getLsbD l = true →
      ¬ (x = stampHash pAddr ∧ mask.getLsbD l = true) → (stamps x).getLsbD l = true) :
    Coherent { icache := s.icache.handleSMC pAddr mask, stamps } := by
  obtain ⟨d, hd⟩ : ∃ d, d = s.icache.handleSMC pAddr mask := ⟨_, rfl⟩
  have hkept : ∀ j, (d.entry j).live = true → d.entry j = s.icache.entry j ∧
      ¬ s.icache.SplitTarget j ∧ ¬ s.icache.Hit pAddr mask j := by
    rw [hd]
    exact fun j => ICache.live_handleSMC
  have hnext : d.nextPageSplitIndex < 8 := by
    rw [hd]
    exact ICache.nextPageSplitIndex_handleSMC
  rw [← hd]
  refine ⟨fun j hlive => ?_, fun j hlive hsome => ?_, hnext⟩
  · obtain ⟨hsame, hsplit, hhit⟩ := hkept j hlive
    simp only [hsame] at hlive ⊢
    have hold := h.stamped j hlive
    refine ⟨hold.filed, hold.forward, fun l hl => ?_, hold.covered, fun ppf hppf => ?_⟩
    · -- a stamp is only lost for a line of the mask, and then the walk hits the trace
      refine hstamps _ l (hold.stamped l hl) fun hlost => hhit ?_
      exact Stamped.hit hold hl hlost.2 hlost.1.symm
    · exact absurd (h.split j hlive (hppf ▸ rfl)) hsplit
  · obtain ⟨hsame, hsplit, -⟩ := hkept j hlive
    simp only [hsame] at hlive hsome
    exact absurd (h.split j hlive hsome) hsplit

theorem Coherent.decWriteStamp (h : s.Coherent) (pAddr : UInt64) (len : ℕ) :
    (s.decWriteStamp pAddr len).Coherent := by
  unfold TraceCache.decWriteStamp
  simp only
  split
  · refine h.handleSMC pAddr _ fun x l hl hkept => ?_
    by_cases hx : x = stampHash pAddr
    · have hmask : (writeMask pAddr len).getLsbD l = false := by
        rw [← Bool.not_eq_true]
        exact fun hm => hkept ⟨hx, hm⟩
      subst hx
      have hl32 : l < 32 := BitVec.lt_of_getLsbD hl
      rw [Function.update_self, BitVec.getLsbD_and, BitVec.getLsbD_not, hl, hmask]
      simp [hl32]
    · rw [Function.update_of_ne hx]
      exact hl
  · exact h

theorem Coherent.decWriteStampPage (h : s.Coherent) (pAddr : UInt64) :
    (s.decWriteStampPage pAddr).Coherent := by
  unfold TraceCache.decWriteStampPage
  simp only
  split
  · refine h.handleSMC pAddr _ fun x l hl hkept => ?_
    have hl32 : l < 32 := BitVec.lt_of_getLsbD hl
    have hx : x ≠ stampHash pAddr := by
      rintro rfl
      refine hkept ⟨rfl, ?_⟩
      rw [show (0xFFFFFFFF : BitVec 32) = BitVec.allOnes 32 from rfl, BitVec.getLsbD_allOnes]
      exact decide_eq_true hl32
    rw [Function.update_of_ne hx]
    exact hl
  · exact h

/-! ## What a write drops -/

variable {i : ℕ} {pAddr addr : UInt64} {len : ℕ}

theorem live_decWriteStamp (hlive : ((s.decWriteStamp pAddr len).icache.entry i).live = true) :
    (s.decWriteStamp pAddr len).icache.entry i = s.icache.entry i := by
  unfold TraceCache.decWriteStamp at hlive ⊢
  simp only at hlive ⊢
  split at hlive
  · rename_i hstamp
    rw [if_pos hstamp]
    exact (ICache.live_handleSMC hlive).1
  · rename_i hstamp
    rw [if_neg hstamp]

/-- A byte written in a line the mask has: no live trace covers it any more. -/
theorem Coherent.dead_of_covers (h : s.Coherent) (hcover : (s.icache.entry i).Covers addr)
    (hpage : phys pAddr / 2 ^ 12 = phys addr / 2 ^ 12)
    (hmask : (writeMask pAddr len).getLsbD (lineOf addr) = true) :
    ((s.decWriteStamp pAddr len).icache.entry i).live = false := by
  rw [← Bool.not_eq_true]
  intro hlive
  have hold : (s.icache.entry i).live = true := live_decWriteStamp hlive ▸ hlive
  have hstamped := h.stamped i hold
  have hhash : ∀ {p : UInt64}, phys addr / 2 ^ 12 = phys p / 2 ^ 12 →
      stampHash pAddr = stampHash p := by
    intro p hp
    unfold phys at hpage hp
    unfold stampHash
    omega
  -- the stamp of the page has the line
  have hbit : (s.stamps (stampHash pAddr)).getLsbD (lineOf addr) = true := by
    rcases hcover with ⟨hp, hl⟩ | ⟨ppf, hcross, hp, hl⟩
    · rw [hhash hp]
      exact hstamped.stamped _ hl
    · rw [hhash hp, hl]
      exact (hstamped.edge ppf hcross).2.2
  have hboth :
      (s.stamps (stampHash pAddr) &&& writeMask pAddr len).getLsbD (lineOf addr) = true := by
    rw [BitVec.getLsbD_and, hbit, hmask, Bool.true_and]
  have hguard : s.stamps (stampHash pAddr) ≠ 0 ∧
      s.stamps (stampHash pAddr) &&& writeMask pAddr len ≠ 0 :=
    ⟨fun hzero => by simp [hzero] at hbit, fun hzero => by simp [hzero] at hboth⟩
  unfold TraceCache.decWriteStamp at hlive
  simp only [if_pos hguard] at hlive
  obtain ⟨-, hsplit, hhit⟩ := ICache.live_handleSMC hlive
  rcases hcover with ⟨hp, hl⟩ | ⟨ppf, hcross, -, -⟩
  · exact hhit (Stamped.hit hstamped hl hmask (hhash hp))
  · exact hsplit (h.split i hold (hcross ▸ rfl))

/-- A trace of a page with another stamp survives, unless it is listed or the time stamp runs
over. -/
theorem decWriteStamp_keeps (len : ℕ) (hpage : stampHash pAddr ≠ stampHash (s.icache.entry i).pAddr)
    (hsplit : ¬ s.icache.SplitTarget i)
    (hroom : s.icache.traceLinkTimeStamp.toNat + 1 < 2 ^ 32 - 1) :
    (s.decWriteStamp pAddr len).icache.entry i = s.icache.entry i ∧
      ¬ (s.decWriteStamp pAddr len).icache.SplitTarget i ∧
      (s.decWriteStamp pAddr len).icache.traceLinkTimeStamp.toNat ≤
        s.icache.traceLinkTimeStamp.toNat + 1 := by
  have htoNat : (s.icache.traceLinkTimeStamp + 1).toNat =
      s.icache.traceLinkTimeStamp.toNat + 1 := by
    rw [BitVec.toNat_add, Nat.mod_eq_of_lt (by simp; omega)]
    rfl
  have hstamp : s.icache.traceLinkTimeStamp + 1 ≠ 0xFFFFFFFF := by
    intro heq
    rw [heq] at htoNat
    simp at htoNat
    omega
  unfold TraceCache.decWriteStamp
  simp only
  split
  · obtain ⟨htime, -, -, hentry⟩ :=
      ICache.handleSMC_spec s.icache pAddr (writeMask pAddr len) hstamp
    refine ⟨(hentry i).2 ?_, ICache.splitTarget_handleSMC, ?_⟩
    · rintro (htarget | hhit)
      · exact hsplit htarget
      · exact hpage hhit.2.1
    · rw [htime, htoNat]
  · exact ⟨rfl, hsplit, Nat.le_succ _⟩

/-! ## The host's stores -/

section Stores

variable (bs : List (UInt64 × UInt8))

theorem writeMask_one : (writeMask addr 1).getLsbD (lineOf addr) = true := by
  have hlt := lineOf_lt addr
  unfold writeMask
  rw [BitVec.getLsbD_or, Bool.or_eq_true]
  refine .inl ?_
  simp [BitVec.getLsbD_shiftLeft, lineOf] at hlt ⊢
  exact hlt

/-- After one byte after another was written the cache is coherent, and what is live was so before
and covers none of them. -/
theorem Coherent.stores (h : s.Coherent) :
    (bs.foldl (fun s b => s.decWriteStamp b.1 1) s).Coherent ∧
      ∀ i, ((bs.foldl (fun s b => s.decWriteStamp b.1 1) s).icache.entry i).live = true →
        (bs.foldl (fun s b => s.decWriteStamp b.1 1) s).icache.entry i = s.icache.entry i ∧
          ∀ b ∈ bs, ¬ (s.icache.entry i).Covers b.1 := by
  induction bs generalizing s with
  | nil => exact ⟨h, fun i _ => ⟨rfl, fun b hb => nomatch hb⟩⟩
  | cons b bs ih =>
    rw [List.foldl_cons]
    obtain ⟨hcoherent, hlater⟩ := ih (h.decWriteStamp b.1 1)
    refine ⟨hcoherent, fun i hlive => ?_⟩
    obtain ⟨hsame, hbs⟩ := hlater i hlive
    have hmid : ((s.decWriteStamp b.1 1).icache.entry i).live = true := hsame ▸ hlive
    have hfirst := live_decWriteStamp hmid
    rw [hfirst] at hsame hbs
    refine ⟨hsame, fun x hx hcover => ?_⟩
    rcases List.mem_cons.1 hx with rfl | hx
    · rw [h.dead_of_covers hcover rfl writeMask_one] at hmid
      exact Bool.false_ne_true hmid
    · exact hbs x hx hcover

theorem stores_keep (i : ℕ)
    (hpage : ∀ b ∈ bs, stampHash b.1 ≠ stampHash (s.icache.entry i).pAddr)
    (hsplit : ¬ s.icache.SplitTarget i)
    (hroom : s.icache.traceLinkTimeStamp.toNat + bs.length < 2 ^ 32 - 1) :
    (bs.foldl (fun s b => s.decWriteStamp b.1 1) s).icache.entry i = s.icache.entry i := by
  induction bs generalizing s with
  | nil => rfl
  | cons b bs ih =>
    rw [List.length_cons] at hroom
    obtain ⟨hsame, hsplit', htime⟩ := decWriteStamp_keeps 1
      (hpage b (List.mem_cons_self ..)) hsplit (by omega)
    rw [List.foldl_cons, ih (fun x hx => ?_) hsplit' (by omega), hsame]
    rw [hsame]
    exact hpage x (List.mem_cons_of_mem _ hx)

end Stores

theorem Coherent.breakLinks (h : s.Coherent) :
    Coherent { s with icache := s.icache.breakLinks.1 } := by
  by_cases hstamp : s.icache.traceLinkTimeStamp + 1 = 0xFFFFFFFF
  · rw [ICache.breakLinks_of_overflow s.icache hstamp]
    exact coherent_flushICacheEntries _ _
  · obtain ⟨d, hbreak, -, hnext, -, hentry⟩ := ICache.breakLinks_spec s.icache hstamp
    rw [hbreak]
    have hkept : ∀ i, (d.entry i).live = true →
        d.entry i = s.icache.entry i ∧ ¬ s.icache.SplitTarget i := by
      intro i hlive
      have hnot : ¬ s.icache.SplitTarget i := by
        intro htarget
        rw [(hentry i).1 htarget, Trace.live_dead] at hlive
        exact Bool.false_ne_true hlive
      exact ⟨(hentry i).2 hnot, hnot⟩
    refine ⟨fun i hlive => ?_, fun i hlive hsome => ?_, hnext ▸ by norm_num⟩
    · simp only [(hkept i hlive).1] at hlive ⊢
      exact h.stamped i hlive
    · obtain ⟨hsame, hsplit⟩ := hkept i hlive
      simp only [hsame] at hlive hsome
      exact absurd (h.split i hlive hsome) hsplit

/-! ## Runs -/

/-- What happens to the cache: a fetch that misses, a store of the guest, one of a whole page, a
write of the host, a TLB flush, a flush of everything. -/
inductive Op
  | fetch (f : Fetch)
  | store (pAddr : UInt64) (len : ℕ)
  | storePage (pAddr : UInt64)
  | host (w : HostWrite)
  | breakLinks
  | flush

def step (s : TraceCache) : Op → TraceCache
  | .fetch f => s.serveICacheMiss f
  | .store pAddr len => s.decWriteStamp pAddr len
  | .storePage pAddr => s.decWriteStampPage pAddr
  | .host w => s.hostWrite w
  | .breakLinks => { s with icache := s.icache.breakLinks.1 }
  | .flush => s.flushICaches

/-- The cache the constructors of `bxICache_c` and `bxPageWriteStampTable` leave. -/
def powerOn : TraceCache where
  icache :=
    { entry _ :=
        { pAddr := invalidPhyAddress, traceMask := 0, tlen := 0, size := 0, crosses := none }
      mpindex := 0
      traceLinkTimeStamp := 0
      pageSplitIndex _ := { ppf := invalidPhyAddress, e := 0 }
      nextPageSplitIndex := 0 }
  stamps _ := 0

/-- The cache after any operations. -/
def run (ops : List Op) : TraceCache := ops.foldl step powerOn

theorem Coherent.step (h : s.Coherent) (op : Op) : (s.step op).Coherent := by
  cases op with
  | fetch f => exact h.serveICacheMiss f
  | store pAddr len => exact h.decWriteStamp pAddr len
  | storePage pAddr => exact h.decWriteStampPage pAddr
  | host w => exact (h.stores w.stores).1
  | breakLinks => exact h.breakLinks
  | flush => exact coherent_flushICacheEntries _ _

theorem coherent_run (ops : List Op) : (run ops).Coherent := by
  have hfold : ∀ {s : TraceCache}, s.Coherent → (ops.foldl TraceCache.step s).Coherent := by
    induction ops with
    | nil => exact fun h => h
    | cons op ops ih => exact fun h => ih (h.step op)
  exact hfold (coherent_flushICacheEntries powerOn.icache powerOn.stamps)

/-- **The trace cache is coherent under host writes.**  Whatever happened before, the stamp
invariant holds; a host write keeps it, leaves no live trace that covers or was decoded from a
written byte, and drops no trace of a page with another stamp that is not listed in
`pageSplitIndex`, as long as the link time stamp does not run over. -/
theorem hostWrite_coherent (s : TraceCache) (h : s.Coherent) (w : HostWrite) :
    (∀ ops, (run ops).Coherent) ∧ (s.hostWrite w).Coherent ∧
      (∀ i, ((s.hostWrite w).icache.entry i).live = true → ∀ b ∈ w.stores,
        ¬ ((s.hostWrite w).icache.entry i).Covers b.1 ∧
          ¬ ((s.hostWrite w).icache.entry i).DecodedFrom b.1) ∧
      ∀ i, (∀ b ∈ w.stores, stampHash b.1 ≠ stampHash (s.icache.entry i).pAddr) →
        ¬ s.icache.SplitTarget i →
        s.icache.traceLinkTimeStamp.toNat + w.stores.length < 2 ^ 32 - 1 →
        (s.hostWrite w).icache.entry i = s.icache.entry i := by
  obtain ⟨hcoherent, hlive⟩ := h.stores w.stores
  refine ⟨coherent_run, hcoherent, fun i hi b hb => ?_, stores_keep w.stores⟩
  obtain ⟨hsame, hnone⟩ := hlive i hi
  have hcover : ¬ ((s.hostWrite w).icache.entry i).Covers b.1 := hsame ▸ hnone b hb
  exact ⟨hcover, fun hfrom => hcover ((hcoherent.stamped i hi).covers hfrom)⟩

/-! ## Two runs -/

/-- A trace of one `hlt` at the begin of a page. -/
def hltFetch (pAddr : UInt64) (hpage : pageOffset pAddr = 0) : Fetch where
  pAddr := pAddr
  fetchModeMask := 0x85
  remainingInPage := 4096
  fetchDecode _ n := if n = 0 then none else some { iLen := 1, stop := true }
  secondPage := none
  mode_lt := by decide
  window := by rw [hpage]
  fits {a n d} h := by
    split at h
    · cases h
    · rename_i hn
      cases h
      exact ⟨le_rfl, by norm_num, Nat.one_le_iff_ne_zero.2 hn⟩
  second := nofun
  aligned := nofun

/-- An instruction that begins in the last two bytes of a page. -/
def splitFetch : Fetch where
  pAddr := 0x1FFE
  fetchModeMask := 0x85
  remainingInPage := 2
  fetchDecode _ _ := none
  secondPage := some 0x2000
  mode_lt := by decide
  window := by decide
  fits := nofun
  second _ := rfl
  aligned := by
    rintro _ ⟨⟩
    rfl

/-- The trace of the page next to the written one stays. -/
theorem hostWrite_coherent_hlt :
    ((run [.fetch (hltFetch 0x5000 rfl), .fetch (hltFetch 0x3000 rfl)]).hostWrite
        (.byte 0x5000 0xC3)).icache.entry (icacheHash 0x3000 0x85) =
      (run [.fetch (hltFetch 0x5000 rfl), .fetch (hltFetch 0x3000 rfl)]).icache.entry
        (icacheHash 0x3000 0x85) := by
  refine (hostWrite_coherent _ (coherent_run _) (.byte 0x5000 0xC3)).2.2.2 _ ?_ ?_ (by decide)
  · intro b hb
    obtain rfl := List.mem_singleton.1 hb
    decide
  · rintro ⟨k, -, hused, -⟩
    exact hused rfl

/-- A write to one page drops the trace that crosses from a second page into a third. -/
theorem hostWrite_drops_split :
    ¬ ∀ (ops : List Op) (w : HostWrite) (i : ℕ), ((run ops).icache.entry i).live = true →
      (∀ b ∈ w.stores, stampHash b.1 ≠ stampHash ((run ops).icache.entry i).pAddr ∧
        ∀ ppf, ((run ops).icache.entry i).crosses = some ppf → stampHash b.1 ≠ stampHash ppf) →
      (((run ops).hostWrite w).icache.entry i).live = true := by
  intro h
  have hlive := h [.fetch splitFetch, .fetch (hltFetch 0x5000 rfl)] (.byte 0x5000 0xC3)
    (icacheHash 0x1FFE 0x85) (by decide) (by
      intro b hb
      obtain rfl := List.mem_singleton.1 hb
      refine ⟨by decide, ?_⟩
      rintro _ ⟨⟩
      decide)
  obtain ⟨s, hs⟩ : ∃ s, s = run [.fetch splitFetch, .fetch (hltFetch 0x5000 rfl)] := ⟨_, rfl⟩
  rw [← hs] at hlive
  have hlisted : s.icache.SplitTarget (icacheHash 0x1FFE 0x85) := by
    rw [hs]
    exact ⟨0, by norm_num, by decide, rfl⟩
  have hguard : s.stamps (stampHash 0x5000) ≠ 0 ∧
      s.stamps (stampHash 0x5000) &&& writeMask 0x5000 1 ≠ 0 := by
    rw [hs]
    decide
  have hwrite : s.hostWrite (.byte 0x5000 0xC3) = s.decWriteStamp 0x5000 1 := rfl
  rw [hwrite] at hlive
  unfold TraceCache.decWriteStamp at hlive
  simp only [if_pos hguard] at hlive
  exact (ICache.live_handleSMC hlive).2.1 hlisted

end TraceCache

end Bochs
