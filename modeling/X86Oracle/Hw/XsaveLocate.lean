import Mathlib
import X86Oracle.Hw.XsaveProbe

/-!
# Where the components of an XSAVE image are

The architecture's own rule for the compacted format: a component starts where the components below
it in XCOMP_BV end, rounded up to 64 where CPUID asks for it.

* `area`: the running sum, over whichever components count.
* `locate_eq_some_iff`: `locate` follows the rule, with components of size zero counting as absent.
* `area_le`: the sum is far from overflow.
-/

namespace Hw

namespace XsaveLayout

/-- Component `i` begins here if the ones below it end at `offset`. -/
def start (cpuid : Cpuid) (i offset : ℕ) : ℕ :=
  if (cpuid 0x0D i).ecx.toNat.testBit 1 then (offset + 63) / 64 * 64 else offset

/-- The end of the components from 2 to below `k`, of those that count. -/
def area (cpuid : Cpuid) (counts : ℕ → Bool) (k : ℕ) : ℕ :=
  (List.range' 2 (k - 2)).foldl
    (fun offset i => if counts i then start cpuid i offset + (cpuid 0x0D i).eax.toNat else offset)
    576

/-- Where component `i` is in the compacted format. -/
def location (cpuid : Cpuid) (counts : ℕ → Bool) (i : ℕ) : ℕ :=
  start cpuid i (area cpuid counts i)

/-- XCOMP_BV has the component. -/
def inFormat (xcompBv : UInt64) (i : ℕ) : Bool := xcompBv.toNat.testBit i

/-- XCOMP_BV has the component, and CPUID a size for it. -/
def counted (cpuid : Cpuid) (xcompBv : UInt64) (i : ℕ) : Bool :=
  inFormat xcompBv i && decide ((cpuid 0x0D i).eax ≠ 0)

/-- What is asked of component `i`'s place `c`: XCR0 enables the component, CPUID gives it its size,
and the image has it, in the standard format at a nonzero offset of CPUID's, in the compacted one
where the components below it end. -/
def Placed (cpuid : Cpuid) (xcr0 xcompBv : UInt64) (i : ℕ) (c : XsaveComponent) : Prop :=
  xcr0.toNat.testBit i = true ∧ (cpuid 0x0D i).eax ≠ 0 ∧ c.size = (cpuid 0x0D i).eax.toNat ∧
    if inFormat xcompBv 63 then
      inFormat xcompBv i = true ∧ c.offset = location cpuid (counted cpuid xcompBv) i
    else (cpuid 0x0D i).ebx ≠ 0 ∧ c.offset = (cpuid 0x0D i).ebx.toNat

/-! ## Masks -/

theorem lacks_eq {mask : UInt64} {i : ℕ} (hi : i < 64) : lacks mask i = !mask.toNat.testBit i := by
  have hbit : ((1 : UInt64) <<< UInt64.ofNat i).toNat = 2 ^ i := by
    rw [UInt64.toNat_shiftLeft, UInt64.toNat_ofNat']
    have hmod : i % 2 ^ 64 % 64 = i := by omega
    rw [hmod, UInt64.toNat_one, Nat.one_shiftLeft]
    exact Nat.mod_eq_of_lt (Nat.pow_lt_pow_right (by norm_num) hi)
  have hand : (mask &&& (1 : UInt64) <<< UInt64.ofNat i).toNat =
      2 ^ i * (mask.toNat.testBit i).toNat := by
    rw [UInt64.toNat_and, hbit, Nat.and_two_pow]
    exact Nat.mul_comm ..
  unfold lacks
  cases hm : mask.toNat.testBit i with
  | false =>
    rw [hm] at hand
    exact beq_iff_eq.2 (UInt64.toNat_inj.1 hand)
  | true =>
    rw [hm] at hand
    refine beq_eq_false_iff_ne.2 fun heq => ?_
    rw [heq, UInt64.toNat_zero, Bool.toNat_true, Nat.mul_one] at hand
    exact absurd hand.symm (Nat.two_pow_pos i).ne'

theorem place_eq (cpuid : Cpuid) (i offset : ℕ) :
    (cpuid 0x0D i).place offset = start cpuid i offset := by
  have hand : ((cpuid 0x0D i).ecx &&& 2).toNat =
      2 * ((cpuid 0x0D i).ecx.toNat.testBit 1).toNat := by
    have hpow := Nat.and_two_pow (cpuid 0x0D i).ecx.toNat 1
    rw [UInt32.toNat_and, Nat.mul_comm]
    exact hpow
  unfold CpuidRegs.place start alignComponent
  refine if_congr ?_ rfl rfl
  rw [Ne, ← UInt32.toNat_inj, hand]
  cases (cpuid 0x0D i).ecx.toNat.testBit 1 <;> decide

/-! ## The loop -/

section Loop

variable {cpuid : Cpuid} {xcr0 xcompBv : UInt64} {i j size : ℕ} {c : XsaveComponent}

/-- A component before the one asked for moves the offset up, if it counts. -/
theorem locateCompacted_cons {k offset : ℕ} {rest : List ℕ} (hk : k < 64) (hne : k ≠ i) :
    locateCompacted cpuid xcompBv i size offset (k :: rest) =
      locateCompacted cpuid xcompBv i size (if counted cpuid xcompBv k then
        start cpuid k offset + (cpuid 0x0D k).eax.toNat else offset) rest := by
  rw [locateCompacted, lacks_eq hk, place_eq, counted, inFormat, if_neg hne]
  cases xcompBv.toNat.testBit k with
  | false => rfl
  | true =>
    rw [Bool.not_true, if_neg Bool.false_ne_true, Bool.true_and]
    by_cases heax : (cpuid 0x0D k).eax = 0
    · rw [if_pos heax, decide_eq_false (fun h => h heax), if_neg Bool.false_ne_true]
    · rw [if_neg heax, decide_eq_true heax, if_pos rfl]

theorem locateCompacted_last {offset : ℕ} (hi : i < 64) :
    locateCompacted cpuid xcompBv i size offset [i] =
      if counted cpuid xcompBv i then some ⟨start cpuid i offset, size⟩ else none := by
  rw [locateCompacted, lacks_eq hi, place_eq, counted, inFormat, if_pos rfl]
  cases xcompBv.toNat.testBit i with
  | false => rfl
  | true =>
    rw [Bool.not_true, if_neg Bool.false_ne_true, Bool.true_and]
    by_cases heax : (cpuid 0x0D i).eax = 0
    · rw [if_pos heax, decide_eq_false (fun h => h heax), if_neg Bool.false_ne_true]
      rfl
    · rw [if_neg heax, decide_eq_true heax, if_pos rfl]

theorem locateCompacted_append {is : List ℕ} (his : ∀ k ∈ is, k < 64 ∧ k ≠ i) (last : List ℕ) :
    ∀ offset, locateCompacted cpuid xcompBv i size offset (is ++ last) =
      locateCompacted cpuid xcompBv i size
        (is.foldl (fun offset k => if counted cpuid xcompBv k then
          start cpuid k offset + (cpuid 0x0D k).eax.toNat else offset) offset) last := by
  induction is with
  | nil => exact fun _ => rfl
  | cons k is ih =>
    intro offset
    obtain ⟨hk, hne⟩ := his k (List.mem_cons_self ..)
    rw [List.cons_append, locateCompacted_cons hk hne, List.foldl_cons]
    exact ih (fun k hk => his k (List.mem_cons_of_mem _ hk)) _

/-- The loop finds a component that counts at its location. -/
theorem locateCompacted_eq (h2 : 2 ≤ i) (h64 : i < 64) :
    locateCompacted cpuid xcompBv i size xsaveCompactBase (List.range' 2 (i - 1)) =
      if counted cpuid xcompBv i then some ⟨location cpuid (counted cpuid xcompBv) i, size⟩
      else none := by
  have hsplit : List.range' 2 (i - 1) = List.range' 2 (i - 2) ++ [i] := by
    have hcount : i - 1 = (i - 2) + 1 := by omega
    have hlast : 2 + 1 * (i - 2) = i := by omega
    rw [hcount, List.range'_concat, hlast]
  have hmem (k : ℕ) (hk : k ∈ List.range' 2 (i - 2)) : k < i := by
    rw [List.mem_range'_1] at hk
    omega
  rw [hsplit, locateCompacted_append (fun k hk => ⟨(hmem k hk).trans h64, (hmem k hk).ne⟩),
    locateCompacted_last h64]
  rfl

/-- When a component is found, and where. -/
theorem locate_eq_some_iff (h2 : 2 ≤ i) (h63 : i < 63) :
    locate cpuid xcr0 xcompBv i = some c ↔ Placed cpuid xcr0 xcompBv i c := by
  have hzero (r : UInt32) : r.toNat = 0 ↔ r = 0 := by
    rw [← UInt32.toNat_inj]
    rfl
  unfold locate
  simp only [lacks_eq (show i < 64 by omega), lacks_eq (show 63 < 64 by omega),
    locateCompacted_eq h2 (show i < 64 by omega), hzero]
  unfold Placed inFormat
  by_cases hxcr0 : xcr0.toNat.testBit i = true
  swap
  · simp [hxcr0]
  by_cases heax : (cpuid 0x0D i).eax = 0
  · simp [heax]
  by_cases hformat : xcompBv.toNat.testBit 63 = true
  · have hcounted : counted cpuid xcompBv i = xcompBv.toNat.testBit i := by
      rw [counted, inFormat, decide_eq_true heax, Bool.and_true]
    by_cases hin : xcompBv.toNat.testBit i = true
    · obtain ⟨offset, size⟩ := c
      simp [hxcr0, heax, hformat, hcounted, hin, eq_comm, and_comm]
    · simp [hformat, hin]
  · by_cases hebx : (cpuid 0x0D i).ebx = 0
    · simp [hformat, hebx]
    · obtain ⟨offset, size⟩ := c
      simp [hxcr0, heax, hformat, hebx, hzero, eq_comm, and_comm]

/-- Compacted components are above the header and clear of the later ones. -/
theorem locate_compacted (h2 : 2 ≤ i) (hformat : inFormat xcompBv 63 = true)
    (hc : locate cpuid xcr0 xcompBv i = some c) : 576 ≤ c.offset ∧
      ∀ j, i < j → ∀ d, locate cpuid xcr0 xcompBv j = some d → c.offset + c.size ≤ d.offset := by
  have hlacks : lacks xcompBv 63 = false := by
    rw [lacks_eq (by norm_num)]
    exact congrArg not hformat
  refine ⟨?_, fun j hij d hd => compacted_apart h2 hij hlacks hc hd⟩
  obtain ⟨-, -, hstd | ⟨-, hcompact⟩⟩ := locate_cases hc
  · rw [hlacks] at hstd
    exact absurd hstd.1 Bool.false_ne_true
  · exact (le_of_locateCompacted hcompact).1

theorem start_le (cpuid : Cpuid) (offset : ℕ) : start cpuid i offset ≤ offset + 63 := by
  unfold start
  split_ifs <;> omega

/-- The running sum grows by less than 2^33 with each component. -/
theorem area_le (cpuid : Cpuid) (counts : ℕ → Bool) (k : ℕ) :
    area cpuid counts k ≤ 576 + (k - 2) * 2 ^ 33 := by
  unfold area
  obtain ⟨base, hbase⟩ : ∃ base, base = 576 := ⟨_, rfl⟩
  obtain ⟨step, hstep⟩ : ∃ step, step = 2 ^ 33 := ⟨_, rfl⟩
  rw [← hbase, ← hstep]
  generalize k - 2 = n
  induction n with
  | zero => exact Nat.le_add_right ..
  | succ n ih =>
    rw [List.range'_concat, List.foldl_append, List.foldl_cons, List.foldl_nil, Nat.succ_mul n]
    generalize (List.range' 2 n).foldl _ base = offset at ih
    have hsize := (cpuid 0x0D (2 + 1 * n)).eax.toNat_lt
    have hstart := start_le cpuid (i := 2 + 1 * n) offset
    split_ifs <;> omega

end Loop

/-- **Where components are.**  `locate` finds a component exactly where it is placed.  Compacted
components are above the header and clear of each other. -/
theorem locate_placed (cpuid : Cpuid) (xcr0 xcompBv : UInt64) {i : ℕ} (h2 : 2 ≤ i) (h63 : i < 63) :
    (∀ c, locate cpuid xcr0 xcompBv i = some c ↔ Placed cpuid xcr0 xcompBv i c) ∧
    (inFormat xcompBv 63 = true → ∀ c, locate cpuid xcr0 xcompBv i = some c →
      576 ≤ c.offset ∧ ∀ j, i < j → ∀ d, locate cpuid xcr0 xcompBv j = some d →
        c.offset + c.size ≤ d.offset) :=
  ⟨fun _ => locate_eq_some_iff h2 h63, fun hformat _ hc => locate_compacted h2 hformat hc⟩

theorem locate_placed_zmm :
    (∀ c, locate avx512Cpuid 0xE7 0x80000000000000E6 6 = some c ↔
      Placed avx512Cpuid 0xE7 0x80000000000000E6 6 c) ∧
    (inFormat 0x80000000000000E6 63 = true →
      ∀ c, locate avx512Cpuid 0xE7 0x80000000000000E6 6 = some c →
        576 ≤ c.offset ∧ ∀ j, 6 < j → ∀ d, locate avx512Cpuid 0xE7 0x80000000000000E6 j = some d →
          c.offset + c.size ≤ d.offset) :=
  locate_placed avx512Cpuid 0xE7 0x80000000000000E6 (by decide) (by decide)

/-- A CPUID that asks for alignment of component 3, to which it gives no size. -/
def alignedEmpty : Cpuid := fun _ i =>
  match i with
  | 2 => ⟨100, 0, 0, 0⟩
  | 3 => ⟨0, 0, 2, 0⟩
  | 6 => ⟨512, 0, 0, 0⟩
  | _ => ⟨0, 0, 0, 0⟩

/-- There the rule for all components of XCOMP_BV puts component 6 at 704, the code at 676. -/
theorem alignedEmpty_differs :
    ¬ ∀ (cpuid : Cpuid) (xcr0 xcompBv : UInt64) (c : XsaveComponent), inFormat xcompBv 63 = true →
      locate cpuid xcr0 xcompBv 6 = some c → c.offset = location cpuid (inFormat xcompBv) 6 := by
  intro h
  have hoffset := h alignedEmpty 0xFF 0x800000000000004C ⟨676, 512⟩ (by decide) (by decide)
  exact absurd hoffset (by decide)

end XsaveLayout

end Hw
