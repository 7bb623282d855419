import Mathlib
import X86Oracle.Bochs.StatusFlags
import X86Oracle.Bochs.WideInt

/-!
# Bochs: multiplication and division

`cpu/mult8.cc`, `mult16.cc`, `mult32.cc` and `mult64.cc`.  Up to 32 bits the handlers compute in
a type twice as wide; at 64 bits they call `wide_int.cc` and compare the two words.

* `MUL`, `IMUL`, `DIV` and `IDIV` are the handlers for all sizes, for operands that have been read.
  `none` is a divide error.
* `MUL_exact`, `IMUL_exact`: both words, and the flags that say whether the low one is enough.
* `DIV_exact`, `IDIV_exact`: there is a divide error exactly if the divisor is zero or the quotient
  does not fit, and otherwise quotient and remainder are right.
-/

namespace Bochs

open Carries

/-! ## The handlers -/

/-- The two words of a product and the flags. -/
structure Product (w : ℕ) where
  high : BitVec w
  low : BitVec w
  flags : LazyFlags

/-- The flags of a product: CF and OF are set if its low word is not enough. -/
def productFlags {w : ℕ} (s : OpSize) (low : BitVec w) (lost : Bool) : LazyFlags :=
  let f := LazyFlags.SET_FLAGS_OSZAPC_LOGIC s low
  if lost then f.set_flags_OxxxxC true true else f

section Narrow

variable (s : OpSize) (op1 op2 : BitVec s.bits)

/-- `MUL_ALEbR`, `MUL_AXEwR` and `MUL_EAXEdR`. -/
def mulNarrow : Product s.bits :=
  let product : BitVec (s.bits + s.bits) := op1.setWidth _ * op2.setWidth _
  let high := (product >>> s.bits).setWidth s.bits
  let low := product.setWidth s.bits
  ⟨high, low, productFlags s low (high != 0)⟩

/-- `IMUL_ALEbR`, `IMUL_AXEwR` and `IMUL_EAXEdR`. -/
def imulNarrow : Product s.bits :=
  let product : BitVec (s.bits + s.bits) := op1.signExtend _ * op2.signExtend _
  let high := (product >>> s.bits).setWidth s.bits
  let low := product.setWidth s.bits
  ⟨high, low, productFlags s low (product != low.signExtend _)⟩

variable (high low : BitVec s.bits)

/-- `DIV_ALEbR`, `DIV_AXEwR` and `DIV_EAXEdR`: quotient and remainder of the double word by
`op2`. -/
def divNarrow : Option (BitVec s.bits × BitVec s.bits) :=
  if op2 = 0 then none
  else
    let dividend := high ++ low
    let quotient := dividend / op2.setWidth _
    let remainder := (dividend % op2.setWidth _).setWidth s.bits
    let quotientl := quotient.setWidth s.bits
    if quotient ≠ quotientl.setWidth _ then none else some (quotientl, remainder)

/-- `IDIV_ALEbR`, `IDIV_AXEwR` and `IDIV_EAXEdR`. -/
def idivNarrow : Option (BitVec s.bits × BitVec s.bits) :=
  let dividend := high ++ low
  if dividend = BitVec.intMin _ then none
  else if op2 = 0 then none
  else
    let quotient := dividend.sdiv (op2.signExtend _)
    let remainder := (dividend.srem (op2.signExtend _)).setWidth s.bits
    let quotientl := quotient.setWidth s.bits
    if quotient ≠ quotientl.signExtend _ then none else some (quotientl, remainder)

end Narrow

section Wide

variable (op1 op2 high low : BitVec 64)

/-- The handler of 64 bits, over `long_mul`. -/
def MUL_RAXEq : Product 64 :=
  let product := long_mul op1 op2
  ⟨product.hi, product.lo, productFlags .qword product.lo (product.hi != 0)⟩

/-- The sum of the high word and the sign of the low one is zero for a sign extension. -/
def IMUL_RAXEq : Product 64 :=
  let product := long_imul op1 op2
  ⟨product.hi, product.lo,
    productFlags .qword product.lo (product.hi + (product.lo >>> 63) != 0)⟩

def DIV_RAXEq : Option (BitVec 64 × BitVec 64) :=
  if op2 = 0 then none
  else
    let r := long_div ⟨low, high⟩ op2
    if r.1.hi ≠ 0 then none else some (r.1.lo, r.2)

def IDIV_RAXEq : Option (BitVec 64 × BitVec 64) :=
  if high = 0x8000000000000000 ∧ low = 0 then none
  else if op2 = 0 then none
  else
    let r := long_idiv ⟨low, high⟩ op2
    if (r.1.lo.msb = false ∧ r.1.hi ≠ 0) ∨ (r.1.lo.msb = true ∧ r.1.hi ≠ 0xffffffffffffffff) then
      none
    else some (r.1.lo, r.2)

end Wide

def MUL (s : OpSize) (op1 op2 : BitVec s.bits) : Product s.bits :=
  match s with
  | .byte => mulNarrow .byte op1 op2
  | .word => mulNarrow .word op1 op2
  | .dword => mulNarrow .dword op1 op2
  | .qword => MUL_RAXEq op1 op2

def IMUL (s : OpSize) (op1 op2 : BitVec s.bits) : Product s.bits :=
  match s with
  | .byte => imulNarrow .byte op1 op2
  | .word => imulNarrow .word op1 op2
  | .dword => imulNarrow .dword op1 op2
  | .qword => IMUL_RAXEq op1 op2

/-- The narrower handlers divide in a word of twice the size. -/
def DIV (s : OpSize) (op2 high low : BitVec s.bits) : Option (BitVec s.bits × BitVec s.bits) :=
  match s with
  | .byte => divNarrow .byte op2 high low
  | .word => divNarrow .word op2 high low
  | .dword => divNarrow .dword op2 high low
  | .qword => DIV_RAXEq op2 high low

def IDIV (s : OpSize) (op2 high low : BitVec s.bits) : Option (BitVec s.bits × BitVec s.bits) :=
  match s with
  | .byte => idivNarrow .byte op2 high low
  | .word => idivNarrow .word op2 high low
  | .dword => idivNarrow .dword op2 high low
  | .qword => IDIV_RAXEq op2 high low

/-! ## Products -/

section Products

variable {w : ℕ} {s : OpSize}

theorem status_productFlags (low : BitVec s.bits) (lost : Bool) :
    (productFlags s low lost).status = .ofResult low lost false lost := by
  unfold productFlags
  cases lost with
  | true =>
    rw [if_pos rfl, LazyFlags.status_set_flags_OxxxxC, LazyFlags.status_LOGIC, BitVec.setWidth_eq]
    rfl
  | false =>
    rw [if_neg Bool.false_ne_true, LazyFlags.status_LOGIC, BitVec.setWidth_eq]

/-- The two words of a number. -/
theorem words_toNat (p : BitVec (w + w)) :
    ((p >>> w).setWidth w).toNat = p.toNat / 2 ^ w ∧ (p.setWidth w).toNat = p.toNat % 2 ^ w := by
  have hp : p.toNat < 2 ^ w * 2 ^ w := by
    rw [← pow_add]
    exact p.isLt
  refine ⟨?_, BitVec.toNat_setWidth ..⟩
  rw [BitVec.toNat_setWidth, BitVec.toNat_ushiftRight, Nat.shiftRight_eq_div_pow]
  exact Nat.mod_eq_of_lt (Nat.div_lt_of_lt_mul hp)

theorem bne_zero (x : BitVec w) : (x != 0) = decide (0 < x.toNat) := by
  rw [Bool.eq_iff_iff, bne_iff_ne, decide_eq_true_eq, Nat.pos_iff_ne_zero, ne_eq, ne_eq,
    BitVec.toNat_eq]
  rfl

/-- A double word is its two words. -/
theorem words_append (p : BitVec (w + w)) :
    (p >>> w).setWidth w ++ p.setWidth w = p := by
  apply BitVec.eq_of_getLsbD_eq
  intro i hi
  rw [BitVec.getLsbD_append]
  split_ifs with h
  · rw [BitVec.getLsbD_setWidth, decide_eq_true h, Bool.true_and]
  · have hback : w + (i - w) = i := by omega
    rw [BitVec.getLsbD_setWidth, BitVec.getLsbD_ushiftRight, hback,
      decide_eq_true (by omega : i - w < w), Bool.true_and]

theorem toInt_words (hw : 0 < w) (p : BitVec (w + w)) :
    ((p >>> w).setWidth w).toInt * 2 ^ w + (p.setWidth w).toNat = p.toInt := by
  conv_rhs => rw [← words_append p]
  rw [BitVec.toInt_append, if_neg (by simpa using hw.ne'), mul_comm]

theorem toInt_low {v : ℕ} (hwv : w ≤ v) (p : BitVec v) :
    (p.setWidth w).toInt = p.toInt.bmod (2 ^ w) := by
  rw [BitVec.toInt_setWidth, BitVec.toInt_eq_toNat_bmod,
    Int.bmod_bmod_of_dvd (pow_dvd_pow 2 hwv)]

/-- A product is lost exactly when it does not fit the signed range. -/
theorem bmod_eq_iff (hw : 0 < w) (x : ℤ) : x = x.bmod (2 ^ w) ↔ overflows (w - 1) x = false := by
  obtain ⟨k, rfl⟩ : ∃ k, w = k + 1 := ⟨w - 1, by omega⟩
  have hpow : ((2 ^ (k + 1) : ℕ) : ℤ) = 2 * 2 ^ k := by
    push_cast
    ring
  have hpos : 0 < (2 : ℤ) ^ k := by positivity
  unfold overflows
  rw [Nat.add_sub_cancel, decide_eq_false_iff_not, not_or, not_lt, not_le]
  constructor
  · intro h
    have hle := Int.le_bmod (x := x) (m := 2 ^ (k + 1)) (by positivity)
    have hlt := Int.bmod_lt (x := x) (m := 2 ^ (k + 1)) (by positivity)
    rw [← h, hpow] at hle hlt
    omega
  · rintro ⟨hle, hlt⟩
    exact (Int.bmod_eq_of_le (by rw [hpow]; omega) (by rw [hpow]; omega)).symm

/-- A number is the sign extension of its low bits if it fits in them. -/
theorem eq_signExtend_iff {v : ℕ} (hw : 0 < w) (hwv : w ≤ v) (p : BitVec v) :
    p = (p.setWidth w).signExtend v ↔ overflows (w - 1) p.toInt = false := by
  rw [← bmod_eq_iff hw, ← BitVec.toInt_inj, BitVec.toInt_signExtend_of_le hwv, toInt_low hwv]

theorem mulNarrow_exact (s : OpSize) (op1 op2 : BitVec s.bits) :
    let r := mulNarrow s op1 op2
    let p := op1.toNat * op2.toNat
    r.high.toNat * 2 ^ s.bits + r.low.toNat = p ∧
      r.flags.status = .ofResult r.low (decide (2 ^ s.bits ≤ p)) false
        (decide (2 ^ s.bits ≤ p)) := by
  have hlt : op1.toNat * op2.toNat < 2 ^ (s.bits + s.bits) := by
    rw [pow_add]
    exact Nat.mul_lt_mul'' op1.isLt op2.isLt
  have hproduct : (op1.setWidth (s.bits + s.bits) * op2.setWidth (s.bits + s.bits)).toNat =
      op1.toNat * op2.toNat := by
    rw [BitVec.toNat_mul, BitVec.toNat_setWidth_of_le (Nat.le_add_right _ _),
      BitVec.toNat_setWidth_of_le (Nat.le_add_right _ _), Nat.mod_eq_of_lt hlt]
  obtain ⟨hhigh, hlow⟩ := words_toNat (op1.setWidth (s.bits + s.bits) * op2.setWidth _)
  rw [hproduct] at hhigh hlow
  have hlost : decide (0 < op1.toNat * op2.toNat / 2 ^ s.bits) =
      decide (2 ^ s.bits ≤ op1.toNat * op2.toNat) :=
    decide_eq_decide.2 (Nat.div_pos_iff.trans (and_iff_right (Nat.two_pow_pos _)))
  unfold mulNarrow
  dsimp only
  rw [status_productFlags, bne_zero, hhigh, hlow, hlost]
  exact ⟨Nat.div_add_mod' _ _, rfl⟩

/-- A product has room in a double word. -/
theorem toInt_signExtend_mul (hw : 0 < w) (x y : BitVec w) :
    (x.signExtend (w + w) * y.signExtend (w + w)).toInt = x.toInt * y.toInt := by
  have hle := BitVec.toInt_mul_toInt_le (x := x) (y := y)
  have hge := BitVec.le_toInt_mul_toInt (x := x) (y := y)
  have hpow : ((2 ^ (w + w) : ℕ) : ℤ) = 4 * 2 ^ (w * 2 - 2) := by
    have hexp : w + w = w * 2 - 2 + 2 := by omega
    rw [hexp, pow_add]
    push_cast
    ring
  have hpos : 0 < (2 : ℤ) ^ (w * 2 - 2) := by positivity
  rw [BitVec.toInt_mul, BitVec.toInt_signExtend_of_le (Nat.le_add_right _ _),
    BitVec.toInt_signExtend_of_le (Nat.le_add_right _ _)]
  exact Int.bmod_eq_of_le (by rw [hpow]; omega) (by rw [hpow]; omega)

theorem imulNarrow_exact (s : OpSize) (op1 op2 : BitVec s.bits) :
    let r := imulNarrow s op1 op2
    let p := op1.toInt * op2.toInt
    r.high.toInt * 2 ^ s.bits + r.low.toNat = p ∧
      r.flags.status = .ofResult r.low (overflows (s.bits - 1) p) false
        (overflows (s.bits - 1) p) := by
  have hpos := s.bits_pos
  have hproduct := toInt_signExtend_mul hpos op1 op2
  have hwords := toInt_words hpos
    (op1.signExtend (s.bits + s.bits) * op2.signExtend (s.bits + s.bits))
  have hfits := eq_signExtend_iff hpos (Nat.le_add_right s.bits s.bits)
    (op1.signExtend (s.bits + s.bits) * op2.signExtend (s.bits + s.bits))
  rw [hproduct] at hwords hfits
  unfold imulNarrow
  dsimp only
  generalize op1.signExtend (s.bits + s.bits) * op2.signExtend (s.bits + s.bits) = p at *
  have hlost : (p != (p.setWidth s.bits).signExtend (s.bits + s.bits)) =
      overflows (s.bits - 1) (op1.toInt * op2.toInt) := by
    rw [Bool.eq_iff_iff, bne_iff_ne, ne_eq, hfits, Bool.not_eq_false]
  rw [status_productFlags, hlost]
  exact ⟨hwords, rfl⟩

theorem MUL_RAXEq_exact (op1 op2 : BitVec 64) :
    let r := MUL_RAXEq op1 op2
    let p := op1.toNat * op2.toNat
    r.high.toNat * 2 ^ 64 + r.low.toNat = p ∧
      r.flags.status = .ofResult r.low (decide (2 ^ 64 ≤ p)) false (decide (2 ^ 64 ≤ p)) := by
  have hproduct := toNat_long_mul op1 op2
  unfold MUL_RAXEq
  dsimp only
  generalize long_mul op1 op2 = z at hproduct ⊢
  have hlo := z.lo.isLt
  have hlost : (z.hi != 0) = decide (2 ^ 64 ≤ op1.toNat * op2.toNat) := by
    rw [bne_zero, ← hproduct]
    unfold Bit128.toNat
    exact decide_eq_decide.2 (by omega)
  have hstatus := status_productFlags (s := .qword) z.lo (z.hi != 0)
  rw [hstatus, hlost]
  exact ⟨hproduct, rfl⟩

/-- The sum of the high word and the sign of the low one. -/
theorem sign_sum (z : Bit128) :
    (z.hi + (z.lo >>> 63) != 0) = overflows 63 z.toInt := by
  have hlo := z.lo.isLt
  have hhi := z.hi.isLt
  rw [bne_zero, BitVec.toNat_add, BitVec.toNat_ushiftRight, Nat.shiftRight_eq_div_pow]
  unfold overflows Bit128.toInt
  refine decide_eq_decide.2 ?_
  rw [BitVec.toInt_eq_toNat_cond]
  split_ifs <;> omega

theorem IMUL_RAXEq_exact (op1 op2 : BitVec 64) :
    let r := IMUL_RAXEq op1 op2
    let p := op1.toInt * op2.toInt
    r.high.toInt * 2 ^ 64 + r.low.toNat = p ∧
      r.flags.status = .ofResult r.low (overflows 63 p) false (overflows 63 p) := by
  have hproduct := toInt_long_imul op1 op2
  have hsum := sign_sum (long_imul op1 op2)
  unfold IMUL_RAXEq
  dsimp only
  generalize long_imul op1 op2 = z at hproduct hsum ⊢
  have hstatus := status_productFlags (s := .qword) z.lo (z.hi + (z.lo >>> 63) != 0)
  rw [hstatus, hsum, hproduct]
  exact ⟨hproduct, rfl⟩

end Products

/-- **An unsigned product is exact**, and CF and OF say whether it needs the high word. -/
theorem MUL_exact (s : OpSize) (op1 op2 : BitVec s.bits) :
    let r := MUL s op1 op2
    let p := op1.toNat * op2.toNat
    r.high.toNat * 2 ^ s.bits + r.low.toNat = p ∧
      r.flags.status = .ofResult r.low (decide (2 ^ s.bits ≤ p)) false
        (decide (2 ^ s.bits ≤ p)) := by
  cases s with
  | byte => exact mulNarrow_exact .byte op1 op2
  | word => exact mulNarrow_exact .word op1 op2
  | dword => exact mulNarrow_exact .dword op1 op2
  | qword => exact MUL_RAXEq_exact op1 op2

/-- **A signed product is exact**, and CF and OF say whether it needs the high word. -/
theorem IMUL_exact (s : OpSize) (op1 op2 : BitVec s.bits) :
    let r := IMUL s op1 op2
    let p := op1.toInt * op2.toInt
    r.high.toInt * 2 ^ s.bits + r.low.toNat = p ∧
      r.flags.status = .ofResult r.low (overflows (s.bits - 1) p) false
        (overflows (s.bits - 1) p) := by
  cases s with
  | byte => exact imulNarrow_exact .byte op1 op2
  | word => exact imulNarrow_exact .word op1 op2
  | dword => exact imulNarrow_exact .dword op1 op2
  | qword => exact IMUL_RAXEq_exact op1 op2

/-! ## Quotients -/

section Quotients

variable {w : ℕ}

theorem toNat_double (high low : BitVec w) :
    (high ++ low).toNat = high.toNat * 2 ^ w + low.toNat := by
  rw [BitVec.toNat_append, ← Nat.shiftLeft_add_eq_or_of_lt low.isLt, Nat.shiftLeft_eq]

theorem toInt_double (hw : 0 < w) (high low : BitVec w) :
    (high ++ low).toInt = high.toInt * 2 ^ w + low.toNat := by
  rw [BitVec.toInt_append, if_neg (by simpa using hw.ne'), mul_comm]

/-- What a division gives: a divide error, or a quotient and a remainder. -/
def Divides (dividend divisor : ℕ) (r : Option (BitVec w × BitVec w)) : Prop :=
  (r = none ↔ divisor = 0 ∨ 2 ^ w ≤ dividend / divisor) ∧
    ∀ q m, r = some (q, m) → q.toNat = dividend / divisor ∧ m.toNat = dividend % divisor

section

variable {n d : ℕ} {q m : BitVec w}

theorem divides_none (h : d = 0 ∨ 2 ^ w ≤ n / d) :
    Divides n d (none : Option (BitVec w × BitVec w)) :=
  ⟨iff_of_true rfl h, fun _ _ hsome => absurd hsome.symm (Option.some_ne_none _)⟩

theorem divides_some (hd : d ≠ 0) (hfits : n / d < 2 ^ w) (hq : q.toNat = n / d)
    (hm : m.toNat = n % d) : Divides n d (some (q, m)) := by
  refine ⟨iff_of_false (Option.some_ne_none _) (not_or.2 ⟨hd, not_le.2 hfits⟩), ?_⟩
  intro q' m' hsome
  obtain ⟨rfl, rfl⟩ := Prod.mk.inj (Option.some.inj hsome)
  exact ⟨hq, hm⟩

end

/-- The quotient is refused exactly when it does not fit. -/
theorem divNarrow_divides (s : OpSize) (op2 high low : BitVec s.bits) :
    Divides (high.toNat * 2 ^ s.bits + low.toNat) op2.toNat (divNarrow s op2 high low) := by
  unfold divNarrow
  by_cases hzero : op2 = 0
  · rw [if_pos hzero, hzero]
    exact divides_none (.inl rfl)
  · have hne : op2.toNat ≠ 0 := fun h => hzero (BitVec.eq_of_toNat_eq h)
    have hmod := Nat.mod_lt (high.toNat * 2 ^ s.bits + low.toNat) (Nat.pos_of_ne_zero hne)
    have hwide : (op2.setWidth (s.bits + s.bits)).toNat = op2.toNat :=
      BitVec.toNat_setWidth_of_le (Nat.le_add_right _ _)
    have hquotient : ((high ++ low) / op2.setWidth (s.bits + s.bits)).toNat =
        (high.toNat * 2 ^ s.bits + low.toNat) / op2.toNat := by
      rw [BitVec.toNat_udiv, toNat_double, hwide]
    have hremainder : ((high ++ low) % op2.setWidth (s.bits + s.bits)).toNat =
        (high.toNat * 2 ^ s.bits + low.toNat) % op2.toNat := by
      rw [BitVec.toNat_umod, toNat_double, hwide]
    rw [if_neg hzero]
    dsimp only
    generalize (high ++ low) / op2.setWidth (s.bits + s.bits) = quotient at hquotient ⊢
    generalize (high ++ low) % op2.setWidth (s.bits + s.bits) = remainder at hremainder ⊢
    generalize high.toNat * 2 ^ s.bits + low.toNat = n at *
    have hfits : quotient = (quotient.setWidth s.bits).setWidth (s.bits + s.bits) ↔
        n / op2.toNat < 2 ^ s.bits := by
      rw [BitVec.toNat_eq, BitVec.toNat_setWidth_of_le (Nat.le_add_right _ _),
        BitVec.toNat_setWidth, hquotient]
      exact ⟨fun h => h ▸ Nat.mod_lt _ (Nat.two_pow_pos _), fun h => (Nat.mod_eq_of_lt h).symm⟩
    by_cases hq : n / op2.toNat < 2 ^ s.bits
    · rw [if_neg (not_not.2 (hfits.2 hq))]
      refine divides_some hne hq ?_ ?_
      · rw [BitVec.toNat_setWidth, hquotient, Nat.mod_eq_of_lt hq]
      · rw [BitVec.toNat_setWidth, hremainder, Nat.mod_eq_of_lt (hmod.trans op2.isLt)]
    · rw [if_pos fun h => hq (hfits.1 h)]
      exact divides_none (.inr (not_lt.1 hq))

theorem DIV_RAXEq_divides (op2 high low : BitVec 64) :
    Divides (high.toNat * 2 ^ 64 + low.toNat) op2.toNat (DIV_RAXEq op2 high low) := by
  unfold DIV_RAXEq
  by_cases hzero : op2 = 0
  · rw [if_pos hzero, hzero]
    exact divides_none (.inl rfl)
  · have hne : op2.toNat ≠ 0 := fun h => hzero (BitVec.eq_of_toNat_eq h)
    have hpos := Nat.pos_of_ne_zero hne
    have hexact := @long_div_exact ⟨low, high⟩ op2 hpos
    have hlarge := @long_div_large ⟨low, high⟩ op2 hpos
    have hvalue : (⟨low, high⟩ : Bit128).toNat = high.toNat * 2 ^ 64 + low.toNat := rfl
    rw [hvalue] at hexact hlarge
    rw [if_neg hzero]
    dsimp only
    generalize long_div ⟨low, high⟩ op2 = r at hexact hlarge ⊢
    generalize high.toNat * 2 ^ 64 + low.toNat = n at *
    have hlo := r.1.lo.isLt
    have hhi : r.1.hi = 0 ↔ r.1.hi.toNat = 0 := BitVec.toNat_eq
    unfold Bit128.toNat at hexact hlarge
    by_cases hq : n / op2.toNat < 2 ^ 64
    · obtain ⟨hquotient, hremainder⟩ := hexact hq
      have hhigh : r.1.hi.toNat = 0 := by omega
      rw [if_neg (not_not.2 (hhi.2 hhigh))]
      exact divides_some hne hq (by omega) hremainder
    · have hover := hlarge (not_lt.1 hq)
      have hhigh : r.1.hi.toNat ≠ 0 := by omega
      rw [if_pos fun h => hhigh (hhi.1 h)]
      exact divides_none (.inr (not_lt.1 hq))

/-- What a signed division gives: quotients are rounded towards zero. -/
def SignedDivides (dividend divisor : ℤ) (r : Option (BitVec w × BitVec w)) : Prop :=
  (r = none ↔ divisor = 0 ∨ overflows (w - 1) (dividend.tdiv divisor) = true) ∧
    ∀ q m, r = some (q, m) → q.toInt = dividend.tdiv divisor ∧ m.toInt = dividend.tmod divisor

section

variable {n d : ℤ} {q m : BitVec w}

theorem signedDivides_none (h : d = 0 ∨ overflows (w - 1) (n.tdiv d) = true) :
    SignedDivides n d (none : Option (BitVec w × BitVec w)) :=
  ⟨iff_of_true rfl h, fun _ _ hsome => absurd hsome.symm (Option.some_ne_none _)⟩

theorem signedDivides_some (hd : d ≠ 0) (hfits : overflows (w - 1) (n.tdiv d) = false)
    (hq : q.toInt = n.tdiv d) (hm : m.toInt = n.tmod d) : SignedDivides n d (some (q, m)) := by
  refine ⟨iff_of_false (Option.some_ne_none _) (not_or.2 ⟨hd, by rw [hfits]; decide⟩), ?_⟩
  intro q' m' hsome
  obtain ⟨rfl, rfl⟩ := Prod.mk.inj (Option.some.inj hsome)
  exact ⟨hq, hm⟩

end

theorem natAbs_toInt_le (hw : 0 < w) (x : BitVec w) : x.toInt.natAbs ≤ 2 ^ (w - 1) := by
  have hlt := BitVec.two_mul_toInt_lt (x := x)
  have hle := BitVec.le_two_mul_toInt (x := x)
  have hpow : (2 : ℤ) ^ w = 2 * ((2 ^ (w - 1) : ℕ) : ℤ) := by
    push_cast
    rw [← pow_succ', Nat.sub_add_cancel hw]
  omega

/-- No quotient of the least dividend fits. -/
theorem least_overflows (hw : 0 < w) {op2 : BitVec w} (hne : op2.toInt ≠ 0) :
    overflows (w - 1) ((-2 ^ (w + w - 1) : ℤ).tdiv op2.toInt) = true := by
  have hpos := Int.natAbs_pos.2 hne
  have hle := natAbs_toInt_le hw op2
  have habs : (-2 ^ (w + w - 1) : ℤ).natAbs = 2 ^ (w - 1) * 2 ^ w := by
    rw [Int.natAbs_neg, Int.natAbs_pow, ← pow_add]
    congr 1
    omega
  have hquotient : 2 ^ w ≤ 2 ^ (w - 1) * 2 ^ w / op2.toInt.natAbs := by
    rw [Nat.le_div_iff_mul_le hpos, mul_comm]
    exact Nat.mul_le_mul_right _ hle
  have hpow : (2 : ℤ) ^ w = 2 * 2 ^ (w - 1) := by rw [← pow_succ', Nat.sub_add_cancel hw]
  have hcast : (2 : ℤ) ^ w ≤ ((2 ^ (w - 1) * 2 ^ w / op2.toInt.natAbs : ℕ) : ℤ) := by
    exact_mod_cast hquotient
  have hhalf : 0 < (2 : ℤ) ^ (w - 1) := by positivity
  unfold overflows
  rw [tdiv_natAbs, habs, decide_eq_true_eq]
  split_ifs <;> omega

/-- A remainder is smaller than the divisor. -/
theorem tmod_fits (hw : 0 < w) (n : ℤ) {op2 : BitVec w} (hne : op2.toInt ≠ 0) :
    overflows (w - 1) (n.tmod op2.toInt) = false := by
  have hlt := (Nat.mod_lt n.natAbs (Int.natAbs_pos.2 hne)).trans_le (natAbs_toInt_le hw op2)
  have hcast : ((n.natAbs % op2.toInt.natAbs : ℕ) : ℤ) < 2 ^ (w - 1) := by exact_mod_cast hlt
  unfold overflows
  rw [tmod_natAbs, decide_eq_false_iff_not]
  split_ifs <;> omega

theorem eq_zero_iff_toInt (x : BitVec w) : x = 0 ↔ x.toInt = 0 := by
  have hzero : (0 : BitVec w).toInt = 0 := BitVec.toInt_zero
  rw [← BitVec.toInt_inj, hzero]

/-- The least dividend is refused at once: no divisor gives it a quotient that fits. -/
theorem idivNarrow_divides (s : OpSize) (op2 high low : BitVec s.bits) :
    SignedDivides (high.toInt * 2 ^ s.bits + low.toNat) op2.toInt (idivNarrow s op2 high low) := by
  have hw := s.bits_pos
  have hzero := eq_zero_iff_toInt op2
  rw [← toInt_double hw]
  unfold idivNarrow
  generalize high ++ low = dividend
  dsimp only
  by_cases hmin : dividend = BitVec.intMin (s.bits + s.bits)
  · have hleast : dividend.toInt = -2 ^ (s.bits + s.bits - 1) := by
      rw [hmin, BitVec.toInt_intMin_of_pos (by omega)]
    rw [if_pos hmin]
    refine signedDivides_none (or_iff_not_imp_left.2 fun hne => ?_)
    rw [hleast]
    exact least_overflows hw hne
  · by_cases hop2 : op2 = 0
    · rw [if_neg hmin, if_pos hop2]
      exact signedDivides_none (.inl (hzero.1 hop2))
    · have hne : op2.toInt ≠ 0 := fun h => hop2 (hzero.2 h)
      have hle := Nat.le_add_right s.bits s.bits
      have hquotient : (dividend.sdiv (op2.signExtend (s.bits + s.bits))).toInt =
          dividend.toInt.tdiv op2.toInt := by
        rw [BitVec.toInt_sdiv_of_ne_or_ne _ _ (.inl hmin), BitVec.toInt_signExtend_of_le hle]
      have hremainder : (dividend.srem (op2.signExtend (s.bits + s.bits))).toInt =
          dividend.toInt.tmod op2.toInt := by
        rw [BitVec.toInt_srem, BitVec.toInt_signExtend_of_le hle]
      have hfits := eq_signExtend_iff hw hle (dividend.sdiv (op2.signExtend (s.bits + s.bits)))
      rw [hquotient] at hfits
      rw [if_neg hmin, if_neg hop2]
      by_cases hover : overflows (s.bits - 1) (dividend.toInt.tdiv op2.toInt) = false
      · rw [if_neg (not_not.2 (hfits.2 hover))]
        refine signedDivides_some hne hover ?_ ?_
        · rw [toInt_low hle, hquotient]
          exact ((bmod_eq_iff hw _).2 hover).symm
        · rw [toInt_low hle, hremainder]
          exact ((bmod_eq_iff hw _).2 (tmod_fits hw _ hne)).symm
      · rw [if_pos fun h => hover (hfits.1 h)]
        exact signedDivides_none (.inr (Bool.eq_true_of_not_eq_false hover))

/-- The comparison of the two words of a quotient. -/
theorem wide_overflows (z : Bit128) :
    ((z.lo.msb = false ∧ z.hi ≠ 0) ∨ (z.lo.msb = true ∧ z.hi ≠ 0xffffffffffffffff)) ↔
      overflows 63 z.toInt = true := by
  have hlo := z.lo.isLt
  have hhi := z.hi.isLt
  have hzero : z.hi = 0 ↔ z.hi.toNat = 0 := BitVec.toNat_eq
  have hones : z.hi = 0xffffffffffffffff ↔ z.hi.toNat = 2 ^ 64 - 1 := BitVec.toNat_eq
  unfold overflows Bit128.toInt
  rw [ne_eq, ne_eq, hzero, hones, decide_eq_true_eq, BitVec.toInt_eq_toNat_cond,
    BitVec.msb_eq_decide, decide_eq_true_eq, decide_eq_false_iff_not]
  split_ifs <;> omega

theorem lo_toInt {z : Bit128} (h : overflows 63 z.toInt = false) : z.lo.toInt = z.toInt := by
  have hlo := z.lo.isLt
  have hhi := z.hi.isLt
  have hlow := BitVec.toInt_eq_toNat_cond z.lo
  have hhigh := BitVec.toInt_eq_toNat_cond z.hi
  unfold overflows Bit128.toInt at *
  rw [decide_eq_false_iff_not] at h
  split_ifs at hlow hhigh <;> omega

theorem IDIV_RAXEq_divides (op2 high low : BitVec 64) :
    SignedDivides (high.toInt * 2 ^ 64 + low.toNat) op2.toInt (IDIV_RAXEq op2 high low) := by
  have hw : 0 < 64 := by norm_num
  have hzero := eq_zero_iff_toInt op2
  have hvalue : high.toInt * 2 ^ 64 + low.toNat = (⟨low, high⟩ : Bit128).toInt := rfl
  have hleast : (high = 0x8000000000000000 ∧ low = 0) ↔
      (⟨low, high⟩ : Bit128).toInt = -2 ^ (64 + 64 - 1) := by
    have hlo := low.isLt
    have hhi := high.isLt
    have hlow : low = 0 ↔ low.toNat = 0 := BitVec.toNat_eq
    have hhigh : high = 0x8000000000000000 ↔ high.toNat = 2 ^ 63 := BitVec.toNat_eq
    unfold Bit128.toInt
    rw [hlow, hhigh, BitVec.toInt_eq_toNat_cond]
    dsimp only
    split_ifs <;> omega
  rw [hvalue]
  unfold IDIV_RAXEq
  generalize (⟨low, high⟩ : Bit128) = dividend at hleast ⊢
  by_cases hmin : high = 0x8000000000000000 ∧ low = 0
  · rw [if_pos hmin]
    refine signedDivides_none (or_iff_not_imp_left.2 fun hne => ?_)
    rw [hleast.1 hmin]
    exact least_overflows hw hne
  · by_cases hop2 : op2 = 0
    · rw [if_neg hmin, if_pos hop2]
      exact signedDivides_none (.inl (hzero.1 hop2))
    · have hne : op2.toInt ≠ 0 := fun h => hop2 (hzero.2 h)
      have habove : -2 ^ 127 < dividend.toInt := by
        have hz := dividend.toNat_lt
        have hint := dividend.toInt_eq
        have hnot : dividend.toInt ≠ -2 ^ 127 := fun h => hmin (hleast.2 h)
        split_ifs at hint <;> omega
      obtain ⟨hquotient, hremainder⟩ := long_idiv_exact habove hne
      rw [if_neg hmin, if_neg hop2]
      dsimp only
      generalize long_idiv dividend op2 = r at hquotient hremainder ⊢
      by_cases hover : overflows 63 r.1.toInt = true
      · rw [if_pos ((wide_overflows r.1).2 hover)]
        exact signedDivides_none (.inr (hquotient ▸ hover))
      · have hfits := Bool.eq_false_of_not_eq_true hover
        rw [if_neg fun h => hover ((wide_overflows r.1).1 h)]
        exact signedDivides_some hne (hquotient ▸ hfits) ((lo_toInt hfits).trans hquotient)
          hremainder

end Quotients

/-- **Division.**  There is a divide error exactly if the divisor is zero or the quotient does not
fit in a word; otherwise quotient and remainder are those of the double word. -/
theorem DIV_exact (s : OpSize) (op2 high low : BitVec s.bits) :
    Divides (high.toNat * 2 ^ s.bits + low.toNat) op2.toNat (DIV s op2 high low) := by
  cases s with
  | byte => exact divNarrow_divides .byte op2 high low
  | word => exact divNarrow_divides .word op2 high low
  | dword => exact divNarrow_divides .dword op2 high low
  | qword => exact DIV_RAXEq_divides op2 high low

/-- **Signed division**, for the signed double word: the quotient is rounded towards zero, and the
remainder has the sign of the dividend. -/
theorem IDIV_exact (s : OpSize) (op2 high low : BitVec s.bits) :
    SignedDivides (high.toInt * 2 ^ s.bits + low.toNat) op2.toInt (IDIV s op2 high low) := by
  cases s with
  | byte => exact idivNarrow_divides .byte op2 high low
  | word => exact idivNarrow_divides .word op2 high low
  | dword => exact idivNarrow_divides .dword op2 high low
  | qword => exact IDIV_RAXEq_divides op2 high low

end Bochs
