import Mathlib
import X86Oracle.Lib.Words
import X86Oracle.Lib.Rounding

/-!
# Sums of FP8 products

The accumulator of the AMX-FP8 dot products (`cpu/avx/amx.cc`): two formats of eight bits, a
two-word accumulator, and one rounding to FP32.

* `decode_fp8_spec`: what a byte decodes to; `accumulate_finite`, `accumulated_finite`: a pair, and
  a run of pairs, on the accumulator.
* `fp8Shift_spec`, `negated`, `fp8Pack_spec`: the steps of the conversion; `converts_short`,
  `converts_rounded`: of a size; `acc_to_f32_spec`: of an accumulated number.
* `fp8_rounds_once`: a sum of products comes out exact and rounded once.
-/

namespace Bochs

open Rounding

/-! ## Operands -/

/-- `amx_fp8_value`: `mag` is in units of 2^-16 (BF8) or 2^-9 (HF8). -/
structure Fp8Value where
  nan : Bool
  inf : Bool
  neg : Bool
  mag : UInt64

def amx_decode_fp8 (v : UInt8) (is_bf8 : Bool) : Fp8Value :=
  let neg := v &&& 0x80 != 0
  if is_bf8 then
    let exp := v >>> 2 &&& 0x1F
    let frac := v &&& 0x3
    if exp = 0x1F then { nan := frac != 0, inf := frac == 0, neg, mag := 0 }
    else
      { nan := false, inf := false, neg
        mag := if exp ≠ 0 then (4 ||| frac).toUInt64 <<< (exp - 1).toUInt64 else frac.toUInt64 }
  else
    let exp := v >>> 3 &&& 0xF
    let frac := v &&& 0x7
    if exp = 0xF ∧ frac = 0x7 then { nan := true, inf := false, neg, mag := 0 }
    else
      { nan := false, inf := false, neg
        mag := if exp ≠ 0 then (8 ||| frac).toUInt64 <<< (exp - 1).toUInt64 else frac.toUInt64 }

/-- E5M2. -/
def bf8 : Encoding := ⟨5, 2, 15⟩

/-- E4M3. -/
def hf8 : Encoding := ⟨4, 3, 7⟩

def fp8 (is_bf8 : Bool) : Encoding := if is_bf8 then bf8 else hf8

def Fp8NaN (v : UInt8) (is_bf8 : Bool) : Prop :=
  if is_bf8 then bf8.exp v.toNat = 31 ∧ bf8.frac v.toNat ≠ 0
  else hf8.exp v.toNat = 15 ∧ hf8.frac v.toNat = 7

/-- E4M3 has no infinity. -/
def Fp8Inf (v : UInt8) (is_bf8 : Bool) : Prop :=
  is_bf8 = true ∧ bf8.exp v.toNat = 31 ∧ bf8.frac v.toNat = 0

instance (v : UInt8) (is_bf8 : Bool) : Decidable (Fp8NaN v is_bf8) := by
  unfold Fp8NaN
  infer_instance

instance (v : UInt8) (is_bf8 : Bool) : Decidable (Fp8Inf v is_bf8) := by
  unfold Fp8Inf
  infer_instance

/-- The bits of the fraction below one. -/
def fp8Scale (is_bf8 : Bool) : ℕ := if is_bf8 then 16 else 9

/-- What decoding a byte gives. -/
structure Fp8Decoded (v : UInt8) (is_bf8 : Bool) (r : Fp8Value) : Prop where
  nan : r.nan = true ↔ Fp8NaN v is_bf8
  inf : r.inf = true ↔ Fp8Inf v is_bf8
  neg : r.neg = true ↔ (fp8 is_bf8).Neg v.toNat
  mag : r.mag.toNat = if Fp8NaN v is_bf8 ∨ Fp8Inf v is_bf8 then 0 else (fp8 is_bf8).mag v.toNat
  bound : r.mag.toNat ≤ 7 * 2 ^ 29

theorem decode_fp8_spec (v : UInt8) (is_bf8 : Bool) :
    Fp8Decoded v is_bf8 (amx_decode_fp8 v is_bf8) := by
  have hbytes : ∀ n < 256, let v := UInt8.ofNat n
      let r := amx_decode_fp8 v is_bf8
      (r.nan = true ↔ Fp8NaN v is_bf8) ∧ (r.inf = true ↔ Fp8Inf v is_bf8) ∧
        (r.neg = true ↔ (fp8 is_bf8).Neg v.toNat) ∧
        (r.mag.toNat = if Fp8NaN v is_bf8 ∨ Fp8Inf v is_bf8 then 0 else (fp8 is_bf8).mag v.toNat) ∧
        r.mag.toNat ≤ 7 * 2 ^ 29 := by
    cases is_bf8 with
    | false => decide +kernel
    | true => decide +kernel
  obtain ⟨hnan, hinf, hneg, hmag, hbound⟩ := hbytes v.toNat v.toNat_lt
  rw [UInt8.ofNat_toNat] at hnan hinf hneg hmag hbound
  exact ⟨hnan, hinf, hneg, hmag, hbound⟩

/-! ## The accumulator -/

/-- `amx_fp8_acc`: a number of two words in two's complement, and what specials came up. -/
structure Fp8Acc where
  lo : UInt64
  hi : UInt64
  nan : Bool
  pos_inf : Bool
  neg_inf : Bool
  deriving DecidableEq

namespace Fp8Acc

def zero : Fp8Acc := { lo := 0, hi := 0, nan := false, pos_inf := false, neg_inf := false }

def add (acc : Fp8Acc) (p : UInt64) : Fp8Acc :=
  let lo := acc.lo + p
  { acc with lo, hi := acc.hi + if lo < acc.lo then 1 else 0 }

def sub (acc : Fp8Acc) (p : UInt64) : Fp8Acc :=
  let lo := acc.lo - p
  { acc with lo, hi := acc.hi - if lo > acc.lo then 1 else 0 }

/-- The two words as one. -/
def raw (acc : Fp8Acc) : ℕ := acc.lo.toNat + 18446744073709551616 * acc.hi.toNat

def toInt (acc : Fp8Acc) : ℤ := if acc.raw < 2 ^ 127 then acc.raw else acc.raw - 2 ^ 128

variable (acc : Fp8Acc) (p : UInt64)

theorem raw_lt : acc.raw < 2 ^ 128 := by
  have hlo := acc.lo.toNat_lt
  have hhi := acc.hi.toNat_lt
  unfold raw
  omega

/-- The carry makes the addition exact modulo 2^128. -/
theorem raw_add : ((acc.add p).raw : ℤ) = (acc.raw + p.toNat) % 2 ^ 128 := by
  have hlo := acc.lo.toNat_lt
  have hhi := acc.hi.toNat_lt
  have hp := p.toNat_lt
  have hsum : (acc.lo + p).toNat = (acc.lo.toNat + p.toNat) % 18446744073709551616 :=
    UInt64.toNat_add _ _
  unfold add raw
  dsimp only
  by_cases hcarry : acc.lo + p < acc.lo
  · have hnext : (acc.hi + 1).toNat = (acc.hi.toNat + 1) % 18446744073709551616 :=
      UInt64.toNat_add _ _
    rw [if_pos hcarry, hnext, hsum]
    rw [UInt64.lt_iff_toNat_lt, hsum] at hcarry
    omega
  · rw [if_neg hcarry, add_zero, hsum]
    rw [UInt64.lt_iff_toNat_lt, hsum] at hcarry
    omega

/-- The borrow makes the subtraction exact modulo 2^128. -/
theorem raw_sub : ((acc.sub p).raw : ℤ) = (acc.raw - p.toNat) % 2 ^ 128 := by
  have hlo := acc.lo.toNat_lt
  have hhi := acc.hi.toNat_lt
  have hp := p.toNat_lt
  have hdiff : (acc.lo - p).toNat =
      (18446744073709551616 - p.toNat + acc.lo.toNat) % 18446744073709551616 :=
    UInt64.toNat_sub _ _
  unfold sub raw
  dsimp only
  by_cases hborrow : acc.lo - p > acc.lo
  · have hprev : (acc.hi - 1).toNat =
        (18446744073709551616 - 1 + acc.hi.toNat) % 18446744073709551616 := UInt64.toNat_sub _ _
    rw [if_pos hborrow, hprev, hdiff]
    rw [gt_iff_lt, UInt64.lt_iff_toNat_lt, hdiff] at hborrow
    omega
  · rw [if_neg hborrow, sub_zero, hdiff]
    rw [gt_iff_lt, UInt64.lt_iff_toNat_lt, hdiff] at hborrow
    omega

end Fp8Acc

def amx_fp8_accumulate (acc : Fp8Acc) (a b : UInt8) (a_is_bf8 b_is_bf8 : Bool) : Fp8Acc :=
  let x := amx_decode_fp8 a a_is_bf8
  let y := amx_decode_fp8 b b_is_bf8
  let neg := x.neg != y.neg
  if x.nan || y.nan then { acc with nan := true }
  else if x.inf || y.inf then
    if (if x.inf then y.mag else x.mag) = 0 ∧ !(x.inf && y.inf) then { acc with nan := true }
    else if neg then { acc with neg_inf := true }
    else { acc with pos_inf := true }
  else
    let p := x.mag * y.mag
    if neg then acc.sub p else acc.add p

section Accumulate

variable {a b : UInt8} {a_is_bf8 b_is_bf8 : Bool}

/-- Neither a NaN nor an infinity. -/
def Fp8Finite (v : UInt8) (is_bf8 : Bool) : Prop := ¬ Fp8NaN v is_bf8 ∧ ¬ Fp8Inf v is_bf8

instance (v : UInt8) (is_bf8 : Bool) : Decidable (Fp8Finite v is_bf8) :=
  inferInstanceAs (Decidable (_ ∧ _))

/-- An operand in units of its format's least number. -/
def fp8Units (v : UInt8) (is_bf8 : Bool) : ℤ := (fp8 is_bf8).units v.toNat

theorem decode_units (ha : Fp8Finite a a_is_bf8) :
    fp8Units a a_is_bf8 = if (amx_decode_fp8 a a_is_bf8).neg
      then -((amx_decode_fp8 a a_is_bf8).mag.toNat : ℤ)
      else (amx_decode_fp8 a a_is_bf8).mag.toNat := by
  obtain ⟨-, -, hneg, hmag, -⟩ := decode_fp8_spec a a_is_bf8
  rw [if_neg fun h => h.elim ha.1 ha.2] at hmag
  unfold fp8Units Encoding.units
  rw [hmag]
  by_cases h : (fp8 a_is_bf8).Neg a.toNat
  · rw [if_pos h, if_pos (hneg.2 h)]
  · rw [if_neg h, if_neg (mt hneg.1 h)]

/-- A 64-bit product of two magnitudes does not overflow. -/
theorem mag_mul (a b : UInt8) (a_is_bf8 b_is_bf8 : Bool) :
    (amx_decode_fp8 a a_is_bf8).mag.toNat * (amx_decode_fp8 b b_is_bf8).mag.toNat < 2 ^ 64 := by
  have hx := (decode_fp8_spec a a_is_bf8).bound
  have hy := (decode_fp8_spec b b_is_bf8).bound
  calc _ ≤ 7 * 2 ^ 29 * (7 * 2 ^ 29) := Nat.mul_le_mul hx hy
    _ < 2 ^ 64 := by norm_num

/-- A NaN operand, or infinity times zero. -/
def PairNaN (a_is_bf8 b_is_bf8 : Bool) (p : UInt8 × UInt8) : Prop :=
  Fp8NaN p.1 a_is_bf8 ∨ Fp8NaN p.2 b_is_bf8 ∨
    Fp8Inf p.1 a_is_bf8 ∧ (fp8 b_is_bf8).mag p.2.toNat = 0 ∨
    (fp8 a_is_bf8).mag p.1.toNat = 0 ∧ Fp8Inf p.2 b_is_bf8

/-- The product has the sign bit of one operand. -/
def PairNeg (a_is_bf8 b_is_bf8 : Bool) (p : UInt8 × UInt8) : Prop :=
  ¬ ((fp8 a_is_bf8).Neg p.1.toNat ↔ (fp8 b_is_bf8).Neg p.2.toNat)

/-- An infinite product. -/
def PairInf (a_is_bf8 b_is_bf8 : Bool) (p : UInt8 × UInt8) : Prop :=
  ¬ PairNaN a_is_bf8 b_is_bf8 p ∧ (Fp8Inf p.1 a_is_bf8 ∨ Fp8Inf p.2 b_is_bf8)

/-- A finite product, in units of its least number. -/
def fp8Term (a_is_bf8 b_is_bf8 : Bool) (p : UInt8 × UInt8) : ℤ :=
  if Fp8Finite p.1 a_is_bf8 ∧ Fp8Finite p.2 b_is_bf8 then
    fp8Units p.1 a_is_bf8 * fp8Units p.2 b_is_bf8
  else 0

/-- An infinity is not zero. -/
theorem mag_ne_zero_of_inf (h : Fp8Inf a a_is_bf8) : (fp8 a_is_bf8).mag a.toNat ≠ 0 := by
  obtain ⟨rfl, hexp, -⟩ := h
  have hexp' : (fp8 true).exp a.toNat = 31 := hexp
  unfold Encoding.mag
  rw [hexp', if_neg (by norm_num)]
  exact mul_ne_zero (Nat.add_pos_left (Nat.two_pow_pos _) _).ne' (Nat.two_pow_pos _).ne'

/-- What one pair does to the accumulator. -/
structure Accumulates (a_is_bf8 b_is_bf8 : Bool) (pairs : List (UInt8 × UInt8))
    (acc acc' : Fp8Acc) : Prop where
  raw : (acc'.raw : ℤ) = (acc.raw + (pairs.map (fp8Term a_is_bf8 b_is_bf8)).sum) % 2 ^ 128
  nan : acc'.nan = true ↔ acc.nan = true ∨ ∃ p ∈ pairs, PairNaN a_is_bf8 b_is_bf8 p
  pos_inf : acc'.pos_inf = true ↔ acc.pos_inf = true ∨
    ∃ p ∈ pairs, PairInf a_is_bf8 b_is_bf8 p ∧ ¬ PairNeg a_is_bf8 b_is_bf8 p
  neg_inf : acc'.neg_inf = true ↔ acc.neg_inf = true ∨
    ∃ p ∈ pairs, PairInf a_is_bf8 b_is_bf8 p ∧ PairNeg a_is_bf8 b_is_bf8 p

theorem accumulate_finite (acc : Fp8Acc) (ha : Fp8Finite a a_is_bf8) (hb : Fp8Finite b b_is_bf8) :
    ((amx_fp8_accumulate acc a b a_is_bf8 b_is_bf8).raw : ℤ) =
        (acc.raw + fp8Units a a_is_bf8 * fp8Units b b_is_bf8) % 2 ^ 128 ∧
      (amx_fp8_accumulate acc a b a_is_bf8 b_is_bf8).nan = acc.nan ∧
      (amx_fp8_accumulate acc a b a_is_bf8 b_is_bf8).pos_inf = acc.pos_inf ∧
      (amx_fp8_accumulate acc a b a_is_bf8 b_is_bf8).neg_inf = acc.neg_inf := by
  obtain ⟨x, hx⟩ : ∃ x, x = amx_decode_fp8 a a_is_bf8 := ⟨_, rfl⟩
  obtain ⟨y, hy⟩ : ∃ y, y = amx_decode_fp8 b b_is_bf8 := ⟨_, rfl⟩
  have hxd := decode_fp8_spec a a_is_bf8
  have hyd := decode_fp8_spec b b_is_bf8
  have hux := decode_units ha
  have huy := decode_units hb
  have hprod := mag_mul a b a_is_bf8 b_is_bf8
  rw [← hx] at hxd hux hprod
  rw [← hy] at hyd huy hprod
  have hxnan : x.nan = false := Bool.eq_false_iff.2 (mt hxd.nan.1 ha.1)
  have hynan : y.nan = false := Bool.eq_false_iff.2 (mt hyd.nan.1 hb.1)
  have hxinf : x.inf = false := Bool.eq_false_iff.2 (mt hxd.inf.1 ha.2)
  have hyinf : y.inf = false := Bool.eq_false_iff.2 (mt hyd.inf.1 hb.2)
  have hmul : ((x.mag * y.mag).toNat : ℤ) = x.mag.toNat * y.mag.toNat := by
    rw [UInt64.toNat_mul, Nat.mod_eq_of_lt hprod, Nat.cast_mul]
  have heq : amx_fp8_accumulate acc a b a_is_bf8 b_is_bf8 =
      if x.neg != y.neg then acc.sub (x.mag * y.mag) else acc.add (x.mag * y.mag) := by
    unfold amx_fp8_accumulate
    rw [← hx, ← hy]
    dsimp only
    rw [hxnan, hynan, hxinf, hyinf, Bool.or_self, if_neg Bool.false_ne_true,
      if_neg Bool.false_ne_true]
  rw [heq, hux, huy]
  cases x.neg <;> cases y.neg
  · refine ⟨?_, rfl, rfl, rfl⟩
    rw [if_neg (by decide), Fp8Acc.raw_add, hmul, if_neg Bool.false_ne_true,
      if_neg Bool.false_ne_true]
  · refine ⟨?_, rfl, rfl, rfl⟩
    rw [if_pos (by decide), Fp8Acc.raw_sub, hmul, if_neg Bool.false_ne_true, if_pos rfl, mul_neg,
      sub_eq_add_neg]
  · refine ⟨?_, rfl, rfl, rfl⟩
    rw [if_pos (by decide), Fp8Acc.raw_sub, hmul, if_neg Bool.false_ne_true, if_pos rfl, neg_mul,
      sub_eq_add_neg]
  · refine ⟨?_, rfl, rfl, rfl⟩
    rw [if_neg (by decide), Fp8Acc.raw_add, hmul, if_pos rfl, if_pos rfl, neg_mul_neg]

section Pair

variable {acc acc' : Fp8Acc} {p : UInt8 × UInt8}

theorem Accumulates.single
    (hraw : (acc'.raw : ℤ) = (acc.raw + fp8Term a_is_bf8 b_is_bf8 p) % 2 ^ 128)
    (hnan : acc'.nan = true ↔ acc.nan = true ∨ PairNaN a_is_bf8 b_is_bf8 p)
    (hpos : acc'.pos_inf = true ↔ acc.pos_inf = true ∨
      PairInf a_is_bf8 b_is_bf8 p ∧ ¬ PairNeg a_is_bf8 b_is_bf8 p)
    (hneg : acc'.neg_inf = true ↔ acc.neg_inf = true ∨
      PairInf a_is_bf8 b_is_bf8 p ∧ PairNeg a_is_bf8 b_is_bf8 p) :
    Accumulates a_is_bf8 b_is_bf8 [p] acc acc' := by
  have hone (P : UInt8 × UInt8 → Prop) : (∃ q ∈ [p], P q) ↔ P p := by
    constructor
    · rintro ⟨q, hq, hP⟩
      exact List.mem_singleton.1 hq ▸ hP
    · exact fun hP => ⟨p, List.mem_singleton_self _, hP⟩
  refine ⟨?_, ?_, ?_, ?_⟩
  · rw [List.map_singleton, List.sum_singleton]
    exact hraw
  · rw [hone]
    exact hnan
  · rw [hone]
    exact hpos
  · rw [hone]
    exact hneg

/-- A pair with a special operand leaves the number. -/
theorem raw_special (acc : Fp8Acc)
    (h : ¬ (Fp8Finite p.1 a_is_bf8 ∧ Fp8Finite p.2 b_is_bf8)) :
    (acc.raw : ℤ) = (acc.raw + fp8Term a_is_bf8 b_is_bf8 p) % 2 ^ 128 := by
  have hlt := acc.raw_lt
  rw [fp8Term, if_neg h]
  omega

/-- Raising the flag of a NaN pair. -/
theorem Accumulates.raise_nan (acc : Fp8Acc) (hpair : PairNaN a_is_bf8 b_is_bf8 p)
    (h : ¬ (Fp8Finite p.1 a_is_bf8 ∧ Fp8Finite p.2 b_is_bf8)) :
    Accumulates a_is_bf8 b_is_bf8 [p] acc { acc with nan := true } :=
  .single (raw_special acc h) (iff_of_true rfl (.inr hpair))
    (or_iff_left fun h => h.1.1 hpair).symm (or_iff_left fun h => h.1.1 hpair).symm

theorem accumulate_nan (acc : Fp8Acc) (h : Fp8NaN a a_is_bf8 ∨ Fp8NaN b b_is_bf8) :
    Accumulates a_is_bf8 b_is_bf8 [(a, b)] acc
      (amx_fp8_accumulate acc a b a_is_bf8 b_is_bf8) := by
  have hcond : ((amx_decode_fp8 a a_is_bf8).nan || (amx_decode_fp8 b b_is_bf8).nan) = true := by
    rw [Bool.or_eq_true, (decode_fp8_spec a a_is_bf8).nan, (decode_fp8_spec b b_is_bf8).nan]
    exact h
  have heq : amx_fp8_accumulate acc a b a_is_bf8 b_is_bf8 = { acc with nan := true } := if_pos hcond
  rw [heq]
  exact .raise_nan acc (h.elim .inl fun h => .inr (.inl h)) fun hf => h.elim hf.1.1 hf.2.1

/-- The check for infinity times zero, where an infinity has a magnitude of 0. -/
theorem inf_times_zero_iff (hnan : ¬ Fp8NaN a a_is_bf8 ∧ ¬ Fp8NaN b b_is_bf8)
    (hinf : Fp8Inf a a_is_bf8 ∨ Fp8Inf b b_is_bf8) :
    ((if (amx_decode_fp8 a a_is_bf8).inf then (amx_decode_fp8 b b_is_bf8).mag
        else (amx_decode_fp8 a a_is_bf8).mag) = 0 ∧
      !((amx_decode_fp8 a a_is_bf8).inf && (amx_decode_fp8 b b_is_bf8).inf)) ↔
    PairNaN a_is_bf8 b_is_bf8 (a, b) := by
  have hxd := decode_fp8_spec a a_is_bf8
  have hyd := decode_fp8_spec b b_is_bf8
  have hmagx := hxd.mag
  have hmagy := hyd.mag
  by_cases hx : Fp8Inf a a_is_bf8
  · by_cases hy : Fp8Inf b b_is_bf8
    · rw [hxd.inf.2 hx, hyd.inf.2 hy]
      refine iff_of_false (fun h => absurd h.2 (by decide)) ?_
      rintro (h | h | h | h)
      · exact hnan.1 h
      · exact hnan.2 h
      · exact mag_ne_zero_of_inf hy h.2
      · exact mag_ne_zero_of_inf hx h.1
    · rw [if_neg (not_or.2 ⟨hnan.2, hy⟩)] at hmagy
      rw [hxd.inf.2 hx, Bool.eq_false_iff.2 (mt hyd.inf.1 hy), if_pos rfl,
        ← UInt64.toNat_inj, hmagy]
      constructor
      · exact fun h => .inr (.inr (.inl ⟨hx, h.1⟩))
      · rintro (h | h | h | h)
        · exact absurd h hnan.1
        · exact absurd h hnan.2
        · exact ⟨h.2, rfl⟩
        · exact absurd h.2 hy
  · rw [if_neg (not_or.2 ⟨hnan.1, hx⟩)] at hmagx
    rw [Bool.eq_false_iff.2 (mt hxd.inf.1 hx), if_neg Bool.false_ne_true, ← UInt64.toNat_inj, hmagx]
    constructor
    · exact fun h => .inr (.inr (.inr ⟨h.1, hinf.resolve_left hx⟩))
    · rintro (h | h | h | h)
      · exact absurd h hnan.1
      · exact absurd h hnan.2
      · exact absurd h.1 hx
      · exact ⟨h.1, rfl⟩

theorem accumulate_inf (acc : Fp8Acc) (hnan : ¬ Fp8NaN a a_is_bf8 ∧ ¬ Fp8NaN b b_is_bf8)
    (hinf : Fp8Inf a a_is_bf8 ∨ Fp8Inf b b_is_bf8) :
    Accumulates a_is_bf8 b_is_bf8 [(a, b)] acc
      (amx_fp8_accumulate acc a b a_is_bf8 b_is_bf8) := by
  have hxd := decode_fp8_spec a a_is_bf8
  have hyd := decode_fp8_spec b b_is_bf8
  have hcond : ¬ ((amx_decode_fp8 a a_is_bf8).nan || (amx_decode_fp8 b b_is_bf8).nan) = true := by
    rw [Bool.or_eq_true, hxd.nan, hyd.nan]
    exact not_or.2 hnan
  have hcond' : ((amx_decode_fp8 a a_is_bf8).inf || (amx_decode_fp8 b b_is_bf8).inf) = true := by
    rw [Bool.or_eq_true, hxd.inf, hyd.inf]
    exact hinf
  have hneg : ((amx_decode_fp8 a a_is_bf8).neg != (amx_decode_fp8 b b_is_bf8).neg) = true ↔
      PairNeg a_is_bf8 b_is_bf8 (a, b) := by
    rw [bne_iff_ne, ne_eq, Bool.eq_iff_iff, hxd.neg, hyd.neg]
    exact Iff.rfl
  have heq : amx_fp8_accumulate acc a b a_is_bf8 b_is_bf8 =
      if (if (amx_decode_fp8 a a_is_bf8).inf then (amx_decode_fp8 b b_is_bf8).mag
          else (amx_decode_fp8 a a_is_bf8).mag) = 0 ∧
        !((amx_decode_fp8 a a_is_bf8).inf && (amx_decode_fp8 b b_is_bf8).inf) then
        { acc with nan := true }
      else if (amx_decode_fp8 a a_is_bf8).neg != (amx_decode_fp8 b b_is_bf8).neg then
        { acc with neg_inf := true }
      else { acc with pos_inf := true } := (if_neg hcond).trans (if_pos hcond')
  have hspecial : ¬ (Fp8Finite a a_is_bf8 ∧ Fp8Finite b b_is_bf8) :=
    fun h => hinf.elim h.1.2 h.2.2
  have hzero := inf_times_zero_iff hnan hinf
  rw [heq]
  by_cases hpair : PairNaN a_is_bf8 b_is_bf8 (a, b)
  · rw [if_pos (hzero.2 hpair)]
    exact .raise_nan acc hpair hspecial
  rw [if_neg (mt hzero.1 hpair)]
  by_cases hsign : PairNeg a_is_bf8 b_is_bf8 (a, b)
  · rw [if_pos (hneg.2 hsign)]
    exact .single (raw_special acc hspecial) (or_iff_left hpair).symm
      (or_iff_left fun h => h.2 hsign).symm (iff_of_true rfl (.inr ⟨⟨hpair, hinf⟩, hsign⟩))
  · rw [if_neg (mt hneg.1 hsign)]
    exact .single (raw_special acc hspecial) (or_iff_left hpair).symm
      (iff_of_true rfl (.inr ⟨⟨hpair, hinf⟩, hsign⟩)) (or_iff_left fun h => hsign h.2).symm

/-- Accumulating one pair. -/
theorem accumulate_spec (acc : Fp8Acc) (a b : UInt8) (a_is_bf8 b_is_bf8 : Bool) :
    Accumulates a_is_bf8 b_is_bf8 [(a, b)] acc
      (amx_fp8_accumulate acc a b a_is_bf8 b_is_bf8) := by
  by_cases hnan : Fp8NaN a a_is_bf8 ∨ Fp8NaN b b_is_bf8
  · exact accumulate_nan acc hnan
  rw [not_or] at hnan
  by_cases hinf : Fp8Inf a a_is_bf8 ∨ Fp8Inf b b_is_bf8
  · exact accumulate_inf acc hnan hinf
  rw [not_or] at hinf
  have hpair : ¬ PairNaN a_is_bf8 b_is_bf8 (a, b) := by
    rintro (h | h | h | h)
    · exact hnan.1 h
    · exact hnan.2 h
    · exact hinf.1 h.1
    · exact hinf.2 h.2
  have hnotinf : ¬ PairInf a_is_bf8 b_is_bf8 (a, b) := fun h => h.2.elim hinf.1 hinf.2
  obtain ⟨hraw, hnan', hpos, hneg⟩ :=
    accumulate_finite acc (b := b) ⟨hnan.1, hinf.1⟩ ⟨hnan.2, hinf.2⟩
  refine .single ?_ ?_ ?_ ?_
  · rw [hraw, fp8Term, if_pos ⟨⟨hnan.1, hinf.1⟩, ⟨hnan.2, hinf.2⟩⟩]
  · rw [hnan']
    exact (or_iff_left hpair).symm
  · rw [hpos]
    exact (or_iff_left fun h => hnotinf h.1).symm
  · rw [hneg]
    exact (or_iff_left fun h => hnotinf h.1).symm

end Pair

/-- The accumulator after a list of pairs. -/
def fp8Accumulated (a_is_bf8 b_is_bf8 : Bool) (pairs : List (UInt8 × UInt8)) : Fp8Acc :=
  pairs.foldl (fun acc p => amx_fp8_accumulate acc p.1 p.2 a_is_bf8 b_is_bf8) .zero

/-- A run over a list of pairs. -/
theorem accumulated_spec (a_is_bf8 b_is_bf8 : Bool) (pairs : List (UInt8 × UInt8)) :
    Accumulates a_is_bf8 b_is_bf8 pairs .zero (fp8Accumulated a_is_bf8 b_is_bf8 pairs) := by
  induction pairs using List.reverseRecOn with
  | nil => exact ⟨rfl, by simp [fp8Accumulated], by simp [fp8Accumulated], by simp [fp8Accumulated]⟩
  | append_singleton pairs p ih =>
    obtain ⟨hraw, hnan, hpos, hneg⟩ := ih
    obtain ⟨hraw', hnan', hpos', hneg'⟩ :=
      accumulate_spec (fp8Accumulated a_is_bf8 b_is_bf8 pairs) p.1 p.2 a_is_bf8 b_is_bf8
    have hrun : fp8Accumulated a_is_bf8 b_is_bf8 (pairs ++ [p]) = amx_fp8_accumulate
        (fp8Accumulated a_is_bf8 b_is_bf8 pairs) p.1 p.2 a_is_bf8 b_is_bf8 := by
      unfold fp8Accumulated
      rw [List.foldl_append]
      rfl
    have hsplit (P : UInt8 × UInt8 → Prop) :
        (∃ q ∈ pairs ++ [p], P q) ↔ (∃ q ∈ pairs, P q) ∨ ∃ q ∈ [p], P q := by
      constructor
      · rintro ⟨q, hq, hP⟩
        exact (List.mem_append.1 hq).imp (fun h => ⟨q, h, hP⟩) fun h => ⟨q, h, hP⟩
      · rintro (⟨q, hq, hP⟩ | ⟨q, hq, hP⟩)
        · exact ⟨q, List.mem_append_left _ hq, hP⟩
        · exact ⟨q, List.mem_append_right _ hq, hP⟩
    rw [hrun]
    refine ⟨?_, ?_, ?_, ?_⟩
    · rw [hraw', hraw, Int.emod_add_emod, List.map_append, List.sum_append, add_assoc]
    · rw [hnan', hnan, hsplit, or_assoc]
    · rw [hpos', hpos, hsplit, or_assoc]
    · rw [hneg', hneg, hsplit, or_assoc]

/-- The exact sum of products, in units of the products' least number. -/
def fp8Sum (a_is_bf8 b_is_bf8 : Bool) (pairs : List (UInt8 × UInt8)) : ℤ :=
  (pairs.map fun p => fp8Units p.1 a_is_bf8 * fp8Units p.2 b_is_bf8).sum

/-- A run over finite pairs leaves the exact sum, modulo 2^128. -/
theorem accumulated_finite (pairs : List (UInt8 × UInt8))
    (h : ∀ p ∈ pairs, Fp8Finite p.1 a_is_bf8 ∧ Fp8Finite p.2 b_is_bf8) :
    ((fp8Accumulated a_is_bf8 b_is_bf8 pairs).raw : ℤ) =
      fp8Sum a_is_bf8 b_is_bf8 pairs % 2 ^ 128 := by
  have hterms : pairs.map (fp8Term a_is_bf8 b_is_bf8) =
      pairs.map fun p => fp8Units p.1 a_is_bf8 * fp8Units p.2 b_is_bf8 :=
    List.map_congr_left fun p hp => if_pos (h p hp)
  have hraw := (accumulated_spec a_is_bf8 b_is_bf8 pairs).raw
  rw [hterms] at hraw
  exact hraw.trans (congrArg (· % _) (zero_add _))

/-- A sum that fits is in the accumulator. -/
theorem toInt_accumulated (pairs : List (UInt8 × UInt8))
    (h : ∀ p ∈ pairs, Fp8Finite p.1 a_is_bf8 ∧ Fp8Finite p.2 b_is_bf8)
    (hlow : -2 ^ 127 ≤ fp8Sum a_is_bf8 b_is_bf8 pairs)
    (hhigh : fp8Sum a_is_bf8 b_is_bf8 pairs < 2 ^ 127) :
    (fp8Accumulated a_is_bf8 b_is_bf8 pairs).toInt = fp8Sum a_is_bf8 b_is_bf8 pairs := by
  have hraw := accumulated_finite pairs h
  unfold Fp8Acc.toInt
  split_ifs with hlt
  · omega
  · omega

end Accumulate

/-! ## Conversion to FP32 -/

/-- A shift of a 64-bit word; the language leaves a count outside 0..63 undefined. -/
def shl64 (x : UInt64) (n : ℤ) : Option UInt64 :=
  if 0 ≤ n ∧ n < 64 then some (UInt64.ofNat (x.toNat * 2 ^ n.toNat)) else none

def shr64 (x : UInt64) (n : ℤ) : Option UInt64 :=
  if 0 ≤ n ∧ n < 64 then some (UInt64.ofNat (x.toNat / 2 ^ n.toNat)) else none

/-- The loop of `amx_msb64` from position `n` down. -/
def msbFrom (x : UInt64) : ℕ → ℕ
  | 0 => 0
  | n + 1 => if x.toNat >>> (n + 1) ≠ 0 then n + 1 else msbFrom x n

def amx_msb64 (x : UInt64) : ℕ := msbFrom x 63

/-- The quotient `q`, `rem_hi_bit` and `sticky` of a shift. -/
def fp8Shift (lo hi : UInt64) (shift : ℤ) : Option (UInt64 × UInt64 × UInt64) :=
  if shift < 64 then do
    let low ← shr64 lo shift
    let high ← (if shift ≠ 0 then shl64 hi (64 - shift) else some 0)
    let rem ← shr64 lo (shift - 1)
    let sticky ← (if shift > 1 then (shl64 1 (shift - 1)).map fun bit => lo &&& (bit - 1)
      else some 0)
    some (low ||| high, rem &&& 1, sticky)
  else do
    let q ← shr64 hi (shift - 64)
    let rem_hi_bit ← (if shift = 64 then shr64 lo 63 else (shr64 hi (shift - 65)).map (· &&& 1))
    let sticky ← (if shift = 64 then (shl64 1 63).map fun bit => lo &&& ~~~bit
      else (shl64 1 (shift - 65)).map fun bit => lo ||| (hi &&& (bit - 1)))
    some (q, rem_hi_bit, sticky)

/-- The bits of the result, with `exp` as computed in an `int`. -/
def fp8Pack (neg : Bool) (exp : ℤ) (sig : UInt32) : UInt32 :=
  (if neg then 1 else 0 : UInt32) <<< 31 ||| UInt32.ofInt exp <<< 23 ||| (sig &&& 0x7FFFFF)

def amx_fp8_acc_to_f32 (acc : Fp8Acc) (scale : ℤ) : Option UInt32 :=
  let neg := acc.hi >>> 63 != 0
  let lo := if neg then ~~~acc.lo + 1 else acc.lo
  let hi := if neg then ~~~acc.hi + (if lo = 0 then 1 else 0) else acc.hi
  if lo = 0 ∧ hi = 0 then some 0
  else
    let msb : ℤ := if hi ≠ 0 then 64 + amx_msb64 hi else amx_msb64 lo
    if msb ≤ 23 then
      (shl64 lo (23 - msb)).map fun sig => fp8Pack neg (msb - scale + 127) sig.toUInt32
    else
      (fp8Shift lo hi (msb - 23)).map fun (q, rem_hi_bit, sticky) =>
        let sig := q.toUInt32
        if rem_hi_bit ≠ 0 ∧ (sticky ≠ 0 ∨ sig &&& 1 ≠ 0) then
          if sig + 1 = 0x1000000 then fp8Pack neg (msb + 1 - scale + 127) ((sig + 1) >>> 1)
          else fp8Pack neg (msb - scale + 127) (sig + 1)
        else fp8Pack neg (msb - scale + 127) sig

section Convert

/-- The loop stops at the highest bit. -/
theorem msbFrom_eq {x : UInt64} (hx : x.toNat ≠ 0) :
    ∀ n, x.toNat < 2 ^ (n + 1) → msbFrom x n = Nat.log 2 x.toNat := by
  intro n
  induction n with
  | zero =>
    intro hlt
    have hone : x.toNat = 1 := by
      rw [zero_add, pow_one] at hlt
      omega
    rw [msbFrom, hone, Nat.log_one_right]
  | succ n ih =>
    intro hlt
    rw [msbFrom, Nat.shiftRight_eq_div_pow]
    by_cases hbit : x.toNat / 2 ^ (n + 1) ≠ 0
    · rw [if_pos hbit]
      have hle : 2 ^ (n + 1) ≤ x.toNat := by
        by_contra hsmall
        exact hbit (Nat.div_eq_of_lt (not_le.1 hsmall))
      exact (Nat.log_eq_of_pow_le_of_lt_pow hle hlt).symm
    · rw [if_neg hbit]
      refine ih ((Nat.div_eq_zero_iff_lt (Nat.two_pow_pos _)).1 (not_not.1 hbit))

theorem amx_msb64_eq {x : UInt64} (hx : x.toNat ≠ 0) : amx_msb64 x = Nat.log 2 x.toNat :=
  msbFrom_eq hx 63 x.toNat_lt

/-- The position of the highest bit of two words. -/
theorem msb_eq {lo hi : UInt64} {mag : ℕ} (hmag : lo.toNat + 18446744073709551616 * hi.toNat = mag)
    (hne : mag ≠ 0) :
    (if hi ≠ 0 then 64 + amx_msb64 hi else amx_msb64 lo : ℤ) = Nat.log 2 mag := by
  have hlo := lo.toNat_lt
  by_cases hhi : hi = 0
  · rw [if_neg (not_not.2 hhi)]
    rw [hhi, UInt64.toNat_zero, mul_zero, add_zero] at hmag
    rw [amx_msb64_eq (by omega), hmag]
  · have hhi' : hi.toNat ≠ 0 := fun h => hhi (UInt64.toNat_inj.1 h)
    rw [if_pos hhi, amx_msb64_eq hhi']
    have hle := Nat.pow_log_le_self 2 hhi'
    have hlt := Nat.lt_pow_succ_log_self one_lt_two hi.toNat
    have hlog : Nat.log 2 mag = 64 + Nat.log 2 hi.toNat := by
      refine Nat.log_eq_of_pow_le_of_lt_pow ?_ ?_
      · rw [pow_add]
        omega
      · rw [add_assoc, pow_add]
        omega
    rw [hlog]
    push_cast
    rfl

theorem shr64_eq (x : UInt64) {n : ℕ} (h : n < 64) :
    ∃ y, shr64 x n = some y ∧ y.toNat = x.toNat / 2 ^ n := by
  refine ⟨_, if_pos (by omega), ?_⟩
  rw [UInt64.toNat_ofNat', Int.toNat_natCast]
  exact Nat.mod_eq_of_lt ((Nat.div_le_self _ _).trans_lt x.toNat_lt)

theorem shl64_eq (x : UInt64) {n : ℕ} (h : n < 64) (hx : x.toNat * 2 ^ n < 2 ^ 64) :
    ∃ y, shl64 x n = some y ∧ y.toNat = x.toNat * 2 ^ n := by
  refine ⟨_, if_pos (by omega), ?_⟩
  rw [UInt64.toNat_ofNat', Int.toNat_natCast]
  exact Nat.mod_eq_of_lt hx

/-- A mask of the bits below `n`. -/
theorem shl64_one_sub_one {n : ℕ} (h : n < 64) :
    ∃ bit, shl64 1 n = some bit ∧ ∀ x : UInt64, (x &&& (bit - 1)).toNat = x.toNat % 2 ^ n := by
  have hpow : 2 ^ n < 2 ^ 64 := Nat.pow_lt_pow_right one_lt_two h
  obtain ⟨bit, hbit, hval⟩ := shl64_eq 1 h (by rw [UInt64.toNat_one, one_mul]; exact hpow)
  rw [UInt64.toNat_one, one_mul] at hval
  refine ⟨bit, hbit, fun x => ?_⟩
  have hle : (1 : UInt64) ≤ bit := by
    rw [UInt64.le_iff_toNat_le, hval, UInt64.toNat_one]
    exact Nat.one_le_two_pow
  rw [UInt64.toNat_and, UInt64.toNat_sub_of_le _ _ hle, hval, UInt64.toNat_one,
    Nat.and_two_pow_sub_one_eq_mod]

theorem ne_zero_iff_toNat {x : UInt64} : x ≠ 0 ↔ x.toNat ≠ 0 := by
  rw [ne_eq, ne_eq, ← UInt64.toNat_inj, UInt64.toNat_zero]

/-- Quotient and remainder of two words within the low one. -/
theorem words_div {k : ℕ} (hk : k ≤ 64) (lo hi : ℕ) :
    (lo + 18446744073709551616 * hi) / 2 ^ k = lo / 2 ^ k + 2 ^ (64 - k) * hi ∧
      (lo + 18446744073709551616 * hi) % 2 ^ k = lo % 2 ^ k := by
  have hpow : 18446744073709551616 * hi = 2 ^ k * (2 ^ (64 - k) * hi) := by
    rw [← mul_assoc, ← pow_add, Nat.add_sub_cancel' hk]
    rfl
  rw [hpow]
  exact ⟨Nat.add_mul_div_left _ _ (Nat.two_pow_pos k), Nat.add_mul_mod_self_left _ _ _⟩

/-- Quotient and remainder of two words beyond the low one. -/
theorem words_div_high {lo : ℕ} (hlo : lo < 18446744073709551616) (k hi : ℕ) :
    (lo + 18446744073709551616 * hi) / 2 ^ (64 + k) = hi / 2 ^ k ∧
      (lo + 18446744073709551616 * hi) % 2 ^ (64 + k) =
        lo + 18446744073709551616 * (hi % 2 ^ k) := by
  have hpow : (2 : ℕ) ^ (64 + k) = 18446744073709551616 * 2 ^ k := by
    rw [pow_add]
    rfl
  have hdiv : (lo + 18446744073709551616 * hi) / 18446744073709551616 = hi := by omega
  have hmod : (lo + 18446744073709551616 * hi) % 18446744073709551616 = lo := by omega
  constructor
  · rw [hpow, ← Nat.div_div_eq_div_mul, hdiv]
  · rw [hpow, Nat.mod_mul, hdiv, hmod]

/-- What a shift by `t + 1` is to leave: the quotient, the guard bit and whether a lower bit is
set. -/
def ShiftOf (mag t : ℕ) (shifted : Option (UInt64 × UInt64 × UInt64)) : Prop :=
  ∃ q r st, shifted = some (q, r, st) ∧ q.toNat = mag / 2 ^ (t + 1) ∧
    (r ≠ 0 ↔ mag / 2 ^ t % 2 = 1) ∧ (st ≠ 0 ↔ mag % 2 ^ t ≠ 0)

/-- The guard bit and the bits below it are in the low word. -/
theorem fp8Shift_low (lo hi : UInt64) {t : ℕ} (ht : t < 63)
    (hq : (lo.toNat + 18446744073709551616 * hi.toNat) / 2 ^ (t + 1) < 2 ^ 64) :
    ShiftOf (lo.toNat + 18446744073709551616 * hi.toNat) t (fp8Shift lo hi (t + 1)) := by
  have hlo := lo.toNat_lt
  have hcast : (t : ℤ) + 1 = (t + 1 : ℕ) := rfl
  obtain ⟨hdiv, -⟩ := words_div (k := t + 1) (by omega) lo.toNat hi.toNat
  obtain ⟨hguard, hmod⟩ := words_div (k := t) (by omega) lo.toNat hi.toNat
  have hcount : 64 - ((t : ℤ) + 1) = (64 - (t + 1) : ℕ) := by omega
  have hprev : (t : ℤ) + 1 - 1 = t := by ring
  obtain ⟨low, hlow, hlowv⟩ := shr64_eq lo (n := t + 1) (by omega)
  obtain ⟨high, hhigh, hhighv⟩ := shl64_eq hi (n := 64 - (t + 1)) (by omega) (by
    rw [hdiv, mul_comm (2 ^ _)] at hq
    omega)
  obtain ⟨rem, hrem, hremv⟩ := shr64_eq lo (n := t) (by omega)
  obtain ⟨bit, hbit, hmask⟩ := shl64_one_sub_one (n := t) (by omega)
  obtain ⟨st, hst, hstv⟩ : ∃ st, (if (t : ℤ) + 1 > 1
      then (shl64 1 (t : ℤ)).map fun bit => lo &&& (bit - 1) else some 0) = some st ∧
        st.toNat = lo.toNat % 2 ^ t := by
    by_cases hzero : t = 0
    · refine ⟨0, if_neg (by omega), ?_⟩
      rw [hzero, pow_zero, Nat.mod_one, UInt64.toNat_zero]
    · refine ⟨lo &&& (bit - 1), ?_, hmask lo⟩
      rw [if_pos (by omega), hbit, Option.map_some]
  refine ⟨low ||| high, rem &&& 1, st, ?_, ?_, ?_, ?_⟩
  · unfold fp8Shift
    rw [if_pos (by omega), if_pos (by omega : (t : ℤ) + 1 ≠ 0), hcount, hprev, hst, hcast, hlow,
      hhigh, hrem]
    rfl
  · have hfit : lo.toNat / 2 ^ (t + 1) < 2 ^ (64 - (t + 1)) := by
      rw [Nat.div_lt_iff_lt_mul (Nat.two_pow_pos _), ← pow_add, Nat.sub_add_cancel (by omega)]
      exact hlo
    rw [UInt64.toNat_or, hlowv, hhighv, hdiv, Nat.or_comm, mul_comm hi.toNat,
      Words.mul_or_eq_add hfit, add_comm]
  · have heven : 2 ^ (64 - t) * hi.toNat = 2 * (2 ^ (63 - t) * hi.toNat) := by
      rw [← mul_assoc, ← pow_succ']
      congr 2
      omega
    rw [ne_zero_iff_toNat, UInt64.toNat_and, hremv, UInt64.toNat_one, Nat.and_one_is_mod, hguard,
      heven]
    omega
  · rw [ne_zero_iff_toNat, hstv, hmod]

/-- The guard bit is the highest of the low word. -/
theorem fp8Shift_middle (lo hi : UInt64) :
    ShiftOf (lo.toNat + 18446744073709551616 * hi.toNat) 63 (fp8Shift lo hi 64) := by
  obtain ⟨hdiv, -⟩ := words_div_high lo.toNat_lt 0 hi.toNat
  obtain ⟨hguard, hmod⟩ := words_div (k := 63) (by omega) lo.toNat hi.toNat
  obtain ⟨q, hq, hqv⟩ := shr64_eq hi (n := 0) (by omega)
  obtain ⟨rem, hrem, hremv⟩ := shr64_eq lo (n := 63) (by omega)
  have hmask (x : UInt64) : (x &&& ~~~(9223372036854775808 : UInt64)).toNat =
      x.toNat % 2 ^ 63 := by
    rw [UInt64.toNat_and]
    exact Nat.and_two_pow_sub_one_eq_mod x.toNat 63
  refine ⟨q, rem, lo &&& ~~~(9223372036854775808 : UInt64), ?_, hqv.trans hdiv.symm, ?_, ?_⟩
  · unfold fp8Shift
    rw [if_neg (by norm_num), if_pos rfl, if_pos rfl]
    exact congrArg₂ (fun q o : Option UInt64 => q.bind fun q => o.bind fun rem =>
      some (q, rem, lo &&& ~~~(9223372036854775808 : UInt64))) hq hrem
  · have heven : 2 ^ (64 - 63) * hi.toNat = 2 * hi.toNat := rfl
    rw [ne_zero_iff_toNat, hremv, hguard, heven]
    omega
  · rw [ne_zero_iff_toNat, hmask, hmod]

/-- The guard bit is in the high word. -/
theorem fp8Shift_high (lo hi : UInt64) {v : ℕ} (hv : v < 63) :
    ShiftOf (lo.toNat + 18446744073709551616 * hi.toNat) (64 + v)
      (fp8Shift lo hi ((64 + v : ℕ) + 1)) := by
  obtain ⟨hdiv, -⟩ := words_div_high lo.toNat_lt (v + 1) hi.toNat
  obtain ⟨hguard, hmod⟩ := words_div_high lo.toNat_lt v hi.toNat
  obtain ⟨q, hq, hqv⟩ := shr64_eq hi (n := v + 1) (by omega)
  obtain ⟨rem, hrem, hremv⟩ := shr64_eq hi (n := v) (by omega)
  obtain ⟨bit, hbit, hmask⟩ := shl64_one_sub_one (n := v) (by omega)
  have hcount : ((64 + v : ℕ) : ℤ) + 1 - 64 = (v + 1 : ℕ) := by
    push_cast
    ring
  have hlowcount : ((64 + v : ℕ) : ℤ) + 1 - 65 = v := by
    push_cast
    ring
  refine ⟨q, rem &&& 1, lo ||| (hi &&& (bit - 1)), ?_, hqv.trans hdiv.symm, ?_, ?_⟩
  · unfold fp8Shift
    rw [if_neg (by omega), hcount, hq, if_neg (by omega), if_neg (by omega), hlowcount, hrem, hbit]
    rfl
  · rw [ne_zero_iff_toNat, UInt64.toNat_and, hremv, UInt64.toNat_one, Nat.and_one_is_mod, hguard]
    omega
  · rw [ne_zero_iff_toNat, UInt64.toNat_or, hmask, hmod, ne_eq, Nat.or_eq_zero_iff]
    omega

theorem fp8Shift_spec {lo hi : UInt64} {mag t : ℕ}
    (hmag : lo.toNat + 18446744073709551616 * hi.toNat = mag) (ht : t < 127)
    (hq : mag / 2 ^ (t + 1) < 2 ^ 64) : ShiftOf mag t (fp8Shift lo hi (t + 1)) := by
  rw [← hmag] at hq ⊢
  rcases lt_trichotomy t 63 with hlt | rfl | hgt
  · exact fp8Shift_low lo hi hlt hq
  · exact fp8Shift_middle lo hi
  · obtain ⟨v, rfl⟩ : ∃ v, t = 64 + v := ⟨t - 64, by omega⟩
    exact fp8Shift_high lo hi (by omega)

/-- The sign and the size of the accumulated number. -/
theorem negated (acc : Fp8Acc) {neg : Bool} (hneg : neg = (acc.hi >>> 63 != 0)) {lo hi : UInt64}
    (hlo : lo = if neg then ~~~acc.lo + 1 else acc.lo)
    (hhi : hi = if neg then ~~~acc.hi + (if lo = 0 then 1 else 0) else acc.hi) :
    (neg = true ↔ acc.toInt < 0) ∧
      lo.toNat + 18446744073709551616 * hi.toNat = acc.toInt.natAbs := by
  have hlolt := acc.lo.toNat_lt
  have hhilt := acc.hi.toNat_lt
  have htop : (acc.hi >>> 63).toNat = acc.hi.toNat / 9223372036854775808 := by
    rw [UInt64.toNat_shiftRight]
    exact Nat.shiftRight_eq_div_pow _ _
  have hraw : acc.raw = acc.lo.toNat + 18446744073709551616 * acc.hi.toNat := rfl
  have hsign : neg = true ↔ acc.toInt < 0 := by
    rw [hneg, bne_iff_ne, ne_zero_iff_toNat, htop]
    unfold Fp8Acc.toInt
    split_ifs with hlt
    · omega
    · omega
  refine ⟨hsign, ?_⟩
  cases hcase : neg with
  | false =>
    have hnonneg : ¬ acc.toInt < 0 := fun h => by
      rw [hsign.2 h] at hcase
      nomatch hcase
    rw [hcase, if_neg Bool.false_ne_true] at hlo hhi
    rw [hlo, hhi]
    unfold Fp8Acc.toInt at hnonneg ⊢
    split_ifs at hnonneg ⊢ with hlt
    · omega
    · omega
  | true =>
    have hlt := hsign.1 hcase
    rw [hcase, if_pos rfl] at hlo hhi
    have hnotlo : (~~~acc.lo).toNat = 18446744073709551615 - acc.lo.toNat :=
      UInt64.toNat_not _
    have hnothi : (~~~acc.hi).toNat = 18446744073709551615 - acc.hi.toNat :=
      UInt64.toNat_not _
    have hlov : lo.toNat = (18446744073709551615 - acc.lo.toNat + 1) % 18446744073709551616 := by
      rw [hlo, ← hnotlo]
      exact UInt64.toNat_add _ _
    have hhiv : hi.toNat = (18446744073709551615 - acc.hi.toNat +
        if acc.lo.toNat = 0 then 1 else 0) % 18446744073709551616 := by
      have hzero : lo = 0 ↔ acc.lo.toNat = 0 := by
        rw [← UInt64.toNat_inj, hlov, UInt64.toNat_zero]
        omega
      rw [hhi, ← hnothi]
      by_cases hl : acc.lo.toNat = 0
      · rw [if_pos hl, if_pos (hzero.2 hl)]
        exact UInt64.toNat_add _ _
      · rw [if_neg hl, if_neg (mt hzero.1 hl), add_zero, add_zero]
        exact (Nat.mod_eq_of_lt (UInt64.toNat_lt _)).symm
    rw [hlov, hhiv]
    unfold Fp8Acc.toInt at hlt ⊢
    split_ifs at hlt ⊢ with hsmall hl
    · omega
    · omega
    · omega
    · omega

/-- A packed number, if its exponent is one of a normal number. -/
theorem fp8Pack_spec {exp : ℤ} {sig : UInt32} (neg : Bool) (hexp : 1 ≤ exp ∧ exp ≤ 254)
    (hsig : 2 ^ 23 ≤ sig.toNat) (hsig' : sig.toNat < 2 ^ 24) :
    (Encoding.binary32.exp (fp8Pack neg exp sig).toNat : ℤ) = exp ∧
      Encoding.binary32.value (fp8Pack neg exp sig).toNat =
        (if neg then -1 else 1) * (sig.toNat : ℚ) * 2 ^ (exp - 150) := by
  obtain ⟨e, rfl⟩ : ∃ e : ℕ, exp = e := ⟨exp.toNat, by omega⟩
  have hof : (UInt32.ofInt e).toNat = e := by
    show (((e : ℤ) % 2 ^ 32).toNat) % 2 ^ 32 = e
    omega
  have hshift : (UInt32.ofInt e <<< 23).toNat = 2 ^ 23 * e := by
    rw [UInt32.toNat_shiftLeft, hof]
    show (e <<< 23) % 2 ^ 32 = 2 ^ 23 * e
    rw [Nat.shiftLeft_eq]
    omega
  have hfrac : (sig &&& 0x7FFFFF).toNat = sig.toNat - 2 ^ 23 := by
    rw [UInt32.toNat_and]
    show sig.toNat &&& (2 ^ 23 - 1) = _
    rw [Nat.and_two_pow_sub_one_eq_mod]
    omega
  obtain ⟨n, hn, hsign⟩ : ∃ n < 2, ((if neg then 1 else 0 : UInt32) <<< 31).toNat = 2 ^ 31 * n ∧
      (n = 1 ↔ neg = true) := by
    cases neg with
    | false => exact ⟨0, by norm_num, rfl, by decide⟩
    | true => exact ⟨1, by norm_num, rfl, by decide⟩
  have hbits : (fp8Pack neg e sig).toNat = 2 ^ 31 * n + 2 ^ 23 * e + (sig.toNat - 2 ^ 23) := by
    unfold fp8Pack
    rw [UInt32.toNat_or, UInt32.toNat_or, hsign.1, hshift, hfrac,
      Words.mul_or_eq_add (show 2 ^ 23 * e < 2 ^ 31 by omega)]
    have hfield : 2 ^ 31 * n + 2 ^ 23 * e = 2 ^ 23 * (2 ^ 8 * n + e) := by ring
    rw [hfield]
    exact Words.mul_or_eq_add (by omega)
  have hexpv : Encoding.binary32.exp (fp8Pack neg e sig).toNat = e := by
    rw [hbits]
    show (2 ^ 31 * n + 2 ^ 23 * e + (sig.toNat - 2 ^ 23)) / 2 ^ 23 % 2 ^ 8 = e
    omega
  have hfracv : Encoding.binary32.frac (fp8Pack neg e sig).toNat = sig.toNat - 2 ^ 23 := by
    rw [hbits]
    show (2 ^ 31 * n + 2 ^ 23 * e + (sig.toNat - 2 ^ 23)) % 2 ^ 23 = sig.toNat - 2 ^ 23
    omega
  have hnegv : Encoding.binary32.Neg (fp8Pack neg e sig).toNat ↔ neg = true := by
    rw [hbits, ← hsign.2]
    show (2 ^ 31 * n + 2 ^ 23 * e + (sig.toNat - 2 ^ 23)) / 2 ^ 31 % 2 = 1 ↔ n = 1
    omega
  refine ⟨by rw [hexpv], ?_⟩
  unfold Encoding.value
  rw [hexpv, hfracv, if_neg (show ¬ e = 0 by omega)]
  have hhidden : 2 ^ Encoding.binary32.fracBits + (sig.toNat - 2 ^ 23) = sig.toNat :=
    Nat.add_sub_cancel' hsig
  have hmax : max e 1 = e := by omega
  have hpow : (e : ℤ) - Encoding.binary32.bias - Encoding.binary32.fracBits = e - 150 := by
    show (e : ℤ) - 127 - 23 = e - 150
    ring
  rw [hhidden, hmax, hpow]
  by_cases h : neg = true
  · rw [if_pos h, if_pos (hnegv.2 h)]
  · rw [if_neg h, if_neg (mt hnegv.1 h)]

/-- Rounding to FP32 from the position of the highest bit. -/
theorem binary32_rne {mag : ℕ} (hmag : mag ≠ 0) {scale : ℤ} (hscale : scale ≤ 126) :
    Encoding.binary32.format.rne (mag * 2 ^ (-scale)) =
      roundEven (mag / 2 ^ ((Nat.log 2 mag : ℤ) - 23)) *
        2 ^ (Nat.log 2 mag - scale + 127 - 150) := by
  have hprec : ((Encoding.binary32.format.prec : ℤ) - 1) = 23 := rfl
  have hmin : Encoding.binary32.format.emin = -149 := rfl
  rw [Format.rne_mul_zpow _ hmag (by rw [hprec, hmin]; omega), hprec]
  congr 2
  ring

/-- What a number of sign `neg` and size `mag` is to become: the number rounded once, and normal. -/
def ConvertsTo (neg : Bool) (mag : ℕ) (scale : ℤ) (r : UInt32) : Prop :=
  Encoding.binary32.value r.toNat =
      (if neg then -1 else 1) * Encoding.binary32.format.rne (mag * 2 ^ (-scale)) ∧
    1 ≤ Encoding.binary32.exp r.toNat ∧ Encoding.binary32.exp r.toNat ≤ 254

section Magnitude

variable {neg : Bool} {mag L : ℕ} {scale : ℤ}

/-- A packed number with the right size is the result. -/
theorem ConvertsTo.of_pack (hmag : mag ≠ 0) (hscale : scale ≤ 126) {exp : ℤ} {sig : UInt32}
    (hexp : 1 ≤ exp ∧ exp ≤ 254) (hsig : 2 ^ 23 ≤ sig.toNat) (hsig' : sig.toNat < 2 ^ 24)
    (hvalue : (sig.toNat : ℚ) * 2 ^ (exp - 150) =
      roundEven (mag / 2 ^ ((Nat.log 2 mag : ℤ) - 23)) *
        2 ^ (Nat.log 2 mag - scale + 127 - 150)) :
    ConvertsTo neg mag scale (fp8Pack neg exp sig) := by
  obtain ⟨hpackexp, hpack⟩ := fp8Pack_spec neg hexp hsig hsig'
  refine ⟨?_, by omega, by omega⟩
  rw [hpack, mul_assoc, binary32_rne hmag hscale, ← hvalue]

/-- A number of up to 24 bits is only moved: no bit is lost. -/
theorem converts_short (neg : Bool) (hL : Nat.log 2 mag = L) (hmag : mag ≠ 0) (hshort : L ≤ 23)
    (hscale : 1 ≤ scale ∧ scale ≤ 126) {lo : UInt64} (hlo : lo.toNat = mag) :
    ∃ y, shl64 lo (23 - L) = some y ∧
      ConvertsTo neg mag scale (fp8Pack neg (L - scale + 127) y.toUInt32) := by
  have hscaled : 2 ^ 23 ≤ mag * 2 ^ (23 - L) ∧ mag * 2 ^ (23 - L) < 2 ^ 24 := by
    have hpow : 2 ^ L * 2 ^ (23 - L) = 2 ^ 23 := by
      rw [← pow_add, Nat.add_sub_cancel' hshort]
    have hpow' : 2 ^ (L + 1) * 2 ^ (23 - L) = 2 ^ 24 := by
      rw [← pow_add]
      congr 1
      omega
    constructor
    · rw [← hpow]
      exact Nat.mul_le_mul_right _ (hL ▸ Nat.pow_log_le_self 2 hmag)
    · rw [← hpow']
      exact Nat.mul_lt_mul_of_pos_right (hL ▸ Nat.lt_pow_succ_log_self one_lt_two mag)
        (Nat.two_pow_pos _)
  obtain ⟨y, hy, hyv⟩ := shl64_eq lo (n := 23 - L) (by omega) (by rw [hlo]; omega)
  have hcount : (23 : ℤ) - L = (23 - L : ℕ) := by omega
  have hsig : y.toUInt32.toNat = mag * 2 ^ (23 - L) := by
    rw [UInt64.toNat_toUInt32, hyv, hlo]
    omega
  refine ⟨y, by rw [hcount, hy], .of_pack hmag hscale.2 (by omega) (by omega) (by omega) ?_⟩
  have hint : (mag : ℚ) / 2 ^ ((L : ℤ) - 23) = ((mag * 2 ^ (23 - L) : ℕ) : ℤ) := by
    have hneg : (L : ℤ) - 23 = -((23 - L : ℕ) : ℤ) := by omega
    rw [hneg, zpow_neg, zpow_natCast, div_inv_eq_mul]
    push_cast
    rfl
  rw [hL, hint, roundEven_intCast, hsig, Int.cast_natCast]

/-- A longer number is shifted and rounded, once; `t + 1` bits are lost. -/
theorem converts_rounded (neg : Bool) {t : ℕ} (hL : Nat.log 2 mag = t + 24) (hmag : mag ≠ 0)
    (ht : t ≤ 103) (hscale : 1 ≤ scale ∧ scale ≤ 126) {q r st : UInt64}
    (hqv : q.toNat = mag / 2 ^ (t + 1)) (hr : r ≠ 0 ↔ mag / 2 ^ t % 2 = 1)
    (hst : st ≠ 0 ↔ mag % 2 ^ t ≠ 0) :
    ConvertsTo neg mag scale
      (if r ≠ 0 ∧ (st ≠ 0 ∨ q.toUInt32 &&& 1 ≠ 0) then
        if q.toUInt32 + 1 = 0x1000000 then
          fp8Pack neg ((t + 24 : ℕ) + 1 - scale + 127) ((q.toUInt32 + 1) >>> 1)
        else fp8Pack neg ((t + 24 : ℕ) - scale + 127) (q.toUInt32 + 1)
      else fp8Pack neg ((t + 24 : ℕ) - scale + 127) q.toUInt32) := by
  have hq : 2 ^ 23 ≤ mag / 2 ^ (t + 1) ∧ mag / 2 ^ (t + 1) < 2 ^ 24 := by
    have hpos := Nat.two_pow_pos (t + 1)
    rw [Nat.le_div_iff_mul_le hpos, Nat.div_lt_iff_lt_mul hpos, ← pow_add, ← pow_add]
    have hexp : 23 + (t + 1) = t + 24 := by ring
    have hexp' : 24 + (t + 1) = t + 24 + 1 := by ring
    rw [hexp, hexp', ← hL]
    exact ⟨Nat.pow_log_le_self 2 hmag, Nat.lt_pow_succ_log_self one_lt_two mag⟩
  have hround := roundEven_shift mag t
  rw [← hqv] at hq hround
  have hsig : q.toUInt32.toNat = q.toNat := by
    rw [UInt64.toNat_toUInt32]
    omega
  have hodd : q.toUInt32 &&& 1 ≠ 0 ↔ q.toNat % 2 = 1 := by
    rw [ne_eq, ← UInt32.toNat_inj, UInt32.toNat_and, hsig]
    show ¬ q.toNat &&& 1 = 0 ↔ _
    rw [Nat.and_one_is_mod]
    omega
  have hup : (r ≠ 0 ∧ (st ≠ 0 ∨ q.toUInt32 &&& 1 ≠ 0)) ↔
      mag / 2 ^ t % 2 = 1 ∧ (mag % 2 ^ t ≠ 0 ∨ q.toNat % 2 = 1) := by
    rw [hr, hst, hodd]
  have hpow : (2 : ℚ) ^ (((t + 24 : ℕ) : ℤ) - 23) = 2 ^ (t + 1) := by
    have hcount : ((t + 24 : ℕ) : ℤ) - 23 = (t + 1 : ℕ) := by omega
    rw [hcount]
    exact zpow_natCast 2 (t + 1)
  by_cases hinc : r ≠ 0 ∧ (st ≠ 0 ∨ q.toUInt32 &&& 1 ≠ 0)
  · rw [if_pos (hup.1 hinc)] at hround
    rw [if_pos hinc]
    have hnext : (q.toUInt32 + 1).toNat = q.toNat + 1 := by
      rw [UInt32.toNat_add, hsig]
      show (q.toNat + 1) % 2 ^ 32 = q.toNat + 1
      omega
    by_cases hcarry : q.toUInt32 + 1 = 0x1000000
    · -- the carry out of the significand
      have hfull : q.toNat + 1 = 2 ^ 24 := by
        rw [← hnext, hcarry]
        rfl
      have hhalf : ((q.toUInt32 + 1) >>> 1).toNat = 2 ^ 23 := by
        rw [hcarry]
        rfl
      have hexp : ((t + 24 : ℕ) : ℤ) + 1 - scale + 127 - 150 =
          ((t + 24 : ℕ) - scale + 127 - 150) + 1 := by ring
      rw [if_pos hcarry]
      refine .of_pack hmag hscale.2 (by omega) (by omega) (by omega) ?_
      rw [hL, hpow, hround, hhalf, hfull, hexp, zpow_add_one₀ two_ne_zero]
      push_cast
      ring
    · have hlt : q.toNat + 1 ≠ 2 ^ 24 := fun h => hcarry (UInt32.toNat_inj.1 (hnext.trans h))
      rw [if_neg hcarry]
      refine .of_pack hmag hscale.2 (by omega) (by omega) (by omega) ?_
      rw [hL, hpow, hround, hnext, Int.cast_natCast]
  · rw [if_neg (mt hup.2 hinc), add_zero] at hround
    rw [if_neg hinc]
    refine .of_pack hmag hscale.2 (by omega) (by omega) (by omega) ?_
    rw [hL, hpow, hround, hsig, Int.cast_natCast]

end Magnitude

/-- Rounding goes by the size. -/
theorem rne_natAbs {x : ℤ} {neg : Bool} (hsign : neg = true ↔ x < 0) (c : ℚ) :
    Encoding.binary32.format.rne (x * c) =
      (if neg then -1 else 1) * Encoding.binary32.format.rne (x.natAbs * c) := by
  cases neg with
  | false =>
    have hint : (x : ℚ) = x.natAbs := by
      have hge := mt hsign.2 Bool.false_ne_true
      have hself : x = (x.natAbs : ℤ) := by omega
      rw [← Int.cast_natCast, ← hself]
    rw [if_neg Bool.false_ne_true, one_mul, ← hint]
  | true =>
    have hint : (x : ℚ) = -(x.natAbs : ℚ) := by
      have hlt := hsign.1 rfl
      have hself : x = -(x.natAbs : ℤ) := by omega
      rw [← Int.cast_natCast, ← Int.cast_neg, ← hself]
    rw [if_pos rfl, neg_one_mul, ← Format.rne_neg, ← neg_mul, ← hint]

/-- An accumulated number is no larger than 2^127, so its highest bit is one of 128. -/
theorem Fp8Acc.log_natAbs_le (acc : Fp8Acc) (hzero : acc.toInt.natAbs ≠ 0) :
    Nat.log 2 acc.toInt.natAbs ≤ 127 := by
  have hbound : acc.toInt.natAbs ≤ 2 ^ 127 := by
    have hraw := acc.raw_lt
    unfold Fp8Acc.toInt
    split_ifs
    · omega
    · omega
  rw [← Nat.lt_succ_iff]
  exact Nat.log_lt_of_lt_pow hzero (hbound.trans_lt (by norm_num))

/-- The converted number is the accumulated one, rounded once; a nonzero one is normal.  In
particular no shift has a count out of range. -/
theorem acc_to_f32_spec (acc : Fp8Acc) {scale : ℤ} (hscale : 1 ≤ scale ∧ scale ≤ 126) :
    ∃ r, amx_fp8_acc_to_f32 acc scale = some r ∧
      Encoding.binary32.value r.toNat =
        Encoding.binary32.format.rne (acc.toInt * 2 ^ (-scale)) ∧
      (acc.toInt = 0 → r = 0) ∧
      (acc.toInt ≠ 0 → 1 ≤ Encoding.binary32.exp r.toNat ∧
        Encoding.binary32.exp r.toNat ≤ 254) := by
  obtain ⟨neg, hneg⟩ : ∃ neg, neg = (acc.hi >>> 63 != 0) := ⟨_, rfl⟩
  obtain ⟨lo, hlo⟩ : ∃ lo, lo = if neg then ~~~acc.lo + 1 else acc.lo := ⟨_, rfl⟩
  obtain ⟨hi, hhi⟩ : ∃ hi, hi = if neg then ~~~acc.hi + (if lo = 0 then 1 else 0) else acc.hi :=
    ⟨_, rfl⟩
  obtain ⟨hsign, hwords⟩ := negated acc hneg hlo hhi
  unfold amx_fp8_acc_to_f32
  dsimp only
  rw [← hneg, ← hlo, ← hhi]
  by_cases hzero : acc.toInt.natAbs = 0
  · have hint : acc.toInt = 0 := by omega
    have hlo0 : lo = 0 := UInt64.toNat_inj.1 (by rw [UInt64.toNat_zero]; omega)
    have hhi0 : hi = 0 := UInt64.toNat_inj.1 (by rw [UInt64.toNat_zero]; omega)
    refine ⟨0, if_pos ⟨hlo0, hhi0⟩, ?_, fun _ => rfl, fun h => absurd hint h⟩
    rw [hint, Int.cast_zero, zero_mul, Format.rne_zero, Encoding.value_eq_units]
    exact mul_eq_zero_of_left (Int.cast_eq_zero.2 rfl) _
  have hwords0 : ¬ (lo = 0 ∧ hi = 0) := by
    rintro ⟨rfl, rfl⟩
    exact hzero hwords.symm
  suffices h : ∃ r, _ = some r ∧ ConvertsTo neg acc.toInt.natAbs scale r by
    obtain ⟨r, hr, hvalue, hnormal⟩ := h
    exact ⟨r, hr, hvalue.trans (rne_natAbs hsign _).symm, fun h => absurd (h ▸ rfl) hzero,
      fun _ => hnormal⟩
  obtain ⟨mag, hmag⟩ : ∃ mag, mag = acc.toInt.natAbs := ⟨_, rfl⟩
  obtain ⟨L, hL⟩ : ∃ L, Nat.log 2 mag = L := ⟨_, rfl⟩
  have hL127 : L ≤ 127 := by
    rw [← hL, hmag]
    exact acc.log_natAbs_le hzero
  rw [← hmag] at hwords hzero ⊢
  have hhigh : mag < 2 ^ (L + 1) := hL ▸ Nat.lt_pow_succ_log_self one_lt_two mag
  rw [if_neg hwords0, msb_eq hwords hzero, hL]
  by_cases hshort : (L : ℤ) ≤ 23
  · have hlov : lo.toNat = mag := by
      have hpow : 2 ^ (L + 1) ≤ 2 ^ 24 := Nat.pow_le_pow_right two_pos (by omega)
      omega
    obtain ⟨y, hy, hconv⟩ := converts_short neg hL hzero (by omega) hscale hlov
    exact ⟨_, by rw [if_pos hshort, hy, Option.map_some], hconv⟩
  · obtain ⟨t, rfl⟩ : ∃ t, L = t + 24 := ⟨L - 24, by omega⟩
    have hcount : ((t + 24 : ℕ) : ℤ) - 23 = t + 1 := by
      push_cast
      ring
    have hfit : mag / 2 ^ (t + 1) < 2 ^ 64 := by
      rw [Nat.div_lt_iff_lt_mul (Nat.two_pow_pos _), ← pow_add]
      exact hhigh.trans_le (Nat.pow_le_pow_right two_pos (by omega))
    obtain ⟨q, r, st, hshift, hqv, hr, hst⟩ := fp8Shift_spec hwords (by omega) hfit
    refine ⟨_, ?_, converts_rounded neg hL hzero (by omega) hscale hqv hr hst⟩
    rw [if_neg hshort, hcount, hshift]
    rfl

end Convert

/-! ## The rounded sum -/

/-- The fraction bits of a product. -/
def fp8ProductScale (a_is_bf8 b_is_bf8 : Bool) : ℕ := fp8Scale a_is_bf8 + fp8Scale b_is_bf8

/-- The exact sum of products. -/
def fp8Exact (a_is_bf8 b_is_bf8 : Bool) (pairs : List (UInt8 × UInt8)) : ℚ :=
  (pairs.map fun p => (fp8 a_is_bf8).value p.1.toNat * (fp8 b_is_bf8).value p.2.toNat).sum

section Sum

variable {a_is_bf8 b_is_bf8 : Bool} {pairs : List (UInt8 × UInt8)}

theorem fp8_value (v : UInt8) (is_bf8 : Bool) :
    (fp8 is_bf8).value v.toNat = fp8Units v is_bf8 * 2 ^ (-(fp8Scale is_bf8 : ℤ)) := by
  rw [Encoding.value_eq_units]
  cases is_bf8 <;> rfl

theorem fp8Exact_eq (a_is_bf8 b_is_bf8 : Bool) (pairs : List (UInt8 × UInt8)) :
    fp8Exact a_is_bf8 b_is_bf8 pairs =
      fp8Sum a_is_bf8 b_is_bf8 pairs * 2 ^ (-(fp8ProductScale a_is_bf8 b_is_bf8 : ℤ)) := by
  unfold fp8Exact fp8Sum
  induction pairs with
  | nil => rw [List.map_nil, List.map_nil, List.sum_nil, List.sum_nil, Int.cast_zero, zero_mul]
  | cons p pairs ih =>
    have hscale : -(fp8ProductScale a_is_bf8 b_is_bf8 : ℤ) =
        -(fp8Scale a_is_bf8 : ℤ) + -(fp8Scale b_is_bf8 : ℤ) := by
      unfold fp8ProductScale
      push_cast
      ring
    rw [List.map_cons, List.map_cons, List.sum_cons, List.sum_cons, ih, fp8_value, fp8_value,
      hscale, zpow_add₀ two_ne_zero]
    push_cast
    ring

/-- Two accumulators of the same number without flags are equal. -/
theorem Fp8Acc.eq_of_raw {s t : Fp8Acc} (hraw : s.raw = t.raw) (hnan : s.nan = t.nan)
    (hpos : s.pos_inf = t.pos_inf) (hneg : s.neg_inf = t.neg_inf) : s = t := by
  obtain ⟨lo, hi, nan, pos_inf, neg_inf⟩ := s
  obtain ⟨lo', hi', nan', pos_inf', neg_inf'⟩ := t
  have hlo := lo.toNat_lt
  have hlo' := lo'.toNat_lt
  unfold Fp8Acc.raw at hraw
  dsimp only at hraw hnan hpos hneg
  obtain rfl : lo = lo' := UInt64.toNat_inj.1 (by omega)
  obtain rfl : hi = hi' := UInt64.toNat_inj.1 (by omega)
  rw [hnan, hpos, hneg]

/-- The order of the pairs does not matter, specials included. -/
theorem accumulated_perm {pairs' : List (UInt8 × UInt8)} (hperm : pairs'.Perm pairs) :
    fp8Accumulated a_is_bf8 b_is_bf8 pairs' = fp8Accumulated a_is_bf8 b_is_bf8 pairs := by
  have h := accumulated_spec a_is_bf8 b_is_bf8 pairs
  have h' := accumulated_spec a_is_bf8 b_is_bf8 pairs'
  have hsum : (pairs'.map (fp8Term a_is_bf8 b_is_bf8)).sum =
      (pairs.map (fp8Term a_is_bf8 b_is_bf8)).sum := (hperm.map _).sum_eq
  have hmem (P : UInt8 × UInt8 → Prop) : (∃ p ∈ pairs', P p) ↔ ∃ p ∈ pairs, P p :=
    exists_congr fun p => and_congr_left' hperm.mem_iff
  refine Fp8Acc.eq_of_raw ?_ ?_ ?_ ?_
  · have hraw := h'.raw
    rw [hsum, ← h.raw] at hraw
    exact_mod_cast hraw
  · rw [Bool.eq_iff_iff, h'.nan, h.nan, hmem]
  · rw [Bool.eq_iff_iff, h'.pos_inf, h.pos_inf, hmem]
  · rw [Bool.eq_iff_iff, h'.neg_inf, h.neg_inf, hmem]

theorem decode_shift_lt (v : UInt8) :
    (v >>> 2 &&& 0x1F).toNat - 1 < 64 ∧ (v >>> 3 &&& 0xF).toNat - 1 < 64 := by
  rw [UInt8.toNat_and, UInt8.toNat_and]
  have hbf8 : (v >>> 2).toNat &&& (0x1F : UInt8).toNat ≤ 0x1F := Nat.and_le_right
  have hhf8 : (v >>> 3).toNat &&& (0xF : UInt8).toNat ≤ 0xF := Nat.and_le_right
  omega

theorem fp8ProductScale_bounds (a_is_bf8 b_is_bf8 : Bool) :
    1 ≤ (fp8ProductScale a_is_bf8 b_is_bf8 : ℤ) ∧
      (fp8ProductScale a_is_bf8 b_is_bf8 : ℤ) ≤ 126 := by
  cases a_is_bf8 <;> cases b_is_bf8 <;> decide

/-- A sum that fits the accumulator comes out as the exact sum, rounded once. -/
theorem accumulated_to_f32
    (h : ∀ p ∈ pairs, Fp8Finite p.1 a_is_bf8 ∧ Fp8Finite p.2 b_is_bf8)
    (hlow : -2 ^ 127 ≤ fp8Sum a_is_bf8 b_is_bf8 pairs)
    (hhigh : fp8Sum a_is_bf8 b_is_bf8 pairs < 2 ^ 127) :
    ∃ r, amx_fp8_acc_to_f32 (fp8Accumulated a_is_bf8 b_is_bf8 pairs)
          (fp8ProductScale a_is_bf8 b_is_bf8) = some r ∧
      Encoding.binary32.value r.toNat =
        Encoding.binary32.format.rne (fp8Exact a_is_bf8 b_is_bf8 pairs) ∧
      (fp8Exact a_is_bf8 b_is_bf8 pairs = 0 → r = 0) ∧
      (fp8Exact a_is_bf8 b_is_bf8 pairs ≠ 0 → 1 ≤ Encoding.binary32.exp r.toNat ∧
        Encoding.binary32.exp r.toNat ≤ 254) := by
  have hzero : fp8Exact a_is_bf8 b_is_bf8 pairs = 0 ↔ fp8Sum a_is_bf8 b_is_bf8 pairs = 0 := by
    rw [fp8Exact_eq, mul_eq_zero, Int.cast_eq_zero]
    exact or_iff_left (by positivity)
  obtain ⟨r, hr, hvalue, hplus, hnormal⟩ := acc_to_f32_spec
    (fp8Accumulated a_is_bf8 b_is_bf8 pairs) (fp8ProductScale_bounds a_is_bf8 b_is_bf8)
  rw [toInt_accumulated pairs h hlow hhigh] at hvalue hplus hnormal
  rw [← fp8Exact_eq] at hvalue
  exact ⟨r, hr, hvalue, fun hz => hplus (hzero.1 hz), fun hnz => hnormal (mt hzero.2 hnz)⟩

/-- No number of the format is nearer to the exact sum. -/
theorem accumulated_nearest
    (h : ∀ p ∈ pairs, Fp8Finite p.1 a_is_bf8 ∧ Fp8Finite p.2 b_is_bf8)
    (hlow : -2 ^ 127 ≤ fp8Sum a_is_bf8 b_is_bf8 pairs)
    (hhigh : fp8Sum a_is_bf8 b_is_bf8 pairs < 2 ^ 127) :
    ∃ r, amx_fp8_acc_to_f32 (fp8Accumulated a_is_bf8 b_is_bf8 pairs)
          (fp8ProductScale a_is_bf8 b_is_bf8) = some r ∧
      Encoding.binary32.value r.toNat =
        Encoding.binary32.format.rne (fp8Exact a_is_bf8 b_is_bf8 pairs) ∧
      (∀ y, Encoding.binary32.format.Mem y →
        |fp8Exact a_is_bf8 b_is_bf8 pairs - Encoding.binary32.value r.toNat| ≤
          |fp8Exact a_is_bf8 b_is_bf8 pairs - y|) ∧
      (fp8Exact a_is_bf8 b_is_bf8 pairs = 0 → r = 0) ∧
      (fp8Exact a_is_bf8 b_is_bf8 pairs ≠ 0 → 1 ≤ Encoding.binary32.exp r.toNat ∧
        Encoding.binary32.exp r.toNat ≤ 254) := by
  obtain ⟨r, hr, hvalue, hplus, hnormal⟩ := accumulated_to_f32 h hlow hhigh
  refine ⟨r, hr, hvalue, fun y hy => ?_, hplus, hnormal⟩
  rw [hvalue]
  exact Format.rne_nearest _ _ hy

/-- Partial sums are exact modulo 2^128, and exact where they fit. -/
theorem accumulated_partial {done rest : List (UInt8 × UInt8)}
    (h : ∀ p ∈ done ++ rest, Fp8Finite p.1 a_is_bf8 ∧ Fp8Finite p.2 b_is_bf8) :
    ((fp8Accumulated a_is_bf8 b_is_bf8 done).raw : ℤ) =
        fp8Sum a_is_bf8 b_is_bf8 done % 2 ^ 128 ∧
      (-2 ^ 127 ≤ fp8Sum a_is_bf8 b_is_bf8 done → fp8Sum a_is_bf8 b_is_bf8 done < 2 ^ 127 →
        (fp8Accumulated a_is_bf8 b_is_bf8 done).toInt = fp8Sum a_is_bf8 b_is_bf8 done) := by
  have hdone : ∀ p ∈ done, Fp8Finite p.1 a_is_bf8 ∧ Fp8Finite p.2 b_is_bf8 :=
    fun p hp => h p (List.mem_append_left _ hp)
  exact ⟨accumulated_finite done hdone, toInt_accumulated done hdone⟩

/-- FP8 sums are exact and rounded once, in any order of the pairs.  No product overflows and no
shift count is out of range; an addition is exact modulo 2^128 and so overflows only where a partial
sum itself does not fit. -/
theorem fp8_rounds_once (a_is_bf8 b_is_bf8 : Bool) (pairs : List (UInt8 × UInt8))
    (h : ∀ p ∈ pairs, Fp8Finite p.1 a_is_bf8 ∧ Fp8Finite p.2 b_is_bf8)
    (hfits : -2 ^ 127 ≤ fp8Sum a_is_bf8 b_is_bf8 pairs ∧
      fp8Sum a_is_bf8 b_is_bf8 pairs < 2 ^ 127) :
    (∃ r, amx_fp8_acc_to_f32 (fp8Accumulated a_is_bf8 b_is_bf8 pairs)
          (fp8ProductScale a_is_bf8 b_is_bf8) = some r ∧
      Encoding.binary32.value r.toNat =
        Encoding.binary32.format.rne (fp8Exact a_is_bf8 b_is_bf8 pairs) ∧
      (∀ y, Encoding.binary32.format.Mem y →
        |fp8Exact a_is_bf8 b_is_bf8 pairs - Encoding.binary32.value r.toNat| ≤
          |fp8Exact a_is_bf8 b_is_bf8 pairs - y|) ∧
      (fp8Exact a_is_bf8 b_is_bf8 pairs = 0 → r = 0) ∧
      (fp8Exact a_is_bf8 b_is_bf8 pairs ≠ 0 → 1 ≤ Encoding.binary32.exp r.toNat ∧
        Encoding.binary32.exp r.toNat ≤ 254)) ∧
    (∀ pairs', pairs'.Perm pairs →
      fp8Accumulated a_is_bf8 b_is_bf8 pairs' = fp8Accumulated a_is_bf8 b_is_bf8 pairs) ∧
    (∀ p ∈ pairs, (amx_decode_fp8 p.1 a_is_bf8).mag.toNat *
      (amx_decode_fp8 p.2 b_is_bf8).mag.toNat < 2 ^ 64) ∧
    (∀ v : UInt8, (v >>> 2 &&& 0x1F).toNat - 1 < 64 ∧ (v >>> 3 &&& 0xF).toNat - 1 < 64) ∧
    (∀ done rest, pairs = done ++ rest →
      ((fp8Accumulated a_is_bf8 b_is_bf8 done).raw : ℤ) =
          fp8Sum a_is_bf8 b_is_bf8 done % 2 ^ 128 ∧
        (-2 ^ 127 ≤ fp8Sum a_is_bf8 b_is_bf8 done → fp8Sum a_is_bf8 b_is_bf8 done < 2 ^ 127 →
          (fp8Accumulated a_is_bf8 b_is_bf8 done).toInt = fp8Sum a_is_bf8 b_is_bf8 done)) := by
  refine ⟨accumulated_nearest h hfits.1 hfits.2, fun pairs' hperm => accumulated_perm hperm,
    fun p _ => mag_mul _ _ _ _, decode_shift_lt, ?_⟩
  rintro done rest rfl
  exact accumulated_partial h

/-- One and a half times minus one, in both formats. -/
theorem fp8_rounds_once_product :
    ∃ r, amx_fp8_acc_to_f32 (fp8Accumulated true false [(0x3E, 0xB8)]) 25 = some r ∧
      Encoding.binary32.value r.toNat =
        Encoding.binary32.format.rne (fp8Exact true false [(0x3E, 0xB8)]) := by
  obtain ⟨⟨r, hr, hvalue, -⟩, -⟩ :=
    fp8_rounds_once true false [(0x3E, 0xB8)]
      (List.forall_mem_singleton.2 ⟨⟨by decide, by decide⟩, ⟨by decide, by decide⟩⟩) (by decide)
  exact ⟨r, hr, hvalue⟩

theorem fp8Sum_replicate (n : ℕ) (p : UInt8 × UInt8) :
    fp8Sum a_is_bf8 b_is_bf8 (List.replicate n p) =
      n * (fp8Units p.1 a_is_bf8 * fp8Units p.2 b_is_bf8) := by
  unfold fp8Sum
  rw [List.map_replicate, List.sum_replicate, nsmul_eq_mul]

/-- The sum of 2^64 greatest products and of as many negative ones fits, that of the first half does
not: the additions wrap on the way. -/
theorem partial_sum_overflows :
    (∀ p ∈ List.replicate (2 ^ 64) ((0x7B : UInt8), (0x7B : UInt8)) ++
        List.replicate (2 ^ 64) (0x7B, 0xFB), Fp8Finite p.1 true ∧ Fp8Finite p.2 true) ∧
      fp8Sum true true (List.replicate (2 ^ 64) (0x7B, 0x7B) ++
        List.replicate (2 ^ 64) (0x7B, 0xFB)) = 0 ∧
      (fp8Accumulated true true (List.replicate (2 ^ 64) (0x7B, 0x7B))).toInt ≠
        fp8Sum true true (List.replicate (2 ^ 64) (0x7B, 0x7B)) := by
  obtain ⟨n, hn⟩ : ∃ n : ℕ, n = 2 ^ 64 := ⟨_, rfl⟩
  have hmax : fp8Units 0x7B true = 7 * 2 ^ 29 := by decide
  have hmin : fp8Units 0xFB true = -(7 * 2 ^ 29) := by decide
  have hfirst : fp8Sum true true (List.replicate n (0x7B, 0x7B)) = n * (49 * 2 ^ 58) := by
    rw [fp8Sum_replicate, hmax]
    ring
  have hsecond : fp8Sum true true (List.replicate n (0x7B, 0xFB)) = -(n * (49 * 2 ^ 58)) := by
    rw [fp8Sum_replicate, hmax, hmin]
    ring
  rw [← hn]
  refine ⟨fun p hp => ?_, ?_, fun heq => ?_⟩
  · rcases List.mem_append.1 hp with hp | hp
    · rw [List.eq_of_mem_replicate hp]
      exact ⟨⟨by decide, by decide⟩, ⟨by decide, by decide⟩⟩
    · rw [List.eq_of_mem_replicate hp]
      exact ⟨⟨by decide, by decide⟩, ⟨by decide, by decide⟩⟩
  · have happ : fp8Sum true true (List.replicate n ((0x7B : UInt8), (0x7B : UInt8)) ++
        List.replicate n (0x7B, 0xFB)) = fp8Sum true true (List.replicate n (0x7B, 0x7B)) +
          fp8Sum true true (List.replicate n (0x7B, 0xFB)) := by
      unfold fp8Sum
      rw [List.map_append, List.sum_append]
    rw [happ, hfirst, hsecond, add_neg_cancel]
  · have hlt : (fp8Accumulated true true (List.replicate n (0x7B, 0x7B))).toInt < 2 ^ 127 := by
      unfold Fp8Acc.toInt
      have hraw := Fp8Acc.raw_lt (fp8Accumulated true true (List.replicate n (0x7B, 0x7B)))
      split_ifs
      · omega
      · omega
    rw [heq, hfirst, hn] at hlt
    norm_num at hlt

end Sum

end Bochs
