import Mathlib
import X86Oracle.Lib.Division

/-!
# Bochs: numbers of 128 bits

`cpu/wide_int.cc`: products and quotients of 64-bit numbers, in two words each.

* `Bit128` is both `Bit128u` and `Bit128s`, with two readings, `toNat` and `toInt`.
* `toNat_long_mul` and `toInt_long_imul`: products are exact.
* `long_div_eq_divide`: the loops of `long_div` are the ones of `Division`, whatever the dividend.
  The divisor may lose its top bits there; what that does to the quotient is said by
  `long_div_exact`, `long_div_small` and `long_div_large`.
* `long_idiv_exact`: signed quotients are truncated, and the remainder has the sign of the
  dividend.
-/

namespace Bochs

/-- Two words. -/
@[ext]
structure Bit128 where
  lo : BitVec 64
  hi : BitVec 64
  deriving DecidableEq

namespace Bit128

/-- The unsigned number. -/
def toNat (z : Bit128) : ℕ := z.hi.toNat * 2 ^ 64 + z.lo.toNat

/-- The signed number. -/
def toInt (z : Bit128) : ℤ := z.hi.toInt * 2 ^ 64 + z.lo.toNat

theorem toNat_lt (z : Bit128) : z.toNat < 2 ^ 128 := by
  have hhi := z.hi.isLt
  have hlo := z.lo.isLt
  unfold toNat
  omega

theorem toInt_eq (z : Bit128) :
    z.toInt = if z.toNat < 2 ^ 127 then (z.toNat : ℤ) else z.toNat - 2 ^ 128 := by
  have hhi := z.hi.isLt
  have hlo := z.lo.isLt
  unfold toInt toNat
  rw [BitVec.toInt_eq_toNat_cond]
  split_ifs <;> omega

end Bit128

/-! ## Products -/

/-- The four partial products are added up with their carries. -/
def long_mul (op1 op2 : BitVec 64) : Bit128 :=
  let a32 : BitVec 32 := (op1 >>> 32).setWidth 32
  let a0 : BitVec 32 := op1.setWidth 32
  let b32 : BitVec 32 := (op2 >>> 32).setWidth 32
  let b0 : BitVec 32 := op2.setWidth 32
  let lo := a0.setWidth 64 * b0.setWidth 64
  let mid1 := a32.setWidth 64 * b0.setWidth 64
  let mid := mid1 + a0.setWidth 64 * b32.setWidth 64
  let hi := a32.setWidth 64 * b32.setWidth 64
  let hi := hi + (((BitVec.ofBool (mid.ult mid1)).setWidth 64 <<< 32) ||| (mid >>> 32))
  let mid := mid <<< 32
  let lo := lo + mid
  ⟨lo, hi + (BitVec.ofBool (lo.ult mid)).setWidth 64⟩

/-- The high word borrows when the low one is zero. -/
def long_neg (n : Bit128) : Bit128 :=
  let hi := if n.lo.ult (n.lo - 1) then n.hi - 1 else n.hi
  ⟨-n.lo, ~~~hi⟩

/-- Signs are taken off and put back; negation wraps. -/
def long_imul (op1 op2 : BitVec 64) : Bit128 :=
  let product := long_mul (if op1.msb then -op1 else op1) (if op2.msb then -op2 else op2)
  if op1.msb ^^ op2.msb then long_neg product else product

/-! ## Quotients -/

def long_shl (a : Bit128) : Bit128 := ⟨a.lo <<< 1, (a.hi <<< 1) ||| (a.lo >>> 63)⟩

def long_shr (a : Bit128) : Bit128 := ⟨(a.lo >>> 1) ||| (a.hi <<< 63), a.hi >>> 1⟩

/-- The difference, and whether there was a borrow. -/
def long_sub (a b : Bit128) : Bit128 × Bool :=
  let lo := a.lo - b.lo
  let c := a.lo.ult lo
  let hi := a.hi - (b.hi + (BitVec.ofBool c).setWidth 64)
  (⟨lo, hi⟩, a.hi.ult hi)

def long_le (a b : Bit128) : Bool :=
  if a.hi = b.hi then a.lo.ule b.lo else a.hi.ule b.hi

/-- The first loop of `long_div`: it turns at most as often as its first argument says. -/
def scaleUp (acc : Bit128) : ℕ → Bit128 × ℕ → Bit128 × ℕ
  | 0, z => z
  | k + 1, z => if long_le z.1 acc then scaleUp acc k (long_shl z.1, z.2 + 1) else z

/-- The second loop of `long_div`, on the dividend and the quotient. -/
def scaleDown : ℕ → Bit128 → Bit128 × Bit128 → Bit128 × Bit128
  | 0, _, z => z
  | n + 1, d, z =>
    let d := long_shr d
    let q := long_shl z.2
    let r := long_sub z.1 d
    if r.2 then scaleDown n d (z.1, q) else scaleDown n d (r.1, { q with lo := q.lo + 1 })

/-- The quotient, and the low word of what is left of the dividend. -/
def long_div (dividend : Bit128) (divisor : BitVec 64) : Bit128 × BitVec 64 :=
  let z := scaleUp dividend 128 (⟨divisor, 0⟩, 0)
  let r := scaleDown z.2 z.1 (dividend, ⟨0, 0⟩)
  (r.2, r.1.lo)

/-- Signs are taken off and put back; negation wraps. -/
def long_idiv (dividend : Bit128) (divisor : BitVec 64) : Bit128 × BitVec 64 :=
  let s1 := dividend.hi.msb
  let s2 := divisor.msb
  let r := long_div (if s1 then long_neg dividend else dividend) (if s2 then -divisor else divisor)
  (if s1 ^^ s2 then long_neg r.1 else r.1, if s1 then -r.2 else r.2)

/-! ## The routines as arithmetic -/

section Arithmetic

theorem toNat_ofBool_setWidth (c : Bool) : ((BitVec.ofBool c).setWidth 64).toNat = c.toNat := by
  cases c <;> rfl

theorem toNat_setWidth_mul (a b : BitVec 32) :
    (a.setWidth 64 * b.setWidth 64).toNat = a.toNat * b.toNat := by
  have hprod : a.toNat * b.toNat < 2 ^ 32 * 2 ^ 32 := Nat.mul_lt_mul'' a.isLt b.isLt
  rw [BitVec.toNat_mul, BitVec.toNat_setWidth, BitVec.toNat_setWidth,
    Nat.mod_eq_of_lt (a.isLt.trans (by norm_num)), Nat.mod_eq_of_lt (b.isLt.trans (by norm_num))]
  exact Nat.mod_eq_of_lt hprod

/-- The carry of the two middle products goes above their high half. -/
theorem toNat_carry_mid (c : Bool) (mid : BitVec 64) :
    (((BitVec.ofBool c).setWidth 64 <<< 32) ||| (mid >>> 32)).toNat =
      c.toNat * 2 ^ 32 + mid.toNat / 2 ^ 32 := by
  have hlt : mid.toNat / 2 ^ 32 < 2 ^ 32 := by
    have := mid.isLt
    omega
  have hcarry : ((BitVec.ofBool c).setWidth 64 <<< 32).toNat = c.toNat <<< 32 := by
    cases c <;> rfl
  rw [BitVec.toNat_or, hcarry, BitVec.toNat_ushiftRight, Nat.shiftRight_eq_div_pow,
    ← Nat.shiftLeft_add_eq_or_of_lt hlt, Nat.shiftLeft_eq]

/-- A sum and its carry. -/
theorem toNat_add_carry (x y : BitVec 64) :
    (x + y).toNat + ((x + y).ult y).toNat * 2 ^ 64 = x.toNat + y.toNat := by
  have hx := x.isLt
  have hy := y.isLt
  rw [BitVec.ult, BitVec.toNat_add]
  by_cases h : (x.toNat + y.toNat) % 2 ^ 64 < y.toNat
  · rw [decide_eq_true h, Bool.toNat_true]
    omega
  · rw [decide_eq_false h, Bool.toNat_false]
    omega

/-- The product of two numbers in halves, as it is summed up. -/
theorem halves_mul (a b : ℕ) : a * b =
    a / 2 ^ 32 * (b / 2 ^ 32) * 2 ^ 64 +
      (a / 2 ^ 32 * (b % 2 ^ 32) + a % 2 ^ 32 * (b / 2 ^ 32)) * 2 ^ 32 +
      a % 2 ^ 32 * (b % 2 ^ 32) := by
  conv_lhs => rw [← Nat.div_add_mod a (2 ^ 32), ← Nat.div_add_mod b (2 ^ 32)]
  ring

theorem toNat_halves (x : BitVec 64) : ((x >>> 32).setWidth 32).toNat = x.toNat / 2 ^ 32 ∧
    (x.setWidth 32).toNat = x.toNat % 2 ^ 32 := by
  have hx := x.isLt
  refine ⟨?_, BitVec.toNat_setWidth ..⟩
  rw [BitVec.toNat_setWidth, BitVec.toNat_ushiftRight, Nat.shiftRight_eq_div_pow]
  omega

/-- The words of a sum of partial products. -/
theorem sum_words {X Y Z W mid cm lo cl : ℕ} (hX : X ≤ (2 ^ 32 - 1) * (2 ^ 32 - 1))
    (hY : Y ≤ (2 ^ 32 - 1) * (2 ^ 32 - 1)) (hZ : Z ≤ (2 ^ 32 - 1) * (2 ^ 32 - 1))
    (hW : W ≤ (2 ^ 32 - 1) * (2 ^ 32 - 1)) (hcm : mid + cm * 2 ^ 64 = Y + Z)
    (hcl : lo + cl * 2 ^ 64 = X + mid % 2 ^ 32 * 2 ^ 32) :
    (W + (cm * 2 ^ 32 + mid / 2 ^ 32)) + cl < 2 ^ 64 ∧
      (W + (cm * 2 ^ 32 + mid / 2 ^ 32) + cl) * 2 ^ 64 + lo =
        W * 2 ^ 64 + (Y + Z) * 2 ^ 32 + X := by
  constructor
  · omega
  · omega

/-- **`long_mul` is the product.** -/
theorem toNat_long_mul (op1 op2 : BitVec 64) :
    (long_mul op1 op2).toNat = op1.toNat * op2.toNat := by
  have hbound (a b : BitVec 32) : a.toNat * b.toNat ≤ (2 ^ 32 - 1) * (2 ^ 32 - 1) :=
    Nat.mul_le_mul (Nat.le_sub_one_of_lt a.isLt) (Nat.le_sub_one_of_lt b.isLt)
  obtain ⟨ha32, ha0⟩ := toNat_halves op1
  obtain ⟨hb32, hb0⟩ := toNat_halves op2
  rw [halves_mul, ← ha32, ← ha0, ← hb32, ← hb0]
  unfold long_mul Bit128.toNat
  generalize (op1 >>> 32).setWidth 32 = a32
  generalize op1.setWidth 32 = a0
  generalize (op2 >>> 32).setWidth 32 = b32
  generalize op2.setWidth 32 = b0
  dsimp only
  have hcm := toNat_add_carry (a0.setWidth 64 * b32.setWidth 64) (a32.setWidth 64 * b0.setWidth 64)
  rw [BitVec.add_comm, toNat_setWidth_mul, toNat_setWidth_mul, Nat.add_comm (a0.toNat * _)] at hcm
  generalize a32.setWidth 64 * b0.setWidth 64 + a0.setWidth 64 * b32.setWidth 64 = mid at *
  generalize mid.ult (a32.setWidth 64 * b0.setWidth 64) = cm at *
  have hshift : (mid <<< 32).toNat = mid.toNat % 2 ^ 32 * 2 ^ 32 := by
    have := mid.isLt
    rw [BitVec.toNat_shiftLeft, Nat.shiftLeft_eq]
    omega
  have hcl := toNat_add_carry (a0.setWidth 64 * b0.setWidth 64) (mid <<< 32)
  rw [toNat_setWidth_mul, hshift] at hcl
  generalize a0.setWidth 64 * b0.setWidth 64 + mid <<< 32 = lo at *
  generalize lo.ult (mid <<< 32) = cl at *
  obtain ⟨hlt, hsum⟩ := sum_words (hbound a0 b0) (hbound a32 b0) (hbound a0 b32) (hbound a32 b32)
    hcm hcl
  have hhi : (a32.setWidth 64 * b32.setWidth 64 +
      (((BitVec.ofBool cm).setWidth 64 <<< 32) ||| (mid >>> 32)) +
        (BitVec.ofBool cl).setWidth 64).toNat =
      a32.toNat * b32.toNat + (cm.toNat * 2 ^ 32 + mid.toNat / 2 ^ 32) + cl.toNat := by
    rw [BitVec.toNat_add, BitVec.toNat_add, toNat_carry_mid, toNat_setWidth_mul,
      toNat_ofBool_setWidth, Nat.mod_add_mod, Nat.mod_eq_of_lt hlt]
  rw [hhi, hsum]

theorem toNat_one : (1 : BitVec 64).toNat = 1 := rfl

theorem toNat_long_neg (z : Bit128) : (long_neg z).toNat = (2 ^ 128 - z.toNat) % 2 ^ 128 := by
  have hlo := z.lo.isLt
  have hhi := z.hi.isLt
  have hzero : z.lo.ult (z.lo - 1) = decide (z.lo.toNat = 0) := by
    rw [BitVec.ult, BitVec.toNat_sub]
    refine decide_eq_decide.2 ?_
    rw [toNat_one]
    omega
  unfold long_neg Bit128.toNat
  dsimp only
  rw [hzero, BitVec.toNat_neg, BitVec.toNat_not]
  by_cases h : z.lo.toNat = 0
  · rw [decide_eq_true h, if_pos rfl, BitVec.toNat_sub, toNat_one]
    omega
  · rw [decide_eq_false h, if_neg Bool.false_ne_true]
    omega

theorem toInt_long_neg {z : Bit128} (h : z.toNat ≤ 2 ^ 127) : (long_neg z).toInt = -z.toNat := by
  rw [Bit128.toInt_eq, toNat_long_neg]
  split_ifs <;> omega

theorem toInt_of_small {z : Bit128} (h : z.toNat < 2 ^ 127) : z.toInt = z.toNat := by
  rw [Bit128.toInt_eq, if_pos h]

/-- What is left when the sign has been taken off. -/
theorem toNat_unsigned (x : BitVec 64) : (if x.msb then -x else x).toNat = x.toInt.natAbs := by
  have hx := x.isLt
  have hmsb := BitVec.msb_eq_decide x
  rw [BitVec.toInt_eq_msb_cond]
  cases h : x.msb with
  | true =>
    have hge : 2 ^ 63 ≤ x.toNat := of_decide_eq_true (hmsb.symm.trans h)
    rw [if_pos rfl, if_pos rfl, BitVec.toNat_neg]
    omega
  | false =>
    rw [if_neg Bool.false_ne_true, if_neg Bool.false_ne_true]
    omega

theorem msb_iff_neg (x : BitVec 64) : x.msb = decide (x.toInt < 0) := by
  cases h : x.msb with
  | true => exact (decide_eq_true (BitVec.toInt_neg_of_msb_true h)).symm
  | false => exact (decide_eq_false (not_lt.2 (BitVec.toInt_nonneg_of_msb_false h))).symm

theorem natAbs_le (x : BitVec 64) : x.toInt.natAbs ≤ 2 ^ 63 := by
  have hlt := BitVec.toInt_lt (x := x)
  have hle := BitVec.le_toInt x
  omega

/-- A product and its sign. -/
theorem mul_natAbs (a b : ℤ) :
    a * b = if decide (a < 0) ^^ decide (b < 0) then -((a.natAbs * b.natAbs : ℕ) : ℤ)
      else ((a.natAbs * b.natAbs : ℕ) : ℤ) := by
  push_cast
  rcases lt_or_ge a 0 with ha | ha <;> rcases lt_or_ge b 0 with hb | hb <;>
    simp [ha, hb, abs_of_neg, abs_of_nonneg, not_lt.2]

/-- **`long_imul` is the signed product.** -/
theorem toInt_long_imul (op1 op2 : BitVec 64) :
    (long_imul op1 op2).toInt = op1.toInt * op2.toInt := by
  have hlt : op1.toInt.natAbs * op2.toInt.natAbs ≤ 2 ^ 63 * 2 ^ 63 :=
    Nat.mul_le_mul (natAbs_le op1) (natAbs_le op2)
  have hproduct : (long_mul (if op1.msb then -op1 else op1)
      (if op2.msb then -op2 else op2)).toNat = op1.toInt.natAbs * op2.toInt.natAbs := by
    rw [toNat_long_mul, toNat_unsigned, toNat_unsigned]
  unfold long_imul
  rw [mul_natAbs, ← msb_iff_neg, ← msb_iff_neg, ← hproduct]
  rw [← hproduct] at hlt
  generalize long_mul _ _ = product at hlt ⊢
  dsimp only
  split_ifs
  · exact toInt_long_neg (hlt.trans (by norm_num : 2 ^ 63 * 2 ^ 63 ≤ 2 ^ 127))
  · exact toInt_of_small (hlt.trans_lt (by norm_num : 2 ^ 63 * 2 ^ 63 < 2 ^ 127))

theorem toNat_long_shl (a : Bit128) : (long_shl a).toNat = 2 * a.toNat % 2 ^ 128 := by
  have hlo := a.lo.isLt
  have hhi := a.hi.isLt
  have hbit : a.lo.toNat / 2 ^ 63 < 2 ^ 1 := by omega
  have heven : a.hi.toNat * 2 ^ 1 % 2 ^ 64 = (a.hi.toNat % 2 ^ 63) <<< 1 := by
    rw [Nat.shiftLeft_eq]
    omega
  unfold long_shl Bit128.toNat
  dsimp only
  rw [BitVec.toNat_or, BitVec.toNat_shiftLeft, BitVec.toNat_shiftLeft, BitVec.toNat_ushiftRight,
    Nat.shiftRight_eq_div_pow, Nat.shiftLeft_eq, Nat.shiftLeft_eq, heven,
    ← Nat.shiftLeft_add_eq_or_of_lt hbit, Nat.shiftLeft_eq]
  omega

/-- The bit that `long_shl` leaves free is set without a carry. -/
theorem toNat_long_shl_succ (a : Bit128) :
    Bit128.toNat { long_shl a with lo := (long_shl a).lo + 1 } = (long_shl a).toNat + 1 := by
  have hlow : (long_shl a).lo.toNat = a.lo.toNat * 2 ^ 1 % 2 ^ 64 := by
    unfold long_shl
    rw [BitVec.toNat_shiftLeft, Nat.shiftLeft_eq]
  unfold Bit128.toNat
  dsimp only
  rw [BitVec.toNat_add, hlow, toNat_one]
  omega

theorem toNat_long_shr (a : Bit128) : (long_shr a).toNat = a.toNat / 2 := by
  have hlo := a.lo.isLt
  have hhi := a.hi.isLt
  have hlow : a.lo.toNat / 2 ^ 1 < 2 ^ 63 := by omega
  have hbit : a.hi.toNat * 2 ^ 63 % 2 ^ 64 = (a.hi.toNat % 2) <<< 63 := by
    rw [Nat.shiftLeft_eq]
    omega
  unfold long_shr Bit128.toNat
  dsimp only
  rw [BitVec.toNat_or, BitVec.toNat_shiftLeft, BitVec.toNat_ushiftRight, BitVec.toNat_ushiftRight,
    Nat.shiftRight_eq_div_pow, Nat.shiftRight_eq_div_pow, Nat.shiftLeft_eq, hbit, Nat.or_comm,
    ← Nat.shiftLeft_add_eq_or_of_lt hlow, Nat.shiftLeft_eq]
  omega

theorem long_le_eq (a b : Bit128) : long_le a b = decide (a.toNat ≤ b.toNat) := by
  have ha := a.lo.isLt
  have hb := b.lo.isLt
  unfold long_le Bit128.toNat
  split_ifs with h
  · rw [BitVec.ule, h]
    exact decide_eq_decide.2 (by omega)
  · have hne : a.hi.toNat ≠ b.hi.toNat := fun heq => h (BitVec.eq_of_toNat_eq heq)
    rw [BitVec.ule]
    exact decide_eq_decide.2 (by omega)

/-- `long_sub` adds the borrow to the high word of `b`, which must not be full. -/
theorem long_sub_eq {a b : Bit128} (hb : b.toNat < 2 ^ 127) :
    (long_sub a b).2 = decide (a.toNat < b.toNat) ∧
      (b.toNat ≤ a.toNat → (long_sub a b).1.toNat = a.toNat - b.toNat) := by
  have ha' := a.lo.isLt
  have ha'' := a.hi.isLt
  have hb' := b.lo.isLt
  unfold Bit128.toNat at hb
  have hborrow : a.lo.ult (a.lo - b.lo) = decide (a.lo.toNat < b.lo.toNat) := by
    rw [BitVec.ult, BitVec.toNat_sub]
    exact decide_eq_decide.2 (by omega)
  unfold long_sub Bit128.toNat
  dsimp only
  rw [hborrow, BitVec.ult, BitVec.toNat_sub, BitVec.toNat_add, toNat_ofBool_setWidth,
    BitVec.toNat_sub]
  by_cases hlo : a.lo.toNat < b.lo.toNat
  · rw [decide_eq_true hlo, Bool.toNat_true]
    exact ⟨decide_eq_decide.2 (by omega), by omega⟩
  · rw [decide_eq_false hlo, Bool.toNat_false]
    exact ⟨decide_eq_decide.2 (by omega), by omega⟩

/-- The loop that shifts the divisor up is the library's. -/
theorem scaleUp_eq (acc : Bit128) (k : ℕ) (z : Bit128 × ℕ) :
    ((scaleUp acc k z).1.toNat, (scaleUp acc k z).2) =
      Division.scale 128 acc.toNat k (z.1.toNat, z.2) := by
  induction k generalizing z with
  | zero => rfl
  | succ k ih =>
    rw [scaleUp, Division.scale, long_le_eq]
    by_cases h : z.1.toNat ≤ acc.toNat
    · rw [if_pos (decide_eq_true h), if_pos h, ih, toNat_long_shl]
    · rw [if_neg (by simpa using h), if_neg h]

/-- So is the one that subtracts. -/
theorem scaleDown_eq {n : ℕ} {d : Bit128} {z : Bit128 × Bit128}
    (hz : (z.2.toNat + 1) * 2 ^ n ≤ 2 ^ 128) :
    ((scaleDown n d z).1.toNat, (scaleDown n d z).2.toNat) =
      Division.reduce n d.toNat (z.1.toNat, z.2.toNat) := by
  induction n generalizing d z with
  | zero => rfl
  | succ n ih =>
    have hd := d.toNat_lt
    have hpos := Nat.two_pow_pos n
    rw [pow_succ] at hz
    -- the quotient has room for another bit
    have hroom : 2 * z.2.toNat + 1 < 2 ^ 128 := by nlinarith
    have hshl : (long_shl z.2).toNat = 2 * z.2.toNat := by
      rw [toNat_long_shl, Nat.mod_eq_of_lt (by omega)]
    obtain ⟨hborrow, hdiff⟩ := long_sub_eq (a := z.1) (b := long_shr d)
      (by rw [toNat_long_shr]; omega)
    rw [toNat_long_shr] at hborrow hdiff
    rw [scaleDown, Division.reduce]
    dsimp only
    rw [hborrow]
    by_cases h : z.1.toNat < d.toNat / 2
    · rw [if_pos (decide_eq_true h), if_pos h, ih, toNat_long_shr, hshl]
      dsimp only
      rw [hshl]
      nlinarith
    · rw [if_neg (by simpa using h), if_neg h, ih, toNat_long_shr, hdiff (not_lt.1 h),
        toNat_long_shl_succ, hshl]
      dsimp only
      rw [toNat_long_shl_succ, hshl]
      nlinarith

/-- `long_div` is division by shifting and subtracting, whatever the dividend. -/
theorem long_div_eq_divide (dividend : Bit128) (divisor : BitVec 64) :
    ∃ acc : Bit128, (long_div dividend divisor).2 = acc.lo ∧
      (acc.toNat, (long_div dividend divisor).1.toNat) =
        Division.divide 128 dividend.toNat divisor.toNat := by
  have hdivisor := divisor.isLt
  have hstart : (⟨divisor, 0⟩ : Bit128).toNat = divisor.toNat := by
    show 0 * 2 ^ 64 + divisor.toNat = divisor.toNat
    omega
  have hscale := scaleUp_eq dividend 128 (⟨divisor, 0⟩, 0)
  rw [hstart] at hscale
  obtain ⟨m, hm, heq⟩ := Division.scale_eq 128 dividend.toNat 128 divisor.toNat 0 (by omega)
  have hcount : (scaleUp dividend 128 (⟨divisor, 0⟩, 0)).2 ≤ 128 := by
    have hsnd := congrArg Prod.snd (hscale.trans heq)
    have hle := hm.le
    dsimp only at hsnd
    omega
  unfold long_div Division.divide
  dsimp only
  rw [← hscale]
  generalize scaleUp dividend 128 (⟨divisor, 0⟩, 0) = z at hcount ⊢
  have hzero : (⟨0, 0⟩ : Bit128).toNat = 0 := by
    unfold Bit128.toNat
    rfl
  have hpow : 2 ^ z.2 ≤ 2 ^ 128 := Nat.pow_le_pow_right two_pos hcount
  have hdown := scaleDown_eq (n := z.2) (d := z.1) (z := (dividend, ⟨0, 0⟩))
    (by rwa [hzero, Nat.zero_add, Nat.one_mul])
  rw [hzero] at hdown
  exact ⟨_, rfl, hdown⟩

end Arithmetic

/-! ## Quotients are exact, or too large -/

section Quotients

variable {dividend : Bit128} {divisor : BitVec 64}

/-- Quotient and remainder are right once the loops have divided. -/
theorem long_div_of_divide (hpos : 0 < divisor.toNat)
    (hdiv : Division.divide 128 dividend.toNat divisor.toNat =
      (dividend.toNat % divisor.toNat, dividend.toNat / divisor.toNat)) :
    (long_div dividend divisor).1.toNat = dividend.toNat / divisor.toNat ∧
      (long_div dividend divisor).2.toNat = dividend.toNat % divisor.toNat := by
  obtain ⟨acc, hlow, heq⟩ := long_div_eq_divide dividend divisor
  rw [hdiv] at heq
  obtain ⟨hacc, hq⟩ := Prod.ext_iff.1 heq
  refine ⟨hq, ?_⟩
  -- a remainder is one word
  have hlt := (Nat.mod_lt dividend.toNat hpos).trans divisor.isLt
  have hword := acc.lo.isLt
  rw [hlow]
  dsimp only at hacc
  unfold Bit128.toNat at hacc hlt ⊢
  omega

theorem long_div_exact (hpos : 0 < divisor.toNat)
    (hq : dividend.toNat / divisor.toNat < 2 ^ 64) :
    (long_div dividend divisor).1.toNat = dividend.toNat / divisor.toNat ∧
      (long_div dividend divisor).2.toNat = dividend.toNat % divisor.toNat :=
  long_div_of_divide hpos
    (Division.divide_fits (h := 64) hpos divisor.isLt (by norm_num) hq)

theorem long_div_small (hpos : 0 < divisor.toNat) (hsmall : dividend.toNat < 2 ^ 127) :
    (long_div dividend divisor).1.toNat = dividend.toNat / divisor.toNat ∧
      (long_div dividend divisor).2.toNat = dividend.toNat % divisor.toNat := by
  have hdivisor := divisor.isLt
  exact long_div_of_divide hpos (Division.divide_small hpos (by omega) (by omega))

theorem long_div_large (hpos : 0 < divisor.toNat)
    (hq : 2 ^ 64 ≤ dividend.toNat / divisor.toNat) :
    2 ^ 64 ≤ (long_div dividend divisor).1.toNat := by
  obtain ⟨acc, -, heq⟩ := long_div_eq_divide dividend divisor
  have hlarge := Division.divide_large (h := 64) (w := 128) hpos divisor.isLt (by norm_num) hq
  rwa [← heq] at hlarge

/-! ## Signs -/

theorem hi_msb_iff (z : Bit128) : z.hi.msb = decide (z.toInt < 0) := by
  have hlo := z.lo.isLt
  rw [msb_iff_neg]
  unfold Bit128.toInt
  exact decide_eq_decide.2 (by omega)

theorem toNat_unsigned_wide (z : Bit128) :
    (if z.hi.msb then long_neg z else z).toNat = z.toInt.natAbs := by
  have hz := z.toNat_lt
  have hint := z.toInt_eq
  rw [hi_msb_iff]
  by_cases h : z.toNat < 2 ^ 127
  · rw [if_pos h] at hint
    rw [if_neg (by rw [hint]; simp), hint, Int.natAbs_natCast]
  · rw [if_neg h] at hint
    rw [if_pos (decide_eq_true (by omega)), toNat_long_neg]
    omega

theorem tdiv_natAbs (a b : ℤ) :
    a.tdiv b = if decide (a < 0) ^^ decide (b < 0) then -((a.natAbs / b.natAbs : ℕ) : ℤ)
      else ((a.natAbs / b.natAbs : ℕ) : ℤ) := by
  have habs (x : ℤ) : x = if x < 0 then -(x.natAbs : ℤ) else x.natAbs := by
    split_ifs <;> omega
  conv_lhs => rw [habs a, habs b]
  rw [Int.natCast_div]
  rcases lt_or_ge a 0 with ha | ha <;> rcases lt_or_ge b 0 with hb | hb
  all_goals
    simp only [ha, hb, not_lt.2, if_true, if_false, decide_true, decide_false, Int.neg_tdiv,
      Int.tdiv_neg, neg_neg, Bool.xor_self, Bool.xor_false, Bool.xor_true, Bool.not_false,
      Bool.false_eq_true]
    rfl

theorem tmod_natAbs (a b : ℤ) : a.tmod b = if a < 0 then -((a.natAbs % b.natAbs : ℕ) : ℤ)
    else ((a.natAbs % b.natAbs : ℕ) : ℤ) := by
  have habs (x : ℤ) : x = if x < 0 then -(x.natAbs : ℤ) else x.natAbs := by
    split_ifs <;> omega
  conv_lhs => rw [habs a, habs b]
  rcases lt_or_ge a 0 with ha | ha <;> rcases lt_or_ge b 0 with hb | hb
  all_goals
    simp only [ha, hb, not_lt.2, if_true, if_false, Int.neg_tmod, Int.tmod_neg]
    rfl

/-- Away from the least dividend, `long_idiv` divides and rounds towards zero. -/
theorem long_idiv_exact (hmin : -2 ^ 127 < dividend.toInt) (hdivisor : divisor.toInt ≠ 0) :
    (long_idiv dividend divisor).1.toInt = dividend.toInt.tdiv divisor.toInt ∧
      (long_idiv dividend divisor).2.toInt = dividend.toInt.tmod divisor.toInt := by
  have hdividend := toNat_unsigned_wide dividend
  have hunsigned := toNat_unsigned divisor
  have hdv := natAbs_le divisor
  have hsmall : dividend.toInt.natAbs < 2 ^ 127 := by
    have hz := dividend.toNat_lt
    have hint := dividend.toInt_eq
    split_ifs at hint <;> omega
  have hpos : 0 < divisor.toInt.natAbs := Int.natAbs_pos.2 hdivisor
  unfold long_idiv
  dsimp only
  generalize (if dividend.hi.msb then long_neg dividend else dividend) = a at hdividend ⊢
  generalize (if divisor.msb then -divisor else divisor) = v at hunsigned ⊢
  have hsmallA : a.toNat < 2 ^ 127 := by rwa [hdividend]
  have hposV : 0 < v.toNat := by rwa [hunsigned]
  obtain ⟨hq, hr⟩ := long_div_small hposV hsmallA
  rw [hdividend, hunsigned] at hq hr
  generalize long_div a v = r at hq hr ⊢
  rw [tdiv_natAbs, tmod_natAbs, hi_msb_iff, msb_iff_neg, ← hq, ← hr]
  have hqlt : r.1.toNat < 2 ^ 127 := hq ▸ (Nat.div_le_self _ _).trans_lt hsmall
  have hrlt : r.2.toNat < 2 ^ 63 := hr ▸ (Nat.mod_lt _ hpos).trans_le hdv
  constructor
  · split_ifs
    · exact toInt_long_neg hqlt.le
    · exact toInt_of_small hqlt
  · have hpositive : r.2.toInt = r.2.toNat := BitVec.toInt_eq_toNat_of_lt (by omega)
    simp only [decide_eq_true_eq]
    split_ifs
    · rw [BitVec.toInt_neg, hpositive]
      exact Int.bmod_eq_of_le (by omega) (by omega)
    · exact hpositive

end Quotients

end Bochs
