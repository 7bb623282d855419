import Mathlib
import X86Oracle.Lib.Words
import X86Oracle.Lib.Rounding
import X86Oracle.Bochs.SoftFloat

/-!
# BF16 multiply-add

`bf16_mulAdd` (`cpu/avx/bf16_arith.cc`) and the conversions of `cpu/avx/bf16.h`.  `f32_mulAdd` of
`cpu/softfloat3e` is a parameter, called with rounding towards zero; its inexact flag becomes the
low bit of the value that is rounded to BF16.

* `convert_rounds`: rounding the odd form of a number rounds the number.
* `bf16_mulAdd_rounds_once`: all of the operation.
-/

namespace Bochs

open Rounding Encoding

/-! ## Conversions -/

inductive SoftfloatClass where
  | zero
  | sNaN
  | qNaN
  | negative_inf
  | positive_inf
  | denormal
  | normalized
  deriving DecidableEq

def f32_class (a : UInt32) : SoftfloatClass :=
  let signA := a >>> 31
  let expA := a >>> 23 &&& 0xFF
  let sigA := a &&& 0x007FFFFF
  if expA = 0xFF then
    if sigA = 0 then if signA ≠ 0 then .negative_inf else .positive_inf
    else if sigA &&& 0x00400000 ≠ 0 then .qNaN else .sNaN
  else if expA = 0 then if sigA = 0 then .zero else .denormal
  else .normalized

def convert_bfloat16_to_fp32 (op : UInt16) : UInt32 := op.toUInt32 <<< 16

def rounding_bias (op : UInt32) : UInt32 := (0x7FFF : UInt32) + (op >>> 16 &&& 0x1)

def convert_ne_fp32_to_bfloat16 (op : UInt32) : UInt16 :=
  match f32_class op with
  | .zero | .denormal => (op >>> 16 &&& 0x8000).toUInt16
  | .negative_inf | .positive_inf => (op >>> 16).toUInt16
  | .sNaN | .qNaN => (op >>> 16 ||| 0x40).toUInt16
  | .normalized => ((op + rounding_bias op) >>> 16).toUInt16

/-! ## The operation -/

def softfloat_round_near_even : UInt8 := 0

def softfloat_round_to_zero : UInt8 := 3

def softfloat_flag_inexact : UInt32 := 0x20

def softfloat_muladd_negate_c : UInt8 := 1

def softfloat_muladd_negate_product : UInt8 := 2

/-- `softfloat_status_t`, of which the exception masks are all set. -/
structure SoftfloatStatus where
  softfloat_roundingMode : UInt8
  softfloat_exceptionFlags : UInt32
  softfloat_flush_underflow_to_zero : Bool
  softfloat_denormals_are_zeros : Bool

def prepare_ne_softfloat_status_helper (denormals_are_zeros : Bool) : SoftfloatStatus :=
  { softfloat_roundingMode := softfloat_round_near_even
    softfloat_exceptionFlags := 0
    softfloat_flush_underflow_to_zero := true
    softfloat_denormals_are_zeros := denormals_are_zeros }

abbrev MulAdd := UInt32 → UInt32 → UInt32 → UInt8 → SoftfloatStatus → UInt32 × SoftfloatStatus

/-- What `f32_mulAdd` is called with. -/
def bf16MulAddStatus : SoftfloatStatus :=
  { prepare_ne_softfloat_status_helper true with softfloat_roundingMode := softfloat_round_to_zero }

/-- Setting the low bit of an inexact result. -/
def jam (r : UInt32) (inexact : Bool) : UInt32 := if inexact then r ||| 1 else r

def inexactFlag (status : SoftfloatStatus) : Bool :=
  status.softfloat_exceptionFlags &&& softfloat_flag_inexact != 0

def bf16_mulAdd (f32_mulAdd : MulAdd) (a b c : UInt16) (op : UInt8) : UInt16 :=
  let (r, status) := f32_mulAdd (convert_bfloat16_to_fp32 a) (convert_bfloat16_to_fp32 b)
    (convert_bfloat16_to_fp32 c) op bf16MulAddStatus
  convert_ne_fp32_to_bfloat16 (jam r (inexactFlag status))

/-! ## Results -/

/-- BF16. -/
def bfloat16 : Encoding := ⟨8, 7, 127⟩

def negateProduct (op : UInt8) : Bool := op &&& softfloat_muladd_negate_product != 0

def negateC (op : UInt8) : Bool := op &&& softfloat_muladd_negate_c != 0

/-- `f32_mulAdd` of three patterns, towards zero and with flushed subnormal results: the result and
its inexact flag. -/
def F32Truncates (a b c : UInt32) (op : UInt8) (r : UInt32) (inexact : Bool) : Prop :=
  match binary32.fma a.toNat b.toNat c.toNat (negateProduct op) (negateC op) with
  | .nan => ∃ v, (v = a ∨ v = b ∨ v = c) ∧ binary32.IsNaN v.toNat ∧ r = v ||| 0x00400000
  | .invalid => r = float32_default_nan
  | .inf neg => r = (if neg then float32_negative_inf else float32_positive_inf) ∧ inexact = false
  | .zero neg => r = (if neg then 0x80000000 else 0) ∧ inexact = false
  | .finite x =>
    if |x| < 2 ^ (-126 : ℤ) then r = (if x < 0 then 0x80000000 else 0) ∧ inexact = true
    else if |x| < 2 ^ (128 : ℤ) then
      F32Finite r ∧ binary32.value r.toNat = binary32.format.rtz x ∧
        (inexact = true ↔ binary32.format.rtz x ≠ x)
    else r = (if x < 0 then 0xFF7FFFFF else 0x7F7FFFFF) ∧ inexact = true

/-- What is assumed of `f32_mulAdd`, with the status of `bf16_mulAdd`. -/
def IsMulAddTowardsZero (f32_mulAdd : MulAdd) : Prop :=
  ∀ a b c op, F32Truncates a b c op (f32_mulAdd a b c op bf16MulAddStatus).1
    (inexactFlag (f32_mulAdd a b c op bf16MulAddStatus).2)

/-- A number rounded once to BF16: to nearest even, flushed below the normal range. -/
def Bf16RoundsTo (x : ℚ) (r : UInt16) : Prop :=
  if |x| < 2 ^ (-126 : ℤ) then r = if x < 0 then 0x8000 else 0
  else if |bfloat16.format.rne x| < 2 ^ (128 : ℤ) then
    bfloat16.exp r.toNat ≠ 255 ∧ bfloat16.value r.toNat = bfloat16.format.rne x
  else r = if x < 0 then 0xFF80 else 0x7F80

/-- The multiply-add of three BF16 patterns, rounded once. -/
def Bf16Fma (a b c : UInt16) (op : UInt8) (r : UInt16) : Prop :=
  match bfloat16.fma a.toNat b.toNat c.toNat (negateProduct op) (negateC op) with
  | .nan => ∃ v, (v = a ∨ v = b ∨ v = c) ∧ bfloat16.IsNaN v.toNat ∧ r = v ||| 0x40
  | .invalid => r = 0xFFC0
  | .inf neg => r = if neg then 0xFF80 else 0x7F80
  | .zero neg => r = if neg then 0x8000 else 0
  | .finite x => Bf16RoundsTo x r

/-! ## Rounding -/

section Convert

variable {op : UInt32} {x : ℚ}

theorem convert_bfloat16_toNat (v : UInt16) :
    (convert_bfloat16_to_fp32 v).toNat = v.toNat * 2 ^ 16 := by
  have hlt := v.toNat_lt
  unfold convert_bfloat16_to_fp32
  rw [UInt32.toNat_shiftLeft, UInt16.toNat_toUInt32, Nat.shiftLeft_eq]
  exact Nat.mod_eq_of_lt (show v.toNat * 2 ^ 16 < 2 ^ 32 by omega)

/-- The fields that `f32_class` looks at. -/
theorem f32_class_fields (a : UInt32) :
    (a >>> 23 &&& 0xFF).toNat = binary32.exp a.toNat ∧
      (a &&& 0x007FFFFF).toNat = binary32.frac a.toNat := by
  constructor
  · rw [UInt32.toNat_and, UInt32.toNat_shiftRight, Nat.shiftRight_eq_div_pow]
    exact Nat.and_two_pow_sub_one_eq_mod _ 8
  · rw [UInt32.toNat_and]
    exact Nat.and_two_pow_sub_one_eq_mod _ 23

theorem convert_cases (op : UInt32) :
    (binary32.IsNaN op.toNat ∧ convert_ne_fp32_to_bfloat16 op = (op >>> 16 ||| 0x40).toUInt16) ∨
      (binary32.IsInf op.toNat ∧ convert_ne_fp32_to_bfloat16 op = (op >>> 16).toUInt16) ∨
      (binary32.exp op.toNat = 0 ∧
        convert_ne_fp32_to_bfloat16 op = (op >>> 16 &&& 0x8000).toUInt16) ∨
      (binary32.exp op.toNat ≠ 0 ∧ binary32.exp op.toNat ≠ 255 ∧
        convert_ne_fp32_to_bfloat16 op =
          ((op + rounding_bias op) >>> 16).toUInt16) := by
  obtain ⟨hexp, hfrac⟩ := f32_class_fields op
  have hexp255 : op >>> 23 &&& 0xFF = 0xFF ↔ binary32.exp op.toNat = 255 := by
    rw [← UInt32.toNat_inj, hexp]
    exact Iff.rfl
  have hexp0 : op >>> 23 &&& 0xFF = 0 ↔ binary32.exp op.toNat = 0 := by
    rw [← UInt32.toNat_inj, hexp]
    exact Iff.rfl
  have hfrac0 : op &&& 0x007FFFFF = 0 ↔ binary32.frac op.toNat = 0 := by
    rw [← UInt32.toNat_inj, hfrac]
    exact Iff.rfl
  unfold convert_ne_fp32_to_bfloat16 f32_class
  dsimp only
  by_cases h255 : binary32.exp op.toNat = 255
  · have htop : binary32.exp op.toNat + 1 = 2 ^ binary32.expBits := by
      rw [h255]
      rfl
    rw [if_pos (hexp255.2 h255)]
    by_cases hzero : binary32.frac op.toNat = 0
    · rw [if_pos (hfrac0.2 hzero)]
      refine .inr (.inl ⟨⟨htop, hzero⟩, ?_⟩)
      split_ifs <;> rfl
    · rw [if_neg (mt hfrac0.1 hzero)]
      refine .inl ⟨⟨htop, hzero⟩, ?_⟩
      split_ifs <;> rfl
  rw [if_neg (mt hexp255.1 h255)]
  by_cases h0 : binary32.exp op.toNat = 0
  · rw [if_pos (hexp0.2 h0)]
    refine .inr (.inr (.inl ⟨h0, ?_⟩))
    split_ifs <;> rfl
  · rw [if_neg (mt hexp0.1 h0)]
    exact .inr (.inr (.inr ⟨h0, h255, rfl⟩))

/-- The fields of a pattern. -/
theorem f32_fields (op : UInt32) : ∃ n e m, n < 2 ∧ e < 256 ∧ m < 8388608 ∧
    op.toNat = 2147483648 * n + 8388608 * e + m ∧ binary32.exp op.toNat = e ∧
    binary32.frac op.toNat = m ∧ (binary32.Neg op.toNat ↔ n = 1) := by
  have hlt := op.toNat_lt
  have hn : op.toNat / 2147483648 < 2 := by omega
  refine ⟨op.toNat / 2147483648, op.toNat / 8388608 % 256, op.toNat % 8388608, hn,
    Nat.mod_lt _ (by norm_num), Nat.mod_lt _ (by norm_num), by omega, rfl, rfl, ?_⟩
  have hneg : binary32.Neg op.toNat ↔ op.toNat / 2147483648 % 2 = 1 := Iff.rfl
  rw [hneg, Nat.mod_eq_of_lt hn]

/-- Adding the bias rounds to nearest even. -/
theorem convert_normal_toNat {n e m : ℕ} (hn : n < 2) (he : e < 255) (hm : m < 8388608)
    (hop : op.toNat = 2147483648 * n + 8388608 * e + m) :
    (((op + rounding_bias op) >>> 16).toUInt16).toNat = 32768 * n + 128 * e +
      (m / 65536 + if (8388608 + m) / 2 ^ 15 % 2 = 1 ∧
        ((8388608 + m) % 2 ^ 15 ≠ 0 ∨ (8388608 + m) / 2 ^ 16 % 2 = 1) then 1 else 0) := by
  have hbit : (op >>> 16 &&& 0x1).toNat = op.toNat / 65536 % 2 := by
    rw [UInt32.toNat_and, UInt32.toNat_shiftRight, Nat.shiftRight_eq_div_pow]
    exact Nat.and_two_pow_sub_one_eq_mod _ 1
  have hbias : (rounding_bias op).toNat = 32767 + op.toNat / 65536 % 2 := by
    rw [rounding_bias, UInt32.toNat_add, hbit]
    exact Nat.mod_eq_of_lt (show 32767 + op.toNat / 65536 % 2 < 2 ^ 32 by omega)
  have hsum : (op + rounding_bias op).toNat =
      op.toNat + (32767 + op.toNat / 65536 % 2) := by
    rw [UInt32.toNat_add, hbias]
    exact Nat.mod_eq_of_lt (by omega)
  rw [UInt32.toNat_toUInt16, UInt32.toNat_shiftRight, hsum, Nat.shiftRight_eq_div_pow]
  change (op.toNat + (32767 + op.toNat / 65536 % 2)) / 65536 % 65536 = _
  clear hsum hbias hbit
  -- the part that stays and the part that is rounded
  obtain ⟨q, l, hl, rfl⟩ : ∃ q l, l < 65536 ∧ m = 65536 * q + l :=
    ⟨m / 65536, m % 65536, Nat.mod_lt _ (by norm_num), by omega⟩
  have hhigh : op.toNat / 65536 = 32768 * n + 128 * e + q := by omega
  have hlow : op.toNat = 65536 * (32768 * n + 128 * e + q) + l := by omega
  have hodd : (32768 * n + 128 * e + q) % 2 = q % 2 := by omega
  have hguard : (8388608 + (65536 * q + l)) / 2 ^ 15 % 2 = l / 32768 := by omega
  have hsticky : (8388608 + (65536 * q + l)) % 2 ^ 15 = l % 32768 := by omega
  have hlast : (8388608 + (65536 * q + l)) / 2 ^ 16 % 2 = q % 2 := by omega
  have hq : (65536 * q + l) / 65536 = q := by omega
  rw [hhigh, hlow, hodd, hguard, hsticky, hlast, hq, add_assoc (65536 * _),
    Nat.mul_add_div (by norm_num)]
  have hcarry : (l + (32767 + q % 2)) / 65536 =
      if l / 32768 = 1 ∧ (l % 32768 ≠ 0 ∨ q % 2 = 1) then 1 else 0 := by
    split_ifs with hround
    · omega
    · omega
  have hle : (l + (32767 + q % 2)) / 65536 ≤ 1 := by omega
  rw [← hcarry, Nat.mod_eq_of_lt (by omega), add_assoc]

/-- The carry of a significand `8388608 + m` cut to eight bits. -/
def bf16Sig (m : ℕ) : ℕ := (8388608 + m) / 2 ^ 16 + if (8388608 + m) / 2 ^ 15 % 2 = 1 ∧
  ((8388608 + m) % 2 ^ 15 ≠ 0 ∨ (8388608 + m) / 2 ^ 16 % 2 = 1) then 1 else 0

/-- The rounded significand of a number, from its odd form. -/
theorem rne_eq_bf16Sig {k : ℤ} (hk : (2 : ℚ) ^ k ≤ |x|) (hk' : |x| < 2 ^ (k + 1)) (hmin : -126 ≤ k)
    {m : ℕ} (hsig : ((8388608 + m : ℕ) : ℤ) = roundOdd (|x| / 2 ^ (k - 23))) :
    |bfloat16.format.rne x| = bf16Sig m * 2 ^ (k - 7) := by
  have hexponent : bfloat16.format.exponent |x| = k - 7 :=
    bfloat16.format.exponent_eq (by rwa [abs_abs]) (by rwa [abs_abs])
      (show (1 - 127 - 7 : ℤ) ≤ k - 7 by omega)
  have hscale : |x| / 2 ^ (k - 7) = |x| / 2 ^ (k - 23) / 2 ^ (14 + 2) := by
    rw [div_div, ← zpow_natCast, ← zpow_add₀ two_ne_zero]
    congr 2
    push_cast
    ring
  rw [Format.abs_rne, Format.rne, hexponent, hscale, ← roundEven_roundOdd, ← hsig]
  have hshift := roundEven_shift (8388608 + m) 15
  rw [Int.cast_natCast, hshift]
  rfl

theorem bf16Sig_bounds {m : ℕ} (hm : m < 8388608) : 128 ≤ bf16Sig m ∧ bf16Sig m ≤ 256 := by
  unfold bf16Sig
  split_ifs
  · omega
  · omega

section Significand

variable {k : ℤ} {q : ℕ}

theorem significand_carry (k : ℤ) : (256 : ℚ) * 2 ^ (k - 7) = 2 ^ (k + 1) := by
  rw [show (256 : ℚ) = 2 ^ (8 : ℤ) by norm_num, ← zpow_add₀ two_ne_zero]
  congr 1
  ring

/-- A significand of eight bits overflows only by a carry at the greatest exponent. -/
theorem significand_lt (hq : q ≤ 256) (hmax : k ≤ 127) (htop : ¬ (q = 256 ∧ k = 127)) :
    (q : ℚ) * 2 ^ (k - 7) < 2 ^ (128 : ℤ) := by
  rcases hq.lt_or_eq with hlt | rfl
  · have hlt' : (q : ℚ) * 2 ^ (k - 7) < 256 * 2 ^ (k - 7) :=
      mul_lt_mul_of_pos_right (by exact_mod_cast hlt) (by positivity)
    rw [significand_carry] at hlt'
    exact hlt'.trans_le (zpow_le_zpow_right₀ one_le_two (by omega))
  · exact lt_of_eq_of_lt (significand_carry k) (zpow_lt_zpow_right₀ one_lt_two (by omega))

/-- The pattern with a significand of eight bits, which may carry into the exponent. -/
theorem bf16_pattern {r n e : ℕ} (hn : n < 2) (hq : 128 ≤ q ∧ q ≤ 256) (he : (e : ℤ) = k + 127)
    (hmin : -126 ≤ k) (hmax : k ≤ 127) (htop : ¬ (q = 256 ∧ k = 127))
    (hr : r = 32768 * n + 128 * e + (q - 128)) :
    bfloat16.exp r ≠ 255 ∧
      bfloat16.value r = (if n = 1 then -1 else 1) * q * 2 ^ (k - 7) := by
  rcases hq.2.lt_or_eq with hlt | rfl
  · have hb : r = 2 ^ (7 + 8) * n + 2 ^ 7 * e + (q - 128) := hr
    have hvalue := value_fields (c := bfloat16) hn (show e ≠ 0 by omega) (show e < 256 by omega)
      (show q - 128 < 128 by omega) hb
    have hfields := fields (c := bfloat16) hn (show e < 256 by omega)
      (show q - 128 < 128 by omega) hb
    have hsum : 2 ^ bfloat16.fracBits + (q - 128) = q := Nat.add_sub_cancel' hq.1
    have hscale : (e : ℤ) - bfloat16.bias - (bfloat16.fracBits : ℕ) = k - 7 := by
      show (e : ℤ) - 127 - (7 : ℕ) = k - 7
      omega
    refine ⟨by omega, ?_⟩
    rw [hvalue, hsum, hscale]
  · have hb : r = 2 ^ (7 + 8) * n + 2 ^ 7 * (e + 1) + 0 := by omega
    have hvalue := value_fields (c := bfloat16) hn (show e + 1 ≠ 0 by omega)
      (show e + 1 < 256 by omega) (show 0 < 128 by norm_num) hb
    have hfields := fields (c := bfloat16) hn (show e + 1 < 256 by omega)
      (show 0 < 128 by norm_num) hb
    have hscale : ((e + 1 : ℕ) : ℤ) - bfloat16.bias - (bfloat16.fracBits : ℕ) = k - 7 + 1 := by
      show ((e + 1 : ℕ) : ℤ) - 127 - (7 : ℕ) = k - 7 + 1
      omega
    have hsum : ((2 ^ bfloat16.fracBits + 0 : ℕ) : ℚ) = 128 := by
      show ((2 ^ 7 + 0 : ℕ) : ℚ) = 128
      norm_num
    refine ⟨by omega, ?_⟩
    rw [hvalue, hsum, hscale, zpow_add_one₀ two_ne_zero]
    push_cast
    ring

end Significand

theorem convert_rounds {k : ℤ} (hk : (2 : ℚ) ^ k ≤ |x|) (hk' : |x| < 2 ^ (k + 1)) (hmin : -126 ≤ k)
    (hmax : k ≤ 127) (hexp : (binary32.exp op.toNat : ℤ) = k + 127)
    (hneg : binary32.Neg op.toNat ↔ x < 0)
    (hsig : ((8388608 + binary32.frac op.toNat : ℕ) : ℤ) = roundOdd (|x| / 2 ^ (k - 23))) :
    Bf16RoundsTo x (convert_ne_fp32_to_bfloat16 op) := by
  obtain ⟨n, e, m, hn, he, hm, hop, hexpe, hfrac, hnegn⟩ := f32_fields op
  rw [hexpe] at hexp
  rw [hfrac] at hsig
  rw [hnegn] at hneg
  have hrne := rne_eq_bf16Sig hk hk' hmin hsig
  have hconvert : convert_ne_fp32_to_bfloat16 op = ((op + rounding_bias op) >>> 16).toUInt16 := by
    rcases convert_cases op with h | h | h | h
    · have h255 : binary32.exp op.toNat + 1 = 256 := h.1.1
      omega
    · have h255 : binary32.exp op.toNat + 1 = 256 := h.1.1
      omega
    · omega
    · exact h.2.2
  have hr : (convert_ne_fp32_to_bfloat16 op).toNat = 32768 * n + 128 * e + (bf16Sig m - 128) := by
    rw [hconvert, convert_normal_toNat hn (by omega) hm hop]
    unfold bf16Sig
    omega
  have hq := bf16Sig_bounds hm
  have hnormal : ¬ |x| < 2 ^ (-126 : ℤ) :=
    not_lt.2 ((zpow_le_zpow_right₀ one_le_two hmin).trans hk)
  rw [Bf16RoundsTo, if_neg hnormal]
  generalize convert_ne_fp32_to_bfloat16 op = r at hr ⊢
  generalize bf16Sig m = q at hq hrne hr
  by_cases htop : q = 256 ∧ k = 127
  · -- the carry reaches the exponent of the infinities
    obtain ⟨rfl, rfl⟩ := htop
    have hbig : |bfloat16.format.rne x| = 2 ^ (128 : ℤ) := hrne.trans (significand_carry 127)
    rw [hbig, if_neg (lt_irrefl _)]
    apply UInt16.toNat_inj.1
    rw [hr]
    split_ifs with hx
    · have hn1 := hneg.2 hx
      show _ = 65408
      omega
    · have hn0 := mt hneg.1 hx
      show _ = 32640
      omega
  · obtain ⟨hfinite, hvalue⟩ := bf16_pattern hn hq hexp hmin hmax htop hr
    have hsign : (if n = 1 then -1 else 1 : ℚ) = if x < 0 then -1 else 1 := if_congr hneg rfl rfl
    rw [if_pos (hrne.trans_lt (significand_lt hq.2 hmax htop)), bfloat16.format.rne_eq_sign_mul,
      hrne, hvalue, hsign, mul_assoc]
    exact ⟨hfinite, rfl⟩

theorem binary32_eq_widen : binary32 = bfloat16.widen 16 := rfl

/-! ## The low bit -/

/-- Setting the low bit touches neither the sign nor the exponent. -/
theorem jam_toNat (r : UInt32) :
    (jam r true).toNat = if r.toNat % 2 = 0 then r.toNat + 1 else r.toNat := by
  have hor : (r ||| 1).toNat = 2 ^ 1 * (r.toNat / 2 ^ 1) + (2 ^ 1 - 1) := by
    rw [UInt32.toNat_or]
    exact Words.or_lowMask 1 _
  have hjam : jam r true = r ||| 1 := rfl
  rw [hjam, hor]
  split_ifs with hodd
  · omega
  · omega

theorem jam_fields (r : UInt32) (inexact : Bool) :
    binary32.exp (jam r inexact).toNat = binary32.exp r.toNat ∧
      (binary32.Neg (jam r inexact).toNat ↔ binary32.Neg r.toNat) ∧
      binary32.frac (jam r inexact).toNat = (if inexact = true ∧ binary32.frac r.toNat % 2 = 0
        then binary32.frac r.toNat + 1 else binary32.frac r.toNat) ∧
      (jam r inexact).toNat / 65536 = r.toNat / 65536 := by
  cases inexact with
  | false => exact ⟨rfl, Iff.rfl, rfl, rfl⟩
  | true =>
    have hexp (k : ℕ) : binary32.exp k = k / 8388608 % 256 := rfl
    have hfrac (k : ℕ) : binary32.frac k = k % 8388608 := rfl
    have hneg (k : ℕ) : binary32.Neg k ↔ k / 2147483648 % 2 = 1 := Iff.rfl
    rw [jam_toNat, hexp, hexp, hneg, hneg, hfrac, hfrac]
    split_ifs with hodd hcond hcond
    · have hhalf : (r.toNat + 1) / 2 = r.toNat / 2 := by omega
      have hdiv (k : ℕ) : (r.toNat + 1) / (2 * k) = r.toNat / (2 * k) := by
        rw [← Nat.div_div_eq_div_mul, ← Nat.div_div_eq_div_mul, hhalf]
      have h23 := hdiv 4194304
      have hmod := Nat.div_add_mod (r.toNat + 1) 8388608
      have hmod' := Nat.div_add_mod r.toNat 8388608
      refine ⟨congrArg (· % 256) h23, ?_, ?_, hdiv 32768⟩
      · exact Iff.of_eq (congrArg (· % 2 = 1) (hdiv 1073741824))
      · rw [h23] at hmod
        omega
    · exact absurd ⟨rfl, by omega⟩ hcond
    · have heven := hcond.2
      omega
    · exact ⟨rfl, Iff.rfl, rfl, rfl⟩

theorem jam_shift (r : UInt32) (inexact : Bool) : jam r inexact >>> 16 = r >>> 16 := by
  obtain ⟨-, -, -, hhigh⟩ := jam_fields r inexact
  apply UInt32.toNat_inj.1
  rw [UInt32.toNat_shiftRight, UInt32.toNat_shiftRight, Nat.shiftRight_eq_div_pow,
    Nat.shiftRight_eq_div_pow]
  exact hhigh

theorem convert_jam_zero {r : UInt32} (h : binary32.exp r.toNat = 0) (inexact : Bool) :
    convert_ne_fp32_to_bfloat16 (jam r inexact) = convert_ne_fp32_to_bfloat16 r := by
  obtain ⟨hexp, -, -, -⟩ := jam_fields r inexact
  have hzero {a : UInt32} (ha : binary32.exp a.toNat = 0) :
      convert_ne_fp32_to_bfloat16 a = (a >>> 16 &&& 0x8000).toUInt16 := by
    rcases convert_cases a with h | h | h | h
    · have h255 : binary32.exp a.toNat + 1 = 256 := h.1.1
      omega
    · have h255 : binary32.exp a.toNat + 1 = 256 := h.1.1
      omega
    · exact h.2
    · exact absurd ha h.1
  rw [hzero (hexp.trans h), hzero h, jam_shift]

/-- A quieted NaN is one. -/
theorem isNaN_quiet {v : UInt32} (h : binary32.IsNaN v.toNat) :
    binary32.IsNaN (v ||| 0x00400000).toNat := by
  have hdiv : (v ||| 0x00400000).toNat / 2 ^ 23 = v.toNat / 2 ^ 23 := by
    rw [UInt32.toNat_or, Nat.or_div_two_pow]
    exact Nat.or_zero _
  have hmod : (v ||| 0x00400000).toNat % 2 ^ 23 = v.toNat % 2 ^ 23 ||| 4194304 := by
    rw [UInt32.toNat_or, Nat.or_mod_two_pow]
    rfl
  refine ⟨(congrArg (· % 256 + 1) hdiv).trans h.1, ?_⟩
  intro hzero
  exact absurd (Nat.or_eq_zero_iff.1 (hmod.symm.trans hzero)).2 (by norm_num)

/-- Infinite results are exact. -/
theorem F32Truncates.inf_exact {a b c r : UInt32} {op : UInt8} {inexact : Bool}
    (h : F32Truncates a b c op r inexact) (hr : binary32.IsInf r.toNat) : inexact = false := by
  unfold F32Truncates at h
  split at h
  · obtain ⟨v, -, hv, rfl⟩ := h
    exact absurd hr.2 (isNaN_quiet hv).2
  · subst h
    exact absurd hr (by decide)
  · exact h.2
  · exact h.2
  · split_ifs at h
    · rw [h.1] at hr
      exact absurd hr (by decide)
    · rw [h.1] at hr
      exact absurd hr (by decide)
    · exact absurd (Nat.succ.inj hr.1) h.1
    · rw [h.1] at hr
      exact absurd hr (by decide)
    · rw [h.1] at hr
      exact absurd hr (by decide)

/-- What setting the low bit leaves as it is. -/
structure KeepsClass (r j : UInt32) : Prop where
  nan : binary32.IsNaN j.toNat ↔ binary32.IsNaN r.toNat
  inf : binary32.IsInf j.toNat ↔ binary32.IsInf r.toNat
  zero : binary32.exp r.toNat = 0 → convert_ne_fp32_to_bfloat16 j = convert_ne_fp32_to_bfloat16 r

theorem F32Truncates.keepsClass {a b c r : UInt32} {op : UInt8} {inexact : Bool}
    (h : F32Truncates a b c op r inexact) : KeepsClass r (jam r inexact) := by
  obtain ⟨hexp, -, hfrac, -⟩ := jam_fields r inexact
  have hinf : binary32.IsInf (jam r inexact).toNat ↔ binary32.IsInf r.toNat := by
    constructor
    · rintro ⟨htop, hzero⟩
      rw [hexp] at htop
      rw [hfrac] at hzero
      refine ⟨htop, ?_⟩
      split_ifs at hzero
      exact hzero
    · intro hr
      rw [h.inf_exact hr]
      exact hr
  refine ⟨?_, hinf, fun hzero => convert_jam_zero hzero inexact⟩
  have hsplit (k : ℕ) : binary32.IsNaN k ↔
      binary32.exp k + 1 = 2 ^ binary32.expBits ∧ ¬ binary32.IsInf k := by
    unfold IsNaN IsInf
    tauto
  rw [hsplit, hsplit, hinf, hexp]

/-! ## One rounding -/

/-- The fields of a truncated number. -/
theorem truncated_fields {r : UInt32} {k : ℤ} (hk : (2 : ℚ) ^ k ≤ |x|) (hk' : |x| < 2 ^ (k + 1))
    (hmin : -126 ≤ k) (hr : binary32.value r.toNat = binary32.format.rtz x) :
    (binary32.exp r.toNat : ℤ) = k + 127 ∧ (binary32.Neg r.toNat ↔ x < 0) ∧
      ((8388608 + binary32.frac r.toNat : ℕ) : ℤ) = ⌊|x| / 2 ^ (k - 23)⌋ ∧
      (binary32.format.rtz x ≠ x ↔ |x| / 2 ^ (k - 23) ≠ ⌊|x| / 2 ^ (k - 23)⌋) := by
  have hexponent : binary32.format.exponent x = k - 23 :=
    binary32.format.exponent_eq hk hk' (show (1 - 127 - 23 : ℤ) ≤ k - 23 by omega)
  have hbounds : 2 ^ 23 ≤ ⌊|x| / 2 ^ (k - 23)⌋ ∧ ⌊|x| / 2 ^ (k - 23)⌋ < 2 ^ (23 + 1) :=
    Format.floor_bounds hk hk' 23
  obtain ⟨M, hM⟩ := Int.eq_ofNat_of_zero_le (le_trans (by norm_num) hbounds.1)
  rw [hM] at hbounds
  have hpos : (0 : ℚ) < M * 2 ^ (k - 23) := by
    have hMpos : 0 < M := by omega
    positivity
  have hrtz : binary32.format.rtz x = (if x < 0 then -1 else 1) * (M * 2 ^ (k - 23)) := by
    rw [Format.rtz, hexponent, hM, mul_assoc, Int.cast_natCast]
  have habs : |binary32.value r.toNat| = M * 2 ^ (k - 23) := by
    rw [hr, Format.abs_rtz, hexponent, hM, Int.cast_natCast]
  obtain ⟨hexp, hfrac⟩ := binary32.fields_of_abs_value r.toNat (k := k)
    (show 2 ^ 23 ≤ M by omega) (show M < 2 ^ (23 + 1) by omega)
    (show (1 - 127 : ℤ) ≤ k by omega) habs
  refine ⟨hexp, ?_, ?_, ?_⟩
  · rw [← binary32.value_neg_iff r.toNat (abs_pos.1 (habs ▸ hpos)), hr, hrtz]
    split_ifs with hx
    · rw [neg_one_mul]
      exact iff_of_true (neg_lt_zero.2 hpos) hx
    · rw [one_mul]
      exact iff_of_false hpos.not_gt hx
  · rw [hM]
    exact congrArg Nat.cast hfrac
  · rw [ne_eq, Format.rtz_eq_iff, hexponent]

/-- A truncated number with its low bit set if it is inexact is rounded as the exact one. -/
theorem round_truncated {r : UInt32} {inexact : Bool} (hx : 2 ^ (-126 : ℤ) ≤ |x|)
    (hx' : |x| < 2 ^ (128 : ℤ)) (hr : binary32.value r.toNat = binary32.format.rtz x)
    (hinexact : inexact = true ↔ binary32.format.rtz x ≠ x) :
    Bf16RoundsTo x (convert_ne_fp32_to_bfloat16 (jam r inexact)) := by
  have hpos : 0 < |x| := lt_of_lt_of_le (by positivity) hx
  obtain ⟨k, hkdef⟩ : ∃ k, k = Int.log 2 |x| := ⟨_, rfl⟩
  have hk : (2 : ℚ) ^ k ≤ |x| := hkdef ▸ Int.zpow_log_le_self one_lt_two hpos
  have hk' : |x| < (2 : ℚ) ^ (k + 1) := hkdef ▸ Int.lt_zpow_succ_log_self one_lt_two _
  have hmin : -126 ≤ k := hkdef ▸ (Int.zpow_le_iff_le_log one_lt_two hpos).1 hx
  have hmax : k < 128 := hkdef ▸ (Int.lt_zpow_iff_log_lt one_lt_two hpos).1 hx'
  obtain ⟨hexp, hneg, hfrac, hrest⟩ := truncated_fields hk hk' hmin hr
  obtain ⟨hexp', hneg', hfrac', -⟩ := jam_fields r inexact
  rw [hrest] at hinexact
  refine convert_rounds hk hk' hmin (by omega) (hexp' ▸ hexp) (hneg'.trans hneg) ?_
  rw [hfrac']
  unfold roundOdd
  by_cases hint : |x| / 2 ^ (k - 23) = ⌊|x| / 2 ^ (k - 23)⌋
  · rw [if_neg fun h => hinexact.1 h.1 hint, if_pos (.inl hint)]
    exact hfrac
  · by_cases hodd : ⌊|x| / 2 ^ (k - 23)⌋ % 2 = 1
    · rw [if_neg fun h => absurd h.2 (by omega), if_pos (.inr hodd)]
      exact hfrac
    · rw [if_pos ⟨hinexact.2 hint, by omega⟩, if_neg (not_or.2 ⟨hint, hodd⟩)]
      omega

theorem round_overflow (hx : 2 ^ (128 : ℤ) ≤ |x|) :
    Bf16RoundsTo x (if x < 0 then 0xFF80 else 0x7F80) := by
  have hnormal : ¬ |x| < 2 ^ (-126 : ℤ) :=
    not_lt.2 ((zpow_le_zpow_right₀ one_le_two (by norm_num)).trans hx)
  have hbig : 2 ^ (128 : ℤ) ≤ |bfloat16.format.rne x| := by
    rw [Format.abs_rne]
    exact Format.rne_ge _ (bfloat16.format.mem_zpow (by decide)) hx
  rw [Bf16RoundsTo, if_neg hnormal, if_neg hbig.not_gt]

/-- The upper half of a quieted NaN. -/
theorem convert_quiet {v : UInt16} {r : UInt32} {inexact : Bool}
    (hkeep : KeepsClass r (jam r inexact))
    (h : binary32.IsNaN (convert_bfloat16_to_fp32 v).toNat)
    (hr : r = convert_bfloat16_to_fp32 v ||| 0x00400000) :
    convert_ne_fp32_to_bfloat16 (jam r inexact) = v ||| 0x40 := by
  have hnan : binary32.IsNaN (jam r inexact).toNat := hkeep.nan.2 (hr ▸ isNaN_quiet h)
  have hconvert : convert_ne_fp32_to_bfloat16 (jam r inexact) =
      (jam r inexact >>> 16 ||| 0x40).toUInt16 := by
    rcases convert_cases (jam r inexact) with h | h | h | h
    · exact h.2
    · exact absurd h.1.2 hnan.2
    · have htop : binary32.exp (jam r inexact).toNat + 1 = 256 := hnan.1
      omega
    · exact absurd (Nat.succ.inj hnan.1) h.2.1
  have hback : convert_bfloat16_to_fp32 v >>> 16 = v.toUInt32 := by
    apply UInt32.toNat_inj.1
    rw [UInt32.toNat_shiftRight, convert_bfloat16_toNat, UInt16.toNat_toUInt32,
      Nat.shiftRight_eq_div_pow]
    exact Nat.mul_div_cancel _ (Nat.two_pow_pos 16)
  have hquiet : (0x00400000 : UInt32) >>> 16 = 0x40 := by decide
  rw [hconvert, jam_shift, hr, UInt32.shiftRight_or, hback, hquiet, UInt32.or_assoc, UInt32.or_self,
    UInt32.toUInt16_or, UInt16.toUInt16_toUInt32]
  rfl

/-- From the truncated result to the rounded one. -/
theorem F32Truncates.rounds {a b c : UInt16} {op : UInt8} {r : UInt32} {inexact : Bool}
    (h : F32Truncates (convert_bfloat16_to_fp32 a) (convert_bfloat16_to_fp32 b)
      (convert_bfloat16_to_fp32 c) op r inexact) :
    Bf16Fma a b c op (convert_ne_fp32_to_bfloat16 (jam r inexact)) := by
  have hkeep := h.keepsClass
  unfold F32Truncates at h
  rw [convert_bfloat16_toNat, convert_bfloat16_toNat, convert_bfloat16_toNat, binary32_eq_widen,
    fma_widen, ← binary32_eq_widen] at h
  unfold Bf16Fma
  cases hcase : bfloat16.fma a.toNat b.toNat c.toNat (negateProduct op) (negateC op) with
  | nan =>
    rw [hcase] at h
    obtain ⟨v, hv, hnan, hr⟩ := h
    have hquiet (w : UInt16) (hw : v = convert_bfloat16_to_fp32 w) : bfloat16.IsNaN w.toNat ∧
        convert_ne_fp32_to_bfloat16 (jam r inexact) = w ||| 0x40 := by
      subst hw
      refine ⟨?_, convert_quiet hkeep hnan hr⟩
      rwa [convert_bfloat16_toNat, binary32_eq_widen, isNaN_widen] at hnan
    rcases hv with hv | hv | hv
    · exact ⟨a, .inl rfl, hquiet a hv⟩
    · exact ⟨b, .inr (.inl rfl), hquiet b hv⟩
    · exact ⟨c, .inr (.inr rfl), hquiet c hv⟩
  | invalid =>
    rw [hcase] at h
    obtain rfl : r = float32_default_nan := h
    show _ = (0xFFC0 : UInt16)
    cases inexact <;> decide
  | inf neg =>
    rw [hcase] at h
    obtain ⟨rfl, rfl⟩ := h
    show _ = if neg then (0xFF80 : UInt16) else 0x7F80
    cases neg <;> decide
  | zero neg =>
    rw [hcase] at h
    obtain ⟨rfl, rfl⟩ := h
    show _ = if neg then (0x8000 : UInt16) else 0
    cases neg <;> decide
  | finite x =>
    rw [hcase] at h
    dsimp only at h ⊢
    by_cases htiny : |x| < 2 ^ (-126 : ℤ)
    · rw [if_pos htiny] at h
      obtain ⟨rfl, rfl⟩ := h
      rw [Bf16RoundsTo, if_pos htiny]
      split_ifs <;> decide
    rw [if_neg htiny] at h
    by_cases hlt : |x| < 2 ^ (128 : ℤ)
    · rw [if_pos hlt] at h
      exact round_truncated (not_lt.1 htiny) hlt h.2.1 h.2.2
    · rw [if_neg hlt] at h
      obtain ⟨rfl, rfl⟩ := h
      have hmax : convert_ne_fp32_to_bfloat16
          (jam (if x < 0 then 0xFF7FFFFF else 0x7F7FFFFF) true) =
            if x < 0 then 0xFF80 else 0x7F80 := by
        split_ifs <;> decide
      rw [hmax]
      exact round_overflow (not_lt.1 hlt)

end Convert

/-- **One rounding.** For all operands and signs the operation is the exact one, rounded once; and
setting the low bit makes no infinity, NaN or zero into something else. -/
theorem bf16_mulAdd_rounds_once {f32_mulAdd : MulAdd} (h : IsMulAddTowardsZero f32_mulAdd)
    (a b c : UInt16) (op : UInt8) :
    Bf16Fma a b c op (bf16_mulAdd f32_mulAdd a b c op) ∧
      KeepsClass (f32_mulAdd (convert_bfloat16_to_fp32 a) (convert_bfloat16_to_fp32 b)
          (convert_bfloat16_to_fp32 c) op bf16MulAddStatus).1
        (jam (f32_mulAdd (convert_bfloat16_to_fp32 a) (convert_bfloat16_to_fp32 b)
            (convert_bfloat16_to_fp32 c) op bf16MulAddStatus).1
          (inexactFlag (f32_mulAdd (convert_bfloat16_to_fp32 a) (convert_bfloat16_to_fp32 b)
            (convert_bfloat16_to_fp32 c) op bf16MulAddStatus).2)) :=
  have htruncates := h (convert_bfloat16_to_fp32 a) (convert_bfloat16_to_fp32 b)
    (convert_bfloat16_to_fp32 c) op
  ⟨htruncates.rounds, htruncates.keepsClass⟩

/-! ## An operation by its definition -/

def raiseInexact (status : SoftfloatStatus) : SoftfloatStatus :=
  { status with
    softfloat_exceptionFlags := status.softfloat_exceptionFlags ||| softfloat_flag_inexact }

/-- A multiply-add by its definition. -/
def f32MulAddExact : MulAdd := fun a b c op status =>
  match binary32.fma a.toNat b.toNat c.toNat (negateProduct op) (negateC op) with
  | .nan => ((if binary32.IsNaN a.toNat then a else if binary32.IsNaN b.toNat then b else c) |||
      0x00400000, status)
  | .invalid => (float32_default_nan, status)
  | .inf neg => (if neg then float32_negative_inf else float32_positive_inf, status)
  | .zero neg => (if neg then 0x80000000 else 0, status)
  | .finite x =>
    if |x| < 2 ^ (-126 : ℤ) then (if x < 0 then 0x80000000 else 0, raiseInexact status)
    else if |x| < 2 ^ (128 : ℤ) then
      (UInt32.ofNat (binary32.encode (binary32.format.rtz x)),
        if binary32.format.rtz x ≠ x then raiseInexact status else status)
    else (if x < 0 then 0xFF7FFFFF else 0x7F7FFFFF, raiseInexact status)

section Exact

theorem rtz_normal {x : ℚ} (hx : 2 ^ (-126 : ℤ) ≤ |x|) :
    2 ^ (-126 : ℤ) ≤ |binary32.format.rtz x| := by
  have hpos : 0 < |x| := lt_of_lt_of_le (by positivity) hx
  obtain ⟨k, hkdef⟩ : ∃ k, k = Int.log 2 |x| := ⟨_, rfl⟩
  have hk : (2 : ℚ) ^ k ≤ |x| := hkdef ▸ Int.zpow_log_le_self one_lt_two hpos
  have hk' : |x| < (2 : ℚ) ^ (k + 1) := hkdef ▸ Int.lt_zpow_succ_log_self one_lt_two _
  have hmin : -126 ≤ k := hkdef ▸ (Int.zpow_le_iff_le_log one_lt_two hpos).1 hx
  have hexponent : binary32.format.exponent x = k - 23 :=
    binary32.format.exponent_eq hk hk' (show (1 - 127 - 23 : ℤ) ≤ k - 23 by omega)
  have hlow : (2 : ℚ) ^ 23 ≤ ⌊|x| / 2 ^ (k - 23)⌋ := by
    exact_mod_cast (Format.floor_bounds hk hk' 23).1
  rw [Format.abs_rtz, hexponent]
  calc (2 : ℚ) ^ (-126 : ℤ) ≤ 2 ^ k := zpow_le_zpow_right₀ one_le_two hmin
    _ = 2 ^ 23 * 2 ^ (k - 23) := by
      rw [← zpow_natCast, ← zpow_add₀ two_ne_zero]
      congr 1
      push_cast
      ring
    _ ≤ ⌊|x| / 2 ^ (k - 23)⌋ * 2 ^ (k - 23) := mul_le_mul_of_nonneg_right hlow (by positivity)

theorem isMulAddTowardsZero_f32MulAddExact : IsMulAddTowardsZero f32MulAddExact := by
  intro a b c op
  have hclear : inexactFlag bf16MulAddStatus = false := by decide
  have hraised : inexactFlag (raiseInexact bf16MulAddStatus) = true := by decide
  unfold F32Truncates f32MulAddExact
  cases hcase : binary32.fma a.toNat b.toNat c.toNat (negateProduct op) (negateC op) with
  | nan =>
    refine ⟨_, ?_, ?_, rfl⟩
    · split_ifs
      · exact .inl rfl
      · exact .inr (.inl rfl)
      · exact .inr (.inr rfl)
    · have hsome := binary32.fma_eq_nan hcase
      split_ifs with ha hb
      · exact ha
      · exact hb
      · exact (hsome.resolve_left ha).resolve_left hb
  | invalid => rfl
  | inf neg => exact ⟨rfl, hclear⟩
  | zero neg => exact ⟨rfl, hclear⟩
  | finite x =>
    dsimp only
    by_cases htiny : |x| < 2 ^ (-126 : ℤ)
    · rw [if_pos htiny, if_pos htiny]
      exact ⟨rfl, hraised⟩
    rw [if_neg htiny, if_neg htiny]
    by_cases hlt : |x| < 2 ^ (128 : ℤ)
    · rw [if_pos hlt, if_pos hlt]
      obtain ⟨hfin, hvalue⟩ := f32_encode (binary32.format.rtz_mem x) (rtz_normal (not_lt.1 htiny))
        ((binary32.format.abs_rtz_le x).trans_lt hlt)
      refine ⟨hfin, hvalue, ?_⟩
      by_cases hexact : binary32.format.rtz x ≠ x
      · dsimp only
        rw [if_pos hexact]
        exact iff_of_true hraised hexact
      · dsimp only
        rw [if_neg hexact]
        exact iff_of_false (Bool.eq_false_iff.1 hclear) hexact
    · rw [if_neg hlt, if_neg hlt]
      exact ⟨rfl, hraised⟩

/-- A product halfway between two BF16 numbers, and a small negative addend. -/
theorem bf16_mulAdd_midpoint :
    Bf16Fma 0x3FC0 0x3F81 0xAB80 0 (bf16_mulAdd f32MulAddExact 0x3FC0 0x3F81 0xAB80 0) :=
  (bf16_mulAdd_rounds_once isMulAddTowardsZero_f32MulAddExact 0x3FC0 0x3F81 0xAB80 0).1

end Exact

end Bochs
