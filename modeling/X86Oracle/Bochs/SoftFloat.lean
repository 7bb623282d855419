import Mathlib
import X86Oracle.Lib.Words
import X86Oracle.Lib.Rounding

/-!
# FP32 patterns and the SoftFloat functions called on them

The classes of FP32 patterns, and what the callers of `f32_add` (`cpu/softfloat3e`) rely on, with a
function that does exactly this.
-/

namespace Bochs

open Rounding Encoding

/-! ## Patterns -/

/-- The quiet NaN of invalid operations; its sign is set. -/
def float32_default_nan : UInt32 := 0xFFC00000

def float32_positive_inf : UInt32 := 0x7F800000

def float32_negative_inf : UInt32 := 0xFF800000

/-- A pattern with all exponent bits and some fraction bit. -/
def f32_isNaN (a : UInt32) : Bool := ~~~a &&& 0x7F800000 == 0 && a &&& 0x007FFFFF != 0

/-- One of the two infinities. -/
def F32Inf (a : UInt32) : Prop := a = float32_positive_inf ∨ a = float32_negative_inf

/-- A zero, a denormal or a normal number. -/
def F32Finite (a : UInt32) : Prop := binary32.exp a.toNat ≠ 255

instance (a : UInt32) : Decidable (F32Inf a) := inferInstanceAs (Decidable (_ ∨ _))

instance (a : UInt32) : Decidable (F32Finite a) := inferInstanceAs (Decidable (_ ≠ _))

section Patterns

variable {a : UInt32}

theorem f32Exp_eq (a : UInt32) : binary32.exp a.toNat = a.toNat / 8388608 % 256 := rfl

theorem f32Frac_eq (a : UInt32) : binary32.frac a.toNat = a.toNat % 8388608 := rfl

/-- The test of the exponent bits in place, by fields. -/
theorem f32_isNaN_iff :
    f32_isNaN a = true ↔ binary32.exp a.toNat = 255 ∧ binary32.frac a.toNat ≠ 0 := by
  have hlt := a.toNat_lt
  have hnot : (~~~a).toNat = 4294967295 - a.toNat := by
    exact UInt32.toNat_not a
  have hexp : (~~~a &&& 0x7F800000).toNat = 8388608 * (255 - a.toNat / 8388608 % 256) := by
    rw [UInt32.toNat_and, hnot]
    refine (Words.and_midMask 23 8 _).trans ?_
    omega
  have hfrac : (a &&& 0x007FFFFF).toNat = a.toNat % 8388608 := by
    rw [UInt32.toNat_and]
    exact Nat.and_two_pow_sub_one_eq_mod _ 23
  rw [f32_isNaN, Bool.and_eq_true, beq_iff_eq, bne_iff_ne, ne_eq, ← UInt32.toNat_inj,
    ← UInt32.toNat_inj, hexp, hfrac, f32Exp_eq, f32Frac_eq, UInt32.toNat_zero]
  omega

/-- The infinities, by fields. -/
theorem f32Inf_iff : F32Inf a ↔ binary32.exp a.toNat = 255 ∧ binary32.frac a.toNat = 0 := by
  have hlt := a.toNat_lt
  have hpos : float32_positive_inf.toNat = 2139095040 := rfl
  have hneg : float32_negative_inf.toNat = 4286578688 := rfl
  rw [F32Inf, ← UInt32.toNat_inj, ← UInt32.toNat_inj, hpos, hneg, f32Exp_eq, f32Frac_eq]
  omega

/-- Each pattern is in one class. -/
theorem f32_cases (a : UInt32) :
    f32_isNaN a = true ∧ ¬ F32Inf a ∧ ¬ F32Finite a ∨
      f32_isNaN a = false ∧ F32Inf a ∧ ¬ F32Finite a ∨
        f32_isNaN a = false ∧ ¬ F32Inf a ∧ F32Finite a := by
  rw [Bool.eq_false_iff, ne_eq, f32_isNaN_iff, f32Inf_iff, F32Finite]
  tauto

end Patterns

/-! ## Addition -/

/-- What `x` is rounded to: to nearest even, with results below the normal range flushed to zero. -/
structure F32RoundsTo (x : ℚ) (r : UInt32) : Prop where
  tiny : |x| < 2 ^ (-126 : ℤ) → F32Finite r ∧ binary32.value r.toNat = 0
  normal : 2 ^ (-126 : ℤ) ≤ |x| → |binary32.format.rne x| < 2 ^ (128 : ℤ) →
    F32Finite r ∧ binary32.value r.toNat = binary32.format.rne x
  overflow : 2 ^ (128 : ℤ) ≤ |binary32.format.rne x| →
    r = if x < 0 then float32_negative_inf else float32_positive_inf

/-- What is added to an element of a tile: zero, or no less than the least product of two FP8
numbers. -/
def F32Addend (b : UInt32) : Prop :=
  binary32.value b.toNat = 0 ∨ 2 ^ (-32 : ℤ) ≤ |binary32.value b.toNat|

/-- IEEE addition to nearest even, with denormal operands (DAZ = 0) and flushed results (FTZ = 1),
where it is used.  Elsewhere `softfloat_subMagsF32` also flushes differences that are normal, of
operands with the same exponent. -/
structure IsF32Add (f32_add : UInt32 → UInt32 → UInt32) : Prop where
  opposite : ∀ a b, F32Inf a → F32Inf b → a ≠ b → f32_add a b = float32_default_nan
  inf_left : ∀ a b, F32Inf a → F32Finite b ∨ b = a → f32_add a b = a
  inf_right : ∀ a b, F32Finite a → F32Inf b → f32_add a b = b
  finite : ∀ a b, F32Finite a → F32Finite b → F32Addend b →
    F32RoundsTo (binary32.value a.toNat + binary32.value b.toNat) (f32_add a b)

/-- A pattern for what a number is rounded to. -/
def f32Round (x : ℚ) : UInt32 :=
  if |x| < 2 ^ (-126 : ℤ) then 0
  else if 2 ^ (128 : ℤ) ≤ |binary32.format.rne x| then
    if x < 0 then float32_negative_inf else float32_positive_inf
  else UInt32.ofNat (binary32.encode (binary32.format.rne x))

/-- An addition by its definition. -/
def f32AddExact (a b : UInt32) : UInt32 :=
  if f32_isNaN a || f32_isNaN b then float32_default_nan
  else if F32Inf a then if F32Inf b ∧ a ≠ b then float32_default_nan else a
  else if F32Inf b then b
  else f32Round (binary32.value a.toNat + binary32.value b.toNat)

theorem f32Finite_zero : F32Finite 0 ∧ binary32.value (0 : UInt32).toNat = 0 := by
  refine ⟨by decide, ?_⟩
  rw [value_eq_units, show binary32.units (0 : UInt32).toNat = 0 by decide, Int.cast_zero, zero_mul]

/-- A normal number of the format has a pattern. -/
theorem f32_encode {y : ℚ} (hy : binary32.format.Mem y) (hmin : 2 ^ (-126 : ℤ) ≤ |y|)
    (hmax : |y| < 2 ^ (128 : ℤ)) :
    F32Finite (UInt32.ofNat (binary32.encode y)) ∧
      binary32.value (UInt32.ofNat (binary32.encode y)).toNat = y := by
  obtain ⟨hvalue, -, hexp, -, hlt⟩ := value_encode hy hmin hmax
  have htoNat : (UInt32.ofNat (binary32.encode y)).toNat = binary32.encode y := by
    rw [UInt32.toNat_ofNat']
    exact Nat.mod_eq_of_lt hlt
  rw [F32Finite, htoNat]
  refine ⟨fun h => ?_, hvalue⟩
  rw [h] at hexp
  exact absurd hexp (by decide)

/-- The least normal number is one of the format, so rounding does not take a number across it. -/
theorem f32_least_normal : binary32.format.Mem (2 ^ (-126 : ℤ)) :=
  binary32.format.mem_zpow (by decide)

/-- The pattern chosen is one of what the number is to be rounded to. -/
theorem f32Round_roundsTo (x : ℚ) : F32RoundsTo x (f32Round x) := by
  refine ⟨fun hx => ?_, fun hx hlt => ?_, fun hge => ?_⟩
  · rw [f32Round, if_pos hx]
    exact f32Finite_zero
  · rw [f32Round, if_neg hx.not_gt, if_neg hlt.not_ge]
    have hmin : 2 ^ (-126 : ℤ) ≤ |binary32.format.rne x| := by
      rw [Format.abs_rne]
      exact Format.rne_ge _ f32_least_normal hx
    exact f32_encode (Format.rne_mem _ x) hmin hlt
  · have hx : ¬ |x| < 2 ^ (-126 : ℤ) := by
      intro hx
      have hle : |binary32.format.rne x| ≤ 2 ^ (-126 : ℤ) := by
        rw [Format.abs_rne]
        exact Format.rne_le _ f32_least_normal hx.le
      have hpow : (2 : ℚ) ^ (-126 : ℤ) < 2 ^ (128 : ℤ) :=
        zpow_lt_zpow_right₀ one_lt_two (by decide)
      exact absurd (hge.trans hle) hpow.not_ge
    rw [f32Round, if_neg hx, if_pos hge]

/-- There is such an addition. -/
theorem isF32Add_f32AddExact : IsF32Add f32AddExact := by
  have hnan {a : UInt32} (h : F32Inf a ∨ F32Finite a) : f32_isNaN a = false := by
    rcases f32_cases a with hc | hc | hc
    · exact absurd h (not_or.2 hc.2)
    · exact hc.1
    · exact hc.1
  have hfin {a : UInt32} (h : F32Finite a) : ¬ F32Inf a := fun hinf =>
    h (f32Inf_iff.1 hinf).1
  refine ⟨fun a b ha hb hne => ?_, fun a b ha hb => ?_, fun a b ha hb => ?_, fun a b ha hb _ => ?_⟩
  · rw [f32AddExact, hnan (.inl ha), hnan (.inl hb), Bool.or_self, if_neg Bool.false_ne_true,
      if_pos ha, if_pos ⟨hb, hne⟩]
  · have hb' : F32Inf b ∨ F32Finite b := hb.elim .inr fun h => .inl (h ▸ ha)
    have hcond : ¬ (F32Inf b ∧ a ≠ b) :=
      fun h => hb.elim (fun hf => hfin hf h.1) fun he => h.2 he.symm
    rw [f32AddExact, hnan (.inl ha), hnan hb', Bool.or_self, if_neg Bool.false_ne_true, if_pos ha,
      if_neg hcond]
  · rw [f32AddExact, hnan (.inr ha), hnan (.inl hb), Bool.or_self, if_neg Bool.false_ne_true,
      if_neg (hfin ha), if_pos hb]
  · rw [f32AddExact, hnan (.inr ha), hnan (.inr hb), Bool.or_self, if_neg Bool.false_ne_true,
      if_neg (hfin ha), if_neg (hfin hb)]
    exact f32Round_roundsTo _

end Bochs
