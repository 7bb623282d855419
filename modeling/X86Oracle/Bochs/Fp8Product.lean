import Mathlib
import X86Oracle.Lib.Bytes
import X86Oracle.Lib.Rounding
import X86Oracle.Bochs.Amx
import X86Oracle.Bochs.Fp8
import X86Oracle.Bochs.SoftFloat

/-!
# Tile products of FP8 operands

`amx_fp8_dot_product` and the instructions made of it (`cpu/avx/amx.cc`).  What the code adds with,
`f32_add`, is a parameter.

* `fp8Finish_spec`: the last step of an element, on what a list of pairs left.
* `IsFp8Element`: an element's value; `dot_product_runs`: what the loops leave.
* `fp8_dot_product_meets_spec`: all of a tile product; `tdp_of_handler`: the instruction.
-/

namespace Bochs

open Rounding Bytes

attribute [local instance] neZero_eight neZero_sixteen

/-! ## The loops -/

abbrev Tiles := Fin 8 → Fin 16 → Row

namespace Tiles

def setRow (tiles : Tiles) (tile : Fin 8) (m : ℕ) (row : Row) : Tiles :=
  Function.update tiles tile (Function.update (tiles tile) (Fin.ofNat 16 m) row)

def row (tiles : Tiles) (tile : Fin 8) (m : ℕ) : Row := tiles tile (Fin.ofNat 16 m)

end Tiles

def vmm32u (row : Row) (n : ℕ) : UInt32 := row (Fin.ofNat 16 n)

def vmmubyte (row : Row) (k : ℕ) : UInt8 :=
  UInt8.ofNat ((vmm32u row (k / 4)).toNat / 256 ^ (k % 4))

/-- What an element becomes with the accumulator complete. -/
def fp8Finish (f32_add : UInt32 → UInt32 → UInt32) (acc : Fp8Acc) (scale : ℤ) (srcdest : UInt32) :
    Option UInt32 :=
  if acc.nan || (acc.pos_inf && acc.neg_inf) || f32_isNaN srcdest then some float32_default_nan
  else do
    let sum ← (if acc.pos_inf then some float32_positive_inf
      else if acc.neg_inf then some float32_negative_inf
      else amx_fp8_acc_to_f32 acc scale)
    some (f32_add srcdest sum)

/-- The body of the loop over columns. -/
def fp8DotElement (f32_add : UInt32 → UInt32 → UInt32) (tdst tsrc1 tsrc2 : Fin 8) (m max_k : ℕ)
    (src1_is_bf8 src2_is_bf8 : Bool) (scale : ℤ) (tiles : Tiles) (n : ℕ) : Option Tiles :=
  let acc := (List.range max_k).foldl (fun acc k =>
    (List.range 4).foldl (fun acc fp8_index =>
      amx_fp8_accumulate acc (vmmubyte (tiles.row tsrc1 m) (4 * k + fp8_index))
        (vmmubyte (tiles.row tsrc2 k) (4 * n + fp8_index)) src1_is_bf8 src2_is_bf8) acc) .zero
  (fp8Finish f32_add acc scale (vmm32u (tiles.row tdst m) n)).map fun out =>
    tiles.setRow tdst m (Function.update (tiles.row tdst m) (Fin.ofNat 16 n) out)

/-- The body of the loop over rows. -/
def fp8DotRow (f32_add : UInt32 → UInt32 → UInt32) (tdst tsrc1 tsrc2 : Fin 8) (max_n max_k : ℕ)
    (src1_is_bf8 src2_is_bf8 : Bool) (scale : ℤ) (tiles : Tiles) (m : ℕ) : Option Tiles :=
  ((List.range max_n).foldlM
      (fp8DotElement f32_add tdst tsrc1 tsrc2 m max_k src1_is_bf8 src2_is_bf8 scale) tiles).map
    fun tiles => tiles.setRow tdst m (Amx.zero_upper_row_data32 (tiles.row tdst m) max_n)

def amx_fp8_dot_product (f32_add : UInt32 → UInt32 → UInt32) (tiles : Tiles)
    (tdst tsrc1 tsrc2 : Fin 8) (max_m max_n max_k : ℕ) (src1_is_bf8 src2_is_bf8 : Bool) :
    Option Tiles :=
  let scale : ℤ := (if src1_is_bf8 then 16 else 9) + (if src2_is_bf8 then 16 else 9)
  (List.range max_m).foldlM
    (fp8DotRow f32_add tdst tsrc1 tsrc2 max_n max_k src1_is_bf8 src2_is_bf8 scale) tiles

/-! ## One element -/

instance (a_is_bf8 b_is_bf8 : Bool) (p : UInt8 × UInt8) : Decidable (PairNaN a_is_bf8 b_is_bf8 p) :=
  inferInstanceAs (Decidable (_ ∨ _))

instance (a_is_bf8 b_is_bf8 : Bool) (p : UInt8 × UInt8) : Decidable (PairNeg a_is_bf8 b_is_bf8 p) :=
  inferInstanceAs (Decidable (¬ _))

instance (a_is_bf8 b_is_bf8 : Bool) (p : UInt8 × UInt8) : Decidable (PairInf a_is_bf8 b_is_bf8 p) :=
  inferInstanceAs (Decidable (_ ∧ _))

section Element

variable {f32_add : UInt32 → UInt32 → UInt32} {a_is_bf8 b_is_bf8 : Bool}
  {pairs : List (UInt8 × UInt8)} {old : UInt32}

/-- An infinity of one sign among the products and the old value. -/
def HasInf (a_is_bf8 b_is_bf8 : Bool) (pairs : List (UInt8 × UInt8)) (old : UInt32) : Bool → Prop
  | false => old = float32_positive_inf ∨
      ∃ p ∈ pairs, PairInf a_is_bf8 b_is_bf8 p ∧ ¬ PairNeg a_is_bf8 b_is_bf8 p
  | true => old = float32_negative_inf ∨
      ∃ p ∈ pairs, PairInf a_is_bf8 b_is_bf8 p ∧ PairNeg a_is_bf8 b_is_bf8 p

/-- An element's new value. -/
structure IsFp8Element (f32_add : UInt32 → UInt32 → UInt32) (a_is_bf8 b_is_bf8 : Bool)
    (pairs : List (UInt8 × UInt8)) (old r : UInt32) : Prop where
  nan : r = float32_default_nan ↔ f32_isNaN old = true ∨
    (∃ p ∈ pairs, PairNaN a_is_bf8 b_is_bf8 p) ∨
      HasInf a_is_bf8 b_is_bf8 pairs old false ∧ HasInf a_is_bf8 b_is_bf8 pairs old true
  pos_inf : r ≠ float32_default_nan → HasInf a_is_bf8 b_is_bf8 pairs old false →
    r = float32_positive_inf
  neg_inf : r ≠ float32_default_nan → HasInf a_is_bf8 b_is_bf8 pairs old true →
    r = float32_negative_inf
  /-- The sum is the exact one, rounded once: zero, or a normal number. -/
  finite : r ≠ float32_default_nan → ¬ HasInf a_is_bf8 b_is_bf8 pairs old false →
    ¬ HasInf a_is_bf8 b_is_bf8 pairs old true →
    ∃ sum, r = f32_add old sum ∧
      Encoding.binary32.value sum.toNat =
        Encoding.binary32.format.rne (fp8Exact a_is_bf8 b_is_bf8 pairs) ∧
      (fp8Exact a_is_bf8 b_is_bf8 pairs = 0 → sum = 0) ∧
      (fp8Exact a_is_bf8 b_is_bf8 pairs ≠ 0 → 1 ≤ Encoding.binary32.exp sum.toNat ∧
        Encoding.binary32.exp sum.toNat ≤ 254)

theorem abs_fp8Units_le {v : UInt8} {is_bf8 : Bool} (h : Fp8Finite v is_bf8) :
    |fp8Units v is_bf8| ≤ 7 * 2 ^ 29 := by
  have hbound := (decode_fp8_spec v is_bf8).bound
  rw [decode_units h]
  split_ifs
  · rw [abs_neg, Nat.abs_cast]
    exact_mod_cast hbound
  · rw [Nat.abs_cast]
    exact_mod_cast hbound

/-- A sum of finite products is small. -/
theorem abs_fp8Sum_le (h : ∀ p ∈ pairs, Fp8Finite p.1 a_is_bf8 ∧ Fp8Finite p.2 b_is_bf8) :
    |fp8Sum a_is_bf8 b_is_bf8 pairs| ≤ 7 * 2 ^ 29 * (7 * 2 ^ 29) * pairs.length := by
  induction pairs with
  | nil => exact le_of_eq rfl
  | cons p pairs ih =>
    have hp := h p List.mem_cons_self
    have hprod : |fp8Units p.1 a_is_bf8 * fp8Units p.2 b_is_bf8| ≤ 7 * 2 ^ 29 * (7 * 2 ^ 29) := by
      rw [abs_mul]
      exact mul_le_mul (abs_fp8Units_le hp.1) (abs_fp8Units_le hp.2) (abs_nonneg _) (by norm_num)
    have hrest := ih fun q hq => h q (List.mem_cons_of_mem _ hq)
    have hsum : fp8Sum a_is_bf8 b_is_bf8 (p :: pairs) =
        fp8Units p.1 a_is_bf8 * fp8Units p.2 b_is_bf8 + fp8Sum a_is_bf8 b_is_bf8 pairs := by
      unfold fp8Sum
      rw [List.map_cons, List.sum_cons]
    rw [hsum, List.length_cons, Nat.cast_succ, mul_add, mul_one, add_comm]
    exact (abs_add_le _ _).trans (add_le_add hrest hprod)

/-- Adding an infinity. -/
theorem add_inf (hadd : IsF32Add f32_add) (hold : f32_isNaN old = false) {s : UInt32}
    (hs : F32Inf s) :
    F32Inf old ∧ old ≠ s ∧ f32_add old s = float32_default_nan ∨
      (F32Inf old → old = s) ∧ f32_add old s = s := by
  rcases f32_cases old with h | ⟨-, hinf, -⟩ | ⟨-, hinf, hfin⟩
  · rw [hold] at h
    exact absurd h.1 Bool.false_ne_true
  · by_cases heq : old = s
    · subst heq
      exact .inr ⟨fun _ => rfl, hadd.inf_left old old hinf (.inr rfl)⟩
    · exact .inl ⟨hinf, heq, hadd.opposite old s hinf hs heq⟩
  · exact .inr ⟨fun h => absurd h hinf, hadd.inf_right old s hfin hs⟩

/-- What a number is rounded to is no NaN. -/
theorem F32RoundsTo.ne_default_nan {x : ℚ} {r : UInt32} (h : F32RoundsTo x r) :
    r ≠ float32_default_nan := by
  have hfin : F32Finite r → r ≠ float32_default_nan := by
    rintro hr rfl
    exact hr (by decide)
  rcases lt_or_ge |x| (2 ^ (-126 : ℤ)) with htiny | hnormal
  · exact hfin (h.tiny htiny).1
  rcases lt_or_ge |Encoding.binary32.format.rne x| (2 ^ (128 : ℤ)) with hlt | hge
  · exact hfin (h.normal hnormal hlt).1
  · rw [h.overflow hge]
    split_ifs
    · decide
    · decide

/-- Without NaN and infinities all operands are finite. -/
theorem pair_finite (hnan : ¬ ∃ p ∈ pairs, PairNaN a_is_bf8 b_is_bf8 p)
    (hpos : ¬ ∃ p ∈ pairs, PairInf a_is_bf8 b_is_bf8 p ∧ ¬ PairNeg a_is_bf8 b_is_bf8 p)
    (hneg : ¬ ∃ p ∈ pairs, PairInf a_is_bf8 b_is_bf8 p ∧ PairNeg a_is_bf8 b_is_bf8 p) :
    ∀ p ∈ pairs, Fp8Finite p.1 a_is_bf8 ∧ Fp8Finite p.2 b_is_bf8 := by
  intro p hp
  have hpnan : ¬ PairNaN a_is_bf8 b_is_bf8 p := fun h => hnan ⟨p, hp, h⟩
  have hpinf : ¬ PairInf a_is_bf8 b_is_bf8 p := by
    intro h
    by_cases hsign : PairNeg a_is_bf8 b_is_bf8 p
    · exact hneg ⟨p, hp, h, hsign⟩
    · exact hpos ⟨p, hp, h, hsign⟩
  refine ⟨⟨fun h => hpnan (.inl h), fun h => hpinf ⟨hpnan, .inl h⟩⟩, ?_, ?_⟩
  · exact fun h => hpnan (.inr (.inl h))
  · exact fun h => hpinf ⟨hpnan, .inr h⟩

/-- Infinities of one sign only. -/
theorem IsFp8Element.of_inf {r : UInt32} (sign : Bool) (h : HasInf a_is_bf8 b_is_bf8 pairs old sign)
    (h' : ¬ HasInf a_is_bf8 b_is_bf8 pairs old !sign) (hold : f32_isNaN old = false)
    (hnan : ¬ ∃ p ∈ pairs, PairNaN a_is_bf8 b_is_bf8 p)
    (hr : r = if sign then float32_negative_inf else float32_positive_inf) :
    IsFp8Element f32_add a_is_bf8 b_is_bf8 pairs old r := by
  have hne : r ≠ float32_default_nan := by
    rw [hr]
    cases sign <;> decide
  have hfalse : ¬ (f32_isNaN old = true ∨ (∃ p ∈ pairs, PairNaN a_is_bf8 b_is_bf8 p) ∨
      HasInf a_is_bf8 b_is_bf8 pairs old false ∧ HasInf a_is_bf8 b_is_bf8 pairs old true) := by
    rintro (hold' | hnan' | ⟨hp, hn⟩)
    · rw [hold] at hold'
      exact Bool.false_ne_true hold'
    · exact hnan hnan'
    · cases sign with
      | false => exact h' hn
      | true => exact h' hp
  refine ⟨iff_of_false hne hfalse, fun _ hp => ?_, fun _ hn => ?_, fun _ hp hn => ?_⟩
  · cases sign with
    | false => exact hr
    | true => exact absurd hp h'
  · cases sign with
    | false => exact absurd hn h'
    | true => exact hr
  · cases sign with
    | false => exact absurd h hp
    | true => exact absurd h hn

theorem IsFp8Element.of_nan (h : f32_isNaN old = true ∨
    (∃ p ∈ pairs, PairNaN a_is_bf8 b_is_bf8 p) ∨
      HasInf a_is_bf8 b_is_bf8 pairs old false ∧ HasInf a_is_bf8 b_is_bf8 pairs old true) :
    IsFp8Element f32_add a_is_bf8 b_is_bf8 pairs old float32_default_nan :=
  ⟨iff_of_true rfl h, fun hne => absurd rfl hne, fun hne => absurd rfl hne,
    fun hne => absurd rfl hne⟩

/-- Infinite products of one sign, added to the old value. -/
theorem fp8_inf_products (hadd : IsF32Add f32_add) (sign : Bool) {s : UInt32}
    (hs : s = if sign then float32_negative_inf else float32_positive_inf)
    (hold : f32_isNaN old = false) (hnan : ¬ ∃ p ∈ pairs, PairNaN a_is_bf8 b_is_bf8 p)
    (hsign : HasInf a_is_bf8 b_is_bf8 pairs old sign)
    (hother : HasInf a_is_bf8 b_is_bf8 pairs old !sign →
      old = if sign then float32_positive_inf else float32_negative_inf) :
    IsFp8Element f32_add a_is_bf8 b_is_bf8 pairs old (f32_add old s) := by
  have hinf : F32Inf s := by
    rw [hs]
    cases sign with
    | false => exact .inl rfl
    | true => exact .inr rfl
  rcases add_inf hadd hold hinf with ⟨holdinf, hne, heq⟩ | ⟨holdinf, heq⟩
  · rw [heq]
    refine .of_nan (.inr (.inr ?_))
    rw [hs] at hne
    cases sign with
    | false => exact ⟨hsign, .inl (holdinf.resolve_left hne)⟩
    | true => exact ⟨.inl (holdinf.resolve_right hne), hsign⟩
  · rw [heq]
    refine .of_inf sign hsign (fun h => ?_) hold hnan hs
    have hval := hother h
    have hcontra := holdinf (by
      rw [hval]
      cases sign with
      | false => exact .inr rfl
      | true => exact .inl rfl)
    rw [hval, hs] at hcontra
    revert hcontra
    cases sign <;> decide

/-- A sum of products is zero or no less than the least product. -/
theorem fp8_addend {sum : UInt32} (hvalue : Encoding.binary32.value sum.toNat =
    Encoding.binary32.format.rne (fp8Exact a_is_bf8 b_is_bf8 pairs)) : F32Addend sum := by
  rw [F32Addend, hvalue]
  by_cases hzero : fp8Sum a_is_bf8 b_is_bf8 pairs = 0
  · rw [fp8Exact_eq, hzero, Int.cast_zero, zero_mul]
    exact .inl (Format.rne_zero _)
  · right
    rw [Format.abs_rne]
    refine Format.rne_ge _ (Encoding.binary32.format.mem_zpow (by decide)) ?_
    have hunits : (1 : ℚ) ≤ |(fp8Sum a_is_bf8 b_is_bf8 pairs : ℚ)| := by
      exact_mod_cast Int.one_le_abs hzero
    have hscale : (2 : ℚ) ^ (-32 : ℤ) ≤ 2 ^ (-(fp8ProductScale a_is_bf8 b_is_bf8 : ℤ)) := by
      refine zpow_le_zpow_right₀ one_le_two ?_
      cases a_is_bf8 <;> cases b_is_bf8 <;> decide
    have hpos : (0 : ℚ) < 2 ^ (-(fp8ProductScale a_is_bf8 b_is_bf8 : ℤ)) := zpow_pos two_pos _
    rw [fp8Exact_eq, abs_mul, abs_of_pos hpos]
    calc (2 : ℚ) ^ (-32 : ℤ) ≤ 1 * 2 ^ (-(fp8ProductScale a_is_bf8 b_is_bf8 : ℤ)) := by
          rw [one_mul]
          exact hscale
      _ ≤ _ := mul_le_mul_of_nonneg_right hunits hpos.le

/-- A finite sum, added to the old value. -/
theorem fp8_finite_sum (hadd : IsF32Add f32_add) {sum : UInt32} (hsum : F32Finite sum)
    (haddend : F32Addend sum)
    (hvalue : Encoding.binary32.value sum.toNat =
        Encoding.binary32.format.rne (fp8Exact a_is_bf8 b_is_bf8 pairs) ∧
      (fp8Exact a_is_bf8 b_is_bf8 pairs = 0 → sum = 0) ∧
      (fp8Exact a_is_bf8 b_is_bf8 pairs ≠ 0 → 1 ≤ Encoding.binary32.exp sum.toNat ∧
        Encoding.binary32.exp sum.toNat ≤ 254))
    (hold : f32_isNaN old = false) (hnan : ¬ ∃ p ∈ pairs, PairNaN a_is_bf8 b_is_bf8 p)
    (hpos : HasInf a_is_bf8 b_is_bf8 pairs old false → old = float32_positive_inf)
    (hneg : HasInf a_is_bf8 b_is_bf8 pairs old true → old = float32_negative_inf) :
    IsFp8Element f32_add a_is_bf8 b_is_bf8 pairs old (f32_add old sum) := by
  rcases f32_cases old with h | ⟨-, hinf, -⟩ | ⟨-, hinf, hfin⟩
  · rw [hold] at h
    exact absurd h.1 Bool.false_ne_true
  · rw [hadd.inf_left old sum hinf (.inl hsum)]
    rcases hinf with rfl | rfl
    · exact .of_inf false (.inl rfl) (fun h => absurd (hneg h) (by decide)) hold hnan rfl
    · exact .of_inf true (.inl rfl) (fun h => absurd (hpos h) (by decide)) hold hnan rfl
  · have hnopos : ¬ HasInf a_is_bf8 b_is_bf8 pairs old false := fun h => hinf (.inl (hpos h))
    have hnoneg : ¬ HasInf a_is_bf8 b_is_bf8 pairs old true := fun h => hinf (.inr (hneg h))
    refine ⟨iff_of_false (hadd.finite old sum hfin hsum haddend).ne_default_nan ?_,
      fun _ h => absurd h hnopos, fun _ h => absurd h hnoneg, fun _ _ _ => ⟨sum, rfl, hvalue⟩⟩
    rintro (h | h | h)
    · rw [hold] at h
      exact Bool.false_ne_true h
    · exact hnan h
    · exact hnopos h.1

/-- The last step of an element. -/
theorem fp8Finish_spec (hadd : IsF32Add f32_add) (a_is_bf8 b_is_bf8 : Bool)
    (hlen : pairs.length ≤ 64) (old : UInt32) :
    ∃ r, fp8Finish f32_add (fp8Accumulated a_is_bf8 b_is_bf8 pairs)
        (fp8ProductScale a_is_bf8 b_is_bf8) old = some r ∧
      IsFp8Element f32_add a_is_bf8 b_is_bf8 pairs old r := by
  obtain ⟨-, hnan, hpos, hneg⟩ := accumulated_spec a_is_bf8 b_is_bf8 pairs
  have hconvert := @accumulated_to_f32 a_is_bf8 b_is_bf8 pairs
  obtain ⟨acc, hacc⟩ : ∃ acc, acc = fp8Accumulated a_is_bf8 b_is_bf8 pairs := ⟨_, rfl⟩
  rw [← hacc] at hnan hpos hneg hconvert ⊢
  replace hnan := hnan.trans (or_iff_right Bool.false_ne_true)
  replace hpos := hpos.trans (or_iff_right Bool.false_ne_true)
  replace hneg := hneg.trans (or_iff_right Bool.false_ne_true)
  unfold fp8Finish
  by_cases hspecial : (acc.nan || (acc.pos_inf && acc.neg_inf) || f32_isNaN old) = true
  · refine ⟨_, if_pos hspecial, .of_nan ?_⟩
    rw [Bool.or_eq_true, Bool.or_eq_true, Bool.and_eq_true, hnan, hpos, hneg] at hspecial
    rcases hspecial with (h | h) | h
    · exact .inr (.inl h)
    · exact .inr (.inr ⟨.inr h.1, .inr h.2⟩)
    · exact .inl h
  rw [if_neg hspecial]
  rw [Bool.or_eq_true, Bool.or_eq_true, Bool.and_eq_true, hnan, not_or, not_or, Bool.not_eq_true]
    at hspecial
  obtain ⟨⟨hnonan, hnotboth⟩, hold⟩ := hspecial
  by_cases hp : acc.pos_inf = true
  · rw [if_pos hp]
    refine ⟨_, rfl, fp8_inf_products hadd false rfl hold hnonan (.inr (hpos.1 hp)) fun h => ?_⟩
    exact h.resolve_right fun h => hnotboth ⟨hp, hneg.2 h⟩
  rw [if_neg hp]
  by_cases hn : acc.neg_inf = true
  · rw [if_pos hn]
    refine ⟨_, rfl, fp8_inf_products hadd true rfl hold hnonan (.inr (hneg.1 hn)) fun h => ?_⟩
    exact h.resolve_right fun h => hp (hpos.2 h)
  rw [if_neg hn]
  have hfin := pair_finite hnonan (mt hpos.2 hp) (mt hneg.2 hn)
  have hsmall : |fp8Sum a_is_bf8 b_is_bf8 pairs| ≤ 7 * 2 ^ 29 * (7 * 2 ^ 29) * 64 :=
    (abs_fp8Sum_le hfin).trans
      (mul_le_mul_of_nonneg_left (by exact_mod_cast hlen) (by norm_num))
  rw [abs_le] at hsmall
  obtain ⟨sum, hsum, hvalue⟩ := hconvert hfin (le_trans (by norm_num) hsmall.1)
    (lt_of_le_of_lt hsmall.2 (by norm_num))
  rw [hsum]
  refine ⟨_, rfl, fp8_finite_sum hadd ?_ (fp8_addend hvalue.1) hvalue hold hnonan ?_ ?_⟩
  · intro h255
    by_cases hzero : fp8Exact a_is_bf8 b_is_bf8 pairs = 0
    · rw [hvalue.2.1 hzero] at h255
      exact absurd h255 (by decide)
    · have hle := (hvalue.2.2 hzero).2
      omega
  · exact fun h => h.resolve_right fun h => hp (hpos.2 h)
  · exact fun h => h.resolve_right fun h => hn (hneg.2 h)

end Element

/-! ## All elements -/

/-- Byte `i` of a doubleword. -/
def dwordByte (d : UInt32) (i : ℕ) : UInt8 := UInt8.ofNat (d.toNat / 256 ^ i)

/-- The pairs of an element, from a row of the first source and a column of the second. -/
def fp8Pairs (max_k : ℕ) (row column : ℕ → UInt32) : List (UInt8 × UInt8) :=
  (List.range max_k).flatMap fun k =>
    (List.range 4).map fun i => (dwordByte (row k) i, dwordByte (column k) i)

/-- What a tile product leaves, given what an element becomes. -/
def productTiles (element : (ℕ → UInt32) → (ℕ → UInt32) → UInt32 → UInt32) (tiles : Tiles)
    (tdst tsrc1 tsrc2 : Fin 8) (max_m max_n : ℕ) : Tiles := fun tile m n =>
  if tile = tdst ∧ m.val < max_m then
    if n.val < max_n then
      element (vmm32u (tiles tsrc1 m)) (fun k => vmm32u (tiles.row tsrc2 k) n) (tiles tdst m n)
    else 0
  else tiles tile m n

section Loops

variable {f32_add : UInt32 → UInt32 → UInt32} {a_is_bf8 b_is_bf8 : Bool} {max_k : ℕ}

theorem length_fp8Pairs (max_k : ℕ) (row column : ℕ → UInt32) :
    (fp8Pairs max_k row column).length = 4 * max_k := by
  unfold fp8Pairs
  rw [List.length_flatMap]
  simp only [List.length_map, List.length_range, List.map_const', List.sum_replicate, smul_eq_mul]
  exact mul_comm _ _

theorem vmmubyte_eq (row : Row) (k : ℕ) {i : ℕ} (hi : i < 4) :
    vmmubyte row (4 * k + i) = dwordByte (vmm32u row k) i := by
  have hdiv : (4 * k + i) / 4 = k := by omega
  have hmod : (4 * k + i) % 4 = i := by omega
  rw [vmmubyte, hdiv, hmod, dwordByte]

/-- The two loops over one element's pairs. -/
theorem dot_loops (a_is_bf8 b_is_bf8 : Bool) (max_k n : ℕ) (row : Row) (rows : ℕ → Row) :
    (List.range max_k).foldl (fun acc k => (List.range 4).foldl (fun acc fp8_index =>
        amx_fp8_accumulate acc (vmmubyte row (4 * k + fp8_index))
          (vmmubyte (rows k) (4 * n + fp8_index)) a_is_bf8 b_is_bf8) acc) .zero =
      fp8Accumulated a_is_bf8 b_is_bf8
        (fp8Pairs max_k (vmm32u row) fun k => vmm32u (rows k) n) := by
  have hbytes (k : ℕ) : ((List.range 4).map fun i =>
        (vmmubyte row (4 * k + i), vmmubyte (rows k) (4 * n + i))) =
      (List.range 4).map fun i =>
        (dwordByte (vmm32u row k) i, dwordByte (vmm32u (rows k) n) i) := by
    refine List.map_congr_left fun i hi => ?_
    have hi' := List.mem_range.1 hi
    rw [vmmubyte_eq _ _ hi', vmmubyte_eq _ _ hi']
  unfold fp8Accumulated fp8Pairs
  rw [List.foldl_flatMap]
  congr 1
  funext acc k
  rw [← hbytes, List.foldl_map]

theorem Tiles.setRow_apply (tiles : Tiles) (tile : Fin 8) {m : ℕ} (hm : m < 16) (row : Row)
    (i : Fin 8) (r c : Fin 16) :
    tiles.setRow tile m row i r c = if i = tile ∧ r.val = m then row c else tiles i r c := by
  have hr : r = Fin.ofNat 16 m ↔ r.val = m := by
    rw [Fin.ext_iff]
    exact Iff.of_eq (congrArg _ (Nat.mod_eq_of_lt hm))
  unfold setRow
  by_cases hi : i = tile
  · subst hi
    rw [Function.update_self]
    by_cases hrm : r = Fin.ofNat 16 m
    · subst hrm
      rw [Function.update_self, if_pos ⟨rfl, hr.1 rfl⟩]
    · rw [Function.update_of_ne hrm, if_neg fun h => hrm (hr.2 h.2)]
  · rw [Function.update_of_ne hi, if_neg fun h => hi h.1]

variable {element : (ℕ → UInt32) → (ℕ → UInt32) → UInt32 → UInt32} {tiles : Tiles}
  {tdst tsrc1 tsrc2 : Fin 8} {max_m max_n : ℕ}

/-- The loop over a row's elements, up to column `j`. -/
def rowTiles (element : (ℕ → UInt32) → (ℕ → UInt32) → UInt32 → UInt32) (tiles : Tiles)
    (tdst tsrc1 tsrc2 : Fin 8) (m j : ℕ) : Tiles := fun tile r c =>
  if tile = tdst ∧ r.val = m ∧ c.val < j then
    element (vmm32u (tiles.row tsrc1 m)) (fun k => vmm32u (tiles.row tsrc2 k) c) (tiles tdst r c)
  else tiles tile r c

theorem rowTiles_source {tile : Fin 8} (h : tile ≠ tdst) (m j k : ℕ) :
    (rowTiles element tiles tdst tsrc1 tsrc2 m j).row tile k = tiles.row tile k :=
  funext fun _ => if_neg fun hc => h hc.1

theorem rowTiles_succ (h1 : tsrc1 ≠ tdst) (h2 : tsrc2 ≠ tdst) {m j : ℕ} (hm : m < 16) (hj : j < 16)
    {t : Tiles} (ht : t = rowTiles element tiles tdst tsrc1 tsrc2 m j) :
    t.setRow tdst m (Function.update (t.row tdst m) (Fin.ofNat 16 j)
        (element (vmm32u (t.row tsrc1 m)) (fun k => vmm32u (t.row tsrc2 k) j)
          (vmm32u (t.row tdst m) j))) =
      rowTiles element tiles tdst tsrc1 tsrc2 m (j + 1) := by
  have hsrc1 : t.row tsrc1 m = tiles.row tsrc1 m := ht ▸ rowTiles_source h1 m j m
  have hsrc2 (k : ℕ) : t.row tsrc2 k = tiles.row tsrc2 k := ht ▸ rowTiles_source h2 m j k
  simp only [hsrc1, hsrc2]
  funext tile r c
  rw [Tiles.setRow_apply _ _ hm]
  by_cases hrow : tile = tdst ∧ r.val = m
  · obtain ⟨rfl, hr⟩ := hrow
    have hrm : Fin.ofNat 16 m = r := Fin.ext ((Nat.mod_eq_of_lt hm).trans hr.symm)
    have hcell (c : Fin 16) :
        t.row tile m c = rowTiles element tiles tile tsrc1 tsrc2 m j tile r c := by
      rw [Tiles.row, hrm, ht]
    rw [if_pos ⟨rfl, hr⟩]
    by_cases hc : c = Fin.ofNat 16 j
    · subst hc
      have hval : (Fin.ofNat 16 j).val = j := Nat.mod_eq_of_lt hj
      rw [Function.update_self, vmm32u.eq_1 (t.row tile m), hcell]
      unfold rowTiles
      rw [if_neg (by omega), if_pos ⟨rfl, hr, by omega⟩, hval]
    · have hne : c.val ≠ j := fun h => hc (Fin.ext (h.trans (Nat.mod_eq_of_lt hj).symm))
      rw [Function.update_of_ne hc, hcell]
      unfold rowTiles
      exact if_congr (and_congr_right fun _ => and_congr_right fun _ => by omega) rfl rfl
  · rw [if_neg hrow, ht]
    unfold rowTiles
    rw [if_neg fun h => hrow ⟨h.1, h.2.1⟩, if_neg fun h => hrow ⟨h.1, h.2.1⟩]

/-- A finished row. -/
theorem productTiles_succ (h1 : tsrc1 ≠ tdst) (h2 : tsrc2 ≠ tdst) {m : ℕ} (hm : m < 16)
    {t u : Tiles} (ht : t = productTiles element tiles tdst tsrc1 tsrc2 m max_n)
    (hu : u = rowTiles element t tdst tsrc1 tsrc2 m max_n) :
    u.setRow tdst m (Amx.zero_upper_row_data32 (u.row tdst m) max_n) =
      productTiles element tiles tdst tsrc1 tsrc2 (m + 1) max_n := by
  have hsrc {tile : Fin 8} (h : tile ≠ tdst) : t tile = tiles tile := by
    rw [ht]
    exact funext fun _ => funext fun _ => if_neg fun hc => h hc.1
  funext tile r c
  rw [Tiles.setRow_apply _ _ hm]
  by_cases hrow : tile = tdst ∧ r.val = m
  · obtain ⟨rfl, hr⟩ := hrow
    have hrm : Fin.ofNat 16 m = r := Fin.ext ((Nat.mod_eq_of_lt hm).trans hr.symm)
    have hold : t tile r c = tiles tile r c := by
      rw [ht]
      exact if_neg fun h => by omega
    have hnew : productTiles element tiles tile tsrc1 tsrc2 (m + 1) max_n tile r c =
        if c.val < max_n then element (vmm32u (tiles tsrc1 r))
          (fun k => vmm32u (tiles.row tsrc2 k) c) (tiles tile r c) else 0 :=
      if_pos ⟨rfl, by omega⟩
    rw [if_pos ⟨rfl, hr⟩, hnew, Amx.zero_upper_row_data32]
    by_cases hc : c.val < max_n
    · rw [if_pos hc, if_pos hc, Tiles.row, hrm, hu, rowTiles, if_pos ⟨rfl, hr, hc⟩, Tiles.row, hrm,
        hsrc h1, hold]
      congr 1
      funext k
      rw [Tiles.row, hsrc h2, Tiles.row]
    · rw [if_neg hc, if_neg hc]
  · rw [if_neg hrow, hu]
    unfold rowTiles
    rw [if_neg fun h => hrow ⟨h.1, h.2.1⟩, ht]
    unfold productTiles
    exact if_congr (and_congr_right fun h => by
      have hne : r.val ≠ m := fun hr => hrow ⟨h, hr⟩
      omega) rfl rfl

/-- What an element becomes, for all old values. -/
def FinishesTo (f32_add : UInt32 → UInt32 → UInt32) (a_is_bf8 b_is_bf8 : Bool) (max_k : ℕ)
    (element : (ℕ → UInt32) → (ℕ → UInt32) → UInt32 → UInt32) : Prop :=
  ∀ row column old, fp8Finish f32_add
    (fp8Accumulated a_is_bf8 b_is_bf8 (fp8Pairs max_k row column))
    (fp8ProductScale a_is_bf8 b_is_bf8) old = some (element row column old)

theorem dot_row_runs (h1 : tsrc1 ≠ tdst) (h2 : tsrc2 ≠ tdst) (hn : max_n ≤ 16)
    (hfinish : FinishesTo f32_add a_is_bf8 b_is_bf8 max_k element) {m : ℕ} (hm : m < 16) :
    (List.range max_n).foldlM (fp8DotElement f32_add tdst tsrc1 tsrc2 m max_k a_is_bf8 b_is_bf8
      (fp8ProductScale a_is_bf8 b_is_bf8)) tiles =
        some (rowTiles element tiles tdst tsrc1 tsrc2 m max_n) := by
  have hzero : tiles = rowTiles element tiles tdst tsrc1 tsrc2 m 0 := by
    funext tile r c
    exact (if_neg fun h => absurd h.2.2 (Nat.not_lt_zero _)).symm
  obtain ⟨u, hu, rfl⟩ := foldlM_range_induction (n := max_n)
    (f := fp8DotElement f32_add tdst tsrc1 tsrc2 m max_k a_is_bf8 b_is_bf8
      (fp8ProductScale a_is_bf8 b_is_bf8))
    (fun j u => u = rowTiles element tiles tdst tsrc1 tsrc2 m j) hzero fun j u hj hu => by
      refine ⟨_, ?_, rowTiles_succ h1 h2 hm (by omega) hu⟩
      rw [fp8DotElement, dot_loops a_is_bf8 b_is_bf8 max_k j (u.row tsrc1 m) fun k => u.row tsrc2 k,
        hfinish]
      rfl
  exact hu

/-- The loops leave `productTiles`. -/
theorem dot_product_runs (h1 : tsrc1 ≠ tdst) (h2 : tsrc2 ≠ tdst) (hm : max_m ≤ 16)
    (hn : max_n ≤ 16) (hfinish : FinishesTo f32_add a_is_bf8 b_is_bf8 max_k element) :
    amx_fp8_dot_product f32_add tiles tdst tsrc1 tsrc2 max_m max_n max_k a_is_bf8 b_is_bf8 =
      some (productTiles element tiles tdst tsrc1 tsrc2 max_m max_n) := by
  have hscale : ((if a_is_bf8 then 16 else 9) + (if b_is_bf8 then 16 else 9) : ℤ) =
      fp8ProductScale a_is_bf8 b_is_bf8 := by
    cases a_is_bf8 <;> cases b_is_bf8 <;> rfl
  have hzero : tiles = productTiles element tiles tdst tsrc1 tsrc2 0 max_n := by
    funext tile r c
    exact (if_neg fun h => absurd h.2 (Nat.not_lt_zero _)).symm
  unfold amx_fp8_dot_product
  rw [hscale]
  obtain ⟨u, hu, rfl⟩ := foldlM_range_induction (n := max_m)
    (f := fp8DotRow f32_add tdst tsrc1 tsrc2 max_n max_k a_is_bf8 b_is_bf8
      (fp8ProductScale a_is_bf8 b_is_bf8))
    (fun m t => t = productTiles element tiles tdst tsrc1 tsrc2 m max_n) hzero fun m t hlt ht => by
      refine ⟨_, ?_, productTiles_succ h1 h2 (by omega) ht rfl⟩
      rw [fp8DotRow, dot_row_runs h1 h2 hn hfinish (by omega)]
      rfl
  exact hu

/-- The pairs in another order of `k`. -/
theorem fp8Pairs_perm (σ : Equiv.Perm (Fin max_k)) {row row' column column' : ℕ → UInt32}
    (hrow : ∀ k : Fin max_k, row' k = row (σ k))
    (hcolumn : ∀ k : Fin max_k, column' k = column (σ k)) :
    (fp8Pairs max_k row' column').Perm (fp8Pairs max_k row column) := by
  have hpairs (row column : ℕ → UInt32) : fp8Pairs max_k row column =
      (List.finRange max_k).flatMap fun k : Fin max_k => (List.range 4).map fun i =>
        (dwordByte (row k) i, dwordByte (column k) i) := by
    rw [fp8Pairs, ← List.map_coe_finRange_eq_range (n := max_k), List.flatMap_map]
  have horder := (Equiv.Perm.map_finRange_perm σ).flatMap_right
    fun k : Fin max_k => (List.range 4).map fun i => (dwordByte (row k) i, dwordByte (column k) i)
  rw [List.flatMap_map] at horder
  rw [hpairs row' column', hpairs row column]
  simp only [hrow, hcolumn]
  exact horder

theorem FinishesTo.perm (hfinish : FinishesTo f32_add a_is_bf8 b_is_bf8 max_k element)
    (σ : Equiv.Perm (Fin max_k)) {row row' column column' : ℕ → UInt32}
    (hrow : ∀ k : Fin max_k, row' k = row (σ k))
    (hcolumn : ∀ k : Fin max_k, column' k = column (σ k)) (old : UInt32) :
    element row' column' old = element row column old := by
  have hrun := hfinish row' column' old
  rw [accumulated_perm (fp8Pairs_perm σ hrow hcolumn), hfinish] at hrun
  exact (Option.some.inj hrun).symm

/-- Each element has a value, and it meets its specification. -/
theorem exists_element (hadd : IsF32Add f32_add) (a_is_bf8 b_is_bf8 : Bool) (hk : max_k ≤ 16) :
    ∃ element, FinishesTo f32_add a_is_bf8 b_is_bf8 max_k element ∧
      ∀ row column old, IsFp8Element f32_add a_is_bf8 b_is_bf8 (fp8Pairs max_k row column) old
        (element row column old) := by
  have hlen (row column : ℕ → UInt32) : (fp8Pairs max_k row column).length ≤ 64 := by
    rw [length_fp8Pairs]
    omega
  choose element hfinish hspec using fun row column old =>
    fp8Finish_spec hadd a_is_bf8 b_is_bf8 (hlen row column) old
  exact ⟨element, hfinish, hspec⟩

end Loops

/-- **A tile product meets its specification**, specials included.  An element is a function of its
row of the first source, its column of the second and its old value; the other columns of a row are
zeroed; nothing else changes; and reordering `k` in both sources changes nothing. -/
theorem fp8_dot_product_meets_spec {f32_add : UInt32 → UInt32 → UInt32} (hadd : IsF32Add f32_add)
    (a_is_bf8 b_is_bf8 : Bool) {max_k : ℕ} (hk : max_k ≤ 16) :
    ∃ element : (ℕ → UInt32) → (ℕ → UInt32) → UInt32 → UInt32,
      (∀ row column old, IsFp8Element f32_add a_is_bf8 b_is_bf8 (fp8Pairs max_k row column) old
        (element row column old)) ∧
      ∀ (tdst tsrc1 tsrc2 : Fin 8) (max_m max_n : ℕ), tsrc1 ≠ tdst → tsrc2 ≠ tdst → max_m ≤ 16 →
        max_n ≤ 16 →
        (∀ tiles, amx_fp8_dot_product f32_add tiles tdst tsrc1 tsrc2 max_m max_n max_k a_is_bf8
          b_is_bf8 = some (productTiles element tiles tdst tsrc1 tsrc2 max_m max_n)) ∧
        ∀ (tiles tiles' : Tiles) (σ : Equiv.Perm (Fin max_k)), tiles' tdst = tiles tdst →
          (∀ (m : Fin 16) (k : Fin max_k), m.val < max_m →
            vmm32u (tiles' tsrc1 m) k = vmm32u (tiles tsrc1 m) (σ k)) →
          (∀ (k : Fin max_k) (n : Fin 16), n.val < max_n →
            tiles'.row tsrc2 k n = tiles.row tsrc2 (σ k) n) →
          (amx_fp8_dot_product f32_add tiles' tdst tsrc1 tsrc2 max_m max_n max_k a_is_bf8
              b_is_bf8).map (· tdst) =
            (amx_fp8_dot_product f32_add tiles tdst tsrc1 tsrc2 max_m max_n max_k a_is_bf8
              b_is_bf8).map (· tdst) := by
  obtain ⟨element, hfinish, hspec⟩ := exists_element hadd a_is_bf8 b_is_bf8 hk
  refine ⟨element, hspec, fun tdst tsrc1 tsrc2 max_m max_n h1 h2 hm hn => ⟨fun tiles => ?_, ?_⟩⟩
  · exact dot_product_runs h1 h2 hm hn hfinish
  intro tiles tiles' σ hdst hrow hcolumn
  rw [dot_product_runs h1 h2 hm hn hfinish, dot_product_runs h1 h2 hm hn hfinish]
  refine congrArg some (funext fun m => funext fun n => ?_)
  dsimp only [productTiles]
  by_cases hm' : tdst = tdst ∧ m.val < max_m
  · rw [if_pos hm', if_pos hm', hdst]
    by_cases hn' : n.val < max_n
    · rw [if_pos hn', if_pos hn']
      have hval : Fin.ofNat 16 n.val = n := Fin.ext (Nat.mod_eq_of_lt n.isLt)
      refine hfinish.perm σ (fun k => hrow m k hm'.2) (fun k => ?_) _
      rw [vmm32u, vmm32u, hval]
      exact hcolumn k n hn'
    · rw [if_neg hn', if_neg hn']
  · rw [if_neg hm', if_neg hm', hdst]

/-- Old values 1, an infinity in the first row of the first source, ones in the second source: the
infinity is added to 1, and the other column is zeroed. -/
theorem fp8_dot_product_inf :
    ∃ out, amx_fp8_dot_product f32AddExact
        (fun tile m _ => if tile = 0 then 0x3F800000 else if tile = 1 ∧ m = 0 then 0x7C else 0x3C)
        0 1 2 1 1 1 true true = some out ∧
      out 0 0 0 = float32_positive_inf ∧ out 0 0 1 = 0 ∧ out 0 1 0 = 0x3F800000 := by
  obtain ⟨element, hspec, hrun⟩ := fp8_dot_product_meets_spec isF32Add_f32AddExact true true
    (show 1 ≤ 16 by decide)
  refine ⟨_, (hrun 0 1 2 1 1 (by decide) (by decide) (by decide) (by decide)).1 _, ?_, rfl, rfl⟩
  have h := hspec (fun _ => 0x7C) (fun _ => 0x3C) 0x3F800000
  refine h.pos_inf (fun hnan => ?_) (.inr ⟨(0x7C, 0x3C), by decide, by decide, by decide⟩)
  rcases h.nan.1 hnan with hold | hpair | ⟨-, hneg⟩
  · exact absurd hold (by decide)
  · exact absurd hpair (by decide)
  · rcases hneg with hold | hpair
    · exact absurd hold (by decide)
    · exact absurd hpair (by decide)

/-! ## The instructions -/

/-- The four handlers; a tile that does not fit raises #UD. -/
def AMX_FP8_DOT_PRODUCT (src1_is_bf8 src2_is_bf8 : Bool) (f32_add : UInt32 → UInt32 → UInt32)
    (amx : Amx) (tile_dst tile_src1 tile_src2 : Fin 8) : Option Amx :=
  if !amx.check_tiles tile_dst tile_src1 tile_src2 then some amx
  else
    let max_n := (amx.tilecfg tile_dst).2 / 4
    let max_m := (amx.tilecfg tile_dst).1
    let max_k := (amx.tilecfg tile_src2).1
    (amx_fp8_dot_product f32_add amx.tile tile_dst tile_src1 tile_src2 max_m max_n max_k src1_is_bf8
      src2_is_bf8).map fun tiles =>
        ((({ amx with tile := tiles } : Amx).set_tile_used tile_dst).setTile tile_dst fun row =>
          if row < max_m then tiles tile_dst row else 0).restart

def TDPBF8PS := AMX_FP8_DOT_PRODUCT true true

def TDPHF8PS := AMX_FP8_DOT_PRODUCT false false

def TDPBHF8PS := AMX_FP8_DOT_PRODUCT true false

def TDPHBF8PS := AMX_FP8_DOT_PRODUCT false true

theorem check_tiles_iff {amx : Amx} {dst src1 src2 : Fin 8}
    (h : amx.check_tiles dst src1 src2 = true) :
    src1 ≠ dst ∧ src2 ≠ dst ∧ (amx.tilecfg dst).2 / 4 ≤ 16 ∧ (amx.tilecfg src2).1 ≤ 16 := by
  unfold Amx.check_tiles at h
  simp only [Bool.and_eq_true, bne_iff_ne, beq_iff_eq, decide_eq_true_eq] at h
  obtain ⟨⟨⟨⟨⟨⟨⟨⟨⟨⟨h1, h2⟩, -⟩, -⟩, -⟩, -⟩, -⟩, -⟩, -⟩, hn⟩, hk⟩ := h
  exact ⟨h1.symm, h2.symm, hn, hk⟩

/-- An instruction is a step `tdp` of the unit, with elements that meet their specification. -/
theorem tdp_of_handler {f32_add : UInt32 → UInt32 → UInt32} (hadd : IsF32Add f32_add)
    (src1_is_bf8 src2_is_bf8 : Bool) {amx : Amx} (hconf : amx.Configured) (dst src1 src2 : Fin 8) :
    ∃ data, AMX_FP8_DOT_PRODUCT src1_is_bf8 src2_is_bf8 f32_add amx dst src1 src2 =
        some (amx.tdp dst src1 src2 data) ∧
      ((amx.check_tiles dst src1 src2) = true → ∀ m n : Fin 16,
        IsFp8Element f32_add src1_is_bf8 src2_is_bf8
        (fp8Pairs (amx.tilecfg src2).1 (vmm32u (amx.tile src1 m)) fun k =>
          vmm32u (amx.tile src2 (Fin.ofNat 16 k)) n) (amx.tile dst m n) (data m n)) := by
  by_cases hcheck : amx.check_tiles dst src1 src2 = true
  swap
  · refine ⟨fun _ => 0, ?_, fun h => absurd h hcheck⟩
    unfold AMX_FP8_DOT_PRODUCT Amx.tdp
    rw [Bool.eq_false_iff.2 hcheck]
    rfl
  obtain ⟨h1, h2, hn, hk⟩ := check_tiles_iff hcheck
  obtain ⟨element, hfinish, hspec⟩ := exists_element hadd src1_is_bf8 src2_is_bf8 hk
  refine ⟨fun m n => element (vmm32u (amx.tile src1 m))
    (fun k => vmm32u (amx.tile src2 (Fin.ofNat 16 k)) n) (amx.tile dst m n), ?_,
    fun _ m n => hspec _ _ _⟩
  unfold AMX_FP8_DOT_PRODUCT Amx.tdp
  rw [hcheck, Bool.not_true, if_neg Bool.false_ne_true, if_neg Bool.false_ne_true]
  dsimp only
  rw [dot_product_runs h1 h2 (hconf.tiles dst).2.1 hn hfinish]
  refine congrArg some ?_
  have htiles : Function.update (productTiles element amx.tile dst src1 src2 (amx.tilecfg dst).1
        ((amx.tilecfg dst).2 / 4)) dst (fun row => if row < (amx.tilecfg dst).1
          then productTiles element amx.tile dst src1 src2 (amx.tilecfg dst).1
            ((amx.tilecfg dst).2 / 4) dst row else 0) =
      Function.update amx.tile dst fun row => if row < (amx.tilecfg dst).1
        then Amx.zero_upper_row_data32 (fun n => element (vmm32u (amx.tile src1 row))
          (fun k => vmm32u (amx.tile src2 (Fin.ofNat 16 k)) n) (amx.tile dst row n))
            ((amx.tilecfg dst).2 / 4) else 0 := by
    funext tile
    by_cases htile : tile = dst
    · subst htile
      rw [Function.update_self, Function.update_self]
      funext row
      by_cases hrow : row < (amx.tilecfg tile).1
      · rw [if_pos hrow, if_pos hrow]
        exact funext fun n => if_pos ⟨rfl, hrow⟩
      · rw [if_neg hrow, if_neg hrow]
    · rw [Function.update_of_ne htile, Function.update_of_ne htile]
      exact funext fun m => funext fun n => if_neg fun h => htile h.1
  exact congrArg (fun tiles =>
    (({ amx with tile := tiles } : Amx).set_tile_used dst).restart) htiles

end Bochs
