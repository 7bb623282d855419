import Mathlib

/-!
# Carries and borrows of a whole word

A sum and its operands determine the carry out of every position, and a difference the borrows;
both can be computed for all positions at once, with bitwise operations only.

* `addCarries` and `subBorrows` compute them, `getLsbD_addCarries` and `getLsbD_subBorrows` say
  what their bits are.
* `carry_setWidth`: the low bits do not depend on the rest of the word, so that a number may be
  kept in a wider word.
* `overflow_add` and `overflow_sub`: signed overflow, from the last two carries.
-/

namespace Carries

variable {n w : ℕ}

/-- A bit as a number of one word. -/
def carryIn (n : ℕ) (c : Bool) : BitVec n := (BitVec.ofBool c).setWidth n

@[simp] theorem carryIn_false : carryIn n false = 0#n := by simp [carryIn]

@[simp] theorem carryIn_true : carryIn n true = 1#n := by
  apply BitVec.eq_of_toNat_eq
  simp [carryIn]

/-- The carries out of each position of the sum `r` of `x` and `y`. -/
def addCarries (x y r : BitVec n) : BitVec n := (x &&& y) ||| ((x ||| y) &&& ~~~r)

/-- The borrows out of each position of the difference `r` of `x` and `y`. -/
def subBorrows (x y r : BitVec n) : BitVec n := (~~~x &&& y) ||| ((~~~x ^^^ y) &&& r)

/-- Bit `i` of the vector is the carry out of position `i`. -/
theorem getLsbD_addCarries (x y : BitVec n) (c : Bool) {i : ℕ} (hi : i < n) :
    (addCarries x y (x + y + carryIn n c)).getLsbD i = BitVec.carry (i + 1) x y c := by
  have hsum := BitVec.getLsbD_add_add_bool hi x y c
  unfold addCarries
  simp only [BitVec.getLsbD_or, BitVec.getLsbD_and, BitVec.getLsbD_not, hi, decide_true,
    Bool.true_and]
  rw [carryIn, hsum, BitVec.carry_succ]
  cases x.getLsbD i <;> cases y.getLsbD i <;> cases BitVec.carry i x y c <;> rfl

/-- A difference gives back what it was taken from, with the borrow as the carry. -/
theorem sub_add (x y : BitVec n) (c : Bool) :
    (x - (y + carryIn n c)) + y + carryIn n c = x := by
  rw [BitVec.add_assoc, BitVec.sub_add_cancel]

/-- The borrow into position `i` of a difference. -/
def borrow (i : ℕ) (x y : BitVec n) (c : Bool) : Bool :=
  decide (x.toNat % 2 ^ i < y.toNat % 2 ^ i + c.toNat)

/-- A borrow of the difference is a carry of adding it back. -/
theorem borrow_eq_carry (x y : BitVec n) (c : Bool) {i : ℕ} (hi : i ≤ n) :
    borrow i x y c = BitVec.carry i (x - (y + carryIn n c)) y c := by
  have hpos : 0 < 2 ^ i := Nat.two_pow_pos i
  have hbit : c.toNat ≤ 1 := c.toNat_le
  have hsum : ((x - (y + carryIn n c)).toNat % 2 ^ i + y.toNat % 2 ^ i + c.toNat) % 2 ^ i =
      x.toNat % 2 ^ i := by
    have h := congrArg (fun b : BitVec n => b.toNat % 2 ^ i) (sub_add x y c)
    simp only [BitVec.toNat_add, carryIn, BitVec.toNat_setWidth, BitVec.toNat_ofBool,
      Nat.mod_mod_of_dvd _ (pow_dvd_pow 2 hi), Nat.add_mod, Nat.mod_mod] at h ⊢
    exact h
  have hr := Nat.mod_lt (x - (y + carryIn n c)).toNat hpos
  have hy := Nat.mod_lt y.toNat hpos
  unfold borrow BitVec.carry
  rw [decide_eq_decide, ← hsum]
  generalize (x - (y + carryIn n c)).toNat % 2 ^ i = r at *
  generalize y.toNat % 2 ^ i = b at *
  constructor
  · intro hlt
    by_contra hno
    rw [Nat.mod_eq_of_lt (by omega)] at hlt
    omega
  · intro hge
    rw [Nat.mod_eq_sub_mod hge, Nat.mod_eq_of_lt (by omega)]
    omega

theorem getLsbD_subBorrows (x y : BitVec n) (c : Bool) {i : ℕ} (hi : i < n) :
    (subBorrows x y (x - (y + carryIn n c))).getLsbD i = borrow (i + 1) x y c := by
  have hx := BitVec.getLsbD_add_add_bool hi (x - (y + carryIn n c)) y c
  have hsub := sub_add x y c
  rw [carryIn] at hsub
  rw [carryIn, hsub] at hx
  unfold subBorrows
  simp only [BitVec.getLsbD_or, BitVec.getLsbD_and, BitVec.getLsbD_not, BitVec.getLsbD_xor, hi,
    decide_true, Bool.true_and]
  rw [borrow_eq_carry x y c hi, BitVec.carry_succ, hx, carryIn]
  cases (x - (y + (BitVec.ofBool c).setWidth n)).getLsbD i <;> cases y.getLsbD i <;>
    cases BitVec.carry i (x - (y + (BitVec.ofBool c).setWidth n)) y c <;> rfl

/-! ## Numbers in a wider word -/

theorem toNat_setWidth_mod (x : BitVec n) {i : ℕ} (hi : i ≤ w) :
    (x.setWidth w).toNat % 2 ^ i = x.toNat % 2 ^ i := by
  rw [BitVec.toNat_setWidth, Nat.mod_mod_of_dvd _ (pow_dvd_pow 2 hi)]

/-- A carry depends on the bits below it alone. -/
theorem carry_setWidth (x y : BitVec n) (c : Bool) {i : ℕ} (hi : i ≤ w) :
    BitVec.carry i x y c = BitVec.carry i (x.setWidth w) (y.setWidth w) c := by
  unfold BitVec.carry
  rw [toNat_setWidth_mod x hi, toNat_setWidth_mod y hi]

theorem borrow_setWidth (x y : BitVec n) (c : Bool) {i : ℕ} (hi : i ≤ w) :
    borrow i x y c = borrow i (x.setWidth w) (y.setWidth w) c := by
  unfold borrow
  rw [toNat_setWidth_mod x hi, toNat_setWidth_mod y hi]

theorem setWidth_carryIn (h : w ≤ n) (c : Bool) : (carryIn n c).setWidth w = carryIn w c :=
  BitVec.setWidth_setWidth_of_le _ h

theorem setWidth_sum (h : w ≤ n) (x y : BitVec n) (c : Bool) :
    (x + y + carryIn n c).setWidth w = x.setWidth w + y.setWidth w + carryIn w c := by
  rw [BitVec.setWidth_add _ _ h, BitVec.setWidth_add _ _ h, setWidth_carryIn h]

theorem setWidth_diff (h : w ≤ n) (x y : BitVec n) (c : Bool) :
    (x - (y + carryIn n c)).setWidth w = x.setWidth w - (y.setWidth w + carryIn w c) := by
  have hsum := congrArg (BitVec.setWidth w) (sub_add x y c)
  rw [setWidth_sum h] at hsum
  rw [← hsum, BitVec.add_assoc, BitVec.add_sub_cancel]

/-! ## Overflow -/

theorem carry_self (x y : BitVec w) (c : Bool) :
    BitVec.carry w x y c = decide (2 ^ w ≤ x.toNat + y.toNat + c.toNat) := BitVec.carry_width

theorem borrow_self (x y : BitVec w) (c : Bool) :
    borrow w x y c = decide (x.toNat < y.toNat + c.toNat) := by
  unfold borrow
  rw [Nat.mod_eq_of_lt x.isLt, Nat.mod_eq_of_lt y.isLt]

theorem toNat_carryIn (hw : 0 < w) (c : Bool) : (carryIn w c).toNat = c.toNat := by
  cases c with
  | false => simp
  | true =>
    rw [carryIn_true]
    exact Nat.mod_eq_of_lt (Nat.one_lt_two_pow hw.ne')

/-- A word of a sum, with its carry. -/
theorem word_add_carry (hw : 0 < w) (x y : BitVec w) (c : Bool) :
    (x + y + carryIn w c).toNat +
        2 ^ w * (decide (2 ^ w ≤ x.toNat + y.toNat + c.toNat)).toNat =
      x.toNat + y.toNat + c.toNat := by
  have hx := x.isLt
  have hy := y.isLt
  have hbit := c.toNat_le
  rw [BitVec.toNat_add, BitVec.toNat_add, toNat_carryIn hw, Nat.mod_add_mod]
  by_cases h : 2 ^ w ≤ x.toNat + y.toNat + c.toNat
  · rw [decide_eq_true h, Nat.mod_eq_sub_mod h, Nat.mod_eq_of_lt (by omega), Bool.toNat_true]
    omega
  · rw [decide_eq_false h, Nat.mod_eq_of_lt (by omega), Bool.toNat_false]
    omega

/-- A word of a difference, with its borrow. -/
theorem word_sub_borrow (hw : 0 < w) (x y : BitVec w) (c : Bool) :
    (x - (y + carryIn w c)).toNat + (y.toNat + c.toNat) =
      x.toNat + 2 ^ w * (decide (x.toNat < y.toNat + c.toNat)).toNat := by
  have hword := word_add_carry hw (x - (y + carryIn w c)) y c
  have hcarry := borrow_eq_carry x y c le_rfl
  rw [borrow_self, carry_self] at hcarry
  rw [sub_add, ← hcarry] at hword
  omega

/-- The number does not fit in a sign and `w` bits. -/
def overflows (w : ℕ) (v : ℤ) : Bool := decide (v < -2 ^ w ∨ 2 ^ w ≤ v)

/-- A number by its sign and its other bits. -/
theorem toNat_eq_msb (x : BitVec (w + 1)) :
    x.toNat = x.toNat % 2 ^ w + 2 ^ w * x.msb.toNat ∧
      x.toInt = (x.toNat % 2 ^ w : ℕ) - 2 ^ w * (x.msb.toNat : ℤ) := by
  have hlt := x.isLt
  have hpow : 2 ^ (w + 1) = 2 * 2 ^ w := by rw [pow_succ, mul_comm]
  have hmsb : x.msb = decide (2 ^ w ≤ x.toNat) := by
    rw [BitVec.msb_eq_decide]
    rfl
  have hint : x.toInt = if 2 * x.toNat < 2 ^ (w + 1) then (x.toNat : ℤ)
      else (x.toNat : ℤ) - (2 ^ (w + 1) : ℕ) := BitVec.toInt_eq_toNat_cond x
  rw [hmsb, hint]
  by_cases h : 2 ^ w ≤ x.toNat
  · have hmod : x.toNat % 2 ^ w = x.toNat - 2 ^ w := by
      rw [Nat.mod_eq_sub_mod h, Nat.mod_eq_of_lt (by omega)]
    rw [hmod, decide_eq_true h, if_neg (by omega)]
    have hcast : ((x.toNat - 2 ^ w : ℕ) : ℤ) = x.toNat - 2 ^ w := by
      rw [Nat.cast_sub h]
      simp
    have hpow' : (((2 ^ (w + 1) : ℕ)) : ℤ) = 2 * 2 ^ w := by
      rw [hpow]
      simp
    rw [hcast, hpow']
    simp only [Bool.toNat_true, Nat.cast_one, mul_one]
    constructor <;> omega
  · rw [Nat.mod_eq_of_lt (by omega), decide_eq_false h, if_pos (by omega)]
    simp

/-- The last two carries differ exactly on signed overflow. -/
theorem overflow_add_succ (x y : BitVec (w + 1)) (c : Bool) :
    (BitVec.carry (w + 1) x y c ^^ BitVec.carry w x y c) =
      overflows w (x.toInt + y.toInt + c.toNat) := by
  obtain ⟨hx, hxi⟩ := toNat_eq_msb x
  obtain ⟨hy, hyi⟩ := toNat_eq_msb y
  have hpow : 2 ^ (w + 1) = 2 * 2 ^ w := by rw [pow_succ, mul_comm]
  have hcast : ((2 ^ w : ℕ) : ℤ) = 2 ^ w := by simp
  have hbit : c.toNat ≤ 1 := c.toNat_le
  have hpos : 0 < 2 ^ w := Nat.two_pow_pos w
  have ha := Nat.mod_lt x.toNat hpos
  have hb := Nat.mod_lt y.toNat hpos
  rw [carry_self, hpow]
  unfold BitVec.carry overflows
  rw [hxi, hyi, hx, hy, Nat.add_mul_mod_self_left, Nat.add_mul_mod_self_left, Nat.mod_mod,
    Nat.mod_mod, ← hcast]
  generalize x.toNat % 2 ^ w = a at *
  generalize y.toNat % 2 ^ w = b at *
  generalize 2 ^ w = p at *
  generalize c.toNat = k at *
  rw [Bool.eq_iff_iff]
  simp only [bne_iff_ne, ne_eq, decide_eq_decide, decide_eq_true_eq]
  cases x.msb <;> cases y.msb <;>
    simp only [Bool.toNat_true, Bool.toNat_false, Nat.cast_one, Nat.cast_zero, mul_one,
      mul_zero] <;>
    omega

/-- So do the last two borrows. -/
theorem overflow_sub_succ (x y : BitVec (w + 1)) (c : Bool) :
    (borrow (w + 1) x y c ^^ borrow w x y c) =
      overflows w (x.toInt - y.toInt - c.toNat) := by
  obtain ⟨hx, hxi⟩ := toNat_eq_msb x
  obtain ⟨hy, hyi⟩ := toNat_eq_msb y
  have hcast : ((2 ^ w : ℕ) : ℤ) = 2 ^ w := by simp
  have hbit : c.toNat ≤ 1 := c.toNat_le
  have hpos : 0 < 2 ^ w := Nat.two_pow_pos w
  have ha := Nat.mod_lt x.toNat hpos
  have hb := Nat.mod_lt y.toNat hpos
  rw [borrow_self]
  unfold borrow overflows
  rw [hxi, hyi, hx, hy, Nat.add_mul_mod_self_left, Nat.add_mul_mod_self_left, Nat.mod_mod,
    Nat.mod_mod, ← hcast]
  generalize x.toNat % 2 ^ w = a at *
  generalize y.toNat % 2 ^ w = b at *
  generalize 2 ^ w = p at *
  generalize c.toNat = k at *
  rw [Bool.eq_iff_iff]
  simp only [bne_iff_ne, ne_eq, decide_eq_decide, decide_eq_true_eq]
  cases x.msb <;> cases y.msb <;>
    simp only [Bool.toNat_true, Bool.toNat_false, Nat.cast_one, Nat.cast_zero, mul_one,
      mul_zero] <;>
    omega

/-- A sum overflows when its last two carries differ. -/
theorem overflow_add (hw : 0 < w) (x y : BitVec w) (c : Bool) :
    (BitVec.carry w x y c ^^ BitVec.carry (w - 1) x y c) =
      overflows (w - 1) (x.toInt + y.toInt + c.toNat) := by
  obtain ⟨v, rfl⟩ := Nat.exists_eq_add_one_of_ne_zero hw.ne'
  exact overflow_add_succ x y c

/-- A difference overflows when its last two borrows differ. -/
theorem overflow_sub (hw : 0 < w) (x y : BitVec w) (c : Bool) :
    (borrow w x y c ^^ borrow (w - 1) x y c) =
      overflows (w - 1) (x.toInt - y.toInt - c.toNat) := by
  obtain ⟨v, rfl⟩ := Nat.exists_eq_add_one_of_ne_zero hw.ne'
  exact overflow_sub_succ x y c

end Carries
