import Mathlib

/-!
# Division by shifting and subtracting

A divisor is doubled until it exceeds the dividend; then it is halved again, and subtracted
wherever that is possible.  The doubling happens in words of a fixed width, so that a large
divisor may lose its top bits on the way.

* `scale` and `reduce` are the two loops, `divide` is one after the other.
* `divide_exact`: quotient and remainder are right as long as the divisor has lost nothing.
* `divide_small` and `divide_fits` say when that is so: for a dividend that leaves the top bit of
  the word free, and for a quotient that is small enough.
* `divide_large`: a quotient that is too large is never mistaken for a small one.
-/

namespace Division

/-- Doubles the divisor, in words of `w` bits, while it is at most `a`; the second component
counts. -/
def scale (w a : ℕ) : ℕ → ℕ × ℕ → ℕ × ℕ
  | 0, z => z
  | k + 1, z => if z.1 ≤ a then scale w a k (2 * z.1 % 2 ^ w, z.2 + 1) else z

/-- Halves the divisor `n` times and subtracts it where it can; the second component is the
quotient. -/
def reduce : ℕ → ℕ → ℕ × ℕ → ℕ × ℕ
  | 0, _, z => z
  | n + 1, d, z =>
    if z.1 < d / 2 then reduce n (d / 2) (z.1, 2 * z.2)
    else reduce n (d / 2) (z.1 - d / 2, 2 * z.2 + 1)

/-- Remainder and quotient of `a` and `v`. -/
def divide (w a v : ℕ) : ℕ × ℕ :=
  let z := scale w a w (v, 0)
  reduce z.2 z.1 (a, 0)

/-! ## The second loop -/

theorem reduce_eq {d : ℕ} (hd : 0 < d) : ∀ (n a q : ℕ), a < d * 2 ^ n →
    reduce n (d * 2 ^ n) (a, q) = (a % d, q * 2 ^ n + a / d) := by
  intro n
  induction n with
  | zero =>
    intro a q ha
    rw [pow_zero, mul_one] at ha
    rw [reduce, Nat.mod_eq_of_lt ha, Nat.div_eq_of_lt ha, pow_zero, mul_one, add_zero]
  | succ n ih =>
    intro a q ha
    have hhalf : d * 2 ^ (n + 1) / 2 = d * 2 ^ n := by
      rw [pow_succ, ← mul_assoc, Nat.mul_div_cancel _ two_pos]
    have hdouble : d * 2 ^ (n + 1) = d * 2 ^ n + d * 2 ^ n := by ring
    rw [reduce, hhalf]
    split_ifs with h
    · rw [ih a (2 * q) h]
      ring_nf
    · have hback : a = (a - d * 2 ^ n) + d * 2 ^ n := (Nat.sub_add_cancel (not_lt.1 h)).symm
      have hmod : (a - d * 2 ^ n) % d = a % d := by
        conv_rhs => rw [hback, Nat.add_mul_mod_self_left]
      have hdiv : (a - d * 2 ^ n) / d + 2 ^ n = a / d := by
        conv_rhs => rw [hback, Nat.add_mul_div_left _ _ hd]
      rw [ih (a - d * 2 ^ n) (2 * q + 1) (by omega), hmod, ← hdiv]
      ring_nf

/-- A divisor of which nothing is left can always be subtracted. -/
theorem reduce_zero (n a q : ℕ) : (reduce n 0 (a, q)).2 + 1 = (q + 1) * 2 ^ n := by
  induction n generalizing q with
  | zero => rw [reduce, pow_zero, mul_one]
  | succ n ih =>
    rw [reduce, Nat.zero_div, if_neg (Nat.not_lt_zero a), Nat.sub_zero, ih]
    ring

/-! ## The first loop -/

/-- What the first loop leaves after `m` turns. -/
structure Scaled (w a k v m : ℕ) : Prop where
  le : m ≤ k
  /-- The divisor has been doubled only while it was at most the dividend. -/
  below : ∀ j < m, v * 2 ^ j % 2 ^ w ≤ a
  stop : m = k ∨ a < v * 2 ^ m % 2 ^ w

theorem scale_eq (w a : ℕ) : ∀ (k v n : ℕ), v < 2 ^ w →
    ∃ m, Scaled w a k v m ∧ scale w a k (v, n) = (v * 2 ^ m % 2 ^ w, n + m) := by
  intro k
  induction k with
  | zero =>
    intro v n hv
    refine ⟨0, ⟨le_rfl, fun j hj => absurd hj (Nat.not_lt_zero j), .inl rfl⟩, ?_⟩
    rw [scale, pow_zero, mul_one, Nat.mod_eq_of_lt hv, add_zero]
  | succ k ih =>
    intro v n hv
    by_cases hle : v ≤ a
    · obtain ⟨m, hm, heq⟩ := ih (2 * v % 2 ^ w) (n + 1) (Nat.mod_lt _ (Nat.two_pow_pos w))
      have hturn (j : ℕ) : 2 * v % 2 ^ w * 2 ^ j % 2 ^ w = v * 2 ^ (j + 1) % 2 ^ w := by
        rw [Nat.mod_mul_mod, pow_succ']
        ring_nf
      refine ⟨m + 1, ⟨Nat.succ_le_succ hm.le, ?_, ?_⟩, ?_⟩
      · intro j hj
        cases j with
        | zero => rwa [pow_zero, mul_one, Nat.mod_eq_of_lt hv]
        | succ j => exact hturn j ▸ hm.below j (Nat.lt_of_succ_lt_succ hj)
      · exact hm.stop.imp (congrArg Nat.succ) (fun h => hturn m ▸ h)
      · rw [scale, if_pos hle, heq, hturn, add_assoc, add_comm 1 m]
    · refine ⟨0, ⟨Nat.zero_le _, fun j hj => absurd hj (Nat.not_lt_zero j), .inr ?_⟩, ?_⟩
      · rw [pow_zero, mul_one, Nat.mod_eq_of_lt hv]
        exact not_le.1 hle
      · rw [scale, if_neg hle, pow_zero, mul_one, Nat.mod_eq_of_lt hv, add_zero]

/-! ## Both loops -/

section Divide

variable {w h a v m : ℕ}

/-- What is left of the divisor: its low bits. -/
theorem scaled_mod (v : ℕ) (hm : m ≤ w) : v * 2 ^ m % 2 ^ w = v % 2 ^ (w - m) * 2 ^ m := by
  have hsplit : 2 ^ w = 2 ^ (w - m) * 2 ^ m := by rw [← pow_add, Nat.sub_add_cancel hm]
  rw [hsplit, Nat.mul_mod_mul_right]

theorem divide_exact (hv : 0 < v) (hm : Scaled w a w v m) (hkept : v * 2 ^ m < 2 ^ w) :
    reduce m (v * 2 ^ m % 2 ^ w) (a, 0) = (a % v, a / v) := by
  have hlt : a < v * 2 ^ m := by
    rcases hm.stop with rfl | h
    · nlinarith [Nat.two_pow_pos m]
    · rwa [Nat.mod_eq_of_lt hkept] at h
  rw [Nat.mod_eq_of_lt hkept, reduce_eq hv m a 0 hlt, Nat.zero_mul, Nat.zero_add]

/-- A divisor that has lost bits has been doubled often: the quotient is large. -/
theorem large_of_lost (hvw : v < 2 ^ w) (hvh : v < 2 ^ h) (hhw : h ≤ w)
    (hm : Scaled w a w v m) (hlost : 2 ^ w ≤ v * 2 ^ m) :
    2 ^ w ≤ 2 * a ∧ 2 ^ (w - h) ≤ a / v ∧ w - h < m := by
  have hv : 0 < v := by
    by_contra hzero
    rw [Nat.eq_zero_of_not_pos hzero, zero_mul] at hlost
    exact absurd hlost (not_le.2 (Nat.two_pow_pos w))
  -- the turn in which the first bit is lost
  classical
  have hex : ∃ j, 2 ^ w ≤ v * 2 ^ j := ⟨m, hlost⟩
  obtain ⟨j, hj⟩ : ∃ j, Nat.find hex = j + 1 := by
    refine Nat.exists_eq_succ_of_ne_zero fun hzero => ?_
    have hfirst := Nat.find_spec hex
    rw [hzero, pow_zero, mul_one] at hfirst
    exact absurd hfirst (not_le.2 hvw)
  have hfirst : 2 ^ w ≤ v * 2 ^ (j + 1) := hj ▸ Nat.find_spec hex
  have hbefore : v * 2 ^ j < 2 ^ w := not_le.1 (Nat.find_min hex (by omega))
  have hjm : j + 1 ≤ m := hj ▸ Nat.find_le hlost
  have hbelow : v * 2 ^ j ≤ a := by
    have := hm.below j hjm
    rwa [Nat.mod_eq_of_lt hbefore] at this
  have hcount : w - h ≤ j := by
    by_contra hlt
    have hle : 2 ^ (j + 1) ≤ 2 ^ (w - h) := Nat.pow_le_pow_right two_pos (by omega)
    have hprod : v * 2 ^ (j + 1) < 2 ^ h * 2 ^ (w - h) :=
      Nat.mul_lt_mul_of_lt_of_le hvh hle (Nat.two_pow_pos _)
    rw [← pow_add, Nat.add_sub_cancel' hhw] at hprod
    exact absurd hfirst (not_le.2 hprod)
  refine ⟨?_, ?_, by omega⟩
  · calc 2 ^ w ≤ v * 2 ^ (j + 1) := hfirst
      _ = 2 * (v * 2 ^ j) := by ring
      _ ≤ 2 * a := Nat.mul_le_mul_left 2 hbelow
  · have hpow : 2 ^ (w - h) ≤ 2 ^ j := Nat.pow_le_pow_right two_pos hcount
    rw [Nat.le_div_iff_mul_le hv, mul_comm]
    exact (Nat.mul_le_mul_left v hpow).trans hbelow

/-- The quotient that is found with a divisor that has lost bits is large as well. -/
theorem reduce_large (hvw : v < 2 ^ w) (hvh : v < 2 ^ h) (hhw : h ≤ w)
    (hm : Scaled w a w v m) (hlost : 2 ^ w ≤ v * 2 ^ m) :
    2 ^ (w - h) ≤ (reduce m (v * 2 ^ m % 2 ^ w) (a, 0)).2 := by
  obtain ⟨-, hlarge, hcount⟩ := large_of_lost hvw hvh hhw hm hlost
  rw [scaled_mod v hm.le]
  rcases Nat.eq_zero_or_pos (v % 2 ^ (w - m)) with hzero | hpos
  · have hall := reduce_zero m a 0
    have hpow : 2 ^ (w - h + 1) ≤ 2 ^ m := Nat.pow_le_pow_right two_pos hcount
    have hone := Nat.two_pow_pos (w - h)
    rw [pow_succ] at hpow
    rw [hzero, zero_mul]
    omega
  · have hstop : a < v % 2 ^ (w - m) * 2 ^ m := by
      rcases hm.stop with rfl | h
      · rw [Nat.sub_self, pow_zero, Nat.mod_one] at hpos
        exact absurd hpos (lt_irrefl 0)
      · rwa [scaled_mod v hm.le] at h
    rw [reduce_eq hpos m a 0 hstop, Nat.zero_mul, Nat.zero_add]
    exact hlarge.trans (Nat.div_le_div_left (Nat.mod_le v _) hpos)

/-- The two loops, for a divisor that is not zero. -/
theorem divide_cases (hvw : v < 2 ^ w) : ∃ m, Scaled w a w v m ∧
    divide w a v = reduce m (v * 2 ^ m % 2 ^ w) (a, 0) := by
  obtain ⟨m, hm, heq⟩ := scale_eq w a w v 0 hvw
  refine ⟨m, hm, ?_⟩
  unfold divide
  rw [heq, Nat.zero_add]

theorem divide_small (hv : 0 < v) (hvw : v < 2 ^ w) (ha : 2 * a < 2 ^ w) :
    divide w a v = (a % v, a / v) := by
  obtain ⟨m, hm, heq⟩ := divide_cases (a := a) hvw
  rw [heq]
  refine divide_exact hv hm (not_le.1 fun hlost => ?_)
  obtain ⟨htwice, -⟩ := large_of_lost hvw hvw le_rfl hm hlost
  exact absurd ha (not_lt.2 htwice)

theorem divide_fits (hv : 0 < v) (hvh : v < 2 ^ h) (hhw : h ≤ w) (hq : a / v < 2 ^ (w - h)) :
    divide w a v = (a % v, a / v) := by
  have hvw := hvh.trans_le (Nat.pow_le_pow_right two_pos hhw)
  obtain ⟨m, hm, heq⟩ := divide_cases (a := a) hvw
  rw [heq]
  refine divide_exact hv hm (not_le.1 fun hlost => ?_)
  obtain ⟨-, hlarge, -⟩ := large_of_lost hvw hvh hhw hm hlost
  exact absurd hq (not_lt.2 hlarge)

theorem divide_large (hv : 0 < v) (hvh : v < 2 ^ h) (hhw : h ≤ w) (hq : 2 ^ (w - h) ≤ a / v) :
    2 ^ (w - h) ≤ (divide w a v).2 := by
  have hvw := hvh.trans_le (Nat.pow_le_pow_right two_pos hhw)
  obtain ⟨m, hm, heq⟩ := divide_cases (a := a) hvw
  rw [heq]
  rcases Nat.lt_or_ge (v * 2 ^ m) (2 ^ w) with hkept | hlost
  · rwa [divide_exact hv hm hkept]
  · exact reduce_large hvw hvh hhw hm hlost

end Divide

end Division
