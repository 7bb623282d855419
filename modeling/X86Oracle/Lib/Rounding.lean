import Mathlib

/-!
# Rounding to a binary format

Numbers with a significand of `prec` bits and a least exponent, after rounding to nearest with ties
to even, and the fields of an encoded number.

* `roundEven`: the nearest integer; `roundEven_congr`, it depends only on how a number compares with
  the half integers; `roundEven_shift`, from a guard bit and sticky bits.
* `roundOdd`: rounding to odd, and `roundEven_roundOdd`, why it is a good first step.
* `Format.rne`: the nearest number of a format, by `Format.rne_mem` and `Format.rne_nearest`;
  `Format.rtz`, the next one towards zero.
* `Encoding.value`: what a finite bit pattern stands for; `Encoding.fma`, a fused multiply-add
  before it is rounded.
-/

namespace Rounding

/-! ## Nearest integers -/

/-- The nearest integer, the even one of two. -/
def roundEven (x : ℚ) : ℤ :=
  if Int.fract x < 1 / 2 then ⌊x⌋
  else if 1 / 2 < Int.fract x then ⌊x⌋ + 1
  else if ⌊x⌋ % 2 = 0 then ⌊x⌋
  else ⌊x⌋ + 1

theorem roundEven_intCast (n : ℤ) : roundEven n = n := by
  unfold roundEven
  rw [Int.fract_intCast, if_pos (by norm_num), Int.floor_intCast]

theorem roundEven_zero : roundEven 0 = 0 := roundEven_intCast 0

theorem abs_sub_roundEven_le (x : ℚ) : |x - roundEven x| ≤ 1 / 2 := by
  have hfloor : (⌊x⌋ : ℚ) + Int.fract x = x := Int.floor_add_fract x
  have hnonneg := Int.fract_nonneg x
  have hlt := Int.fract_lt_one x
  unfold roundEven
  rw [abs_le]
  split_ifs with hbelow habove heven
  · constructor <;> linarith
  · push_cast
    constructor <;> linarith
  · constructor <;> linarith
  · push_cast
    constructor <;> linarith

theorem roundEven_nearest (x : ℚ) (n : ℤ) : |x - roundEven x| ≤ |x - n| := by
  by_cases heq : roundEven x = n
  · rw [heq]
  have hdist : (1 : ℚ) ≤ |((roundEven x - n : ℤ) : ℚ)| := by
    rw [← Int.cast_abs]
    exact_mod_cast Int.one_le_abs (sub_ne_zero.2 heq)
  have htriangle : |((roundEven x - n : ℤ) : ℚ)| ≤ |x - roundEven x| + |x - n| := by
    have hsum : ((roundEven x - n : ℤ) : ℚ) = (x - n) - (x - roundEven x) := by
      push_cast
      ring
    rw [hsum, add_comm]
    exact abs_sub _ _
  have hhalf := abs_sub_roundEven_le x
  linarith

/-- Rounding sees only how a number compares with the half integers. -/
theorem roundEven_congr {x y : ℚ} (hlt : ∀ n : ℤ, x < n / 2 ↔ y < n / 2)
    (hgt : ∀ n : ℤ, (n : ℚ) / 2 < x ↔ (n : ℚ) / 2 < y) : roundEven x = roundEven y := by
  have hint (n : ℤ) : ((2 * n : ℤ) : ℚ) / 2 = n := by
    push_cast
    ring
  have hfloor : ⌊x⌋ = ⌊y⌋ := by
    refine Int.floor_eq_iff.2 ⟨?_, ?_⟩
    · rw [← not_lt, ← hint, hlt, hint, not_lt]
      exact Int.floor_le y
    · have hsucc : (⌊y⌋ : ℚ) + 1 = ((⌊y⌋ + 1 : ℤ) : ℚ) := by push_cast; ring
      rw [hsucc, ← hint, hlt, hint, ← hsucc]
      exact Int.lt_floor_add_one y
  have hmid : (⌊y⌋ : ℚ) + 1 / 2 = ((2 * ⌊y⌋ + 1 : ℤ) : ℚ) / 2 := by
    push_cast
    ring
  have hbelow : Int.fract x < 1 / 2 ↔ Int.fract y < 1 / 2 := by
    unfold Int.fract
    rw [sub_lt_iff_lt_add', sub_lt_iff_lt_add', hfloor, hmid]
    exact hlt _
  have habove : 1 / 2 < Int.fract x ↔ 1 / 2 < Int.fract y := by
    unfold Int.fract
    rw [lt_sub_iff_add_lt', lt_sub_iff_add_lt', hfloor, hmid]
    exact hgt _
  unfold roundEven
  rw [hfloor]
  by_cases hb : Int.fract y < 1 / 2
  · rw [if_pos hb, if_pos (hbelow.2 hb)]
  rw [if_neg hb, if_neg (mt hbelow.1 hb)]
  by_cases ha : 1 / 2 < Int.fract y
  · rw [if_pos ha, if_pos (habove.2 ha)]
  · rw [if_neg ha, if_neg (mt habove.1 ha)]

/-- Rounding from the integer part and the rest. -/
theorem roundEven_add {n : ℤ} {d : ℚ} (h0 : 0 ≤ d) (h1 : d < 1) :
    roundEven (n + d) =
      if d < 1 / 2 then n else if 1 / 2 < d then n + 1 else if n % 2 = 0 then n else n + 1 := by
  have hfloor : ⌊(n : ℚ) + d⌋ = n := by
    rw [Int.floor_intCast_add, Int.floor_eq_zero_iff.2 ⟨h0, h1⟩, add_zero]
  have hfract : Int.fract ((n : ℚ) + d) = d := by
    rw [Int.fract, hfloor]
    ring
  unfold roundEven
  rw [hfloor, hfract]

theorem roundEven_neg (x : ℚ) : roundEven (-x) = -roundEven x := by
  obtain ⟨n, d, h0, h1, rfl⟩ : ∃ (n : ℤ) (d : ℚ), 0 ≤ d ∧ d < 1 ∧ x = n + d :=
    ⟨⌊x⌋, Int.fract x, Int.fract_nonneg x, Int.fract_lt_one x, (Int.floor_add_fract x).symm⟩
  rcases h0.eq_or_lt with hzero | hpos
  · rw [← hzero, add_zero, ← Int.cast_neg, roundEven_intCast, roundEven_intCast]
  have hneg : -((n : ℚ) + d) = ((-n - 1 : ℤ) : ℚ) + (1 - d) := by
    push_cast
    ring
  rw [hneg, roundEven_add (by linarith) (by linarith), roundEven_add h0 h1]
  by_cases hbelow : d < 1 / 2
  · rw [if_neg (by linarith), if_pos (by linarith), if_pos hbelow]
    ring
  by_cases habove : 1 / 2 < d
  · rw [if_pos (by linarith), if_neg hbelow, if_pos habove]
    ring
  · rw [if_neg (by linarith), if_neg (by linarith), if_neg hbelow, if_neg habove]
    by_cases heven : n % 2 = 0
    · rw [if_neg (by omega), if_pos heven]
      ring
    · rw [if_pos (by omega), if_neg heven]
      ring

/-- Rounding a shifted natural number: the quotient goes up if the guard bit is set and a lower bit
or the quotient's last bit is. -/
theorem roundEven_shift (m s : ℕ) :
    roundEven ((m : ℚ) / 2 ^ (s + 1)) =
      (m / 2 ^ (s + 1) + if m / 2 ^ s % 2 = 1 ∧ (m % 2 ^ s ≠ 0 ∨ m / 2 ^ (s + 1) % 2 = 1) then 1
        else 0 : ℕ) := by
  obtain ⟨q, hq⟩ : ∃ q, q = m / 2 ^ (s + 1) := ⟨_, rfl⟩
  obtain ⟨g, hg⟩ : ∃ g, g = m / 2 ^ s % 2 := ⟨_, rfl⟩
  obtain ⟨r, hr⟩ : ∃ r, r = m % 2 ^ s := ⟨_, rfl⟩
  have hlow : r < 2 ^ s := by
    rw [hr]
    exact Nat.mod_lt _ (Nat.two_pow_pos s)
  have hbit : g < 2 := by
    rw [hg]
    exact Nat.mod_lt _ (by norm_num)
  -- the number by its quotient, guard bit and lower bits
  have hsplit : m = 2 ^ s * (2 * q + g) + r := by
    have hhigh : m / 2 ^ s = 2 * q + g := by
      rw [hq, hg, pow_succ, ← Nat.div_div_eq_div_mul]
      exact (Nat.div_add_mod _ 2).symm
    rw [← hhigh, hr]
    exact (Nat.div_add_mod m (2 ^ s)).symm
  have hpow : (0 : ℚ) < 2 ^ s := by positivity
  have hlowq : (r : ℚ) < 2 ^ s := by exact_mod_cast hlow
  have hvalue : (m : ℚ) / 2 ^ (s + 1) = ((q : ℤ) : ℚ) + (g * 2 ^ s + r) / 2 ^ (s + 1) := by
    rw [hsplit]
    push_cast
    field_simp
    ring
  have hdouble : (2 : ℚ) ^ (s + 1) = 2 * 2 ^ s := by ring
  have hnonneg : (0 : ℚ) ≤ (g * 2 ^ s + r) / 2 ^ (s + 1) := by positivity
  rw [← hq, ← hg, ← hr, hvalue]
  interval_cases g
  · have hsmall : (((0 : ℕ) : ℚ) * 2 ^ s + r) / 2 ^ (s + 1) < 1 / 2 := by
      rw [hdouble, div_lt_iff₀ (by positivity)]
      push_cast
      linarith
    rw [roundEven_add hnonneg (by linarith), if_pos hsmall,
      if_neg fun h => absurd h.1 (by norm_num)]
    push_cast
    ring
  · have hlarge : 1 / 2 ≤ (((1 : ℕ) : ℚ) * 2 ^ s + r) / 2 ^ (s + 1) := by
      rw [hdouble, le_div_iff₀ (by positivity)]
      push_cast
      have hrq : (0 : ℚ) ≤ r := by positivity
      linarith
    have hone : (((1 : ℕ) : ℚ) * 2 ^ s + r) / 2 ^ (s + 1) < 1 := by
      rw [hdouble, div_lt_one (by positivity)]
      push_cast
      linarith
    rw [roundEven_add hnonneg hone, if_neg (not_lt.2 hlarge)]
    by_cases hzero : r = 0
    · have hmid : ¬ (1 : ℚ) / 2 < (((1 : ℕ) : ℚ) * 2 ^ s + r) / 2 ^ (s + 1) := by
        rw [hzero, hdouble, lt_div_iff₀ (by positivity)]
        push_cast
        linarith
      rw [if_neg hmid]
      by_cases heven : q % 2 = 0
      · rw [if_pos (by omega), if_neg (by omega)]
        rfl
      · rw [if_neg (by omega), if_pos (by omega)]
        push_cast
        ring
    · have hmid : (1 : ℚ) / 2 < (((1 : ℕ) : ℚ) * 2 ^ s + r) / 2 ^ (s + 1) := by
        have hrq : (0 : ℚ) < r := by exact_mod_cast Nat.pos_of_ne_zero hzero
        rw [hdouble, lt_div_iff₀ (by positivity)]
        push_cast
        linarith
      rw [if_pos hmid, if_pos ⟨rfl, .inl hzero⟩]
      push_cast
      ring

/-! ## Rounding to odd -/

/-- The integer part, made odd if there is a rest. -/
def roundOdd (x : ℚ) : ℤ := if x = ⌊x⌋ ∨ ⌊x⌋ % 2 = 1 then ⌊x⌋ else ⌊x⌋ + 1

theorem roundOdd_lt_iff (x : ℚ) (n : ℤ) : (roundOdd x : ℚ) < (2 * n : ℤ) ↔ x < (2 * n : ℤ) := by
  rw [Int.cast_lt, ← Int.floor_lt]
  unfold roundOdd
  split_ifs with h
  · exact Iff.rfl
  · omega

theorem lt_roundOdd_iff (x : ℚ) (n : ℤ) : ((2 * n : ℤ) : ℚ) < roundOdd x ↔ (2 * n : ℤ) < x := by
  unfold roundOdd
  by_cases hint : x = ⌊x⌋
  · rw [if_pos (.inl hint), ← hint]
  have hbelow : ((2 * n : ℤ) : ℚ) < x ↔ 2 * n ≤ ⌊x⌋ := by
    rw [Int.le_floor]
    refine ⟨le_of_lt, fun hle => hle.lt_of_ne fun heq => hint ?_⟩
    rw [← heq, Int.floor_intCast]
  rw [hbelow, Int.cast_lt]
  by_cases hodd : ⌊x⌋ % 2 = 1
  · rw [if_pos (.inr hodd)]
    omega
  · rw [if_neg (not_or.2 ⟨hint, hodd⟩)]
    omega

/-- Rounding to odd first, at least two places lower, does not change the result. -/
theorem roundEven_roundOdd (x : ℚ) (s : ℕ) :
    roundEven (roundOdd x / 2 ^ (s + 2)) = roundEven (x / 2 ^ (s + 2)) := by
  have hscale (n : ℤ) : (n : ℚ) / 2 * 2 ^ (s + 2) = (2 * (n * 2 ^ s) : ℤ) := by
    push_cast
    ring
  have hpos : (0 : ℚ) < 2 ^ (s + 2) := by positivity
  refine roundEven_congr (fun n => ?_) fun n => ?_
  · rw [div_lt_iff₀ hpos, div_lt_iff₀ hpos, hscale]
    exact roundOdd_lt_iff x _
  · rw [lt_div_iff₀ hpos, lt_div_iff₀ hpos, hscale]
    exact lt_roundOdd_iff x _

/-! ## Formats -/

/-- The numbers with a significand of `prec` bits and an exponent of at least `emin`. -/
structure Format where
  prec : ℕ
  emin : ℤ
  prec_pos : 0 < prec

namespace Format

variable (f : Format) {x : ℚ}

def Mem (y : ℚ) : Prop := ∃ m e : ℤ, |m| < 2 ^ f.prec ∧ f.emin ≤ e ∧ y = m * (2 : ℚ) ^ e

/-- The exponent of the last place of a number. -/
def exponent (x : ℚ) : ℤ := max (Int.log 2 |x| - (f.prec - 1)) f.emin

/-- Rounding to nearest, ties to even, without a greatest number. -/
def rne (x : ℚ) : ℚ := roundEven (x / 2 ^ f.exponent x) * 2 ^ f.exponent x

theorem rne_zero : f.rne 0 = 0 := by
  unfold rne
  rw [zero_div, roundEven_zero, Int.cast_zero, zero_mul]

theorem rne_neg (x : ℚ) : f.rne (-x) = -f.rne x := by
  have hexp : f.exponent (-x) = f.exponent x := by
    unfold exponent
    rw [abs_neg]
  unfold rne
  rw [hexp, neg_div, roundEven_neg, Int.cast_neg, neg_mul]

/-- The exponent from the binade. -/
theorem exponent_eq {k : ℤ} (hk : (2 : ℚ) ^ k ≤ |x|) (hk' : |x| < 2 ^ (k + 1))
    (hmin : f.emin ≤ k - (f.prec - 1)) : f.exponent x = k - (f.prec - 1) := by
  have hpos : 0 < |x| := lt_of_lt_of_le (by positivity) hk
  have hle : k ≤ Int.log 2 |x| := (Int.zpow_le_iff_le_log one_lt_two hpos).1 hk
  have hlt : Int.log 2 |x| < k + 1 := (Int.lt_zpow_iff_log_lt one_lt_two hpos).1 hk'
  unfold exponent
  omega

/-- Rounding a scaled natural number, by the position of its highest bit. -/
theorem rne_mul_zpow {m : ℕ} (hm : m ≠ 0) {k : ℤ}
    (hmin : f.emin ≤ Nat.log 2 m + k - (f.prec - 1)) :
    f.rne (m * 2 ^ k) = roundEven (m / 2 ^ ((Nat.log 2 m : ℤ) - (f.prec - 1))) *
      2 ^ (Nat.log 2 m + k - (f.prec - 1)) := by
  have hlow : ((2 ^ Nat.log 2 m : ℕ) : ℚ) ≤ m := Nat.cast_le.2 (Nat.pow_log_le_self 2 hm)
  have hhigh : (m : ℚ) < ((2 ^ (Nat.log 2 m + 1) : ℕ) : ℚ) :=
    Nat.cast_lt.2 (Nat.lt_pow_succ_log_self one_lt_two m)
  push_cast at hlow hhigh
  have hpow : (0 : ℚ) < 2 ^ k := by positivity
  have habs : |(m : ℚ) * 2 ^ k| = m * 2 ^ k := abs_of_nonneg (by positivity)
  have hexp : f.exponent (m * 2 ^ k) = Nat.log 2 m + k - (f.prec - 1) := by
    refine f.exponent_eq ?_ ?_ hmin
    · rw [habs, zpow_add₀ two_ne_zero, zpow_natCast]
      exact mul_le_mul_of_nonneg_right hlow hpow.le
    · rw [habs, add_right_comm, zpow_add₀ two_ne_zero, ← Nat.cast_succ, zpow_natCast]
      exact mul_lt_mul_of_pos_right hhigh hpow
  have hscaled : (m : ℚ) * 2 ^ k / 2 ^ (Nat.log 2 m + k - (f.prec - 1) : ℤ) =
      m / 2 ^ ((Nat.log 2 m : ℤ) - (f.prec - 1)) := by
    have hsplit : (Nat.log 2 m + k - (f.prec - 1) : ℤ) =
        ((Nat.log 2 m : ℤ) - (f.prec - 1)) + k := by ring
    rw [hsplit, zpow_add₀ two_ne_zero, mul_div_mul_right _ _ hpow.ne']
  unfold rne
  rw [hexp, hscaled]

theorem abs_lt_two_zpow (x : ℚ) : |x| < 2 ^ (f.exponent x + f.prec) := by
  have hlog : |x| < (2 : ℚ) ^ (Int.log 2 |x| + 1) := Int.lt_zpow_succ_log_self one_lt_two _
  refine hlog.trans_le (zpow_le_zpow_right₀ one_le_two ?_)
  unfold exponent
  omega

/-- Rounding gives a number of the format. -/
theorem rne_mem (x : ℚ) : f.Mem (f.rne x) := by
  obtain ⟨e, he⟩ : ∃ e, e = f.exponent x := ⟨_, rfl⟩
  obtain ⟨m, hm⟩ : ∃ m, m = roundEven (x / 2 ^ e) := ⟨_, rfl⟩
  have hpow : (0 : ℚ) < 2 ^ e := by positivity
  have hmin : f.emin ≤ e := by
    rw [he]
    exact le_max_right _ _
  have hscaled : |x / 2 ^ e| < 2 ^ f.prec := by
    rw [abs_div, abs_of_pos hpow, div_lt_iff₀ hpow, ← zpow_natCast, ← zpow_add₀ two_ne_zero,
      add_comm, he]
    exact f.abs_lt_two_zpow x
  have hbound : |m| ≤ 2 ^ f.prec := by
    have hclose := abs_sub_roundEven_le (x / 2 ^ e)
    rw [← hm] at hclose
    have htriangle : |(m : ℚ)| ≤ |x / 2 ^ e| + |x / 2 ^ e - m| := by
      have hsum : (m : ℚ) = x / 2 ^ e - (x / 2 ^ e - m) := by ring
      nth_rewrite 1 [hsum]
      exact abs_sub _ _
    have hlt : ((|m| : ℤ) : ℚ) < ((2 ^ f.prec + 1 : ℤ) : ℚ) := by
      push_cast
      linarith
    have hint : |m| < 2 ^ f.prec + 1 := by exact_mod_cast hlt
    omega
  have hrne : f.rne x = m * 2 ^ e := by
    unfold rne
    rw [← he, ← hm]
  rw [hrne]
  rcases hbound.lt_or_eq with hlt | heq
  · exact ⟨m, e, hlt, hmin, rfl⟩
  -- the next binade
  · have hprec : (2 : ℤ) ^ f.prec = 2 ^ (f.prec - 1) * 2 := by
      rw [← pow_succ, Nat.sub_add_cancel f.prec_pos]
    obtain ⟨h, hh, hm'⟩ : ∃ h : ℤ, |h| = 2 ^ (f.prec - 1) ∧ m = h * 2 := by
      rcases abs_choice m with hpos | hneg
      · refine ⟨2 ^ (f.prec - 1), abs_of_pos (by positivity), ?_⟩
        rw [← hprec, ← heq, hpos]
      · refine ⟨-2 ^ (f.prec - 1), ?_, ?_⟩
        · rw [abs_neg]
          exact abs_of_pos (by positivity)
        · rw [neg_mul, ← hprec, ← heq, hneg, neg_neg]
    refine ⟨h, e + 1, ?_, by omega, ?_⟩
    · rw [hh]
      exact pow_lt_pow_right₀ one_lt_two (Nat.sub_lt f.prec_pos one_pos)
    · rw [hm', zpow_add_one₀ two_ne_zero]
      push_cast
      ring

/-- No number of the format is nearer. -/
theorem rne_nearest (x : ℚ) {y : ℚ} (hy : f.Mem y) : |x - f.rne x| ≤ |x - y| := by
  obtain ⟨e, he⟩ : ∃ e, e = f.exponent x := ⟨_, rfl⟩
  have hpow : (0 : ℚ) < 2 ^ e := by positivity
  -- among the multiples of the last place
  have hgrid (n : ℤ) : |x - f.rne x| ≤ |x - n * 2 ^ e| := by
    have hscale (r : ℚ) : |x - r * 2 ^ e| = |x / 2 ^ e - r| * 2 ^ e := by
      rw [← abs_of_pos hpow, ← abs_mul, abs_of_pos hpow, sub_mul, div_mul_cancel₀ _ hpow.ne']
    unfold rne
    rw [← he, hscale, hscale]
    exact mul_le_mul_of_nonneg_right (roundEven_nearest _ _) hpow.le
  obtain ⟨m, e', hm, he', rfl⟩ := hy
  rcases le_or_gt e e' with hle | hlt
  · obtain ⟨d, rfl⟩ : ∃ d : ℕ, e' = e + d := ⟨(e' - e).toNat, by omega⟩
    have hmul : (m : ℚ) * 2 ^ (e + d) = ((m * 2 ^ d : ℤ) : ℚ) * 2 ^ e := by
      rw [zpow_add₀ two_ne_zero, zpow_natCast]
      push_cast
      ring
    rw [hmul]
    exact hgrid _
  -- a finer number is below the binade, whose least number is a multiple
  · by_cases hx : x = 0
    · rw [hx, f.rne_zero, sub_zero, abs_zero]
      exact abs_nonneg _
    have hpos : 0 < |x| := abs_pos.2 hx
    have hexp : e = Int.log 2 |x| - (f.prec - 1) := by
      rw [he] at hlt ⊢
      exact max_eq_left (le_of_not_ge fun h => by
        have hmin : f.exponent x = f.emin := max_eq_right h
        omega)
    have hbinade : (2 : ℚ) ^ (f.prec - 1) * 2 ^ e = 2 ^ Int.log 2 |x| := by
      rw [← zpow_natCast, ← zpow_add₀ two_ne_zero, hexp, Nat.cast_sub f.prec_pos]
      congr 1
      push_cast
      ring
    have hbelow : |(m : ℚ) * 2 ^ e'| ≤ 2 ^ Int.log 2 |x| := by
      have hsig : |(m : ℚ)| ≤ 2 ^ f.prec := by
        rw [← Int.cast_abs]
        exact_mod_cast hm.le
      have hpow' : (0 : ℚ) < 2 ^ e' := by positivity
      calc |(m : ℚ) * 2 ^ e'| = |(m : ℚ)| * 2 ^ e' := by rw [abs_mul, abs_of_pos hpow']
        _ ≤ 2 ^ f.prec * 2 ^ e' := mul_le_mul_of_nonneg_right hsig hpow'.le
        _ = 2 ^ ((f.prec : ℤ) + e') := by rw [← zpow_natCast, ← zpow_add₀ two_ne_zero]
        _ ≤ 2 ^ Int.log 2 |x| := zpow_le_zpow_right₀ one_le_two (by omega)
    have hleast : (2 : ℚ) ^ Int.log 2 |x| ≤ |x| := Int.zpow_log_le_self one_lt_two hpos
    obtain ⟨n, hn⟩ : ∃ n : ℤ, |x - n * 2 ^ e| = |x| - 2 ^ Int.log 2 |x| := by
      rcases abs_choice x with hnonneg | hneg
      · refine ⟨2 ^ (f.prec - 1), ?_⟩
        rw [Int.cast_pow, Int.cast_ofNat, hbinade, ← hnonneg, abs_abs]
        exact abs_of_nonneg (by linarith)
      · refine ⟨-2 ^ (f.prec - 1), ?_⟩
        rw [Int.cast_neg, Int.cast_pow, Int.cast_ofNat, neg_mul, hbinade, sub_neg_eq_add, ← abs_neg,
          neg_add, ← hneg, ← sub_eq_add_neg]
        exact abs_of_nonneg (by linarith)
    calc |x - f.rne x| ≤ |x - n * 2 ^ e| := hgrid n
      _ = |x| - 2 ^ Int.log 2 |x| := hn
      _ ≤ |x| - |(m : ℚ) * 2 ^ e'| := by linarith
      _ ≤ |x - m * 2 ^ e'| := abs_sub_abs_le_abs_sub _ _

/-- Rounding does not cross a number of the format. -/
theorem rne_ge {y : ℚ} (hy : f.Mem y) (hle : y ≤ x) : y ≤ f.rne x := by
  by_contra hlt
  rw [not_le] at hlt
  have hnear := f.rne_nearest x hy
  rw [abs_of_nonneg (by linarith), abs_of_nonneg (by linarith)] at hnear
  linarith

theorem rne_le {y : ℚ} (hy : f.Mem y) (hle : x ≤ y) : f.rne x ≤ y := by
  by_contra hlt
  rw [not_le] at hlt
  have hnear := f.rne_nearest x hy
  rw [abs_of_nonpos (by linarith), abs_of_nonpos (by linarith)] at hnear
  linarith

/-- Rounding keeps a number of the format. -/
theorem rne_of_mem (hx : f.Mem x) : f.rne x = x := by
  have hdist := f.rne_nearest x hx
  rw [sub_self, abs_zero] at hdist
  exact (sub_eq_zero.1 (abs_nonpos_iff.1 hdist)).symm

theorem abs_rne (x : ℚ) : |f.rne x| = f.rne |x| := by
  have hzero : f.Mem 0 := ⟨0, f.emin, by positivity, le_rfl, by rw [Int.cast_zero, zero_mul]⟩
  rcases le_total 0 x with hx | hx
  · rw [abs_of_nonneg hx, abs_of_nonneg (f.rne_ge hzero hx)]
  · rw [abs_of_nonpos hx, f.rne_neg, abs_of_nonpos (f.rne_le hzero hx)]

theorem rne_eq_sign_mul (x : ℚ) : f.rne x = (if x < 0 then -1 else 1) * |f.rne x| := by
  rw [abs_rne]
  split_ifs with hx
  · rw [abs_of_neg hx, rne_neg, neg_one_mul, neg_neg]
  · rw [abs_of_nonneg (not_lt.1 hx), one_mul]

theorem mem_zpow {e : ℤ} (he : f.emin ≤ e) : f.Mem (2 ^ e) := by
  refine ⟨1, e, ?_, he, by rw [Int.cast_one, one_mul]⟩
  rw [abs_one]
  exact one_lt_pow₀ one_lt_two f.prec_pos.ne'

/-- The next number of the format towards zero. -/
def rtz (x : ℚ) : ℚ :=
  (if x < 0 then -1 else 1) * ⌊|x| / 2 ^ f.exponent x⌋ * 2 ^ f.exponent x

theorem abs_rtz (x : ℚ) : |f.rtz x| = ⌊|x| / 2 ^ f.exponent x⌋ * 2 ^ f.exponent x := by
  have hfloor : (0 : ℚ) ≤ ⌊|x| / 2 ^ f.exponent x⌋ := by
    exact_mod_cast Int.floor_nonneg.2 (by positivity)
  have hsign : |(if x < 0 then -1 else 1 : ℚ)| = 1 := by
    split_ifs
    · rw [abs_neg, abs_one]
    · exact abs_one
  have hpow : (0 : ℚ) < 2 ^ f.exponent x := by positivity
  unfold rtz
  rw [abs_mul, abs_mul, hsign, one_mul, abs_of_nonneg hfloor, abs_of_pos hpow]

theorem abs_rtz_le (x : ℚ) : |f.rtz x| ≤ |x| := by
  rw [f.abs_rtz, ← le_div_iff₀ (by positivity)]
  exact Int.floor_le _

theorem rtz_eq_iff : f.rtz x = x ↔ |x| / 2 ^ f.exponent x = ⌊|x| / 2 ^ f.exponent x⌋ := by
  have hpow : (0 : ℚ) < 2 ^ f.exponent x := by positivity
  rw [div_eq_iff hpow.ne']
  constructor
  · intro h
    rw [← f.abs_rtz, h]
  · intro h
    unfold rtz
    rw [mul_assoc, ← h]
    split_ifs with hneg
    · rw [abs_of_neg hneg, neg_one_mul, neg_neg]
    · rw [abs_of_nonneg (not_lt.1 hneg), one_mul]

theorem rtz_mem (x : ℚ) : f.Mem (f.rtz x) := by
  have hpow : (0 : ℚ) < 2 ^ f.exponent x := by positivity
  refine ⟨(if x < 0 then -1 else 1) * ⌊|x| / 2 ^ f.exponent x⌋, f.exponent x, ?_,
    le_max_right _ _, ?_⟩
  · have hnonneg : 0 ≤ ⌊|x| / 2 ^ f.exponent x⌋ := Int.floor_nonneg.2 (by positivity)
    have hlt : ⌊|x| / 2 ^ f.exponent x⌋ < 2 ^ f.prec := by
      rw [Int.floor_lt, div_lt_iff₀ hpow]
      push_cast
      rw [← zpow_natCast, ← zpow_add₀ two_ne_zero, add_comm]
      exact f.abs_lt_two_zpow x
    split_ifs
    · rwa [neg_one_mul, abs_neg, abs_of_nonneg hnonneg]
    · rwa [one_mul, abs_of_nonneg hnonneg]
  · unfold rtz
    push_cast
    rfl

/-- The significand of a normal number, towards zero. -/
theorem floor_bounds {k : ℤ} (hk : (2 : ℚ) ^ k ≤ |x|) (hk' : |x| < 2 ^ (k + 1)) (p : ℕ) :
    2 ^ p ≤ ⌊|x| / 2 ^ (k - p)⌋ ∧ ⌊|x| / 2 ^ (k - p)⌋ < 2 ^ (p + 1) := by
  have hpow : (0 : ℚ) < 2 ^ (k - p) := by positivity
  have hscale (n : ℕ) : ((2 : ℤ) ^ n : ℤ) * (2 : ℚ) ^ (k - p) = 2 ^ (n + k - p) := by
    push_cast
    rw [← zpow_natCast, ← zpow_add₀ two_ne_zero]
    congr 1
    ring
  rw [Int.le_floor, Int.floor_lt, le_div_iff₀ hpow, div_lt_iff₀ hpow, hscale, hscale]
  push_cast
  refine ⟨le_of_eq_of_le ?_ hk, lt_of_lt_of_eq hk' ?_⟩
  · congr 1
    ring
  · congr 1
    ring

end Format

/-! ## Encodings -/

/-- The widths of the exponent and fraction fields, below a sign bit, and the bias. -/
structure Encoding where
  expBits : ℕ
  fracBits : ℕ
  bias : ℤ

namespace Encoding

variable (c : Encoding) (b : ℕ)

def frac : ℕ := b % 2 ^ c.fracBits

def exp : ℕ := b / 2 ^ c.fracBits % 2 ^ c.expBits

def Neg : Prop := b / 2 ^ (c.fracBits + c.expBits) % 2 = 1

instance : Decidable (c.Neg b) := inferInstanceAs (Decidable (_ = _))

/-- The value of a finite pattern; subnormal numbers have the least exponent and no hidden bit. -/
def value : ℚ :=
  (if c.Neg b then -1 else 1) * (if c.exp b = 0 then c.frac b else 2 ^ c.fracBits + c.frac b : ℕ) *
    2 ^ ((max (c.exp b) 1 : ℕ) - c.bias - c.fracBits)

/-- The size of a finite value in units of the last place of the subnormal numbers. -/
def mag : ℕ := if c.exp b = 0 then c.frac b else (2 ^ c.fracBits + c.frac b) * 2 ^ (c.exp b - 1)

/-- A finite value in these units. -/
def units : ℤ := if c.Neg b then -c.mag b else c.mag b

theorem value_eq_units : c.value b = c.units b * 2 ^ (1 - c.bias - c.fracBits) := by
  have hmag : ((if c.exp b = 0 then c.frac b else 2 ^ c.fracBits + c.frac b : ℕ) : ℚ) *
      2 ^ ((max (c.exp b) 1 : ℕ) - c.bias - c.fracBits) =
        c.mag b * 2 ^ (1 - c.bias - c.fracBits) := by
    unfold mag
    by_cases hexp : c.exp b = 0
    · rw [if_pos hexp, if_pos hexp, hexp, max_eq_right zero_le_one, Nat.cast_one]
    · obtain ⟨e, he⟩ := Nat.exists_eq_succ_of_ne_zero hexp
      have hmax : max (c.exp b) 1 = e + 1 := by omega
      have hsum : ((e + 1 : ℕ) : ℤ) - c.bias - c.fracBits = e + (1 - c.bias - c.fracBits) := by
        push_cast
        ring
      rw [if_neg hexp, if_neg hexp, hmax, hsum, zpow_add₀ two_ne_zero, zpow_natCast, he,
        Nat.succ_sub_one]
      push_cast
      ring
  unfold value units
  rw [mul_assoc, hmag]
  by_cases hneg : c.Neg b
  · rw [if_pos hneg, if_pos hneg]
    push_cast
    ring
  · rw [if_neg hneg, if_neg hneg, one_mul, Int.cast_natCast]

variable {c b}

/-- The fields of a pattern put together. -/
theorem fields {n e m : ℕ} (hn : n < 2) (he : e < 2 ^ c.expBits) (hm : m < 2 ^ c.fracBits)
    (hb : b = 2 ^ (c.fracBits + c.expBits) * n + 2 ^ c.fracBits * e + m) :
    c.exp b = e ∧ c.frac b = m ∧ (c.Neg b ↔ n = 1) := by
  have hpos := Nat.two_pow_pos c.fracBits
  have hquot : b / 2 ^ c.fracBits = 2 ^ c.expBits * n + e := by
    rw [hb, pow_add, mul_assoc, ← mul_add, Nat.mul_add_div hpos, Nat.div_eq_of_lt hm, add_zero]
  refine ⟨?_, ?_, ?_⟩
  · unfold exp
    rw [hquot, Nat.mul_add_mod, Nat.mod_eq_of_lt he]
  · unfold frac
    rw [hb, pow_add, mul_assoc, ← mul_add, Nat.mul_add_mod, Nat.mod_eq_of_lt hm]
  · unfold Neg
    rw [pow_add, ← Nat.div_div_eq_div_mul, hquot, Nat.mul_add_div (Nat.two_pow_pos _),
      Nat.div_eq_of_lt he, add_zero, Nat.mod_eq_of_lt hn]

/-- The value of a normal number, from its fields. -/
theorem value_fields {n e m : ℕ} (hn : n < 2) (he0 : e ≠ 0) (he : e < 2 ^ c.expBits)
    (hm : m < 2 ^ c.fracBits)
    (hb : b = 2 ^ (c.fracBits + c.expBits) * n + 2 ^ c.fracBits * e + m) :
    c.value b = (if n = 1 then -1 else 1) * (2 ^ c.fracBits + m : ℕ) *
      2 ^ ((e : ℤ) - c.bias - c.fracBits) := by
  obtain ⟨hexp, hfrac, hneg⟩ := fields hn he hm hb
  have hmax : max e 1 = e := by omega
  unfold value
  rw [hexp, hfrac, if_neg he0, hmax]
  by_cases h : n = 1
  · rw [if_pos h, if_pos (hneg.2 h)]
  · rw [if_neg h, if_neg (mt hneg.1 h)]

section Size

variable (c b)

/-- The size of a finite value. -/
theorem abs_value : |c.value b| =
    (if c.exp b = 0 then c.frac b else 2 ^ c.fracBits + c.frac b : ℕ) *
      2 ^ ((max (c.exp b) 1 : ℕ) - c.bias - c.fracBits) := by
  have hsign : |(if c.Neg b then -1 else 1 : ℚ)| = 1 := by
    split_ifs
    · rw [abs_neg, abs_one]
    · exact abs_one
  unfold value
  rw [abs_mul, abs_mul, hsign, one_mul, Nat.abs_cast, abs_of_pos (by positivity)]

theorem value_neg_iff (h : c.value b ≠ 0) : c.value b < 0 ↔ c.Neg b := by
  have hpow : (0 : ℚ) < 2 ^ ((max (c.exp b) 1 : ℕ) - c.bias - c.fracBits) := by positivity
  have hsig := Nat.cast_nonneg (α := ℚ)
    (if c.exp b = 0 then c.frac b else 2 ^ c.fracBits + c.frac b)
  have hnonneg := mul_nonneg hsig hpow.le
  unfold value at h ⊢
  by_cases hneg : c.Neg b
  · rw [if_pos hneg, mul_assoc, neg_one_mul] at h ⊢
    exact iff_of_true (neg_lt_zero.2 (hnonneg.lt_of_ne' (neg_ne_zero.1 h))) hneg
  · rw [if_neg hneg, mul_assoc, one_mul]
    exact iff_of_false hnonneg.not_gt hneg

/-- The logarithm of a number with a significand of `n` bits. -/
theorem log_significand {n S : ℕ} (hS : 2 ^ n ≤ S) (hS' : S < 2 ^ (n + 1)) (i : ℤ) :
    Int.log 2 ((S : ℚ) * 2 ^ i) = n + i := by
  have hpow : (0 : ℚ) < 2 ^ i := by positivity
  have hpos : (0 : ℚ) < S * 2 ^ i :=
    mul_pos (by exact_mod_cast (Nat.two_pow_pos n).trans_le hS) hpow
  have hlow : (2 : ℚ) ^ (n + i : ℤ) ≤ S * 2 ^ i := by
    rw [zpow_add₀ two_ne_zero, zpow_natCast]
    exact mul_le_mul_of_nonneg_right (by exact_mod_cast hS) hpow.le
  have hhigh : S * (2 : ℚ) ^ i < 2 ^ (n + i + 1 : ℤ) := by
    have hsplit : (n + i + 1 : ℤ) = (n + 1 : ℕ) + i := by
      push_cast
      ring
    rw [hsplit, zpow_add₀ two_ne_zero, zpow_natCast]
    exact mul_lt_mul_of_pos_right (by exact_mod_cast hS') hpow
  have hle := (Int.zpow_le_iff_le_log one_lt_two hpos).1 hlow
  have hlt := (Int.lt_zpow_iff_log_lt one_lt_two hpos).1 hhigh
  exact le_antisymm (Int.lt_add_one_iff.1 hlt) hle

/-- A normal size determines the exponent and fraction fields. -/
theorem fields_of_abs_value {M : ℕ} {k : ℤ} (hM : 2 ^ c.fracBits ≤ M)
    (hM' : M < 2 ^ (c.fracBits + 1)) (hk : 1 - c.bias ≤ k)
    (h : |c.value b| = M * 2 ^ (k - c.fracBits)) :
    (c.exp b : ℤ) = k + c.bias ∧ 2 ^ c.fracBits + c.frac b = M := by
  have hfrac : c.frac b < 2 ^ c.fracBits := Nat.mod_lt _ (Nat.two_pow_pos _)
  rw [c.abs_value] at h
  by_cases hexp : c.exp b = 0
  · -- a subnormal number is too small
    rw [if_pos hexp, hexp] at h
    have hbound : (c.frac b : ℚ) * 2 ^ ((max 0 1 : ℕ) - c.bias - c.fracBits) <
        M * 2 ^ (k - c.fracBits) := by
      have hmono : (2 : ℚ) ^ ((max 0 1 : ℕ) - c.bias - c.fracBits) ≤ 2 ^ (k - c.fracBits) :=
        zpow_le_zpow_right₀ one_le_two (by push_cast; omega)
      have hlt : (c.frac b : ℚ) < M := by exact_mod_cast hfrac.trans_le hM
      exact mul_lt_mul hlt hmono (by positivity) (Nat.cast_nonneg _)
    exact absurd h hbound.ne
  · rw [if_neg hexp] at h
    have hmax : max (c.exp b) 1 = c.exp b := max_eq_left (Nat.one_le_iff_ne_zero.2 hexp)
    rw [hmax] at h
    have hsig : 2 ^ c.fracBits ≤ 2 ^ c.fracBits + c.frac b := Nat.le_add_right _ _
    have hsig' : 2 ^ c.fracBits + c.frac b < 2 ^ (c.fracBits + 1) := by
      rw [pow_succ]
      omega
    have hlog := congrArg (Int.log 2) h
    rw [log_significand hsig hsig', log_significand hM hM'] at hlog
    have hexp' : (c.exp b : ℤ) - c.bias - c.fracBits = k - c.fracBits := by omega
    refine ⟨by omega, ?_⟩
    rw [hexp'] at h
    exact_mod_cast mul_right_cancel₀ (by positivity) h

end Size

variable (c b)

/-- The format of the finite patterns. -/
def format : Format := ⟨c.fracBits + 1, 1 - c.bias - c.fracBits, Nat.succ_pos _⟩

/-- The pattern of a normal number of the format. -/
def encode (y : ℚ) : ℕ :=
  2 ^ (c.fracBits + c.expBits) * (if y < 0 then 1 else 0) +
    2 ^ c.fracBits * (Int.log 2 |y| + c.bias).toNat +
    ((roundEven (|y| / 2 ^ (Int.log 2 |y| - c.fracBits))).toNat - 2 ^ c.fracBits)

section Normal

variable {c} {y : ℚ}

/-- A member of the format is a multiple of the unit at its highest bit. -/
theorem significand_mul (hy : c.format.Mem y) (hmin : 2 ^ (1 - c.bias) ≤ |y|) :
    (roundEven (|y| / 2 ^ (Int.log 2 |y| - c.fracBits)) : ℚ) *
      2 ^ (Int.log 2 |y| - c.fracBits) = |y| := by
  have hpos : 0 < |y| := lt_of_lt_of_le (by positivity) hmin
  have hkmin := (Int.zpow_le_iff_le_log one_lt_two hpos).1 hmin
  have hlow : (2 : ℚ) ^ Int.log 2 |y| ≤ |y| := Int.zpow_log_le_self one_lt_two hpos
  have hhigh : |y| < (2 : ℚ) ^ (Int.log 2 |y| + 1) := Int.lt_zpow_succ_log_self one_lt_two _
  have hprec : ((c.format.prec : ℤ) - 1) = c.fracBits := by
    show ((c.fracBits + 1 : ℕ) : ℤ) - 1 = c.fracBits
    push_cast
    ring
  have hexp : c.format.exponent |y| = Int.log 2 |y| - c.fracBits := by
    have heq := c.format.exponent_eq (x := |y|) (by rwa [abs_abs]) (by rwa [abs_abs]) (by
      rw [hprec]
      show 1 - c.bias - c.fracBits ≤ Int.log 2 |y| - c.fracBits
      omega)
    rwa [hprec] at heq
  have hrne : c.format.rne |y| = |y| := by
    rcases abs_choice y with h | h
    · rw [h]
      exact c.format.rne_of_mem hy
    · rw [h, Format.rne_neg, c.format.rne_of_mem hy]
  rw [← hexp]
  exact hrne

/-- The significand of a normal number has its hidden bit. -/
theorem exists_frac (hy : c.format.Mem y) (hmin : 2 ^ (1 - c.bias) ≤ |y|) :
    ∃ m < 2 ^ c.fracBits,
      roundEven (|y| / 2 ^ (Int.log 2 |y| - c.fracBits)) = (2 ^ c.fracBits + m : ℕ) ∧
        ((2 ^ c.fracBits + m : ℕ) : ℚ) * 2 ^ (Int.log 2 |y| - c.fracBits) = |y| := by
  have hpos : 0 < |y| := lt_of_lt_of_le (by positivity) hmin
  have hvalue := significand_mul hy hmin
  have hlow : (2 : ℚ) ^ Int.log 2 |y| ≤ |y| := Int.zpow_log_le_self one_lt_two hpos
  have hhigh : |y| < (2 : ℚ) ^ (Int.log 2 |y| + 1) := Int.lt_zpow_succ_log_self one_lt_two _
  generalize Int.log 2 |y| = k at hvalue hlow hhigh ⊢
  generalize roundEven (|y| / 2 ^ (k - c.fracBits)) = r at hvalue ⊢
  have hpow : (0 : ℚ) < 2 ^ (k - c.fracBits) := by positivity
  have hrlow : (2 : ℤ) ^ c.fracBits ≤ r := by
    have hsplit : (2 : ℚ) ^ c.fracBits * 2 ^ (k - c.fracBits) = 2 ^ k := by
      rw [← zpow_natCast, ← zpow_add₀ two_ne_zero]
      congr 1
      ring
    rw [← hvalue, ← hsplit] at hlow
    exact_mod_cast le_of_mul_le_mul_right hlow hpow
  have hrhigh : r < (2 : ℤ) ^ c.fracBits * 2 := by
    have hsplit : (2 : ℚ) ^ c.fracBits * 2 * 2 ^ (k - c.fracBits) = 2 ^ (k + 1) := by
      rw [mul_right_comm, ← zpow_natCast, ← zpow_add₀ two_ne_zero, ← zpow_add_one₀ two_ne_zero]
      congr 1
      ring
    rw [← hvalue, ← hsplit] at hhigh
    exact_mod_cast lt_of_mul_lt_mul_right hhigh hpow.le
  obtain ⟨m, hm⟩ := Int.eq_ofNat_of_zero_le (sub_nonneg.2 hrlow)
  have hr : r = (2 ^ c.fracBits + m : ℕ) := by
    push_cast
    linarith
  refine ⟨m, ?_, hr, ?_⟩
  · have hlt : (m : ℤ) < 2 ^ c.fracBits := by linarith
    exact_mod_cast hlt
  · rw [← Int.cast_natCast, ← hr, hvalue]

/-- The biased exponent of a normal number is one of a normal number. -/
theorem exists_exp (hmin : 2 ^ (1 - c.bias) ≤ |y|)
    (hmax : |y| < 2 ^ (2 ^ c.expBits - 1 - c.bias)) :
    ∃ e, (Int.log 2 |y| + c.bias).toNat = e ∧ (e : ℤ) = Int.log 2 |y| + c.bias ∧ 1 ≤ e ∧
      e + 1 < 2 ^ c.expBits := by
  have hpos : 0 < |y| := lt_of_lt_of_le (by positivity) hmin
  have hkmin := (Int.zpow_le_iff_le_log one_lt_two hpos).1 hmin
  have hkmax := (Int.lt_zpow_iff_log_lt one_lt_two hpos).1 hmax
  generalize Int.log 2 |y| = k at hkmin hkmax ⊢
  refine ⟨_, rfl, by omega, by omega, ?_⟩
  have hint : (((k + c.bias).toNat : ℕ) : ℤ) + 1 < 2 ^ c.expBits := by omega
  exact_mod_cast hint

/-- A pattern fits its bits. -/
theorem pattern_lt {n e m : ℕ} (hn : n < 2) (he : e < 2 ^ c.expBits) (hm : m < 2 ^ c.fracBits) :
    2 ^ (c.fracBits + c.expBits) * n + 2 ^ c.fracBits * e + m <
      2 * 2 ^ (c.fracBits + c.expBits) := by
  have hfields : 2 ^ c.fracBits * e + m < 2 ^ (c.fracBits + c.expBits) := by
    rw [pow_add]
    calc 2 ^ c.fracBits * e + m < 2 ^ c.fracBits * (e + 1) := by
          rw [mul_add, mul_one]
          exact Nat.add_lt_add_left hm _
      _ ≤ 2 ^ c.fracBits * 2 ^ c.expBits := Nat.mul_le_mul_left _ he
  have hsign : 2 ^ (c.fracBits + c.expBits) * n ≤ 2 ^ (c.fracBits + c.expBits) * 1 :=
    Nat.mul_le_mul_left _ (by omega)
  rw [two_mul]
  omega

/-- A normal number has a normal pattern. -/
theorem value_encode (hy : c.format.Mem y) (hmin : 2 ^ (1 - c.bias) ≤ |y|)
    (hmax : |y| < 2 ^ (2 ^ c.expBits - 1 - c.bias)) :
    c.value (c.encode y) = y ∧ 1 ≤ c.exp (c.encode y) ∧
      c.exp (c.encode y) + 1 < 2 ^ c.expBits ∧ (c.Neg (c.encode y) ↔ y < 0) ∧
      c.encode y < 2 * 2 ^ (c.fracBits + c.expBits) := by
  obtain ⟨m, hm, hr, hvalue⟩ := exists_frac hy hmin
  obtain ⟨e, he, hek, he1, hemax⟩ := exists_exp hmin hmax
  obtain ⟨n, hn, hny⟩ : ∃ n, n = (if y < 0 then 1 else 0) ∧ (n = 1 ↔ y < 0) := by
    by_cases h : y < 0
    · exact ⟨1, (if_pos h).symm, iff_of_true rfl h⟩
    · exact ⟨0, (if_neg h).symm, iff_of_false zero_ne_one h⟩
  have hn2 : n < 2 := by
    rw [hn]
    split_ifs <;> norm_num
  have hbits : c.encode y =
      2 ^ (c.fracBits + c.expBits) * n + 2 ^ c.fracBits * e + m := by
    unfold encode
    rw [← hn, he, hr, Int.toNat_natCast, Nat.add_sub_cancel_left]
  obtain ⟨hexp, -, hneg⟩ := fields hn2 (by omega) hm hbits
  refine ⟨?_, by omega, by omega, hneg.trans hny, hbits ▸ pattern_lt hn2 (by omega) hm⟩
  have hscale : (e : ℤ) - c.bias - c.fracBits = Int.log 2 |y| - c.fracBits := by omega
  rw [value_fields hn2 (by omega) (by omega) hm hbits, hscale, mul_assoc, hvalue]
  by_cases h : y < 0
  · rw [if_pos (hny.2 h), abs_of_neg h]
    ring
  · rw [if_neg (mt hny.1 h), abs_of_nonneg (not_lt.1 h), one_mul]

end Normal

def binary32 : Encoding := ⟨8, 23, 127⟩

/-! ## Specials -/

section Specials

variable (c : Encoding)

def IsNaN (b : ℕ) : Prop := c.exp b + 1 = 2 ^ c.expBits ∧ c.frac b ≠ 0

def IsInf (b : ℕ) : Prop := c.exp b + 1 = 2 ^ c.expBits ∧ c.frac b = 0

instance (b : ℕ) : Decidable (c.IsNaN b) := inferInstanceAs (Decidable (_ ∧ _))

instance (b : ℕ) : Decidable (c.IsInf b) := inferInstanceAs (Decidable (_ ∧ _))

/-- A finite value, with subnormal operands taken as zeros. -/
def daz (b : ℕ) : ℚ := if c.exp b = 0 then 0 else c.value b

/-- What kind of result an operation has. -/
inductive Outcome where
  | nan
  | invalid
  | inf (neg : Bool)
  | zero (neg : Bool)
  /-- A number other than zero, to be rounded. -/
  | finite (x : ℚ)
  deriving DecidableEq

/-- `± a * b ± d` with subnormal operands taken as zeros.  A zero sum of terms with unlike signs is
positive. -/
def fma (a b d : ℕ) (negProduct negAddend : Bool) : Outcome :=
  let signProd := xor (xor (decide (c.Neg a)) (decide (c.Neg b))) negProduct
  let signC := xor (decide (c.Neg d)) negAddend
  if c.IsNaN a ∨ c.IsNaN b ∨ c.IsNaN d then .nan
  else if c.IsInf a ∧ c.exp b = 0 ∨ c.exp a = 0 ∧ c.IsInf b then .invalid
  else if c.IsInf a ∨ c.IsInf b then
    if c.IsInf d ∧ signProd ≠ signC then .invalid else .inf signProd
  else if c.IsInf d then .inf signC
  else
    let x := (if negProduct then -1 else 1) * (c.daz a * c.daz b) +
      (if negAddend then -1 else 1) * c.daz d
    if x = 0 then .zero (signProd && signC) else .finite x

theorem fma_eq_nan {a b d : ℕ} {negProduct negAddend : Bool}
    (h : c.fma a b d negProduct negAddend = .nan) : c.IsNaN a ∨ c.IsNaN b ∨ c.IsNaN d := by
  by_contra hnan
  unfold fma at h
  dsimp only at h
  rw [if_neg hnan] at h
  split_ifs at h

/-! ## More fraction bits -/

/-- The encoding with `s` more fraction bits. -/
def widen (s : ℕ) : Encoding := ⟨c.expBits, c.fracBits + s, c.bias⟩

variable (s b : ℕ)

theorem exp_widen : (c.widen s).exp (b * 2 ^ s) = c.exp b := by
  have hdiv : b * 2 ^ s / 2 ^ (c.fracBits + s) = b / 2 ^ c.fracBits := by
    rw [pow_add, Nat.mul_div_mul_right _ _ (Nat.two_pow_pos s)]
  exact congrArg (· % _) hdiv

theorem frac_widen : (c.widen s).frac (b * 2 ^ s) = c.frac b * 2 ^ s := by
  unfold frac widen
  rw [pow_add, Nat.mul_mod_mul_right]

theorem neg_widen : (c.widen s).Neg (b * 2 ^ s) ↔ c.Neg b := by
  have hdiv : b * 2 ^ s / 2 ^ (c.fracBits + s + c.expBits) = b / 2 ^ (c.fracBits + c.expBits) := by
    rw [add_right_comm, pow_add, Nat.mul_div_mul_right _ _ (Nat.two_pow_pos s)]
  exact Iff.of_eq (congrArg (· % 2 = 1) hdiv)

theorem value_widen : (c.widen s).value (b * 2 ^ s) = c.value b := by
  have hsig : (if c.exp b = 0 then c.frac b * 2 ^ s
      else 2 ^ (c.fracBits + s) + c.frac b * 2 ^ s) =
        (if c.exp b = 0 then c.frac b else 2 ^ c.fracBits + c.frac b) * 2 ^ s := by
    split_ifs
    · rfl
    · rw [pow_add, add_mul]
  have hscale : ((2 : ℚ) ^ s) * 2 ^ ((max (c.exp b) 1 : ℕ) - c.bias - (c.fracBits + s : ℕ)) =
      2 ^ ((max (c.exp b) 1 : ℕ) - c.bias - c.fracBits) := by
    rw [← zpow_natCast, ← zpow_add₀ two_ne_zero]
    congr 1
    push_cast
    ring
  unfold value
  rw [exp_widen, frac_widen, if_congr (neg_widen c s b) rfl rfl]
  change _ * ((if c.exp b = 0 then c.frac b * 2 ^ s
    else 2 ^ (c.fracBits + s) + c.frac b * 2 ^ s : ℕ) : ℚ) *
      2 ^ ((max (c.exp b) 1 : ℕ) - c.bias - (c.fracBits + s : ℕ)) = _
  rw [hsig, ← hscale]
  push_cast
  ring

theorem isNaN_widen : (c.widen s).IsNaN (b * 2 ^ s) ↔ c.IsNaN b := by
  unfold IsNaN
  rw [exp_widen, frac_widen]
  refine and_congr_right' (not_congr ?_)
  rw [Nat.mul_eq_zero]
  exact or_iff_left (Nat.two_pow_pos s).ne'

theorem isInf_widen : (c.widen s).IsInf (b * 2 ^ s) ↔ c.IsInf b := by
  unfold IsInf
  rw [exp_widen, frac_widen]
  refine and_congr_right' ?_
  rw [Nat.mul_eq_zero]
  exact or_iff_left (Nat.two_pow_pos s).ne'

theorem daz_widen : (c.widen s).daz (b * 2 ^ s) = c.daz b := by
  unfold daz
  rw [exp_widen, value_widen]

/-- An operation on numbers with more fraction bits. -/
theorem fma_widen (a b d : ℕ) (negProduct negAddend : Bool) :
    (c.widen s).fma (a * 2 ^ s) (b * 2 ^ s) (d * 2 ^ s) negProduct negAddend =
      c.fma a b d negProduct negAddend := by
  unfold fma
  simp only [isNaN_widen, isInf_widen, daz_widen, neg_widen, exp_widen]

end Specials

end Encoding

end Rounding
