import Mathlib
import X86Oracle.Bochs.Alu

/-!
# Bochs: numbers of many words

`ADC`, `SBB`, `ADCX` and `ADOX` (`cpu/arith8.cc` to `arith64.cc`, `bmi32.cc`, `bmi64.cc`) pass a
carry from one word of a long number to the next through the lazy flags.

* `chain_exact`: over numbers of any length the words and the last carry are those of the sum and
  of the difference, also if `INC` and `DEC` count in between, at any size.
* `dualChain_exact`: with `ADCX` and `ADOX` two sums may be interleaved in any order; neither
  disturbs the other, and no other flag changes.
-/

namespace Bochs

open Carries

variable {s : OpSize}

/-- The number of which these are the words, the lowest first. -/
def number {w : ℕ} (words : List (BitVec w)) : ℕ := Nat.ofDigits (2 ^ w) (words.map BitVec.toNat)

theorem number_cons {w : ℕ} (x : BitVec w) (xs : List (BitVec w)) :
    number (x :: xs) = x.toNat + 2 ^ w * number xs := Nat.ofDigits_cons ..

/-! ## One carry -/

/-- A step of a loop over the words of two numbers: the words of one place, or a step of a
counter, which may be of another size. -/
inductive ChainStep (s : OpSize)
  | place (op1 op2 : BitVec s.bits)
  | count (size : OpSize) (up reg : Bool) (op1 : BitVec size.bits)

/-- `INC` or `DEC` of a counter. -/
def count (size : OpSize) (f : LazyFlags) (up reg : Bool) (op1 : BitVec size.bits) : LazyFlags :=
  if up then (INC size f op1 reg).2 else (DEC size f op1 reg).2

/-- The loop with `ADC` or `SBB` in the place of `handler`: the words it leaves, and the flags. -/
def chain (handler : LazyFlags → BitVec s.bits → BitVec s.bits → BitVec s.bits × LazyFlags) :
    LazyFlags → List (ChainStep s) → List (BitVec s.bits) × LazyFlags
  | f, [] => ([], f)
  | f, .place op1 op2 :: rest =>
    let r := handler f op1 op2
    let t := chain handler r.2 rest
    (r.1 :: t.1, t.2)
  | f, .count size up reg op1 :: rest => chain handler (count size f up reg op1) rest

/-- The words of the two numbers. -/
def firstWords : List (ChainStep s) → List (BitVec s.bits)
  | [] => []
  | .place op1 _ :: rest => op1 :: firstWords rest
  | .count .. :: rest => firstWords rest

def secondWords : List (ChainStep s) → List (BitVec s.bits)
  | [] => []
  | .place _ op2 :: rest => op2 :: secondWords rest
  | .count .. :: rest => secondWords rest

theorem count_CF (size : OpSize) (f : LazyFlags) (up reg : Bool) (op1 : BitVec size.bits) :
    (count size f up reg op1).getB_CF = f.getB_CF := by
  unfold count
  cases up with
  | true => exact congrArg StatusFlags.CF (INC_gives size f op1 reg).2
  | false => exact congrArg StatusFlags.CF (DEC_gives size f op1 reg).2

/-- One place of a sum. -/
theorem place_ADC (f : LazyFlags) (op1 op2 : BitVec s.bits) :
    (ADC s f op1 op2).1.toNat + 2 ^ s.bits * (ADC s f op1 op2).2.getB_CF.toNat =
      op1.toNat + op2.toNat + f.getB_CF.toNat := by
  obtain ⟨hword, hflags⟩ := ADC_gives s f op1 op2
  have hcarry : (ADC s f op1 op2).2.getB_CF =
      decide (2 ^ s.bits ≤ op1.toNat + op2.toNat + f.getB_CF.toNat) :=
    congrArg StatusFlags.CF hflags
  rw [hword, hcarry]
  exact word_add_carry s.bits_pos op1 op2 f.getB_CF

/-- One place of a difference. -/
theorem place_SBB (f : LazyFlags) (op1 op2 : BitVec s.bits) :
    (SBB s f op1 op2).1.toNat + (op2.toNat + f.getB_CF.toNat) =
      op1.toNat + 2 ^ s.bits * (SBB s f op1 op2).2.getB_CF.toNat := by
  obtain ⟨hword, hflags⟩ := SBB_gives s f op1 op2
  have hborrow : (SBB s f op1 op2).2.getB_CF =
      decide (op1.toNat < op2.toNat + f.getB_CF.toNat) := congrArg StatusFlags.CF hflags
  rw [hword, hborrow]
  exact word_sub_borrow s.bits_pos op1 op2 f.getB_CF

theorem chain_ADC (f : LazyFlags) (steps : List (ChainStep s)) :
    let r := chain (ADC s) f steps
    number r.1 + 2 ^ (s.bits * r.1.length) * r.2.getB_CF.toNat =
      number (firstWords steps) + number (secondWords steps) + f.getB_CF.toNat := by
  induction steps generalizing f with
  | nil => simp [chain, firstWords, secondWords, number]
  | cons step rest ih =>
    cases step with
    | place op1 op2 =>
      have hplace := place_ADC f op1 op2
      have hrest := ih (ADC s f op1 op2).2
      dsimp only at hrest
      rw [chain, firstWords, secondWords]
      dsimp only
      rw [number_cons, number_cons, number_cons, List.length_cons, Nat.mul_succ, pow_add]
      linear_combination hplace + 2 ^ s.bits * hrest
    | count size up reg op1 =>
      have hrest := ih (count size f up reg op1)
      rw [count_CF] at hrest
      exact hrest

theorem chain_SBB (f : LazyFlags) (steps : List (ChainStep s)) :
    let r := chain (SBB s) f steps
    number r.1 + number (secondWords steps) + f.getB_CF.toNat =
      number (firstWords steps) + 2 ^ (s.bits * r.1.length) * r.2.getB_CF.toNat := by
  induction steps generalizing f with
  | nil => simp [chain, firstWords, secondWords, number]
  | cons step rest ih =>
    cases step with
    | place op1 op2 =>
      have hplace := place_SBB f op1 op2
      have hrest := ih (SBB s f op1 op2).2
      dsimp only at hrest
      rw [chain, firstWords, secondWords]
      dsimp only
      rw [number_cons, number_cons, number_cons, List.length_cons, Nat.mul_succ, pow_add]
      linear_combination hplace + 2 ^ s.bits * hrest
    | count size up reg op1 =>
      have hrest := ih (count size f up reg op1)
      rw [count_CF] at hrest
      exact hrest

/-- **Sums and differences of any length**, with the counting in between. -/
theorem chain_exact (f : LazyFlags) (steps : List (ChainStep s)) :
    let sum := chain (ADC s) f steps
    let diff := chain (SBB s) f steps
    number sum.1 + 2 ^ (s.bits * sum.1.length) * sum.2.getB_CF.toNat =
        number (firstWords steps) + number (secondWords steps) + f.getB_CF.toNat ∧
      number diff.1 + number (secondWords steps) + f.getB_CF.toNat =
        number (firstWords steps) + 2 ^ (s.bits * diff.1.length) * diff.2.getB_CF.toNat :=
  ⟨chain_ADC f steps, chain_SBB f steps⟩

/-! ## Two carries -/

/-- A place of one of two sums: `true` is the one whose carry is OF. -/
structure DualStep (s : OpSize) where
  overflow : Bool
  op1 : BitVec s.bits
  op2 : BitVec s.bits

/-- The handler of a place. -/
def DualStep.handler (step : DualStep s) (f : LazyFlags) : BitVec s.bits × LazyFlags :=
  if step.overflow then ADOX s f step.op1 step.op2 else ADCX s f step.op1 step.op2

/-- Places of two sums in some order: the words of both, and the flags. -/
def dualChain : LazyFlags → List (DualStep s) → List (Bool × BitVec s.bits) × LazyFlags
  | f, [] => ([], f)
  | f, step :: rest =>
    let r := step.handler f
    let t := dualChain r.2 rest
    ((step.overflow, r.1) :: t.1, t.2)

/-- The carry of one of the sums. -/
def carryOf (overflow : Bool) (f : LazyFlags) : Bool := if overflow then f.getB_OF else f.getB_CF

/-- The places of one of the sums. -/
def ofSum (overflow : Bool) (steps : List (DualStep s)) : List (DualStep s) :=
  steps.filter fun step => step.overflow == overflow

/-- The words of one of the sums. -/
def wordsOf (overflow : Bool) (words : List (Bool × BitVec s.bits)) : List (BitVec s.bits) :=
  (words.filter fun word => word.1 == overflow).map Prod.snd

theorem handler_own (step : DualStep s) (f : LazyFlags) :
    (step.handler f).1.toNat + 2 ^ s.bits * (carryOf step.overflow (step.handler f).2).toNat =
      step.op1.toNat + step.op2.toNat + (carryOf step.overflow f).toNat := by
  obtain ⟨overflow, op1, op2⟩ := step
  cases overflow with
  | true =>
    obtain ⟨hword, hflags⟩ := ADOX_gives s f op1 op2
    have hcarry : (ADOX s f op1 op2).2.getB_OF =
        decide (2 ^ s.bits ≤ op1.toNat + op2.toNat + f.getB_OF.toNat) :=
      congrArg StatusFlags.OF hflags
    show (ADOX s f op1 op2).1.toNat + 2 ^ s.bits * (ADOX s f op1 op2).2.getB_OF.toNat = _
    rw [hword, hcarry]
    exact word_add_carry s.bits_pos op1 op2 f.getB_OF
  | false =>
    obtain ⟨hword, hflags⟩ := ADCX_gives s f op1 op2
    have hcarry : (ADCX s f op1 op2).2.getB_CF =
        decide (2 ^ s.bits ≤ op1.toNat + op2.toNat + f.getB_CF.toNat) :=
      congrArg StatusFlags.CF hflags
    show (ADCX s f op1 op2).1.toNat + 2 ^ s.bits * (ADCX s f op1 op2).2.getB_CF.toNat = _
    rw [hword, hcarry]
    exact word_add_carry s.bits_pos op1 op2 f.getB_CF

theorem handler_other {overflow : Bool} (step : DualStep s) (f : LazyFlags)
    (h : step.overflow ≠ overflow) : carryOf overflow (step.handler f).2 = carryOf overflow f := by
  obtain ⟨own, op1, op2⟩ := step
  cases own <;> cases overflow
  · exact absurd rfl h
  · exact congrArg StatusFlags.OF (ADCX_gives s f op1 op2).2
  · exact congrArg StatusFlags.CF (ADOX_gives s f op1 op2).2
  · exact absurd rfl h

/-- The flags that are no carry of either sum. -/
def sameRest (F G : StatusFlags) : Prop :=
  F.PF = G.PF ∧ F.AF = G.AF ∧ F.ZF = G.ZF ∧ F.SF = G.SF

theorem handler_rest (step : DualStep s) (f : LazyFlags) :
    sameRest (step.handler f).2.status f.status := by
  obtain ⟨own, op1, op2⟩ := step
  unfold DualStep.handler
  cases own with
  | true =>
    rw [if_pos rfl, (ADOX_gives s f op1 op2).2]
    exact ⟨rfl, rfl, rfl, rfl⟩
  | false =>
    rw [if_neg Bool.false_ne_true, (ADCX_gives s f op1 op2).2]
    exact ⟨rfl, rfl, rfl, rfl⟩

/-- **Two sums at once**, their places taken in any order: both are exact, and the other flags are
left alone. -/
theorem dualChain_exact (f : LazyFlags) (steps : List (DualStep s)) :
    let r := dualChain f steps
    (∀ overflow, number (wordsOf overflow r.1) +
        2 ^ (s.bits * (wordsOf overflow r.1).length) * (carryOf overflow r.2).toNat =
      number ((ofSum overflow steps).map DualStep.op1) +
        number ((ofSum overflow steps).map DualStep.op2) + (carryOf overflow f).toNat) ∧
      sameRest r.2.status f.status := by
  induction steps generalizing f with
  | nil =>
    refine ⟨fun overflow => ?_, rfl, rfl, rfl, rfl⟩
    simp [dualChain, wordsOf, ofSum, number]
  | cons step rest ih =>
    obtain ⟨hsums, hP, hA, hZ, hS⟩ := ih (step.handler f).2
    obtain ⟨hP', hA', hZ', hS'⟩ := handler_rest step f
    refine ⟨fun overflow => ?_, hP.trans hP', hA.trans hA', hZ.trans hZ', hS.trans hS'⟩
    have hrest := hsums overflow
    rw [dualChain]
    dsimp only
    unfold wordsOf ofSum at hrest ⊢
    by_cases h : step.overflow = overflow
    · have hown := handler_own step f
      rw [h] at hown
      rw [List.filter_cons_of_pos (by simpa using h), List.filter_cons_of_pos (by simpa using h),
        List.map_cons, List.map_cons, List.map_cons, number_cons, number_cons, number_cons,
        List.length_cons, Nat.mul_succ, pow_add]
      linear_combination hown + 2 ^ s.bits * hrest
    · rw [List.filter_cons_of_neg (by simpa using h), List.filter_cons_of_neg (by simpa using h)]
      rw [handler_other step f h] at hrest
      exact hrest

end Bochs
