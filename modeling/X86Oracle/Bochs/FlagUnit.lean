import Mathlib
import X86Oracle.Lib.Component
import X86Oracle.Bochs.Shift
import X86Oracle.Bochs.Mult
import X86Oracle.Bochs.Alu
import X86Oracle.Bochs.BitScan
import X86Oracle.Bochs.Bmi

/-!
# Bochs: the flags behind their interface

What the handlers do with the flags: they have an operation compute a word and set flags, set
single flags, test conditions, and read or load the flags word.

* `AluOp` and `FlagOp` are these requests.
* `lazily` answers them with the handlers of the emulator, on `eflags` and its lazy part.
* `eagerly` answers them as the manuals say, with six flags that are worked out at once.  Where the
  manuals leave a flag undefined, it is as the emulator has it.
* `lazily_refines`: the answers are the same.
-/

namespace Bochs

open Component Carries

/-! ## Operations -/

inductive Binary
  | ADD | ADC | SUB | SBB | AND | OR | XOR | ADCX | ADOX | ANDN
deriving DecidableEq, Repr

/-- Two operands, of which only the flags are kept. -/
inductive Comparison
  | CMP | TEST
deriving DecidableEq, Repr

/-- `INC` and `DEC` have a register form and a memory form. -/
inductive Unary
  | INC (reg : Bool)
  | DEC (reg : Bool)
  | NEG
  | NOT
  | BLSI
  | BLSMSK
  | BLSR
deriving DecidableEq, Repr

inductive Scan
  | BSF | BSR | TZCNT | LZCNT | POPCNT
deriving DecidableEq, Repr

inductive Field
  | BEXTR | BZHI
deriving DecidableEq, Repr

inductive Flag
  | CF | PF | AF | ZF | SF | OF
deriving DecidableEq, Repr

section Lazily

variable (s : OpSize) (f : LazyFlags)

def Binary.lazily (op1 op2 : BitVec s.bits) : Binary → BitVec s.bits × LazyFlags
  | ADD => Bochs.ADD s op1 op2
  | ADC => Bochs.ADC s f op1 op2
  | SUB => Bochs.SUB s op1 op2
  | SBB => Bochs.SBB s f op1 op2
  | AND => Bochs.AND s op1 op2
  | OR => Bochs.OR s op1 op2
  | XOR => Bochs.XOR s op1 op2
  | ADCX => Bochs.ADCX s f op1 op2
  | ADOX => Bochs.ADOX s f op1 op2
  | ANDN => Bochs.ANDN s f op1 op2

def Comparison.lazily (op1 op2 : BitVec s.bits) : Comparison → LazyFlags
  | CMP => Bochs.CMP s op1 op2
  | TEST => Bochs.TEST s op1 op2

/-- NOT leaves the flags; INC and DEC keep CF. -/
def Unary.lazily (op1 : BitVec s.bits) : Unary → BitVec s.bits × LazyFlags
  | INC reg => Bochs.INC s f op1 reg
  | DEC reg => Bochs.DEC s f op1 reg
  | NEG => Bochs.NEG s op1
  | NOT => Bochs.NOT s f op1
  | BLSI => Bochs.BLSI s f op1
  | BLSMSK => Bochs.BLSMSK s f op1
  | BLSR => Bochs.BLSR s f op1

/-- BSF and BSR of zero write no register. -/
def Scan.lazily (op : BitVec s.bits) : Scan → Option (BitVec s.bits) × LazyFlags
  | BSF => Bochs.BSF s f op
  | BSR => Bochs.BSR s f op
  | TZCNT => (some (Bochs.TZCNT s f op).1, (Bochs.TZCNT s f op).2)
  | LZCNT => (some (Bochs.LZCNT s f op).1, (Bochs.LZCNT s f op).2)
  | POPCNT => (some (Bochs.POPCNT s op).1, (Bochs.POPCNT s op).2)

def Field.lazily (op1 : BitVec s.bits) (control : ℕ) : Field → BitVec s.bits × LazyFlags
  | BEXTR => Bochs.BEXTR s op1 control
  | BZHI => Bochs.BZHI s f op1 control

/-- The low and the high word, and the flags. -/
def multiplyLazily (signed : Bool) (op1 op2 : BitVec s.bits) :
    (BitVec s.bits × BitVec s.bits) × LazyFlags :=
  let product := if signed then IMUL s op1 op2 else MUL s op1 op2
  ((product.low, product.high), product.flags)

def Flag.lazily (val : Bool) : Flag → LazyFlags
  | CF => f.set_CF val
  | PF => f.set_PF val
  | AF => f.set_AF val
  | ZF => f.set_ZF val
  | SF => f.set_SF val
  | OF => f.set_OF val

end Lazily

/-! ## The same in the manuals -/

section Eagerly

variable (s : OpSize) (F : StatusFlags)

/-- The flags of a word that is neither a sum nor a difference. -/
def logical {w : ℕ} (result : BitVec w) : BitVec w × StatusFlags :=
  (result, .ofResult result false false false)

/-- A sum or difference sets all six flags, ADCX and ADOX one of them. -/
def Binary.eagerly (op1 op2 : BitVec s.bits) : Binary → BitVec s.bits × StatusFlags
  | ADD => (op1 + op2, .add op1 op2 false)
  | ADC => (op1 + op2 + carryIn _ F.CF, .add op1 op2 F.CF)
  | SUB => (op1 - op2, .sub op1 op2 false)
  | SBB => (op1 - (op2 + carryIn _ F.CF), .sub op1 op2 F.CF)
  | AND => logical (op1 &&& op2)
  | OR => logical (op1 ||| op2)
  | XOR => logical (op1 ^^^ op2)
  | ADCX => (op1 + op2 + carryIn _ F.CF,
      { F with CF := decide (2 ^ s.bits ≤ op1.toNat + op2.toNat + F.CF.toNat) })
  | ADOX => (op1 + op2 + carryIn _ F.OF,
      { F with OF := decide (2 ^ s.bits ≤ op1.toNat + op2.toNat + F.OF.toNat) })
  | ANDN => (~~~op1 &&& op2, { (logical (~~~op1 &&& op2)).2 with PF := F.PF })

def Comparison.eagerly (op1 op2 : BitVec s.bits) : Comparison → StatusFlags
  | CMP => .sub op1 op2 false
  | TEST => (logical (op1 &&& op2)).2

/-- A part of a word, with a carry flag of its own. -/
def part {w : ℕ} (result : BitVec w) (CF : Bool) : BitVec w × StatusFlags :=
  (result, { StatusFlags.ofResult result CF false false with PF := F.PF })

def Unary.eagerly (op1 : BitVec s.bits) : Unary → BitVec s.bits × StatusFlags
  | INC _ => (op1 + 1, { StatusFlags.add op1 1 false with CF := F.CF })
  | DEC _ => (op1 - 1, { StatusFlags.sub op1 1 false with CF := F.CF })
  | NEG => (-op1, .sub 0 op1 false)
  | NOT => (~~~op1, F)
  | BLSI => part F (-op1 &&& op1) (op1 != 0)
  | BLSMSK => part F ((op1 - 1) ^^^ op1) (op1 == 0)
  | BLSR => part F ((op1 - 1) &&& op1) (op1 == 0)

/-- The number of zeros before a bit. -/
def zeros (op : BitVec s.bits) (count : ℕ) : Option (BitVec s.bits) × StatusFlags :=
  (some (BitVec.ofNat s.bits count),
    { F with CF := op == 0, ZF := BitVec.ofNat s.bits count == 0 })

/-- The scans, by the positions `tzcnt` and `lzcnt` count. -/
def Scan.eagerly (op : BitVec s.bits) : Scan → Option (BitVec s.bits) × StatusFlags
  | BSF => found s F op (tzcnt op)
  | BSR => found s F op (s.bits - 1 - lzcnt op)
  | TZCNT => zeros s F op (tzcnt op)
  | LZCNT => zeros s F op (lzcnt op)
  | POPCNT => (some op.cpop, ⟨false, false, false, op == 0, false, false⟩)

def Field.eagerly (op1 : BitVec s.bits) (control : ℕ) : Field → BitVec s.bits × StatusFlags
  | BEXTR =>
    let result := bextr s op1 (control &&& 0xff) (control >>> 8)
    (result, ⟨false, false, false, result == 0, false, false⟩)
  | BZHI => part F (bextr s op1 0 control) (decide (s.bits ≤ control))

/-- The words of the product of two numbers. -/
def multiplyEagerly (signed : Bool) (op1 op2 : BitVec s.bits) :
    (BitVec s.bits × BitVec s.bits) × StatusFlags :=
  let p : ℤ := if signed then op1.toInt * op2.toInt else op1.toNat * op2.toNat
  let lost := if signed then overflows (s.bits - 1) p else decide (2 ^ s.bits ≤ p)
  let low := BitVec.ofInt s.bits p
  ((low, BitVec.ofInt s.bits (p / 2 ^ s.bits)), .ofResult low lost false lost)

def Flag.eagerly (val : Bool) : Flag → StatusFlags
  | CF => { F with CF := val }
  | PF => { F with PF := val }
  | AF => { F with AF := val }
  | ZF => { F with ZF := val }
  | SF => { F with SF := val }
  | OF => { F with OF := val }

/-- The sixteen conditions, on flags that are worked out. -/
def Condition.met : Condition → Bool
  | O => F.OF
  | NO => !F.OF
  | B => F.CF
  | NB => !F.CF
  | Z => F.ZF
  | NZ => !F.ZF
  | BE => F.CF || F.ZF
  | NBE => !(F.CF || F.ZF)
  | S => F.SF
  | NS => !F.SF
  | P => F.PF
  | NP => !F.PF
  | L => F.SF ^^ F.OF
  | NL => !(F.SF ^^ F.OF)
  | LE => F.ZF || (F.SF ^^ F.OF)
  | NLE => !(F.ZF || (F.SF ^^ F.OF))

end Eagerly

/-! ## One operation -/

section Answers

variable (s : OpSize) (f : LazyFlags)

/-- From the specification of each handler. -/
theorem Binary.gives (op : Binary) (op1 op2 : BitVec s.bits) :
    Gives (op.lazily s f op1 op2) (op.eagerly s f.status op1 op2).1
      (op.eagerly s f.status op1 op2).2 := by
  cases op with
  | ADD => exact ADD_gives s op1 op2
  | ADC => exact ADC_gives s f op1 op2
  | SUB => exact SUB_gives s op1 op2
  | SBB => exact SBB_gives s f op1 op2
  | AND => exact logic_gives s (op1 &&& op2)
  | OR => exact logic_gives s (op1 ||| op2)
  | XOR => exact logic_gives s (op1 ^^^ op2)
  | ADCX => exact ADCX_gives s f op1 op2
  | ADOX => exact ADOX_gives s f op1 op2
  | ANDN => exact ANDN_gives s f op1 op2

theorem Comparison.gives (op : Comparison) (op1 op2 : BitVec s.bits) :
    (op.lazily s op1 op2).status = op.eagerly s op1 op2 := by
  cases op with
  | CMP => exact CMP_gives s op1 op2
  | TEST => exact (logic_gives s (op1 &&& op2)).2

theorem Unary.gives (op : Unary) (op1 : BitVec s.bits) :
    Gives (op.lazily s f op1) (op.eagerly s f.status op1).1 (op.eagerly s f.status op1).2 := by
  cases op with
  | INC reg => exact INC_gives s f op1 reg
  | DEC reg => exact DEC_gives s f op1 reg
  | NEG => exact NEG_gives s op1
  | NOT => exact ⟨rfl, rfl⟩
  | BLSI => exact logicCF_gives s f _ _
  | BLSMSK => exact logicCF_gives s f _ _
  | BLSR => exact logicCF_gives s f _ _

theorem Scan.gives (op : Scan) (op1 : BitVec s.bits) :
    Gives (op.lazily s f op1) (op.eagerly s f.status op1).1 (op.eagerly s f.status op1).2 := by
  cases op with
  | BSF => exact BSF_gives s f op1
  | BSR => exact BSR_gives s f op1
  | TZCNT => exact ⟨congrArg some (TZCNT_gives s f op1).1, (TZCNT_gives s f op1).2⟩
  | LZCNT => exact ⟨congrArg some (LZCNT_gives s f op1).1, (LZCNT_gives s f op1).2⟩
  | POPCNT => exact ⟨congrArg some (POPCNT_gives s op1).1, (POPCNT_gives s op1).2⟩

theorem Field.gives (op : Field) (op1 : BitVec s.bits) (control : ℕ) :
    Gives (op.lazily s f op1 control) (op.eagerly s f.status op1 control).1
      (op.eagerly s f.status op1 control).2 := by
  cases op with
  | BEXTR => exact BEXTR_gives s op1 control
  | BZHI => exact BZHI_gives s f op1 control

theorem Flag.gives (flag : Flag) (val : Bool) :
    (flag.lazily f val).status = flag.eagerly f.status val := by
  cases flag with
  | CF => exact f.status_set_CF val
  | PF => exact f.status_set_PF val
  | AF => exact f.status_set_AF val
  | ZF => exact f.status_set_ZF val
  | SF => exact f.status_set_SF val
  | OF => exact f.status_set_OF val

/-- A condition reads the flags it names off the lazy pair. -/
theorem Condition.holds_eq (c : Condition) : c.holds f = c.met f.status := by
  cases c <;> rfl

/-- Two words of an integer. -/
theorem words_of_int {w : ℕ} {low : BitVec w} {h p : ℤ} (hp : h * 2 ^ w + low.toNat = p) :
    BitVec.ofInt w p = low ∧ p / 2 ^ w = h := by
  have hlow : (low.toNat : ℤ) < 2 ^ w := by exact_mod_cast low.isLt
  have hpos : (0 : ℤ) < 2 ^ w := by positivity
  constructor
  · apply BitVec.eq_of_toNat_eq
    have hmod : p % 2 ^ w = low.toNat := by
      rw [← hp, Int.add_comm, Int.add_mul_emod_self_right,
        Int.emod_eq_of_lt (Int.natCast_nonneg _) hlow]
    rw [BitVec.toNat_ofInt]
    push_cast
    rw [hmod]
    simp
  · rw [← hp, Int.add_comm, Int.add_mul_ediv_right _ _ hpos.ne',
      Int.ediv_eq_zero_of_lt (Int.natCast_nonneg _) hlow, zero_add]

theorem unsigned_gives {op1 op2 : BitVec s.bits} {r : Product s.bits}
    (h : r.high.toNat * 2 ^ s.bits + r.low.toNat = op1.toNat * op2.toNat ∧
      r.flags.status = .ofResult r.low (decide (2 ^ s.bits ≤ op1.toNat * op2.toNat)) false
        (decide (2 ^ s.bits ≤ op1.toNat * op2.toNat))) :
    Gives ((r.low, r.high), r.flags) (multiplyEagerly s false op1 op2).1
      (multiplyEagerly s false op1 op2).2 := by
  obtain ⟨hp, hstatus⟩ := h
  have hint : (r.high.toNat : ℤ) * 2 ^ s.bits + r.low.toNat = op1.toNat * op2.toNat := by
    exact_mod_cast hp
  have hlost : decide ((2 : ℤ) ^ s.bits ≤ op1.toNat * op2.toNat) =
      decide (2 ^ s.bits ≤ op1.toNat * op2.toNat) := decide_eq_decide.2 (by norm_cast)
  obtain ⟨hlow, hhigh⟩ := words_of_int hint
  unfold multiplyEagerly
  simp only [Bool.false_eq_true, if_false]
  rw [hlow, hhigh, hlost, BitVec.ofInt_natCast, BitVec.ofNat_toNat, BitVec.setWidth_eq]
  exact ⟨rfl, hstatus⟩

theorem signed_gives {op1 op2 : BitVec s.bits} {r : Product s.bits}
    (h : r.high.toInt * 2 ^ s.bits + r.low.toNat = op1.toInt * op2.toInt ∧
      r.flags.status = .ofResult r.low (overflows (s.bits - 1) (op1.toInt * op2.toInt)) false
        (overflows (s.bits - 1) (op1.toInt * op2.toInt))) :
    Gives ((r.low, r.high), r.flags) (multiplyEagerly s true op1 op2).1
      (multiplyEagerly s true op1 op2).2 := by
  obtain ⟨hp, hstatus⟩ := h
  obtain ⟨hlow, hhigh⟩ := words_of_int hp
  unfold multiplyEagerly
  simp only [if_true]
  rw [hlow, hhigh, BitVec.ofInt_toInt]
  exact ⟨rfl, hstatus⟩

theorem multiply_gives (signed : Bool) (op1 op2 : BitVec s.bits) :
    Gives (multiplyLazily s signed op1 op2) (multiplyEagerly s signed op1 op2).1
      (multiplyEagerly s signed op1 op2).2 := by
  cases signed with
  | false =>
    cases s with
    | byte => exact unsigned_gives .byte (mulNarrow_exact .byte op1 op2)
    | word => exact unsigned_gives .word (mulNarrow_exact .word op1 op2)
    | dword => exact unsigned_gives .dword (mulNarrow_exact .dword op1 op2)
    | qword => exact unsigned_gives .qword (MUL_RAXEq_exact op1 op2)
  | true =>
    cases s with
    | byte => exact signed_gives .byte (imulNarrow_exact .byte op1 op2)
    | word => exact signed_gives .word (imulNarrow_exact .word op1 op2)
    | dword => exact signed_gives .dword (imulNarrow_exact .dword op1 op2)
    | qword => exact signed_gives .qword (IMUL_RAXEq_exact op1 op2)

/-- What the loop of a shift leaves. -/
theorem gives_of_pair {α : Type} {r : α × LazyFlags} {z : α × StatusFlags}
    (h : (r.1, r.2.status) = z) : Gives r z.1 z.2 :=
  ⟨congrArg Prod.fst h, congrArg Prod.snd h⟩

end Answers

/-! ## Requests -/

/-- The operations of the handlers. -/
inductive AluOp : Type → Type
  | binary (op : Binary) (s : OpSize) (op1 op2 : BitVec s.bits) : AluOp (BitVec s.bits)
  | compare (op : Comparison) (s : OpSize) (op1 op2 : BitVec s.bits) : AluOp PUnit
  | unary (op : Unary) (s : OpSize) (op1 : BitVec s.bits) : AluOp (BitVec s.bits)
  | scan (op : Scan) (s : OpSize) (op1 : BitVec s.bits) : AluOp (Option (BitVec s.bits))
  | field (op : Field) (s : OpSize) (op1 : BitVec s.bits) (control : ℕ) : AluOp (BitVec s.bits)
  | shift (op : Shifts.Op) (s : OpSize) (op1 : BitVec s.bits) (count : ℕ) : AluOp (BitVec s.bits)
  | doubleShift (left : Bool) (s : OpSize) (hs : s ≠ .byte) (op1 op2 : BitVec s.bits)
      (count : ℕ) : AluOp (BitVec s.bits)
  | multiply (signed : Bool) (s : OpSize) (op1 op2 : BitVec s.bits) :
      AluOp (BitVec s.bits × BitVec s.bits)
  | cmpxchg (s : OpSize) (op1 accumulator : BitVec s.bits) : AluOp Bool
  | set (flag : Flag) (val : Bool) : AluOp PUnit
  | test (c : Condition) : AluOp Bool

namespace AluOp

def lazily : (β : Type) → AluOp β → LazyFlags → β × LazyFlags
  | _, .binary op s op1 op2, f => op.lazily s f op1 op2
  | _, .compare op s op1 op2, _ => (⟨⟩, op.lazily s op1 op2)
  | _, .unary op s op1, f => op.lazily s f op1
  | _, .scan op s op1, f => op.lazily s f op1
  | _, .field op s op1 control, f => op.lazily s f op1 control
  | _, .shift op s op1 count, f => shiftHandler s f op1 count op
  | _, .doubleShift left s _ op1 op2 count, f =>
    if left then SHLD s f op1 count op2 else SHRD s f op1 count op2
  | _, .multiply signed s op1 op2, _ => multiplyLazily s signed op1 op2
  | _, .cmpxchg s op1 accumulator, _ => CMPXCHG s op1 accumulator
  | _, .set flag val, f => (⟨⟩, flag.lazily f val)
  | _, .test c, f => (c.holds f, f)

def eagerly : (β : Type) → AluOp β → StatusFlags → β × StatusFlags
  | _, .binary op s op1 op2, F => op.eagerly s F op1 op2
  | _, .compare op s op1 op2, _ => (⟨⟩, op.eagerly s op1 op2)
  | _, .unary op s op1, F => op.eagerly s F op1
  | _, .scan op s op1, F => op.eagerly s F op1
  | _, .field op s op1 control, F => op.eagerly s F op1 control
  | _, .shift op s op1 count, F => (shift1 op)^[tempCount op s count] (op1, F)
  | _, .doubleShift left s _ op1 op2 count, F =>
    let z := (doubleShift1 left)^[masked s count] ((op1, op2), F)
    (z.1.1, z.2)
  | _, .multiply signed s op1 op2, _ => multiplyEagerly s signed op1 op2
  | _, .cmpxchg _ op1 accumulator, _ => (accumulator == op1, .sub accumulator op1 false)
  | _, .set flag val, F => (⟨⟩, flag.eagerly F val)
  | _, .test c, F => (c.met F, F)

theorem gives {β : Type} (p : AluOp β) (f : LazyFlags) :
    Gives (p.lazily β f) (p.eagerly β f.status).1 (p.eagerly β f.status).2 := by
  cases p with
  | binary op s op1 op2 => exact op.gives s f op1 op2
  | compare op s op1 op2 => exact ⟨rfl, op.gives s op1 op2⟩
  | unary op s op1 => exact op.gives s f op1
  | scan op s op1 => exact op.gives s f op1
  | field op s op1 control => exact op.gives s f op1 control
  | shift op s op1 count => exact gives_of_pair (computes_handler op s f op1 count)
  | doubleShift left s hs op1 op2 count =>
    cases left with
    | true => exact gives_of_pair (computes_SHLD s f op1 op2 hs count)
    | false => exact gives_of_pair (computes_SHRD s f op1 op2 hs count)
  | multiply signed s op1 op2 => exact multiply_gives s signed op1 op2
  | cmpxchg s op1 accumulator => exact CMPXCHG_gives s op1 accumulator
  | set flag val => exact ⟨rfl, flag.gives f val⟩
  | test c => exact ⟨c.holds_eq f, rfl⟩

end AluOp

/-! ## The flags word -/

/-- `EFLAGS`: six flags, and the other bits of the word. -/
structure EFlags where
  status : StatusFlags
  others : BitVec 32
deriving DecidableEq, Repr

namespace StatusFlags

/-- The flags in their places. -/
def word (F : StatusFlags) : BitVec 32 :=
  Words.bitAt 32 F.CF 0 ||| Words.bitAt 32 F.PF 2 ||| Words.bitAt 32 F.AF 4 |||
    Words.bitAt 32 F.ZF 6 ||| Words.bitAt 32 F.SF 7 ||| Words.bitAt 32 F.OF 11

def ofWord (v : BitVec 32) : StatusFlags where
  CF := v.getLsbD 0
  PF := v.getLsbD 2
  AF := v.getLsbD 4
  ZF := v.getLsbD 6
  SF := v.getLsbD 7
  OF := v.getLsbD 11

end StatusFlags

/-- What `eflags` and its lazy part stand for. -/
def Flags.eager (f : Flags) : EFlags := ⟨f.oszapc.status, f.eflags &&& ~~~EFlagsOSZAPCMask⟩

/-- Requests for the whole word, and for bits of it that are not arithmetic. -/
inductive WordOp : Type → Type
  | force_flags : WordOp (BitVec 32)
  | setEFlags (longMode : Bool) (new_eflags : BitVec 32) : WordOp PUnit
  | get (n : ℕ) (hn : EFlagsOSZAPCMask.getLsbD n = false) : WordOp Bool
  | set (n : ℕ) (hn : EFlagsOSZAPCMask.getLsbD n = false) (val : Bool) : WordOp PUnit

namespace WordOp

/-- `set_IF`, `set_DF` and their like. -/
def put (word : BitVec 32) (n : ℕ) (val : Bool) : BitVec 32 :=
  (word &&& ~~~BitVec.twoPow 32 n) ||| Words.bitAt 32 val n

/-- `force_flags` also stores the word. -/
def lazily : (β : Type) → WordOp β → Flags → β × Flags
  | _, .force_flags, f => (f.read_eflags, { f with eflags := f.read_eflags })
  | _, .setEFlags longMode new_eflags, f => (⟨⟩, f.setEFlags longMode new_eflags)
  | _, .get n _, f => (f.eflags.getLsbD n, f)
  | _, .set n _ val, f => (⟨⟩, { f with eflags := put f.eflags n val })

def eagerly : (β : Type) → WordOp β → EFlags → β × EFlags
  | _, .force_flags, F => (F.others ||| F.status.word, F)
  | _, .setEFlags longMode new_eflags, _ =>
    let v := if longMode then new_eflags &&& ~~~EFlagsVMMask else new_eflags
    (⟨⟩, ⟨.ofWord v, v &&& ~~~EFlagsOSZAPCMask⟩)
  | _, .get n _, F => (F.others.getLsbD n, F)
  | _, .set n _ val, F => (⟨⟩, { F with others := put F.others n val })

/-- The word that `force_flags` writes back. -/
theorem newflags_masked (f : LazyFlags) : f.newflags &&& EFlagsOSZAPCMask = f.status.word := by
  apply BitVec.eq_of_getLsbD_eq
  intro i hi
  interval_cases i <;>
    simp [LazyFlags.newflags, StatusFlags.word, LazyFlags.status, EFlagsOSZAPCMask]

/-- The pair stored for a flags word stands for the six flags in it. -/
theorem status_setEFlagsOSZAPC (f : LazyFlags) (v : BitVec 32) :
    (f.setEFlagsOSZAPC v).status = .ofWord v := by
  simp [LazyFlags.status, StatusFlags.ofWord]

/-- The flags word that is stored differs from the true one in arithmetic bits only. -/
theorem read_eflags_others (f : Flags) :
    f.read_eflags &&& ~~~EFlagsOSZAPCMask = f.eflags &&& ~~~EFlagsOSZAPCMask := by
  apply BitVec.eq_of_getLsbD_eq
  intro i hi
  unfold Flags.read_eflags
  simp only [BitVec.getLsbD_and, BitVec.getLsbD_or, BitVec.getLsbD_not]
  cases EFlagsOSZAPCMask.getLsbD i <;> simp

theorem put_others (word : BitVec 32) {n : ℕ} (hn : EFlagsOSZAPCMask.getLsbD n = false)
    (val : Bool) : put word n val &&& ~~~EFlagsOSZAPCMask =
      put (word &&& ~~~EFlagsOSZAPCMask) n val := by
  generalize EFlagsOSZAPCMask = mask at hn ⊢
  apply BitVec.eq_of_getLsbD_eq
  intro i hi
  have hi' : decide (i < 32) = true := decide_eq_true hi
  unfold put
  simp only [BitVec.getLsbD_and, BitVec.getLsbD_or, BitVec.getLsbD_not, Words.getLsbD_bitAt, hi',
    Bool.true_and]
  by_cases h : i = n
  · subst h
    simp [hn]
  · cases mask.getLsbD i <;> simp [h]

theorem gives {β : Type} (p : WordOp β) (f : Flags) :
    (p.eagerly β f.eager).1 = (p.lazily β f).1 ∧
      (p.eagerly β f.eager).2 = (p.lazily β f).2.eager := by
  cases p with
  | force_flags =>
    refine ⟨?_, ?_⟩
    · show f.eager.others ||| f.eager.status.word = f.read_eflags
      rw [Flags.eager, ← newflags_masked]
      rfl
    · show f.eager = _
      unfold Flags.eager lazily
      dsimp only
      rw [read_eflags_others]
  | setEFlags longMode new_eflags =>
    refine ⟨rfl, ?_⟩
    unfold Flags.eager lazily eagerly Flags.setEFlags
    dsimp only
    rw [status_setEFlagsOSZAPC]
  | get n hn =>
    refine ⟨?_, rfl⟩
    show (f.eflags &&& ~~~EFlagsOSZAPCMask).getLsbD n = f.eflags.getLsbD n
    by_cases h : n < 32
    · rw [BitVec.getLsbD_and, BitVec.getLsbD_not, hn, decide_eq_true h]
      exact Bool.and_true _
    · rw [BitVec.getLsbD_of_ge _ _ (by omega), BitVec.getLsbD_of_ge _ _ (by omega)]
  | set n hn val =>
    refine ⟨rfl, ?_⟩
    unfold Flags.eager lazily eagerly
    dsimp only
    rw [put_others _ hn]

end WordOp

/-! ## The flag unit -/

/-- A request to the flags: an operation of the arithmetic unit, or one on the flags word. -/
abbrev FlagOp (β : Type) : Type := AluOp β ⊕ WordOp β

/-- The flags of the emulator. -/
def lazily : Impl FlagOp Flags
  | β, .inl p, f =>
    let r := p.lazily β f.oszapc
    (r.1, { f with oszapc := r.2 })
  | β, .inr p, f => p.lazily β f

/-- The flags of the manuals. -/
def eagerly : Impl FlagOp EFlags
  | β, .inl p, F =>
    let r := p.eagerly β F.status
    (r.1, { F with status := r.2 })
  | β, .inr p, F => p.eagerly β F

/-- **The lazy flags refine the eager ones**, request by request. -/
theorem lazily_refines : Refines Flags.eager lazily eagerly where
  answer β p f := by
    cases p with
    | inl p => exact (p.gives f.oszapc).1.symm
    | inr p => exact (p.gives f).1
  after β p f := by
    cases p with
    | inl p =>
      unfold lazily eagerly Flags.eager
      dsimp only
      rw [(p.gives f.oszapc).2]
    | inr p => exact (p.gives f).2

end Bochs
