import Mathlib
import X86Oracle.Lib.Component
import X86Oracle.Bochs.Mode
import X86Oracle.Bochs.FlagUnit

/-!
# Bochs: instructions on the flags word

`cpu/flag_ctrl.cc` and `flag_ctrl_pro.cc`.  The instructions test IOPL, VIP and IF, and what they
load of the flags has consequences for the rest of the machine.  The build has no SVM, whose guests
may have `PUSHF` and `POPF` intercepted.

* `Surroundings`: what they read of the rest of the machine, and what they do to it.
* `setEFlags`, `writeEFlags`: a flags word is loaded, in part.
* `POPF_Fw`, …, `CLAC`: the handlers.
* `read_writeEFlags`: a load changes the bits it is to change, and no others; `POPF_Fq_keeps`:
  without privileges neither IOPL nor, unless IOPL allows it, IF.
-/

namespace Bochs

open Component

variable {ε σ : Type}

/-- A handler: requests to the flags, between actions on the rest of the machine. -/
abbrev Handler (ε σ α : Type) : Type 1 := Code FlagOp ε σ α

namespace Handler

/-- A request to the arithmetic flags. -/
def alu {β : Type} (p : AluOp β) : Handler ε σ β := Code.request (.inl p)

/-- A request to the word as a whole, or to a bit of it that is not arithmetic. -/
def word {β : Type} (p : WordOp β) : Handler ε σ β := Code.request (.inr p)

/-- A register is written, or memory that has been read for modification: this cannot fault. -/
def act (g : σ → σ) : Handler ε σ PUnit := .env (modify g) .done

/-- The rest of the machine is read. -/
def look {α : Type} (g : σ → α) : Handler ε σ α := .env (do return g (← get)) .done

/-- `exception`, which does not come back. -/
def raise (e : ε) : Handler ε σ PUnit := .env (throw e) .done

/-- A step that is taken on a condition. -/
def doIf (b : Bool) (h : Handler ε σ PUnit) : Handler ε σ PUnit := if b then h else pure ⟨⟩

/-! ### Flags that are not arithmetic -/

def get_TF : Handler ε σ Bool := word (.get 8 rfl)

def get_IF : Handler ε σ Bool := word (.get 9 rfl)

def get_RF : Handler ε σ Bool := word (.get 16 rfl)

def get_VM : Handler ε σ Bool := word (.get 17 rfl)

def get_AC : Handler ε σ Bool := word (.get 18 rfl)

def get_VIF : Handler ε σ Bool := word (.get 19 rfl)

def get_VIP : Handler ε σ Bool := word (.get 20 rfl)

/-- Two bits of the word. -/
def get_IOPL : Handler ε σ ℕ := do
  let low ← word (.get 12 rfl)
  let high ← word (.get 13 rfl)
  return low.toNat + 2 * high.toNat

/-- `assert_DF` and `clear_DF`. -/
def set_DF (val : Bool) : Handler ε σ PUnit := word (.set 10 rfl val)

/-- `assert_VIF` and `clear_VIF`. -/
def set_VIF (val : Bool) : Handler ε σ PUnit := word (.set 19 rfl val)

end Handler

open Handler

/-! ## The rest of the machine -/

/-- What the flag instructions read of the rest of the machine, and what they do to it. -/
structure Surroundings (ε σ : Type) where
  cpu_mode : σ → Mode.CpuMode
  long_mode : σ → Bool
  CPL : σ → ℕ
  VME : σ → Bool
  PVI : σ → Bool
  isa486 : Bool
  isaVME : Bool
  /-- `exception(BX_GP_EXCEPTION, 0)`. -/
  GP : ε
  /-- `exception(BX_UD_EXCEPTION, 0)`. -/
  UD : ε
  panic : σ → σ
  RSP_COMMIT : σ → σ
  inhibit_interrupts : σ → σ
  invalidate_prefetch_q : σ → σ
  raiseAsync : σ → σ
  /-- With IF as it is now. -/
  handleInterruptMaskChange : Bool → σ → σ
  /-- With AC as it is now. -/
  handleAlignmentCheck : Bool → σ → σ
  /-- With VM as it is now. -/
  handleCpuModeChange : Bool → σ → σ

variable (C : Surroundings ε σ)

/-- `assert_IF` and `clear_IF`. -/
def set_IF (val : Bool) : Handler ε σ PUnit := do
  word (.set 9 rfl val)
  act (C.handleInterruptMaskChange val)

/-- `assert_AC` and `clear_AC`. -/
def set_AC (val : Bool) : Handler ε σ PUnit := do
  word (.set 18 rfl val)
  act (C.handleAlignmentCheck val)

/-! ## Loading the word -/

/-- The word is stored, and then what depends on RF, TF, IF, AC and VM is brought up to date. -/
def setEFlags (new_eflags : BitVec 32) : Handler ε σ PUnit := do
  let IF ← get_IF
  let VM ← get_VM
  let long_mode ← look C.long_mode
  doIf (long_mode && VM) (act C.panic)
  word (.setEFlags long_mode new_eflags)
  doIf (← get_RF) (act C.invalidate_prefetch_q)
  doIf (← get_TF) (act C.raiseAsync)
  let IF' ← get_IF
  doIf (IF ^^ IF') (act (C.handleInterruptMaskChange IF'))
  act (C.handleAlignmentCheck (← get_AC))
  let VM' ← get_VM
  doIf (VM ^^ VM') (act (C.handleCpuModeChange VM'))

/-- The bits of the word that can be changed: ID and AC, VIP and VIF only on CPUs that have
them. -/
def supportMask (isa486 isaVME : Bool) : BitVec 32 :=
  0x00037fd5 ||| (if isa486 then 0x00240000 else 0) ||| (if isaVME then 0x00180000 else 0)

/-- The bits in `changeMask` that the CPU has are loaded; the others are kept. -/
def writeEFlags (flags changeMask : BitVec 32) : Handler ε σ PUnit := do
  let changeMask := changeMask &&& supportMask C.isa486 C.isaVME
  let old ← word .force_flags
  setEFlags C ((old &&& ~~~changeMask) ||| (flags &&& changeMask))

/-! ### What a load leaves -/

section Load

variable {C} {s : σ} {f : Flags} {α : Type}

theorem run_word {β : Type} (p : WordOp β) (k : β → Handler ε σ α) :
    (word p >>= k).run lazily s f = (k (p.lazily β f).1).run lazily s (p.lazily β f).2 := rfl

theorem run_look {β : Type} (g : σ → β) (k : β → Handler ε σ α) :
    (look g >>= k).run lazily s f = (k (g s)).run lazily s f := rfl

theorem run_act (g : σ → σ) (k : PUnit → Handler ε σ α) :
    (act g >>= k).run lazily s f = (k ⟨⟩).run lazily (g s) f := rfl

/-- Whether it is taken or not, such a step leaves the flags alone. -/
theorem run_doIf (b : Bool) (g : σ → σ) (k : PUnit → Handler ε σ α) :
    (doIf b (act g) >>= k).run lazily s f = (k ⟨⟩).run lazily (if b then g s else s) f := by
  cases b <;> rfl

/-- What happens to the rest of the machine changes no flags. -/
theorem run_setEFlags (v : BitVec 32) :
    ∃ s', (setEFlags C v).run lazily s f = ⟨.ok ⟨⟩, s', f.setEFlags (C.long_mode s) v⟩ := by
  have hlast {s : σ} {f : Flags} (b : Bool) (g : σ → σ) :
      ∃ s', (doIf b (act g) : Handler ε σ PUnit).run lazily s f = ⟨.ok ⟨⟩, s', f⟩ := by
    cases b <;> exact ⟨_, rfl⟩
  unfold setEFlags get_IF get_VM get_RF get_TF get_AC
  simp only [run_word, run_look, run_act, run_doIf]
  exact hlast _ _

/-- **A load changes the bits it is to change**, as far as the CPU has them, and no others; in long
mode VM is clear. -/
theorem read_writeEFlags (flags changeMask : BitVec 32) :
    ∃ s' f', (writeEFlags C flags changeMask).run lazily s f = ⟨.ok ⟨⟩, s', f'⟩ ∧
      ∀ i < 32, i ≠ 17 → f'.read_eflags.getLsbD i =
        if (changeMask &&& supportMask C.isa486 C.isaVME).getLsbD i then flags.getLsbD i
        else f.read_eflags.getLsbD i := by
  unfold writeEFlags
  rw [run_word]
  dsimp only [WordOp.lazily]
  generalize changeMask &&& supportMask C.isa486 C.isaVME = mask
  obtain ⟨s', hs'⟩ := run_setEFlags (C := C) (s := s) (f := { f with eflags := f.read_eflags })
    ((f.read_eflags &&& ~~~mask) ||| (flags &&& mask))
  refine ⟨s', _, hs', fun i hi hVM => ?_⟩
  generalize hv : (f.read_eflags &&& ~~~mask) ||| (flags &&& mask) = v
  have hkept : (if C.long_mode s then v &&& ~~~EFlagsVMMask else v).getLsbD i = v.getLsbD i := by
    have hmask : EFlagsVMMask.getLsbD i = false := by
      rw [show EFlagsVMMask = BitVec.twoPow 32 17 from rfl, BitVec.getLsbD_twoPow]
      simp [hVM.symm]
    split_ifs
    · rw [BitVec.getLsbD_and, BitVec.getLsbD_not, hmask, decide_eq_true hi]
      exact Bool.and_true _
    · rfl
  rw [Flags.read_setEFlags, hkept, ← hv, BitVec.getLsbD_or, BitVec.getLsbD_and, BitVec.getLsbD_and,
    BitVec.getLsbD_not, decide_eq_true hi]
  cases mask.getLsbD i <;> simp

end Load

def EFlagsTFMask : BitVec 32 := 0x100
def EFlagsIFMask : BitVec 32 := 0x200
def EFlagsDFMask : BitVec 32 := 0x400
def EFlagsIOPLMask : BitVec 32 := 0x3000
def EFlagsNTMask : BitVec 32 := 0x4000
def EFlagsRFMask : BitVec 32 := 0x10000
def EFlagsACMask : BitVec 32 := 0x40000
def EFlagsVIFMask : BitVec 32 := 0x80000
def EFlagsIDMask : BitVec 32 := 0x200000

/-- What `POPF` can change at any privilege level: of the low half, and of the word. -/
def popMask16 : BitVec 32 := EFlagsOSZAPCMask ||| EFlagsTFMask ||| EFlagsDFMask ||| EFlagsNTMask
def popMask32 : BitVec 32 := popMask16 ||| EFlagsRFMask ||| EFlagsIDMask ||| EFlagsACMask

/-- What it can change besides in protected mode. -/
def privilegedMask (CPL IOPL : ℕ) : BitVec 32 :=
  (if CPL = 0 then EFlagsIOPLMask else 0) ||| (if CPL ≤ IOPL then EFlagsIFMask else 0)

/-! ## The handlers -/

/-- OF is not in AH, and stays. -/
def SAHF (AH : EStateM ε σ (BitVec 8)) : Handler ε σ PUnit := do
  let AH ← AH
  alu (.set .SF (AH.getLsbD 7))
  alu (.set .ZF (AH.getLsbD 6))
  alu (.set .AF (AH.getLsbD 4))
  alu (.set .CF (AH.getLsbD 0))
  alu (.set .PF (AH.getLsbD 2))

def LAHF (AH : BitVec 8 → σ → σ) : Handler ε σ PUnit := do
  let eflags ← word .force_flags
  act (AH (eflags.setWidth 8))

def CMC : Handler ε σ PUnit := do
  let CF ← alu (.test .B)
  alu (.set .CF !CF)

def CLD : Handler ε σ PUnit := set_DF false

def STD : Handler ε σ PUnit := set_DF true

/-- A program that may not clear IF faults, or clears VIF where the CPU virtualizes it. -/
def CLI : Handler ε σ PUnit := do
  let IOPL ← get_IOPL
  let CPL ← look C.CPL
  match ← look C.cpu_mode with
  | .real => set_IF C false
  | .v8086 =>
    if IOPL ≠ 3 then
      if ← look C.VME then set_VIF false else raise C.GP
    else set_IF C false
  | _ =>
    if (← look C.PVI) && CPL == 3 then
      if IOPL < 3 then set_VIF false else set_IF C false
    else if IOPL < CPL then raise C.GP
    else set_IF C false

/-- The end of `STI`: interrupts are held off for one instruction. -/
def unmaskInterrupts : Handler ε σ PUnit := do
  if !(← get_IF) then
    set_IF C true
    act C.inhibit_interrupts
  else pure ⟨⟩

/-- Likewise; with VIF virtualized, a pending virtual interrupt faults. -/
def STI : Handler ε σ PUnit := do
  let IOPL ← get_IOPL
  let CPL ← look C.CPL
  match ← look C.cpu_mode with
  | .real => unmaskInterrupts C
  | .v8086 =>
    if IOPL ≠ 3 then
      if (← look C.VME) && !(← get_VIP) then set_VIF true else raise C.GP
    else unmaskInterrupts C
  | _ =>
    if (← look C.PVI) && CPL == 3 && IOPL < 3 then
      if !(← get_VIP) then set_VIF true else raise C.GP
    else if IOPL < CPL then raise C.GP
    else unmaskInterrupts C

/-- `STAC` and `CLAC`. -/
def changeAC (val : Bool) : Handler ε σ PUnit := do
  if (← look C.CPL) ≠ 0 then raise C.UD else set_AC C val

def STAC : Handler ε σ PUnit := changeAC C true

def CLAC : Handler ε σ PUnit := changeAC C false

/-- In v8086 mode with VME, VIF is seen in the place of IF and IOPL reads as 3. -/
def PUSHF_Fw (push_16 : BitVec 16 → EStateM ε σ PUnit) : Handler ε σ PUnit := do
  let flags := (← word .force_flags).setWidth 16
  if (← look C.cpu_mode) = .v8086 ∧ (← get_IOPL) < 3 then
    if ← look C.VME then
      let flags := flags ||| EFlagsIOPLMask.setWidth 16
      if ← get_VIF then push_16 (flags ||| EFlagsIFMask.setWidth 16)
      else push_16 (flags &&& ~~~EFlagsIFMask.setWidth 16)
    else raise C.GP
  else push_16 flags

/-- VM and RF are clear in the image. -/
def PUSHF_Fd (push_32 : BitVec 32 → EStateM ε σ PUnit) : Handler ε σ PUnit := do
  if (← look C.cpu_mode) = .v8086 ∧ (← get_IOPL) < 3 then raise C.GP
  else push_32 ((← word .force_flags) &&& 0x00fcffff)

def PUSHF_Fq (push_64 : BitVec 64 → EStateM ε σ PUnit) : Handler ε σ PUnit := do
  let eflags ← word .force_flags
  push_64 ((eflags &&& 0x00fcffff).setWidth 64)

/-- `pop_16` begins with `RSP_SPECULATIVE`. -/
def POPF_Fw (pop_16 : EStateM ε σ (BitVec 16)) : Handler ε σ PUnit := do
  let flags16 ← pop_16
  let flags32 := flags16.setWidth 32
  let IOPL ← get_IOPL
  match ← look C.cpu_mode with
  | .real =>
    writeEFlags C flags32 (popMask16 ||| EFlagsIOPLMask ||| EFlagsIFMask)
    act C.RSP_COMMIT
  | .v8086 =>
    if IOPL < 3 then
      if ← look C.VME then
        if (flags16.getLsbD 9 && (← get_VIP)) || flags16.getLsbD 8 then raise C.GP
        else
          writeEFlags C (if flags16.getLsbD 9 then flags32 ||| EFlagsVIFMask else flags32)
            (popMask16 ||| EFlagsVIFMask)
          act C.RSP_COMMIT
      else raise C.GP
    else
      writeEFlags C flags32 (popMask16 ||| EFlagsIFMask)
      act C.RSP_COMMIT
  | _ =>
    writeEFlags C flags32 (popMask16 ||| privilegedMask (← look C.CPL) IOPL)
    act C.RSP_COMMIT

/-- `pop_32` begins with `RSP_SPECULATIVE`.  RF is clear after it. -/
def POPF_Fd (pop_32 : EStateM ε σ (BitVec 32)) : Handler ε σ PUnit := do
  let flags32 := (← pop_32) &&& ~~~EFlagsRFMask
  let IOPL ← get_IOPL
  match ← look C.cpu_mode with
  | .real =>
    writeEFlags C flags32 (popMask32 ||| EFlagsIOPLMask ||| EFlagsIFMask)
    act C.RSP_COMMIT
  | .v8086 =>
    if IOPL < 3 then raise C.GP
    else
      writeEFlags C flags32 (popMask32 ||| EFlagsIFMask)
      act C.RSP_COMMIT
  | _ =>
    writeEFlags C flags32 (popMask32 ||| privilegedMask (← look C.CPL) IOPL)
    act C.RSP_COMMIT

/-- Nothing is committed at the end: the stack pointer is in the registers already. -/
def POPF_Fq (pop_64 : EStateM ε σ (BitVec 64)) : Handler ε σ PUnit := do
  let eflags32 := (← pop_64).setWidth 32 &&& ~~~EFlagsRFMask
  let IOPL ← get_IOPL
  writeEFlags C eflags32 (popMask32 ||| privilegedMask (← look C.CPL) IOPL)

/-! ## Privileges -/

/-- `get_IOPL`, of a word. -/
def IOPL (eflags : BitVec 32) : ℕ :=
  (eflags.getLsbD 12).toNat + 2 * (eflags.getLsbD 13).toNat

section Privilege

variable {C} {s t : σ} {f : Flags} {α : Type}

theorem run_env {β : Type} {m : EStateM ε σ β} {b : β} (h : m s = .ok b t)
    (k : β → Handler ε σ α) :
    ((liftM m : Handler ε σ β) >>= k).run lazily s f = (k b).run lazily t f := by
  show Code.run lazily (.env m fun b => (Code.done b).bind k) s f = _
  rw [Code.run, h]
  rfl

theorem run_get_IOPL (k : ℕ → Handler ε σ α) :
    (get_IOPL >>= k).run lazily s f = (k (IOPL f.eflags)).run lazily s f := rfl

/-- **Without privileges `POPF` keeps IOPL**, and IF where IOPL says so. -/
theorem POPF_Fq_keeps {pop_64 : EStateM ε σ (BitVec 64)} {v : BitVec 64}
    (hpop : pop_64 s = .ok v t) (hCPL : C.CPL t ≠ 0) :
    ∃ s' f', (POPF_Fq C pop_64).run lazily s f = ⟨.ok ⟨⟩, s', f'⟩ ∧
      IOPL f'.read_eflags = IOPL f.read_eflags ∧
      (IOPL f.eflags < C.CPL t → f'.read_eflags.getLsbD 9 = f.read_eflags.getLsbD 9) := by
  unfold POPF_Fq
  rw [run_env hpop, run_get_IOPL, run_look]
  obtain ⟨s', f', hrun, hbits⟩ := read_writeEFlags (C := C) (s := t) (f := f)
    (v.setWidth 32 &&& ~~~EFlagsRFMask) (popMask32 ||| privilegedMask (C.CPL t) (IOPL f.eflags))
  have hmask : privilegedMask (C.CPL t) (IOPL f.eflags) =
      if C.CPL t ≤ IOPL f.eflags then EFlagsIFMask else 0 := by
    unfold privilegedMask
    rw [if_neg hCPL]
    exact BitVec.zero_or
  rw [hmask] at hbits
  have hkept {i : ℕ} (hi : i < 32) (hVM : i ≠ 17)
      (h : ((popMask32 ||| if C.CPL t ≤ IOPL f.eflags then EFlagsIFMask else 0) &&&
        supportMask C.isa486 C.isaVME).getLsbD i = false) :
      f'.read_eflags.getLsbD i = f.read_eflags.getLsbD i := by
    rw [hbits i hi hVM, h, if_neg Bool.false_ne_true]
  refine ⟨s', f', hrun, ?_, fun hIF => ?_⟩
  · have h12 : f'.read_eflags.getLsbD 12 = f.read_eflags.getLsbD 12 := by
      apply hkept (by decide) (by decide)
      rw [BitVec.getLsbD_and, BitVec.getLsbD_or]
      split_ifs <;> rfl
    have h13 : f'.read_eflags.getLsbD 13 = f.read_eflags.getLsbD 13 := by
      apply hkept (by decide) (by decide)
      rw [BitVec.getLsbD_and, BitVec.getLsbD_or]
      split_ifs <;> rfl
    unfold IOPL
    rw [h12, h13]
  · apply hkept (by decide) (by decide)
    rw [if_neg hIF.not_ge, BitVec.getLsbD_and, BitVec.getLsbD_or]
    rfl

end Privilege

end Bochs
