import Mathlib
import X86Oracle.Lib.Words

/-!
# Bochs: lazily evaluated arithmetic flags

The emulator keeps OF, SF, ZF, AF, PF and CF as a result word and a word of auxiliary bits,
and works the flags out when they are read.

* `LazyFlags` with its readers `getB…` and writers `set…`, and `setEFlagsOSZAPC`, which loads all
  six from a flags word.
* `read_setEFlags`: whatever was there before, each flag reads back as loaded.  The writers are
  called one after the other on the same two words, so each of them keeps what the earlier ones
  stored.
-/

namespace Bochs

open Words

/-- `bx_lazyflags_entry`. -/
structure LazyFlags where
  result : BitVec 64
  auxbits : BitVec 64
deriving DecidableEq, Repr

namespace LazyFlags

/-! ## Readers -/

/-- The carries into and out of the top bit, which are bits 30 and 31, differ. -/
def getB_OF (f : LazyFlags) : Bool := (f.auxbits + 0x40000000#64).getLsbD 31

/-- The sign of the result, and a delta for a flag that was set otherwise. -/
def getB_SF (f : LazyFlags) : Bool := f.result.getLsbD 63 ^^ f.auxbits.getLsbD 0

/-- Without a delta: a flag set otherwise changes the result itself. -/
def getB_ZF (f : LazyFlags) : Bool := f.result == 0

/-- The carry out of the low nibble. -/
def getB_AF (f : LazyFlags) : Bool := f.auxbits.getLsbD 3

/-- The low byte of the result, with the parity delta byte folded in. -/
def parityByte (f : LazyFlags) : BitVec 64 :=
  (255#64 &&& f.result) ^^^ (255#64 &&& (f.auxbits >>> 8))

/-- The parity of a byte, from a table of the sixteen nibbles. -/
def evenParity (temp : BitVec 64) : Bool :=
  (0x9669#64 >>> ((temp ^^^ (temp >>> 4)) &&& 0x0F)).getLsbD 0

def getB_PF (f : LazyFlags) : Bool := evenParity f.parityByte

/-- The carry out of the top bit. -/
def getB_CF (f : LazyFlags) : Bool := f.auxbits.getLsbD 31

/-! ## Writers -/

/-- The masks are 32 bits wide, so clearing with one also clears the high half. -/
def set_flags_OxxxxC (f : LazyFlags) (new_of new_cf : Bool) : LazyFlags :=
  { f with
    auxbits :=
      (f.auxbits &&& 0x3FFFFFFF) ||| (bitAt 64 (new_of ^^ new_cf) 30 ||| bitAt 64 new_cf 31) }

/-- The carry flag is kept, by storing it again. -/
def set_OF (f : LazyFlags) (val : Bool) : LazyFlags := f.set_flags_OxxxxC val f.getB_CF

/-- The delta is flipped if the flag differs. -/
def set_SF (f : LazyFlags) (val : Bool) : LazyFlags :=
  { f with auxbits := f.auxbits ^^^ bitAt 64 (f.getB_SF ^^ val) 0 }

/-- A bit that neither sign nor parity depends on makes the result nonzero. -/
def clear_ZF (f : LazyFlags) : LazyFlags := { f with result := f.result ||| 0x100 }

/-- The result becomes zero. -/
def assert_ZF (f : LazyFlags) : LazyFlags :=
  -- the sign and the parity of the result move into the deltas before it is zeroed
  { result := 0
    auxbits := f.auxbits ^^^ bitAt 64 (f.result.getLsbD 63) 0 ^^^ ((255#64 &&& f.result) <<< 8) }

def set_ZF (f : LazyFlags) (val : Bool) : LazyFlags :=
  if val then f.assert_ZF else f.clear_ZF

def set_AF (f : LazyFlags) (val : Bool) : LazyFlags :=
  { f with auxbits := (f.auxbits &&& 0xFFFFFFF7) ||| bitAt 64 val 3 }

/-- The delta byte cancels the low byte of the result, but for one bit. -/
def set_PF (f : LazyFlags) (val : Bool) : LazyFlags :=
  { f with
    auxbits :=
      (f.auxbits &&& 0xFFFF00FF) ||| (((255#64 &&& f.result) ^^^ bitAt 64 (!val) 0) <<< 8) }

/-- The overflow flag is kept, by storing it again. -/
def set_CF (f : LazyFlags) (val : Bool) : LazyFlags := f.set_flags_OxxxxC f.getB_OF val

/-- Load the six flags from a flags word. -/
def setEFlagsOSZAPC (f : LazyFlags) (flags32 : BitVec 32) : LazyFlags :=
  (((((f.set_OF (flags32.getLsbD 11)).set_SF (flags32.getLsbD 7)).set_ZF
    (flags32.getLsbD 6)).set_AF (flags32.getLsbD 4)).set_PF (flags32.getLsbD 2)).set_CF
    (flags32.getLsbD 0)

/-! ## What a writer changes -/

/-- Adding to bit 30 carries into bit 31 exactly when bit 30 is set. -/
theorem getB_OF_eq (f : LazyFlags) :
    f.getB_OF = (f.auxbits.getLsbD 31 ^^ f.auxbits.getLsbD 30) := by
  have hadd : (0x40000000#64).toNat = 2 ^ 30 := rfl
  unfold getB_OF
  rw [BitVec.getLsbD, BitVec.toNat_add, hadd, Nat.testBit_mod_two_pow, testBit_add_two_pow]
  rfl

/-- The parity delta byte, one bit at a time. -/
theorem getLsbD_parityByte (f : LazyFlags) (i : ℕ) :
    f.parityByte.getLsbD i =
      (decide (i < 8) && (f.result.getLsbD i ^^ f.auxbits.getLsbD (8 + i))) := by
  unfold parityByte
  have hmask : (255#64).getLsbD i = decide (i < 8) := by
    rw [BitVec.getLsbD, BitVec.toNat_ofNat, show 255 % 2 ^ 64 = 2 ^ 8 - 1 by norm_num,
      Nat.testBit_two_pow_sub_one]
  simp only [BitVec.getLsbD_xor, BitVec.getLsbD_and, hmask,
    BitVec.getLsbD_ushiftRight]
  by_cases h : i < 8 <;> simp [h]

section Laws

variable (f : LazyFlags) (val : Bool)

@[simp] theorem getB_CF_set_CF : (f.set_CF val).getB_CF = val := by
  simp [getB_CF, set_CF, set_flags_OxxxxC]

/-- Carry and overflow share two bits; writing the one keeps the other. -/
@[simp] theorem getB_OF_set_CF : (f.set_CF val).getB_OF = f.getB_OF := by
  rw [getB_OF_eq (f.set_CF val)]
  simp only [set_CF, set_flags_OxxxxC]
  generalize f.getB_OF = b
  cases b <;> cases val <;> simp

@[simp] theorem getB_SF_set_CF : (f.set_CF val).getB_SF = f.getB_SF := by
  simp [getB_SF, set_CF, set_flags_OxxxxC]

@[simp] theorem getB_ZF_set_CF : (f.set_CF val).getB_ZF = f.getB_ZF := rfl

@[simp] theorem getB_AF_set_CF : (f.set_CF val).getB_AF = f.getB_AF := by
  simp [getB_AF, set_CF, set_flags_OxxxxC]

/-- The parity is kept by whatever leaves the sixteen bits it depends on. -/
theorem getB_PF_congr {f g : LazyFlags}
    (h : ∀ i < 8, (g.result.getLsbD i ^^ g.auxbits.getLsbD (8 + i)) =
      (f.result.getLsbD i ^^ f.auxbits.getLsbD (8 + i))) : g.getB_PF = f.getB_PF := by
  have hbyte : g.parityByte = f.parityByte := by
    apply BitVec.eq_of_getLsbD_eq
    intro i _
    rw [getLsbD_parityByte, getLsbD_parityByte]
    by_cases hi : i < 8
    · rw [h i hi]
    · simp [hi]
  unfold getB_PF
  rw [hbyte]

/-- No bit of the delta byte is touched. -/
@[simp] theorem getB_PF_set_CF : (f.set_CF val).getB_PF = f.getB_PF := by
  apply getB_PF_congr
  intro i hi
  interval_cases i <;> simp [set_CF, set_flags_OxxxxC]

/-! The parity flag is the parity of one bit once it has been written. -/

/-- What is left of the low byte is one bit, or none. -/
@[simp] theorem getB_PF_set_PF : (f.set_PF val).getB_PF = val := by
  have hbyte : (f.set_PF val).parityByte = bitAt 64 (!val) 0 := by
    apply BitVec.eq_of_getLsbD_eq
    intro i _
    rw [getLsbD_parityByte, getLsbD_bitAt]
    by_cases hi : i < 8
    · interval_cases i <;> simp [set_PF]
    · have : ¬ i = 0 := by omega
      simp [hi, this]
  unfold getB_PF
  rw [hbyte]
  cases val <;> rfl

@[simp] theorem getB_SF_set_PF : (f.set_PF val).getB_SF = f.getB_SF := by
  simp [getB_SF, set_PF]

@[simp] theorem getB_OF_set_PF : (f.set_PF val).getB_OF = f.getB_OF := by
  rw [getB_OF_eq, getB_OF_eq]
  simp [set_PF]

@[simp] theorem getB_ZF_set_PF : (f.set_PF val).getB_ZF = f.getB_ZF := rfl

@[simp] theorem getB_AF_set_PF : (f.set_PF val).getB_AF = f.getB_AF := by
  simp [getB_AF, set_PF]

@[simp] theorem getB_AF_set_AF : (f.set_AF val).getB_AF = val := by
  simp [getB_AF, set_AF]

@[simp] theorem getB_SF_set_AF : (f.set_AF val).getB_SF = f.getB_SF := by
  simp [getB_SF, set_AF]

@[simp] theorem getB_OF_set_AF : (f.set_AF val).getB_OF = f.getB_OF := by
  rw [getB_OF_eq, getB_OF_eq]
  simp [set_AF]

@[simp] theorem getB_ZF_set_AF : (f.set_AF val).getB_ZF = f.getB_ZF := rfl

/-- A result of zero, or one with bit 8 set. -/
@[simp] theorem getB_ZF_set_ZF : (f.set_ZF val).getB_ZF = val := by
  unfold set_ZF
  cases val
  · simp [getB_ZF, clear_ZF]
  · simp [getB_ZF, assert_ZF]

/-- The sign of the old result has moved into its delta. -/
@[simp] theorem getB_SF_set_ZF : (f.set_ZF val).getB_SF = f.getB_SF := by
  unfold set_ZF
  cases val
  · simp [getB_SF, clear_ZF]
  · simp [getB_SF, assert_ZF, Bool.xor_comm]

/-- The deltas are below the two carries. -/
@[simp] theorem getB_OF_set_ZF : (f.set_ZF val).getB_OF = f.getB_OF := by
  rw [getB_OF_eq, getB_OF_eq]
  unfold set_ZF
  cases val
  · simp [clear_ZF]
  · simp [assert_ZF]

@[simp] theorem getB_SF_set_SF : (f.set_SF val).getB_SF = val := by
  simp only [set_SF, getB_SF, BitVec.getLsbD_xor, getLsbD_bitAt]
  generalize f.result.getLsbD 63 = a
  generalize f.auxbits.getLsbD 0 = b
  cases a <;> cases b <;> cases val <;> rfl

@[simp] theorem getB_OF_set_SF : (f.set_SF val).getB_OF = f.getB_OF := by
  rw [getB_OF_eq, getB_OF_eq]
  simp [set_SF]

@[simp] theorem getB_OF_set_OF : (f.set_OF val).getB_OF = val := by
  rw [getB_OF_eq]
  simp only [set_OF, set_flags_OxxxxC]
  generalize f.getB_CF = b
  cases b <;> cases val <;> simp

end Laws

/-! ## Loading all six -/

section Load

variable (f : LazyFlags) (flags32 : BitVec 32)

/-- CF is written last. -/
@[simp] theorem getB_CF_load : (f.setEFlagsOSZAPC flags32).getB_CF = flags32.getLsbD 0 := by
  simp [setEFlagsOSZAPC]

@[simp] theorem getB_PF_load : (f.setEFlagsOSZAPC flags32).getB_PF = flags32.getLsbD 2 := by
  simp [setEFlagsOSZAPC]

@[simp] theorem getB_AF_load : (f.setEFlagsOSZAPC flags32).getB_AF = flags32.getLsbD 4 := by
  simp [setEFlagsOSZAPC]

@[simp] theorem getB_ZF_load : (f.setEFlagsOSZAPC flags32).getB_ZF = flags32.getLsbD 6 := by
  simp [setEFlagsOSZAPC]

@[simp] theorem getB_SF_load : (f.setEFlagsOSZAPC flags32).getB_SF = flags32.getLsbD 7 := by
  simp [setEFlagsOSZAPC]

/-- OF is written first, and kept by the writers of the other five. -/
@[simp] theorem getB_OF_load : (f.setEFlagsOSZAPC flags32).getB_OF = flags32.getLsbD 11 := by
  simp [setEFlagsOSZAPC]

end Load

/-- The six flags of `force_flags`, in their places. -/
def newflags (f : LazyFlags) : BitVec 32 :=
  bitAt 32 f.getB_CF 0 ||| bitAt 32 f.getB_PF 2 ||| bitAt 32 f.getB_AF 4 |||
    bitAt 32 f.getB_ZF 6 ||| bitAt 32 f.getB_SF 7 ||| bitAt 32 f.getB_OF 11

end LazyFlags

/-! ## The flags register -/

/-- The places of CF, PF, AF, ZF, SF and OF. -/
def EFlagsOSZAPCMask : BitVec 32 := 0x8D5

/-- Bit 17, virtual-8086 mode. -/
def EFlagsVMMask : BitVec 32 := 0x20000

/-- `eflags` and the lazy state of its arithmetic bits. -/
structure Flags where
  eflags : BitVec 32
  oszapc : LazyFlags
deriving DecidableEq, Repr

namespace Flags

/-- `force_flags`: the arithmetic bits from the lazy state, the others as stored. -/
def read_eflags (f : Flags) : BitVec 32 :=
  (f.eflags &&& ~~~EFlagsOSZAPCMask) ||| (f.oszapc.newflags &&& EFlagsOSZAPCMask)

/-- `setEFlags`; VM cannot be set from long mode. -/
def setEFlags (f : Flags) (longMode : Bool) (new_eflags : BitVec 32) : Flags :=
  let new_eflags := if longMode then new_eflags &&& ~~~EFlagsVMMask else new_eflags
  { eflags := new_eflags, oszapc := f.oszapc.setEFlagsOSZAPC new_eflags }

/-- The flags word reads back as stored, whatever the lazy state was. -/
theorem read_setEFlags (f : Flags) (longMode : Bool) (v : BitVec 32) :
    (f.setEFlags longMode v).read_eflags =
      if longMode then v &&& ~~~EFlagsVMMask else v := by
  unfold setEFlags
  generalize (if longMode then v &&& ~~~EFlagsVMMask else v) = w
  unfold read_eflags
  apply BitVec.eq_of_getLsbD_eq
  intro i hi
  interval_cases i <;> simp [LazyFlags.newflags, EFlagsOSZAPCMask]

end Flags

end Bochs
