import Mathlib
import X86Oracle.Lib.Bytes
import X86Oracle.Oracle.Snapshot

/-!
# Sail: register accessors

The accessors of `sail/harness.sail` and the loops of `src/sail.rs` around them.  The harness
stores the flags word it is given; nothing is masked or forced.
-/

namespace Sail

open Oracle

/-! ## Slices of a vector register -/

/-- `v[64 * i + 63 .. 64 * i]`. -/
def chunk (v : BitVec 512) (i : ℕ) : BitVec 64 := v.extractLsb' (64 * i) 64

/-- `v[64 * i + 63 .. 64 * i] = value`. -/
def setChunk (v : BitVec 512) (i : ℕ) (value : BitVec 64) : BitVec 512 :=
  (v &&& ~~~((BitVec.allOnes 64).setWidth 512 <<< (64 * i))) ||| (value.setWidth 512 <<< (64 * i))

theorem chunk_setChunk (v : BitVec 512) {i j : ℕ} (value : BitVec 64) (hi : i < 8) (hj : j < 8) :
    chunk (setChunk v i value) j = if j = i then value else chunk v j := by
  apply BitVec.eq_of_getLsbD_eq
  intro k hk
  unfold chunk setChunk
  rw [BitVec.getLsbD_extractLsb']
  simp only [BitVec.getLsbD_or, BitVec.getLsbD_and, BitVec.getLsbD_not, BitVec.getLsbD_shiftLeft,
    BitVec.getLsbD_setWidth, BitVec.getLsbD_allOnes]
  have hin : 64 * j + k < 512 := by omega
  by_cases hij : j = i
  · subst hij
    have hlow : ¬ 64 * j + k < 64 * j := by omega
    have hsub : 64 * j + k - 64 * j = k := by omega
    have hk512 : k < 512 := by omega
    simp [hk, hin, hlow, hsub, hk512]
  · have hout : 64 * j + k < 64 * i ∨ ¬ 64 * j + k - 64 * i < 64 := by omega
    have hhigh (h : ¬ 64 * j + k - 64 * i < 64) : value.getLsbD (64 * j + k - 64 * i) = false :=
      BitVec.getLsbD_of_ge _ _ (by omega)
    rw [if_neg hij, BitVec.getLsbD_extractLsb']
    rcases hout with h | h
    · simp [hk, hin, h]
    · simp [hk, hin, h, hhigh h]

/-! ## The registers -/

/-- The registers a snapshot covers. -/
structure Registers where
  rgfs : Fin 16 → UInt64
  rip : UInt64
  rflags : BitVec 32
  zmms : Fin 32 → BitVec 512

namespace Registers

/-- `sail_sign_extend(value, 64)` of a 48-bit value. -/
def signExtend48 (value : BitVec 48) : UInt64 := UInt64.ofBitVec (value.signExtend 64)

def set_gpr (cpu : Registers) (n : Fin 16) (value : UInt64) : Registers :=
  { cpu with rgfs := Function.update cpu.rgfs n value }

def get_gpr (cpu : Registers) (n : Fin 16) : UInt64 := cpu.rgfs n

/-- `write_rip(truncate(value, 48))`, which stores its argument sign-extended. -/
def set_rip (cpu : Registers) (value : UInt64) : Registers :=
  { cpu with rip := signExtend48 (value.toBitVec.setWidth 48) }

def get_rip (cpu : Registers) : UInt64 := signExtend48 (cpu.rip.toBitVec.setWidth 48)

def set_rflags (cpu : Registers) (value : UInt64) : Registers :=
  { cpu with rflags := value.toBitVec.setWidth 32 }

def get_rflags (cpu : Registers) : UInt64 := UInt64.ofBitVec (cpu.rflags.setWidth 64)

def set_zmm_chunk (cpu : Registers) (n : Fin 32) (idx : ℕ) (value : UInt64) : Registers :=
  { cpu with
    zmms := Function.update cpu.zmms n (setChunk (cpu.zmms n) (idx % 8) value.toBitVec) }

def get_zmm_chunk (cpu : Registers) (n : Fin 32) (idx : ℕ) : UInt64 :=
  UInt64.ofBitVec (chunk (cpu.zmms n) (idx % 8))

/-- `SailOracle::set_zmm`: all eight chunks, zero past the end of `data`. -/
def set_zmm (cpu : Registers) (n : Fin 32) (data : List UInt64) : Registers :=
  (List.range 8).foldl (fun cpu i => cpu.set_zmm_chunk n i (data.getD i 0)) cpu

def oracle : X86Oracle Registers :=
  { setGpr := set_gpr
    getGpr := get_gpr
    setRip := set_rip
    getRip := get_rip
    setRflags := set_rflags
    getRflags := get_rflags
    setZmm := set_zmm
    getZmm := fun cpu n i => cpu.get_zmm_chunk n i }

end Registers

/-- The model keeps every chunk and the flags word as it is. -/
def storage : Storage := { flags := id, holds := fun _ _ => true }

/-! ## The accessors refine the cells -/

/-- Truncating a canonical address to 48 bits loses nothing. -/
theorem signExtend48_canonical {v : UInt64} (h : Paging.Canonical v) :
    Registers.signExtend48 (v.toBitVec.setWidth 48) = v := by
  have hlt := v.toNat_lt
  apply UInt64.toNat_inj.1
  unfold Registers.signExtend48
  rw [UInt64.toNat_ofBitVec, BitVec.toNat_signExtend, BitVec.msb_eq_decide]
  simp only [BitVec.toNat_setWidth, UInt64.toNat_toBitVec]
  rcases h with h | h
  · rw [if_neg (by simp; omega)]
    omega
  · rw [if_pos (by simp; omega)]
    omega

/-- Truncating a portable flags word to 32 bits loses nothing. -/
theorem setWidth_portable {v : UInt64} (h : PortableFlags v) :
    UInt64.ofBitVec ((v.toBitVec.setWidth 32).setWidth 64) = v := by
  have hlt := h.toNat_lt
  apply UInt64.toNat_inj.1
  rw [UInt64.toNat_ofBitVec, BitVec.toNat_setWidth, BitVec.toNat_setWidth, UInt64.toNat_toBitVec]
  omega

/-- The loop over the chunks of a register writes them all, and nothing else. -/
theorem set_zmm_spec (cpu : Registers) (n : Fin 32) (data : List UInt64) :
    ∃ v : BitVec 512, cpu.set_zmm n data = { cpu with zmms := Function.update cpu.zmms n v } ∧
      ∀ i < 8, chunk v i = (data.getD i 0).toBitVec := by
  obtain ⟨v, hv, hlow, -⟩ := Bytes.foldl_range_induction
    (f := fun cpu i => Registers.set_zmm_chunk cpu n i (data.getD i 0)) (n := 8) (s := cpu)
    (fun k t => ∃ v : BitVec 512, t = { cpu with zmms := Function.update cpu.zmms n v } ∧
      (∀ i < k, chunk v i = (data.getD i 0).toBitVec) ∧ k ≤ 8)
    ⟨cpu.zmms n, by simp, by omega, by omega⟩
    (by
      rintro k t hk ⟨v, rfl, hlow, -⟩
      refine ⟨setChunk v k (data.getD k 0).toBitVec, ?_, fun i hi => ?_, by omega⟩
      · simp [Registers.set_zmm_chunk, Nat.mod_eq_of_lt hk]
      · rw [chunk_setChunk v _ hk (by omega)]
        by_cases hik : i = k
        · rw [if_pos hik, hik]
        · rw [if_neg hik, hlow i (by omega)])
  exact ⟨v, hv, hlow⟩

theorem refines : Refines Registers.oracle storage where
  setGpr cpu i v := rfl
  setRip cpu v hv := by
    have hget : (cpu.set_rip v).get_rip = v := by
      simp only [Registers.get_rip, Registers.set_rip, signExtend48_canonical hv]
    simp only [X86Oracle.snapshot, Registers.oracle, CpuState.withRip, hget]
    rfl
  setRflags cpu v hv := by
    have hget : (cpu.set_rflags v).get_rflags = v := setWidth_portable hv
    simp only [X86Oracle.snapshot, Registers.oracle, CpuState.withRflags, hget]
    rfl
  setZmm cpu n v := by
    obtain ⟨w, hset, hchunk⟩ := set_zmm_spec cpu n (List.ofFn v)
    simp only [X86Oracle.snapshot, Registers.oracle, CpuState.withZmm, hset]
    congr 1
    funext m i
    by_cases hm : m = n
    · subst hm
      simp only [Registers.get_zmm_chunk, Function.update_self, Nat.mod_eq_of_lt i.isLt,
        hchunk i i.isLt, getD_ofFn, storage, UInt64.ofBitVec_toBitVec, cond_true]
    · simp [Registers.get_zmm_chunk, hm]

end Sail
