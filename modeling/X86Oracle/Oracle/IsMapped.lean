import Mathlib
import X86Oracle.Hw.Touched
import X86Oracle.Bochs.Mapped
import X86Oracle.Sail.Mapped

/-!
# `is_mapped` over any history

The trait calls the query a hint, and every backend answers it from something else: a set of pages
beside the RAM on KVM and WHP, the existence of a lazily allocated page on Bochs, the list of
16 MiB blocks on Sail.
-/

namespace Oracle

/-- On KVM and WHP no page with a stored byte is missing. -/
theorem isMapped_stored {content : Bytes.Store} {es : List Hw.MemEvent} {s : Hw.Tracked}
    (hrun : (Hw.Tracked.fresh content).run es = some s) :
    ∀ b ∈ es.flatMap Hw.stored, s.isMapped b = true :=
  fun b hb => Hw.isMapped_of_stored hrun (.inr ⟨b, hb, rfl⟩)

/-- On plain histories, a page of theirs is mapped exactly if a byte of it was stored. -/
theorem isMapped_plain (content : Bytes.Store) {es : List Hw.MemEvent}
    (hes : ∀ e ∈ es, Hw.MemEvent.Plain e) :
    ∃ s, (Hw.Tracked.fresh content).run es = some s ∧ ∀ a, s.isMapped a = true ↔
      ∃ b ∈ es.flatMap Hw.stored, Hw.pageOf b = Hw.pageOf a := by
  obtain ⟨s, hrun, hiff⟩ := Hw.isMapped_iff (Hw.Tracked.fresh content) hes
  have hfresh (a : UInt64) : (Hw.Tracked.fresh content).isMapped a = false := by
    simp [Hw.Tracked.isMapped, Hw.Tracked.fresh]
  refine ⟨s, hrun, fun a => ?_⟩
  rw [hiff, hfresh]
  exact or_iff_right Bool.false_ne_true

/-- **`is_mapped`.**  On KVM and WHP no page with a stored byte is missing, and on histories of
writes that stay in RAM and do not end a page the answer is exactly whether a byte of the page was
stored.  On Bochs it is whether the host wrote a byte of the page or the guest touched it, outside
the page tables.  On Sail it is whether the instance wrote a byte of the block. -/
theorem isMapped_history :
    (∀ content es s, (Hw.Tracked.fresh content).run es = some s →
      ∀ b ∈ es.flatMap Hw.stored, s.isMapped b = true) ∧
    (∀ content es, (∀ e ∈ es, Hw.MemEvent.Plain e) →
      ∃ s, (Hw.Tracked.fresh content).run es = some s ∧ ∀ a, s.isMapped a = true ↔
        ∃ b ∈ es.flatMap Hw.stored, Hw.pageOf b = Hw.pageOf a) ∧
    (∀ es addr, ¬ Bochs.Reserved addr → ((Bochs.memoryAfter es).mapped addr = true ↔
      ∃ b ∈ es.flatMap Bochs.MemEvent.touched,
        Bochs.GuestMemory.key b = Bochs.GuestMemory.key addr)) ∧
    ∀ (M R : Type) malloc (m : M) (calls : List (Sail.Call M R)) id,
      Sail.Valid (fun _ => false) calls →
      calls.foldl (fun live c => c.after live) (fun _ => false) id = true →
      ∀ addr, ∃ s answers s' b,
        (Sail.Process.fresh M).run malloc (.done m) calls = some (s, answers) ∧
        s.step malloc (.done m) (.isMapped id addr : Sail.Call M R) =
          some (s', some (id, .mapped b)) ∧
        (b = true ↔ ∃ a ∈ Sail.View.log (.done m) id (fun _ => none) [] calls,
          Sail.blockId a = Sail.blockId addr) := by
  refine ⟨fun content es s hrun => isMapped_stored hrun, fun content es => isMapped_plain content,
    fun es addr => Bochs.mapped_memEvents es, ?_⟩
  intro M R malloc m calls id hvalid hlive addr
  exact Sail.isMapped_answer malloc m hvalid hlive addr

/-- A fetch maps a page of the Bochs memory that was never written; on KVM and WHP an empty write
maps a page, and a write that ends with the address space panics. -/
theorem isMapped_not_exact :
    (¬ ∀ es addr, ¬ Bochs.Reserved addr → ((Bochs.memoryAfter es).mapped addr = true ↔
      ∃ b ∈ es.flatMap Bochs.MemEvent.stores,
        Bochs.GuestMemory.key b = Bochs.GuestMemory.key addr)) ∧
    (¬ ∀ content es s, (Hw.Tracked.fresh content).run es = some s → ∀ a, s.isMapped a = true →
      ∃ b ∈ es.flatMap Hw.stored, Hw.pageOf b = Hw.pageOf a) ∧
    (Hw.Tracked.fresh fun _ => 0).run [.write 0xFFFFFFFFFFFFFFFF [0]] = none := by
  refine ⟨fun h => ?_, fun h => ?_, rfl⟩
  · have hmapped := (Bochs.mapped_memEvents [.step [.getHostMemAddr 0x1000]]
      (show ¬ Bochs.Reserved 0x1000 by decide)).2 ⟨0x1000, by decide, rfl⟩
    obtain ⟨b, hb, -⟩ := (h _ _ (by decide)).1 hmapped
    nomatch hb
  · obtain ⟨b, hb, -⟩ := h (fun _ => 0) [.write 0x1000 []] _ rfl 0x1000 (by decide)
    nomatch hb

end Oracle
