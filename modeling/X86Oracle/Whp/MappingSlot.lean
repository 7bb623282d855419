import Mathlib
import X86Oracle.Lib.Run

/-!
# The guest RAM mapping of the WHP backend

The hypervisor lets one partition of a process have a range mapped; `MAPPING_OWNER`
(`src/whp.rs`) records which. `claim_mapping` hands the mapping over, in `try_new` and at the
start of every `step`; `Drop for Partition` gives it up before it deletes the partition.

The model is a system over any types of threads and of partition handles. `try_new` and `step`
hold the backend's lock throughout, `drop` does not; the slot is read and written under its own
mutex only, so a store to it is one step with the call before it, and the mutex is taken in one
step with the test of the slot. Every call of the platform may fail. A handle value is free again
as soon as its partition is deleted.

* `Inv`: who holds which lock, what the slot says at every place of every thread, and which
  partition is mapped.
* `mapping_protocol`: the guarantees at every run, unmap and test of the slot, over every
  interleaving.
-/

namespace Whp.MappingSlot

open Run

/-! ## State -/

/-- Who calls `claim_mapping`. -/
inductive Caller where
  | tryNew
  | step
deriving DecidableEq, Repr

/-- Where a thread is. -/
inductive Pc (H : Type*) where
  | idle
  /-- In `try_new`, before `WHvCreatePartition`. -/
  | creating
  /-- In `try_new`, from the properties to the virtual processor. -/
  | configuring (h : H)
  /-- In `claim_mapping`, before the mutex. -/
  | claiming (h : H) (c : Caller)
  /-- In `claim_mapping`, before `WHvUnmapGpaRange` of the partition the slot names. -/
  | unmapping (h : H) (c : Caller) (previous : H)
  /-- In `claim_mapping`, before `WHvMapGpaRange`. -/
  | mapping (h : H) (c : Caller)
  /-- In `try_new`, past `claim_mapping`. -/
  | entering (h : H)
  /-- In `step`, past `claim_mapping`: the virtual processor may be run. -/
  | running (h : H)
  /-- In `drop`, before the mutex; `locked` if an unfinished `try_new` drops its partition. -/
  | dropping (h : H) (locked : Bool)
  /-- In `drop`, before `WHvUnmapGpaRange`. -/
  | dropUnmapping (h : H) (locked : Bool)
  /-- In `drop`, before `WHvDeletePartition`. -/
  | deleting (h : H) (locked : Bool)
deriving DecidableEq, Repr

variable {T H : Type*}

structure State (T H : Type*) where
  pc : T → Pc H
  /-- Owner of the backend's lock. -/
  lock : Option T
  /-- Owner of the slot's mutex. -/
  slotLock : Option T
  /-- `MAPPING_OWNER`. -/
  owner : Option H
  /-- The partitions the hypervisor knows. -/
  live : H → Bool
  /-- The partitions whose RAM it has mapped. -/
  mapped : H → Bool
  /-- The constructed oracles no call is using. -/
  oracles : H → Bool

def State.initial : State T H :=
  { pc := fun _ => .idle, lock := none, slotLock := none, owner := none, live := fun _ => false
    mapped := fun _ => false, oracles := fun _ => false }

namespace Pc

/-- The partition a thread works on. -/
def uses : Pc H → Option H
  | idle | creating => none
  | configuring h | claiming h _ | unmapping h _ _ | mapping h _ | entering h | running h
  | dropping h _ | dropUnmapping h _ | deleting h _ => some h

/-- The thread holds the backend's lock. -/
def locked : Pc H → Bool
  | idle => false
  | creating | configuring _ | claiming _ _ | unmapping _ _ _ | mapping _ _ | entering _
  | running _ => true
  | dropping _ l | dropUnmapping _ l | deleting _ l => l

/-- The thread holds the slot's mutex. -/
def slotLocked : Pc H → Bool
  | unmapping _ _ _ | mapping _ _ | dropUnmapping _ _ | deleting _ _ => true
  | _ => false

end Pc

/-! ## Steps -/

/-- What a thread does next. `ok` is the answer of the platform call. -/
inductive Action (H : Type*) where
  /-- `try_new` takes the lock. -/
  | callNew
  /-- `WHvCreatePartition`. -/
  | create (answer : Option H)
  /-- The properties, `WHvSetupPartition`, the RAM and `WHvCreateVirtualProcessor`. -/
  | configure (ok : Bool)
  /-- `claim_mapping` takes the mutex and tests the slot. -/
  | claim
  | unmap (ok : Bool)
  | map (ok : Bool)
  /-- `enter_long_mode`, and `try_new` returns. -/
  | enter (ok : Bool)
  /-- `step` takes the lock. -/
  | callStep (h : H)
  /-- `WHvRunVirtualProcessor`, whatever it answers. -/
  | run
  /-- `step` returns. -/
  | endStep
  /-- `drop` of an oracle begins. -/
  | callDrop (h : H)
  /-- `drop` takes the mutex and tests the slot. -/
  | dropTest
  | dropUnmap (ok : Bool)
  /-- `WHvDeleteVirtualProcessor` and `WHvDeletePartition`. -/
  | delete
deriving DecidableEq, Repr

def Enabled (s : State T H) : T × Action H → Prop
  | (t, .callNew) => s.pc t = .idle ∧ s.lock = none
  | (t, .create (some h)) => s.pc t = .creating ∧ s.live h = false
  | (t, .create none) => s.pc t = .creating
  | (t, .configure _) => ∃ h, s.pc t = .configuring h
  | (t, .claim) => (∃ h c, s.pc t = .claiming h c) ∧ s.slotLock = none
  | (t, .unmap _) => ∃ h c previous, s.pc t = .unmapping h c previous
  | (t, .map _) => ∃ h c, s.pc t = .mapping h c
  | (t, .enter _) => ∃ h, s.pc t = .entering h
  | (t, .callStep h) => s.pc t = .idle ∧ s.lock = none ∧ s.oracles h = true
  | (t, .run) => ∃ h, s.pc t = .running h
  | (t, .endStep) => ∃ h, s.pc t = .running h
  | (t, .callDrop h) => s.pc t = .idle ∧ s.oracles h = true
  | (t, .dropTest) => (∃ h l, s.pc t = .dropping h l) ∧ s.slotLock = none
  | (t, .dropUnmap _) => ∃ h l, s.pc t = .dropUnmapping h l
  | (t, .delete) => ∃ h l, s.pc t = .deleting h l

section Next

variable [DecidableEq T] [DecidableEq H]

def State.goto (s : State T H) (t : T) (p : Pc H) : State T H :=
  { s with pc := Function.update s.pc t p }

/-- `claim_mapping` has succeeded. -/
def Caller.claimed (h : H) : Caller → Pc H
  | .tryNew => .entering h
  | .step => .running h

/-- `claim_mapping` has failed: `try_new` drops its partition, `step` returns a fault. -/
def State.refused (s : State T H) (t : T) (h : H) : Caller → State T H
  | .tryNew => s.goto t (.dropping h true)
  | .step => { s.goto t .idle with lock := none, oracles := Function.update s.oracles h true }

def next (s : State T H) : T × Action H → State T H
  | (t, .callNew) => { s.goto t .creating with lock := some t }
  | (t, .create (some h)) =>
    { s.goto t (.configuring h) with live := Function.update s.live h true }
  | (t, .create none) => { s.goto t .idle with lock := none }
  | (t, .configure ok) =>
    match s.pc t with
    | .configuring h => s.goto t (if ok then .claiming h .tryNew else .dropping h true)
    | _ => s
  | (t, .claim) =>
    match s.pc t with
    | .claiming h c =>
      if s.owner = some h then s.goto t (c.claimed h)
      else match s.owner with
        | some previous => { s.goto t (.unmapping h c previous) with slotLock := some t }
        | none => { s.goto t (.mapping h c) with slotLock := some t }
    | _ => s
  | (t, .unmap ok) =>
    match s.pc t with
    | .unmapping h c previous =>
      if ok then
        { s.goto t (.mapping h c) with
          mapped := Function.update s.mapped previous false, owner := none }
      else { s.refused t h c with slotLock := none }
    | _ => s
  | (t, .map ok) =>
    match s.pc t with
    | .mapping h c =>
      if ok then
        { s.goto t (c.claimed h) with
          mapped := Function.update s.mapped h true, owner := some h, slotLock := none }
      else { s.refused t h c with slotLock := none }
    | _ => s
  | (t, .enter ok) =>
    match s.pc t with
    | .entering h =>
      if ok then { s.goto t .idle with lock := none, oracles := Function.update s.oracles h true }
      else s.goto t (.dropping h true)
    | _ => s
  | (t, .callStep h) =>
    { s.goto t (.claiming h .step) with
      lock := some t, oracles := Function.update s.oracles h false }
  | (_, .run) => s
  | (t, .endStep) =>
    match s.pc t with
    | .running h => { s.goto t .idle with
        lock := none, oracles := Function.update s.oracles h true }
    | _ => s
  | (t, .callDrop h) =>
    { s.goto t (.dropping h false) with oracles := Function.update s.oracles h false }
  | (t, .dropTest) =>
    match s.pc t with
    | .dropping h l =>
      { s.goto t (if s.owner = some h then .dropUnmapping h l else .deleting h l) with
        slotLock := some t }
    | _ => s
  | (t, .dropUnmap ok) =>
    match s.pc t with
    | .dropUnmapping h l =>
      { s.goto t (.deleting h l) with
        mapped := if ok then Function.update s.mapped h false else s.mapped, owner := none }
    | _ => s
  | (t, .delete) =>
    match s.pc t with
    | .deleting h l =>
      { s.goto t .idle with
        live := Function.update s.live h false, mapped := Function.update s.mapped h false
        slotLock := none, lock := if l then none else s.lock }
    | _ => s

/-- The mapping protocol as a system. -/
def system (T H : Type*) [DecidableEq T] [DecidableEq H] : System (State T H) (T × Action H) :=
  { enabled := Enabled, next := next }

end Next

/-! ## The invariant -/

/-- What the slot says while a thread is at a place. -/
def At (owner : Option H) (mapped : H → Bool) : Pc H → Prop
  | .unmapping _ _ previous => owner = some previous
  | .mapping _ _ => owner = none
  | .entering h | .running h | .dropUnmapping h _ => owner = some h
  -- a failed unmap leaves the mapping behind until the partition is deleted
  | .deleting h _ => owner ≠ some h ∧ (mapped h = true → owner = none)
  | _ => True

/-- The partition is past the unmap in `drop`. -/
def Deleting (s : State T H) (h : H) : Prop := ∃ t l, s.pc t = .deleting h l

/-- Whoever is at a locked place owns the lock. -/
structure Locks (s : State T H) : Prop where
  lock : ∀ t, (s.pc t).locked = true → s.lock = some t
  slotLock : ∀ t, (s.pc t).slotLocked = true → s.slotLock = some t

/-- A partition is live while a thread or an oracle has it, and only one of them has. -/
structure Users (s : State T H) : Prop where
  uses : ∀ t h, (s.pc t).uses = some h → s.live h = true ∧ s.oracles h = false
  exclusive : ∀ t u h, (s.pc t).uses = some h → (s.pc u).uses = some h → t = u
  oracles : ∀ h, s.oracles h = true → s.live h = true

/-- The slot names the mapped partition, which is live. -/
structure Slot (s : State T H) : Prop where
  at_pc : ∀ t, At s.owner s.mapped (s.pc t)
  owner : ∀ h, s.owner = some h → s.live h = true
  mapped : ∀ h, ¬ Deleting s h → (s.mapped h = true ↔ s.owner = some h)

structure Inv (s : State T H) : Prop where
  locks : Locks s
  users : Users s
  slot : Slot s

theorem inv_initial : Inv (State.initial : State T H) := by
  refine ⟨⟨?_, ?_⟩, ⟨?_, ?_, ?_⟩, ⟨?_, ?_, ?_⟩⟩
  all_goals simp [State.initial, Pc.locked, Pc.slotLocked, Pc.uses, At]

/-- Away from the locks nothing is asked of the slot. -/
theorem at_unlocked {p : Pc H} (hl : p.locked = false) (hs : p.slotLocked = false)
    (owner : Option H) (mapped : H → Bool) : At owner mapped p := by
  cases p <;> trivial

/-- Without the mutex a place does not depend on what is mapped. -/
theorem At.of_mapped {p : Pc H} (hs : p.slotLocked = false) {owner : Option H}
    {mapped : H → Bool} (h : At owner mapped p) (mapped' : H → Bool) : At owner mapped' p := by
  cases p <;> first | exact h | simp [Pc.slotLocked] at hs

/-- Nobody else is at a place with the mutex. -/
theorem Locks.slotLocked_of_ne {s : State T H} {t : T} (hi : Locks s)
    (hs : (s.pc t).slotLocked = true) {u : T}
    (hu : u ≠ t) : (s.pc u).slotLocked = false := by
  by_contra hus
  have hu' := hi.slotLock u (by simpa using hus)
  have ht' := hi.slotLock t hs
  exact hu (Option.some.inj (hu'.symm.trans ht'))

section Moves

variable [DecidableEq T] {s s' : State T H} {t : T} {q : Pc H}

/-- A thread that moves on keeps the locks in order if it takes only free ones and releases what
the new place does not hold. -/
theorem Locks.move (hi : Locks s) (hpc : s'.pc = Function.update s.pc t q)
    (hl : s'.lock = if q.locked then some t else if (s.pc t).locked then none else s.lock)
    (hlq : q.locked = true → (s.pc t).locked = true ∨ s.lock = none)
    (hs : s'.slotLock =
      if q.slotLocked then some t else if (s.pc t).slotLocked then none else s.slotLock)
    (hsq : q.slotLocked = true → (s.pc t).slotLocked = true ∨ s.slotLock = none) : Locks s' := by
  obtain ⟨ilock, islot⟩ := hi
  constructor
  · intro u hu
    rw [hpc, Function.update_apply] at hu
    have ht := ilock t
    have hu' := ilock u
    rw [hl]
    grind
  · intro u hu
    rw [hpc, Function.update_apply] at hu
    have ht := islot t
    have hu' := islot u
    rw [hs]
    grind

/-- The thread keeps its partition, or had none and takes none. -/
theorem Users.keep (hi : Users s) (hpc : s'.pc = Function.update s.pc t q)
    (hq : q.uses = (s.pc t).uses) (hlive : s'.live = s.live) (hor : s'.oracles = s.oracles) :
    Users s' := by
  obtain ⟨iuses, iexcl, ior⟩ := hi
  have huses : ∀ u, (s'.pc u).uses = (s.pc u).uses := by
    intro u
    rw [hpc, Function.update_apply]
    split_ifs with hu
    · rw [hq, hu]
    · rfl
  constructor <;> simpa only [huses, hlive, hor]

/-- Only the thread that moves can stop deleting. -/
theorem not_deleting (hpc : s'.pc = Function.update s.pc t q) {h : H}
    (hp : ∀ l, s.pc t ≠ .deleting h l) (hdel : ¬ Deleting s' h) : ¬ Deleting s h := by
  rintro ⟨u, l, hu⟩
  have hne : u ≠ t := by
    rintro rfl
    exact hp l hu
  exact hdel ⟨u, l, by rw [hpc, Function.update_of_ne hne, hu]⟩

/-- The slot and the mapping stay as they are. -/
theorem Slot.keep (hi : Slot s) (hpc : s'.pc = Function.update s.pc t q)
    (hp : ∀ h l, s.pc t ≠ .deleting h l) (hat : At s.owner s.mapped q) (ho : s'.owner = s.owner)
    (hm : s'.mapped = s.mapped) (hlive : ∀ h, s.live h = true → s'.live h = true) : Slot s' := by
  obtain ⟨iat, iowner, imapped⟩ := hi
  constructor
  · intro u
    rw [hpc, ho, hm, Function.update_apply]
    split_ifs
    · exact hat
    · exact iat u
  · intro h hown
    exact hlive h (iowner h (ho ▸ hown))
  · intro h hdel
    rw [ho, hm]
    exact imapped h (not_deleting hpc (hp h) hdel)

/-- The slot changes while the other threads are away from both locks. -/
theorem Slot.claim (hi : Inv s) (hpc : s'.pc = Function.update s.pc t q)
    (hl : (s.pc t).locked = true) (hs : (s.pc t).slotLocked = true)
    (hp : ∀ h l, s.pc t ≠ .deleting h l) (hat : At s'.owner s'.mapped q)
    (hlive : ∀ h, s'.owner = some h → s'.live h = true)
    (hmapped : ∀ h, (s.mapped h = true ↔ s.owner = some h) →
      (s'.mapped h = true ↔ s'.owner = some h)) : Slot s' := by
  refine ⟨?_, hlive, ?_⟩
  · intro u
    rw [hpc, Function.update_apply]
    split_ifs with hu
    · exact hat
    · refine at_unlocked ?_ ?_ _ _
      · by_contra hul
        have hu' := hi.locks.lock u (by simpa using hul)
        have ht' := hi.locks.lock t hl
        exact hu (Option.some.inj (hu'.symm.trans ht'))
      · exact hi.locks.slotLocked_of_ne hs hu
  · intro h hdel
    exact hmapped h (hi.slot.mapped h (not_deleting hpc (hp h) hdel))

variable [DecidableEq H] {h : H}

/-- A call takes an oracle. -/
theorem Users.take (hi : Users s) (hpc : s'.pc = Function.update s.pc t q)
    (hq : q.uses = some h) (hfree : s.oracles h = true) (hlive : s'.live = s.live)
    (hor : s'.oracles = Function.update s.oracles h false) : Users s' := by
  obtain ⟨iuses, iexcl, ior⟩ := hi
  have hnone : ∀ u, (s.pc u).uses ≠ some h := by
    intro u hu
    exact absurd (iuses u h hu).2 (by simp [hfree])
  constructor <;> simp only [hpc, hlive, hor, Function.update_apply] <;> grind

/-- A call gives its oracle back. -/
theorem Users.give (hi : Users s) (hpc : s'.pc = Function.update s.pc t q)
    (hp : (s.pc t).uses = some h) (hq : q.uses = none) (hlive : s'.live = s.live)
    (hor : s'.oracles = Function.update s.oracles h true) : Users s' := by
  obtain ⟨iuses, iexcl, ior⟩ := hi
  have hlive_h := (iuses t h hp).1
  have hothers : ∀ u, u ≠ t → (s.pc u).uses ≠ some h := fun u hu hu' => hu (iexcl u t h hu' hp)
  constructor <;> simp only [hpc, hlive, hor, Function.update_apply] <;> grind

/-- A new partition gets a handle no live partition has. -/
theorem Users.create (hi : Users s) (hpc : s'.pc = Function.update s.pc t q)
    (hq : q.uses = some h) (hfree : s.live h = false)
    (hlive : s'.live = Function.update s.live h true) (hor : s'.oracles = s.oracles) :
    Users s' := by
  obtain ⟨iuses, iexcl, ior⟩ := hi
  have hnone : ∀ u, (s.pc u).uses ≠ some h := by
    intro u hu
    exact absurd (iuses u h hu).1 (by simp [hfree])
  constructor <;> simp only [hpc, hlive, hor, Function.update_apply] <;> grind

/-- A partition is deleted by the thread that has it. -/
theorem Users.delete (hi : Users s) (hpc : s'.pc = Function.update s.pc t q)
    (hp : (s.pc t).uses = some h) (hq : q.uses = none)
    (hlive : s'.live = Function.update s.live h false) (hor : s'.oracles = s.oracles) :
    Users s' := by
  obtain ⟨iuses, iexcl, ior⟩ := hi
  have hor_h := (iuses t h hp).2
  have hothers : ∀ u, u ≠ t → (s.pc u).uses ≠ some h := fun u hu hu' => hu (iexcl u t h hu' hp)
  constructor <;> simp only [hpc, hlive, hor, Function.update_apply] <;> grind

end Moves

section Next

variable [DecidableEq T] [DecidableEq H] {s : State T H} {t : T} {h : H}

/-- `claim_mapping` returns with an error. -/
theorem inv_refused (hi : Inv s) {c : Caller} (hl : (s.pc t).locked = true)
    (hs : (s.pc t).slotLocked = true) (hu : (s.pc t).uses = some h)
    (hp : ∀ h l, s.pc t ≠ .deleting h l) :
    Inv { s.refused t h c with slotLock := none } := by
  cases c with
  | tryNew =>
    exact ⟨hi.locks.move rfl (hi.locks.lock t hl) (fun _ => .inl hl) (by rw [hs]; rfl) nofun,
      hi.users.keep rfl hu.symm rfl rfl, hi.slot.keep rfl hp trivial rfl rfl fun _ hh => hh⟩
  | step =>
    exact ⟨hi.locks.move rfl (by rw [hl]; rfl) nofun (by rw [hs]; rfl) nofun,
      hi.users.give rfl hu rfl rfl rfl, hi.slot.keep rfl hp trivial rfl rfl fun _ hh => hh⟩

/-- `step` or `try_new` ends with an oracle that no call uses. -/
theorem inv_return (hi : Inv s) (hl : (s.pc t).locked = true) (hs : (s.pc t).slotLocked = false)
    (hu : (s.pc t).uses = some h) :
    Inv { s.goto t .idle with lock := none, oracles := Function.update s.oracles h true } := by
  have hp : ∀ h l, s.pc t ≠ .deleting h l := by
    intro h l hpc
    rw [hpc] at hs
    cases hs
  exact ⟨hi.locks.move rfl (by rw [hl]; rfl) nofun (by rw [hs]; rfl) nofun,
    hi.users.give rfl hu rfl rfl rfl, hi.slot.keep rfl hp trivial rfl rfl fun _ hh => hh⟩

omit [DecidableEq H] in
/-- A thread that stays under the lock, away from the mutex, with the same partition. -/
theorem inv_goto (hi : Inv s) {q : Pc H} (hl : q.locked = (s.pc t).locked)
    (hsp : (s.pc t).slotLocked = false) (hsq : q.slotLocked = false)
    (hu : q.uses = (s.pc t).uses) (hat : At s.owner s.mapped q) : Inv (s.goto t q) := by
  have hp : ∀ h l, s.pc t ≠ .deleting h l := by
    intro h l hpc
    rw [hpc] at hsp
    cases hsp
  have hlock : s.lock = if q.locked then some t else if (s.pc t).locked then none else s.lock := by
    have hlt := hi.locks.lock t
    grind
  exact ⟨hi.locks.move rfl hlock (fun hq => .inl (hl ▸ hq)) (by rw [hsp, hsq]; rfl)
      (fun hq => absurd hq (by rw [hsq]; exact Bool.false_ne_true)),
    hi.users.keep rfl hu rfl rfl, hi.slot.keep rfl hp hat rfl rfl fun _ hh => hh⟩

theorem inv_claim (hi : Inv s) {c : Caller} (hpc : s.pc t = .claiming h c)
    (hfree : s.slotLock = none) : Inv (next s (t, .claim)) := by
  have hl : (s.pc t).locked = true := by rw [hpc]; rfl
  have hp : ∀ h l, s.pc t ≠ .deleting h l := by simp [hpc]
  have hlock := hi.locks.lock t hl
  simp only [next, hpc]
  split_ifs with hown
  · cases c with
    | tryNew => exact inv_goto hi (by rw [hpc]; rfl) (by rw [hpc]; rfl) rfl (by rw [hpc]; rfl) hown
    | step => exact inv_goto hi (by rw [hpc]; rfl) (by rw [hpc]; rfl) rfl (by rw [hpc]; rfl) hown
  · split
    · next previous hprev =>
      exact ⟨hi.locks.move rfl hlock (fun _ => .inl hl) rfl (fun _ => .inr hfree),
        hi.users.keep rfl (by rw [hpc]; rfl) rfl rfl,
        hi.slot.keep rfl hp hprev rfl rfl fun _ hh => hh⟩
    · next hnone =>
      exact ⟨hi.locks.move rfl hlock (fun _ => .inl hl) rfl (fun _ => .inr hfree),
        hi.users.keep rfl (by rw [hpc]; rfl) rfl rfl,
        hi.slot.keep rfl hp hnone rfl rfl fun _ hh => hh⟩

theorem inv_unmap (hi : Inv s) {c : Caller} {previous : H}
    (hpc : s.pc t = .unmapping h c previous) (ok : Bool) : Inv (next s (t, .unmap ok)) := by
  have hl : (s.pc t).locked = true := by rw [hpc]; rfl
  have hs : (s.pc t).slotLocked = true := by rw [hpc]; rfl
  have hu : (s.pc t).uses = some h := by rw [hpc]; rfl
  have hp : ∀ h l, s.pc t ≠ .deleting h l := by simp [hpc]
  have hown : s.owner = some previous := by
    have hat := hi.slot.at_pc t
    rwa [hpc] at hat
  simp only [next, hpc]
  cases ok with
  | false => exact inv_refused hi hl hs hu hp
  | true =>
    refine ⟨hi.locks.move rfl (hi.locks.lock t hl) (fun _ => .inl hl)
        (hi.locks.slotLock t hs) (fun _ => .inl hs),
      hi.users.keep rfl hu.symm rfl rfl, Slot.claim hi rfl hl hs hp rfl nofun ?_⟩
    intro h' hm
    simp only [if_true, Function.update_apply]
    split_ifs with hh
    · simp
    · rw [hm, hown]
      simpa using fun heq => hh heq.symm

theorem inv_map (hi : Inv s) {c : Caller} (hpc : s.pc t = .mapping h c) (ok : Bool) :
    Inv (next s (t, .map ok)) := by
  have hl : (s.pc t).locked = true := by rw [hpc]; rfl
  have hs : (s.pc t).slotLocked = true := by rw [hpc]; rfl
  have hu : (s.pc t).uses = some h := by rw [hpc]; rfl
  have hp : ∀ h l, s.pc t ≠ .deleting h l := by simp [hpc]
  have hown : s.owner = none := by
    have hat := hi.slot.at_pc t
    rwa [hpc] at hat
  simp only [next, hpc]
  cases ok with
  | false => exact inv_refused hi hl hs hu hp
  | true =>
    have hlive : ∀ h', some h = some h' → s.live h' = true := by
      rintro h' ⟨⟩
      exact (hi.users.uses t h hu).1
    have hmapped : ∀ h', (s.mapped h' = true ↔ s.owner = some h') →
        (Function.update s.mapped h true h' = true ↔ some h = some h') := by
      intro h' hm
      rw [Function.update_apply]
      split_ifs with hh
      · simp [hh]
      · rw [hm, hown]
        simpa using fun heq => hh heq.symm
    cases c with
    | tryNew =>
      exact ⟨hi.locks.move rfl (hi.locks.lock t hl) (fun _ => .inl hl) (by rw [hs]; rfl) nofun,
        hi.users.keep rfl hu.symm rfl rfl, Slot.claim hi rfl hl hs hp rfl hlive hmapped⟩
    | step =>
      exact ⟨hi.locks.move rfl (hi.locks.lock t hl) (fun _ => .inl hl) (by rw [hs]; rfl) nofun,
        hi.users.keep rfl hu.symm rfl rfl, Slot.claim hi rfl hl hs hp rfl hlive hmapped⟩

theorem inv_dropTest (hi : Inv s) {l : Bool} (hpc : s.pc t = .dropping h l)
    (hfree : s.slotLock = none) : Inv (next s (t, .dropTest)) := by
  have hlock : ∀ q : Pc H, q.locked = l →
      s.lock = if q.locked then some t else if (s.pc t).locked then none else s.lock := by
    intro q hq
    have hlt := hi.locks.lock t
    rw [hpc] at hlt ⊢
    rw [hq]
    cases l with
    | false => rfl
    | true => exact hlt rfl
  have hp : ∀ h l, s.pc t ≠ .deleting h l := by simp [hpc]
  have hlq : ∀ q : Pc H, q.locked = l → q.locked = true →
      (s.pc t).locked = true ∨ s.lock = none := by
    intro q hq hq'
    left
    rw [hpc]
    exact hq.symm.trans hq'
  simp only [next, hpc]
  split_ifs with hown
  · exact ⟨hi.locks.move rfl (hlock _ rfl) (hlq _ rfl) rfl (fun _ => .inr hfree),
      hi.users.keep rfl (by rw [hpc]; rfl) rfl rfl,
      hi.slot.keep rfl hp hown rfl rfl fun _ hh => hh⟩
  · have hat : s.owner ≠ some h ∧ (s.mapped h = true → s.owner = none) := by
      refine ⟨hown, fun hm => absurd ((hi.slot.mapped h ?_).mp hm) hown⟩
      rintro ⟨u, l', hu⟩
      have hut : u = t := hi.users.exclusive u t h (by rw [hu]; rfl) (by rw [hpc]; rfl)
      exact hp h l' (hut ▸ hu)
    exact ⟨hi.locks.move rfl (hlock _ rfl) (hlq _ rfl) rfl (fun _ => .inr hfree),
      hi.users.keep rfl (by rw [hpc]; rfl) rfl rfl,
      hi.slot.keep rfl hp hat rfl rfl fun _ hh => hh⟩

/-- The owner's slot is cleared in `drop`: nobody else is at a place that names it. -/
theorem inv_dropUnmap (hi : Inv s) {l : Bool} (hpc : s.pc t = .dropUnmapping h l) (ok : Bool) :
    Inv (next s (t, .dropUnmap ok)) := by
  have hs : (s.pc t).slotLocked = true := by rw [hpc]; rfl
  have hu : (s.pc t).uses = some h := by rw [hpc]; rfl
  have hown : s.owner = some h := by
    have hat := hi.slot.at_pc t
    rwa [hpc] at hat
  have hl : (s.pc t).locked = l := by rw [hpc]; rfl
  have hlock : s.lock = if l then some t else if (s.pc t).locked then none else s.lock := by
    have hlt := hi.locks.lock t
    rw [hl] at hlt ⊢
    cases l with
    | false => rfl
    | true => exact hlt rfl
  simp only [next, hpc]
  refine ⟨hi.locks.move rfl hlock (fun hq => .inl (hl.trans hq)) (hi.locks.slotLock t hs)
    (fun _ => .inl hs), hi.users.keep rfl hu.symm rfl rfl, ?_, nofun, ?_⟩
  · intro u
    simp only [State.goto, Function.update_apply]
    by_cases hut : u = t
    · rw [if_pos hut]
      exact ⟨nofun, fun _ => rfl⟩
    · rw [if_neg hut]
      have hus := hi.locks.slotLocked_of_ne hs hut
      have hat := hi.slot.at_pc u
      have hne : ∀ h', (s.pc u).uses = some h' → s.owner ≠ some h' := by
        intro h' hu' hown'
        have hh : h' = h := Option.some.inj (hown'.symm.trans hown)
        exact hut (hi.users.exclusive u t h (hh ▸ hu') hu)
      cases hpu : s.pc u with
      | entering h' => rw [hpu] at hat hne; exact absurd hat (hne h' rfl)
      | running h' => rw [hpu] at hat hne; exact absurd hat (hne h' rfl)
      | _ => first | trivial | (rw [hpu] at hus; cases hus)
  · intro h' hdel
    have hh : h' ≠ h := by
      rintro rfl
      exact hdel ⟨t, l, Function.update_self ..⟩
    have hm := hi.slot.mapped h' (not_deleting rfl (by simp [hpc]) hdel)
    have hnot : s.mapped h' = false := by
      rw [Bool.eq_false_iff]
      intro ht
      exact hh (Option.some.inj ((hm.mp ht).symm.trans hown))
    cases ok <;> simp [hnot, hh]

theorem inv_delete (hi : Inv s) {l : Bool} (hpc : s.pc t = .deleting h l) :
    Inv (next s (t, .delete)) := by
  have hs : (s.pc t).slotLocked = true := by rw [hpc]; rfl
  have hu : (s.pc t).uses = some h := by rw [hpc]; rfl
  have hl : (s.pc t).locked = l := by rw [hpc]; rfl
  have hown : s.owner ≠ some h := by
    have hat := hi.slot.at_pc t
    rw [hpc] at hat
    exact hat.1
  simp only [next, hpc]
  refine ⟨hi.locks.move rfl (by rw [hl]; rfl) nofun (by rw [hs]; rfl) nofun,
    hi.users.delete rfl hu rfl rfl rfl, ?_, ?_, ?_⟩
  · intro u
    simp only [State.goto, Function.update_apply]
    split_ifs with hut
    · trivial
    · exact (hi.slot.at_pc u).of_mapped (hi.locks.slotLocked_of_ne hs hut) _
  · intro h' hown'
    have hh : h' ≠ h := fun heq => hown (heq ▸ hown')
    simp only [Function.update_of_ne hh]
    exact hi.slot.owner h' hown'
  · intro h' hdel
    by_cases hh : h' = h
    · subst hh
      simp [State.goto, hown]
    · simp only [Function.update_of_ne hh]
      have hp : ∀ l', s.pc t ≠ .deleting h' l' := by
        intro l' hpc'
        rw [hpc] at hpc'
        cases hpc'
        exact hh rfl
      exact hi.slot.mapped h' (not_deleting rfl hp hdel)

/-- Every step of every thread keeps the invariant. -/
theorem inv_next (hi : Inv s) {a : T × Action H} (ha : Enabled s a) : Inv (next s a) := by
  obtain ⟨t, act⟩ := a
  cases act with
  | callNew =>
    obtain ⟨hpc, hfree⟩ := ha
    have hp : ∀ h l, s.pc t ≠ .deleting h l := by simp [hpc]
    exact ⟨hi.locks.move rfl rfl (fun _ => .inr hfree) (by rw [hpc]; rfl) nofun,
      hi.users.keep rfl (by rw [hpc]; rfl) rfl rfl,
      hi.slot.keep rfl hp trivial rfl rfl fun _ hh => hh⟩
  | create answer =>
    cases answer with
    | none =>
      have hpc : s.pc t = .creating := ha
      have hp : ∀ h l, s.pc t ≠ .deleting h l := by simp [hpc]
      exact ⟨hi.locks.move rfl (by rw [hpc]; rfl) nofun (by rw [hpc]; rfl) nofun,
        hi.users.keep rfl (by rw [hpc]; rfl) rfl rfl,
        hi.slot.keep rfl hp trivial rfl rfl fun _ hh => hh⟩
    | some h =>
      obtain ⟨hpc, hfree⟩ := ha
      have hl : (s.pc t).locked = true := by rw [hpc]; rfl
      have hp : ∀ h l, s.pc t ≠ .deleting h l := by simp [hpc]
      refine ⟨hi.locks.move rfl (hi.locks.lock t hl) (fun _ => .inl hl) (by rw [hpc]; rfl) nofun,
        hi.users.create rfl rfl hfree rfl rfl, hi.slot.keep rfl hp trivial rfl rfl ?_⟩
      intro h' hh
      simp only [next, Function.update_apply]
      split_ifs
      · rfl
      · exact hh
  | configure ok =>
    obtain ⟨h, hpc⟩ := ha
    simp only [next, hpc]
    cases ok <;>
      exact inv_goto hi (by rw [hpc]; rfl) (by rw [hpc]; rfl) rfl (by rw [hpc]; rfl) trivial
  | claim =>
    obtain ⟨⟨h, c, hpc⟩, hfree⟩ := ha
    exact inv_claim hi hpc hfree
  | unmap ok =>
    obtain ⟨h, c, previous, hpc⟩ := ha
    exact inv_unmap hi hpc ok
  | map ok =>
    obtain ⟨h, c, hpc⟩ := ha
    exact inv_map hi hpc ok
  | enter ok =>
    obtain ⟨h, hpc⟩ := ha
    simp only [next, hpc]
    cases ok with
    | true => exact inv_return hi (by rw [hpc]; rfl) (by rw [hpc]; rfl) (by rw [hpc]; rfl)
    | false =>
      exact inv_goto hi (by rw [hpc]; rfl) (by rw [hpc]; rfl) rfl (by rw [hpc]; rfl) trivial
  | callStep h =>
    obtain ⟨hpc, hfree, hor⟩ := ha
    have hp : ∀ h l, s.pc t ≠ .deleting h l := by simp [hpc]
    exact ⟨hi.locks.move rfl rfl (fun _ => .inr hfree) (by rw [hpc]; rfl) nofun,
      hi.users.take rfl rfl hor rfl rfl, hi.slot.keep rfl hp trivial rfl rfl fun _ hh => hh⟩
  | run => exact hi
  | endStep =>
    obtain ⟨h, hpc⟩ := ha
    simp only [next, hpc]
    exact inv_return hi (by rw [hpc]; rfl) (by rw [hpc]; rfl) (by rw [hpc]; rfl)
  | callDrop h =>
    obtain ⟨hpc, hor⟩ := ha
    have hp : ∀ h l, s.pc t ≠ .deleting h l := by simp [hpc]
    exact ⟨hi.locks.move rfl (by rw [hpc]; rfl) nofun (by rw [hpc]; rfl) nofun,
      hi.users.take rfl rfl hor rfl rfl, hi.slot.keep rfl hp trivial rfl rfl fun _ hh => hh⟩
  | dropTest =>
    obtain ⟨⟨h, l, hpc⟩, hfree⟩ := ha
    exact inv_dropTest hi hpc hfree
  | dropUnmap ok =>
    obtain ⟨h, l, hpc⟩ := ha
    exact inv_dropUnmap hi hpc ok
  | delete =>
    obtain ⟨h, l, hpc⟩ := ha
    exact inv_delete hi hpc

/-! ## Every interleaving -/

/-- What a step relies on: a run on its own mapping and no other, an unmap on a live partition,
and `claim_mapping` on a slot that names its partition only if that partition is mapped. -/
def SafeStep (s : State T H) : T × Action H → Prop
  | (t, .run) =>
    ∃ h, s.pc t = .running h ∧ s.owner = some h ∧ s.live h = true ∧ s.mapped h = true ∧
      ∀ h', h' ≠ h → s.live h' = true → s.mapped h' = false
  | (t, .unmap _) => ∀ h c previous, s.pc t = .unmapping h c previous → s.live previous = true
  | (t, .dropUnmap _) => ∀ h l, s.pc t = .dropUnmapping h l → s.live h = true
  | (t, .claim) => ∀ h c, s.pc t = .claiming h c → s.owner = some h → s.mapped h = true
  | _ => True

omit [DecidableEq T] [DecidableEq H] in
/-- A partition in use elsewhere is not being deleted. -/
theorem Users.not_deleting (hi : Users s) (hu : (s.pc t).uses = some h)
    (hp : ∀ l, s.pc t ≠ .deleting h l) : ¬ Deleting s h := by
  rintro ⟨u, l, hpu⟩
  have hut : u = t := hi.exclusive u t h (by rw [hpu]; rfl) hu
  exact hp l (hut ▸ hpu)

omit [DecidableEq T] [DecidableEq H] in
/-- While the slot names a partition in use, that one is mapped and no other is. -/
theorem Inv.mapped_only (hi : Inv s) (hown : s.owner = some h) (hu : (s.pc t).uses = some h)
    (hp : ∀ l, s.pc t ≠ .deleting h l) :
    s.mapped h = true ∧ ∀ h', h' ≠ h → s.mapped h' = false := by
  refine ⟨(hi.slot.mapped h (hi.users.not_deleting hu hp)).mpr hown, ?_⟩
  intro h' hne
  rw [Bool.eq_false_iff]
  intro hm
  by_cases hdel : Deleting s h'
  · obtain ⟨u, l, hpu⟩ := hdel
    have hat := hi.slot.at_pc u
    rw [hpu] at hat
    exact absurd (hat.2 hm) (by simp [hown])
  · have hown' := (hi.slot.mapped h' hdel).mp hm
    exact hne (Option.some.inj (hown'.symm.trans hown))

omit [DecidableEq T] [DecidableEq H] in
theorem safeStep_of_inv (hi : Inv s) {a : T × Action H} (ha : Enabled s a) : SafeStep s a := by
  obtain ⟨t, act⟩ := a
  have hat := hi.slot.at_pc t
  cases act with
  | run =>
    obtain ⟨h, hpc⟩ := ha
    rw [hpc] at hat
    obtain ⟨hm, hothers⟩ := hi.mapped_only hat (by rw [hpc]; rfl) (by simp [hpc])
    exact ⟨h, hpc, hat, hi.slot.owner h hat, hm, fun h' hne _ => hothers h' hne⟩
  | unmap ok =>
    intro h c previous hpc
    rw [hpc] at hat
    exact hi.slot.owner previous hat
  | dropUnmap ok =>
    intro h l hpc
    rw [hpc] at hat
    exact hi.slot.owner h hat
  | claim =>
    intro h c hpc hown
    exact (hi.mapped_only hown (by rw [hpc]; rfl) (by simp [hpc])).1
  | _ => trivial

/-- Over every interleaving from the start of the process, every run of a virtual processor has
its own RAM mapped and no other, every unmap goes to a live partition, no partition is taken to be
mapped when it is not, and the slot never names a deleted partition. -/
theorem mapping_protocol {as : List (T × Action H)} (hrun : (system T H).Runs State.initial as) :
    (system T H).EachStep SafeStep State.initial as ∧
      (system T H).Always (fun s => ∀ h, s.owner = some h → s.live h = true) State.initial as := by
  have hinv : (system T H).Always Inv State.initial as :=
    System.always_of_step (fun _ _ hi ha => inv_next hi ha) inv_initial hrun
  exact ⟨hinv.eachStep (fun _ _ hi ha => safeStep_of_inv hi ha) hrun,
    hinv.mono fun _ hi => hi.slot.owner⟩

/-- Two oracles take turns, the second is dropped while it owns the slot, and its handle value is
used again. -/
def handOver : List (Bool × Action Bool) :=
  [(false, .callNew), (false, .create (some false)), (false, .configure true), (false, .claim),
    (false, .map true), (false, .enter true),
    (true, .callNew), (true, .create (some true)), (true, .configure true), (true, .claim),
    (true, .unmap true), (true, .map true), (true, .enter true),
    (false, .callStep false), (true, .callDrop true), (true, .dropTest), (true, .dropUnmap false),
    (true, .delete), (false, .claim), (false, .map true), (false, .run), (false, .endStep),
    (true, .callNew), (true, .create (some true)), (true, .configure true), (true, .claim),
    (true, .unmap false)]

theorem handOver_runs : (system Bool Bool).Runs State.initial handOver :=
  ⟨⟨rfl, rfl⟩, ⟨rfl, rfl⟩, ⟨_, rfl⟩, ⟨⟨_, _, rfl⟩, rfl⟩, ⟨_, _, rfl⟩, ⟨_, rfl⟩,
    ⟨rfl, rfl⟩, ⟨rfl, rfl⟩, ⟨_, rfl⟩, ⟨⟨_, _, rfl⟩, rfl⟩, ⟨_, _, _, rfl⟩, ⟨_, _, rfl⟩, ⟨_, rfl⟩,
    ⟨rfl, rfl, rfl⟩, ⟨rfl, rfl⟩, ⟨⟨_, _, rfl⟩, rfl⟩, ⟨_, _, rfl⟩, ⟨_, _, rfl⟩,
    ⟨⟨_, _, rfl⟩, rfl⟩, ⟨_, _, rfl⟩, ⟨_, rfl⟩, ⟨_, rfl⟩,
    ⟨rfl, rfl⟩, ⟨rfl, rfl⟩, ⟨_, rfl⟩, ⟨⟨_, _, rfl⟩, rfl⟩, ⟨_, _, _, rfl⟩, trivial⟩

theorem mapping_protocol_handOver :
    (system Bool Bool).EachStep SafeStep State.initial handOver ∧
      (system Bool Bool).Always (fun s => ∀ h, s.owner = some h → s.live h = true)
        State.initial handOver :=
  mapping_protocol handOver_runs

end Next

end Whp.MappingSlot
