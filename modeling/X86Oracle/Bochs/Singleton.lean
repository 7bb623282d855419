import Mathlib
import X86Oracle.Lib.Run

/-!
# The Bochs singleton

Bochs' CPU is a process-wide singleton, guarded twice: by `OCCUPIED` (`src/bochs.rs`), which
`BochsOracle::new` waits for and `try_new` tests, and by `g_alive` (`csrc/bochs_shim.cpp`), which
makes the native constructor return null.

The model is a system over any type of threads.  Each critical section of the `OCCUPIED` mutex is
one step; the `BOCHS_LOCK` guard of `init` and `drop` is modelled by its owner.  A poisoned mutex
is entered all the same (`PoisonError::into_inner`), so poisoning is not part of the state.

* `Phase` is the abstract protocol: the CPU is free, held by an oracle, or busy with one thread
  that constructs or drops one.  `describes_next`: every step except a failing assertion in `init`
  is a step of it.
* `safe_iff_no_panic`: a run keeps the singleton protocol exactly when no assertion fails.
-/

namespace Bochs.Singleton

open Run

/-! ## State -/

/-- Which of the two constructors a thread is in. -/
inductive Mode where
  | blocking
  | try
deriving DecidableEq, Repr

/-- Where a thread is. -/
inductive Pc where
  | idle
  /-- In `claim_instance`, about to test `OCCUPIED`. -/
  | claiming
  /-- In `claim_instance`, on the condition variable. -/
  | waiting
  /-- Claimed; in `init`, before `BOCHS_LOCK`. -/
  | entering (mode : Mode)
  /-- In `init` with the lock, before the native constructor. -/
  | locked (mode : Mode)
  /-- The native constructor succeeded; before the assertion. -/
  | constructed (mode : Mode)
  /-- The native constructor returned null; before `release_instance`. -/
  | failed (mode : Mode)
  /-- In `drop`, before `BOCHS_LOCK`. -/
  | dropping
  /-- In `drop` with the lock, before the native destructor. -/
  | freeing
  /-- In `drop`, before `release_instance`. -/
  | freed
deriving DecidableEq, Repr

variable {T : Type*}

structure State (T : Type*) where
  pc : T → Pc
  /-- Oracles that exist and are not being dropped. -/
  oracles : ℕ
  /-- `OCCUPIED`. -/
  occupied : Bool
  /-- `g_alive`. -/
  alive : Bool
  /-- Owner of `BOCHS_LOCK`. -/
  lock : Option T

def State.initial : State T :=
  { pc := fun _ => .idle, oracles := 0, occupied := false, alive := false, lock := none }

/-- The thread is in `init` or in the failure path behind it. -/
def Pc.constructing : Pc → Bool
  | .entering _ | .locked _ | .constructed _ | .failed _ => true
  | _ => false

/-- The thread is in `drop`. -/
def Pc.dropping? : Pc → Bool
  | .dropping | .freeing | .freed => true
  | _ => false

/-- The thread is between a claim and its release. -/
def Pc.active (p : Pc) : Bool := p.constructing || p.dropping?

/-- The thread stands for a native instance. -/
def Pc.native : Pc → Bool
  | .constructed _ | .dropping | .freeing => true
  | _ => false

/-- The thread holds `BOCHS_LOCK`. -/
def Pc.holdsLock : Pc → Bool
  | .locked _ | .constructed _ | .freeing => true
  | _ => false

/-! ## Steps -/

/-- `try_claim_instance`: the answer and the new flag. -/
def tryClaimInstance (occupied : Bool) : Bool × Bool :=
  if occupied then (false, occupied) else (true, true)

inductive Label (T : Type*) where
  /-- `new` begins. -/
  | callNew (t : T)
  /-- `claim_instance` finds the CPU free. -/
  | claim (t : T)
  /-- `claim_instance` finds it occupied and waits. -/
  | wait (t : T)
  /-- A wait ends without a timeout, notified or spuriously. -/
  | wake (t : T)
  /-- A wait times out: a panic if the CPU is still occupied, another test if not. -/
  | timeout (t : T)
  /-- `try_new` tests `OCCUPIED`. -/
  | tryNew (t : T)
  | lock (t : T)
  /-- `x86oracle_bochs_new` returns a handle. -/
  | nativeNew (t : T)
  /-- `x86oracle_bochs_new` returns null. -/
  | nativeNull (t : T)
  /-- The assertion holds and the constructor returns. -/
  | ready (t : T)
  /-- The assertion fails: unwinding drops the lock guard and nothing else. -/
  | panic (t : T)
  /-- `release_instance` on the failure path, notifying `woken`. -/
  | releaseFailed (t : T) (woken : Option T)
  /-- `drop` of an oracle begins. -/
  | drop (t : T)
  | lockDrop (t : T)
  /-- `x86oracle_bochs_free`, and the guard's scope ends. -/
  | free (t : T)
  /-- `release_instance` at the end of `drop`, notifying `woken`. -/
  | releaseDrop (t : T) (woken : Option T)

/-- `notify_one` wakes one of the waiting threads, if there is one. -/
def State.Notifies (s : State T) (woken : Option T) : Prop :=
  match woken with
  | some w => s.pc w = .waiting
  | none => ∀ w, s.pc w ≠ .waiting

def Enabled (s : State T) : Label T → Prop
  | .callNew t => s.pc t = .idle
  | .claim t => s.pc t = .claiming ∧ s.occupied = false
  | .wait t => s.pc t = .claiming ∧ s.occupied = true
  | .wake t => s.pc t = .waiting
  | .timeout t => s.pc t = .waiting
  | .tryNew t => s.pc t = .idle
  | .lock t => (∃ mode, s.pc t = .entering mode) ∧ s.lock = none
  | .nativeNew t => (∃ mode, s.pc t = .locked mode) ∧ s.alive = false
  | .nativeNull t => ∃ mode, s.pc t = .locked mode
  | .ready t => ∃ mode, s.pc t = .constructed mode
  | .panic t => ∃ mode, s.pc t = .constructed mode
  | .releaseFailed t woken => (∃ mode, s.pc t = .failed mode) ∧ s.Notifies woken
  | .drop t => s.pc t = .idle ∧ 0 < s.oracles
  | .lockDrop t => s.pc t = .dropping ∧ s.lock = none
  | .free t => s.pc t = .freeing
  | .releaseDrop t woken => s.pc t = .freed ∧ s.Notifies woken

section Next

variable [DecidableEq T]

def State.goto (s : State T) (t : T) (p : Pc) : State T :=
  { s with pc := Function.update s.pc t p }

def State.notify (s : State T) : Option T → State T
  | some w => s.goto w .claiming
  | none => s

/-- The mode a thread in a constructor is in. -/
def Pc.mode : Pc → Mode
  | .entering m | .locked m | .constructed m | .failed m => m
  | _ => .blocking

def next (s : State T) : Label T → State T
  | .callNew t => s.goto t .claiming
  | .claim t => { s.goto t (.entering .blocking) with occupied := true }
  | .wait t => s.goto t .waiting
  | .wake t => s.goto t .claiming
  | .timeout t => if s.occupied then s.goto t .idle else s.goto t .claiming
  | .tryNew t =>
    let (claimed, occupied) := tryClaimInstance s.occupied
    if claimed then { s.goto t (.entering .try) with occupied } else s
  | .lock t => { s.goto t (.locked (s.pc t).mode) with lock := some t }
  | .nativeNew t => { s.goto t (.constructed (s.pc t).mode) with alive := true }
  | .nativeNull t => { s.goto t (.failed (s.pc t).mode) with lock := none }
  | .ready t => { s.goto t .idle with oracles := s.oracles + 1, lock := none }
  | .panic t => { s.goto t .idle with lock := none }
  | .releaseFailed t woken => { (s.goto t .idle).notify woken with occupied := false }
  | .drop t => { s.goto t .dropping with oracles := s.oracles - 1 }
  | .lockDrop t => { s.goto t .freeing with lock := some t }
  | .free t => { s.goto t .freed with alive := false, lock := none }
  | .releaseDrop t woken => { (s.goto t .idle).notify woken with occupied := false }

/-- The singleton protocol as a system. -/
def system (T : Type*) [DecidableEq T] : System (State T) (Label T) :=
  { enabled := Enabled, next := next }

end Next

/-! ## The protocol -/

/-- An oracle is live until its `drop` has returned. -/
def Live (s : State T) : Prop := 0 < s.oracles ∨ ∃ t, (s.pc t).dropping? = true

def Constructing (s : State T) : Prop := ∃ t, (s.pc t).constructing = true

/-- At most one oracle; `try_new` answers `None` while one is live or being constructed; and when
none is, both flags are clear, so that the next constructor succeeds. -/
structure Safe (s : State T) : Prop where
  atMostOne : s.oracles ≤ 1 ∧ (∀ t, (s.pc t).dropping? = true → s.oracles = 0) ∧
    ∀ t u, (s.pc t).dropping? = true → (s.pc u).dropping? = true → t = u
  tryNew : Live s ∨ Constructing s → (tryClaimInstance s.occupied).1 = false
  flags : ¬ (Live s ∨ Constructing s) → s.occupied = false ∧ s.alive = false

/-! ## The abstract protocol -/

/-- Who has the CPU: nobody, an oracle, or a thread that constructs or drops one. -/
inductive Phase (T : Type*) where
  | free
  | held
  | busy (t : T)

/-- What a label does to the phase. -/
def Phase.next : Phase T → Label T → Phase T
  | .free, .claim t | .free, .tryNew t => .busy t
  | .busy _, .ready _ => .held
  | .busy _, .releaseFailed _ _ | .busy _, .releaseDrop _ _ => .free
  | .held, .drop t => .busy t
  | p, _ => p

/-- Flags, lock, oracles and threads are the ones of the phase. -/
def Describes (s : State T) : Phase T → Prop
  | .free => s.occupied = false ∧ s.alive = false ∧ s.oracles = 0 ∧ s.lock = none ∧
      ∀ u, (s.pc u).active = false
  | .held => s.occupied = true ∧ s.alive = true ∧ s.oracles = 1 ∧ s.lock = none ∧
      ∀ u, (s.pc u).active = false
  | .busy t => s.occupied = true ∧ s.alive = (s.pc t).native ∧ s.oracles = 0 ∧
      s.lock = (if (s.pc t).holdsLock then some t else none) ∧ (s.pc t).active = true ∧
      ∀ u, u ≠ t → (s.pc u).active = false

theorem describes_initial : Describes (State.initial : State T) .free :=
  ⟨rfl, rfl, rfl, rfl, fun _ => rfl⟩

section Abstract

variable [DecidableEq T] {s : State T} {t : T} {p q : Pc} {phase : Phase T}

@[simp] theorem goto_pc_self : (s.goto t p).pc t = p := Function.update_self ..

theorem goto_pc_of_ne {u : T} (h : u ≠ t) : (s.goto t p).pc u = s.pc u :=
  Function.update_of_ne h ..

@[simp] theorem goto_oracles : (s.goto t p).oracles = s.oracles := rfl
@[simp] theorem goto_occupied : (s.goto t p).occupied = s.occupied := rfl
@[simp] theorem goto_alive : (s.goto t p).alive = s.alive := rfl
@[simp] theorem goto_lock : (s.goto t p).lock = s.lock := rfl

theorem goto_inactive (hp : p.active = false) (h : ∀ u, u ≠ t → (s.pc u).active = false) (u : T) :
    ((s.goto t p).pc u).active = false := by
  by_cases hu : u = t
  · rw [hu, goto_pc_self, hp]
  · rw [goto_pc_of_ne hu, h u hu]

/-- A thread that moves outside the protocol does not change the phase. -/
theorem describes_goto (h : Describes s phase) (ht : (s.pc t).active = false)
    (hp : p.active = false) : Describes (s.goto t p) phase := by
  cases phase with
  | free =>
    obtain ⟨hocc, halive, hor, hlock, hact⟩ := h
    exact ⟨hocc, halive, hor, hlock, goto_inactive hp fun u _ => hact u⟩
  | held =>
    obtain ⟨hocc, halive, hor, hlock, hact⟩ := h
    exact ⟨hocc, halive, hor, hlock, goto_inactive hp fun u _ => hact u⟩
  | busy v =>
    obtain ⟨hocc, halive, hor, hlock, hv, hact⟩ := h
    have hne : v ≠ t := fun hvt => by rw [hvt, ht] at hv; exact absurd hv (by decide)
    refine ⟨hocc, ?_, hor, ?_, ?_, fun u hu => ?_⟩
    · rw [goto_alive, goto_pc_of_ne hne, halive]
    · rw [goto_lock, goto_pc_of_ne hne, hlock]
    · rw [goto_pc_of_ne hne, hv]
    · by_cases hut : u = t
      · rw [hut, goto_pc_self, hp]
      · rw [goto_pc_of_ne hut, hact u hu]

/-- Whoever is active is the one the phase names. -/
theorem busy_of_active (h : Describes s phase) (ht : (s.pc t).active = true) :
    phase = .busy t := by
  cases phase with
  | free => exact absurd (h.2.2.2.2 t) (by rw [ht]; decide)
  | held => exact absurd (h.2.2.2.2 t) (by rw [ht]; decide)
  | busy v =>
    by_cases hvt : t = v
    · rw [hvt]
    · exact absurd (h.2.2.2.2.2 t hvt) (by rw [ht]; decide)

/-- A thread that claims the free CPU makes it busy. -/
theorem describes_claim (h : Describes s .free) (hp : p.active = true) (hn : p.native = false)
    (hl : p.holdsLock = false) : Describes { s.goto t p with occupied := true } (.busy t) := by
  obtain ⟨-, halive, hor, hlock, hact⟩ := h
  refine ⟨rfl, ?_, hor, ?_, ?_, fun u hu => ?_⟩
  · rw [goto_pc_self, hn]
    exact halive
  · rw [goto_pc_self, hl]
    exact hlock
  · rw [goto_pc_self, hp]
  · rw [goto_pc_of_ne hu, hact u]

/-- A busy thread that moves on, with the flag and the lock its new place asks for. -/
theorem describes_busy (h : Describes s (.busy t)) (hp : p.active = true) {alive : Bool}
    {lock : Option T} (halive : alive = p.native)
    (hlock : lock = if p.holdsLock then some t else none) :
    Describes { s.goto t p with alive, lock } (.busy t) := by
  obtain ⟨hocc, -, hor, -, -, hact⟩ := h
  refine ⟨hocc, ?_, hor, ?_, ?_, fun u hu => ?_⟩
  · rw [goto_pc_self]
    exact halive
  · rw [goto_pc_self]
    exact hlock
  · rw [goto_pc_self, hp]
  · rw [goto_pc_of_ne hu, hact u hu]

/-- Releasing the CPU frees it, whoever is woken. -/
theorem describes_release (h : Describes s (.busy t)) (hn : (s.pc t).native = false)
    (hl : (s.pc t).holdsLock = false) (woken : Option T) :
    Describes { (s.goto t .idle).notify woken with occupied := false } .free := by
  obtain ⟨-, halive, hor, hlock, -, hact⟩ := h
  have hidle : ∀ u, ((s.goto t .idle).pc u).active = false := goto_inactive rfl hact
  rw [hn] at halive
  rw [hl] at hlock
  cases woken with
  | none => exact ⟨rfl, halive, hor, hlock, hidle⟩
  | some w => exact ⟨rfl, halive, hor, hlock, goto_inactive rfl fun u _ => hidle u⟩

/-- `try_new` claims the CPU if it is free, and otherwise does nothing. -/
theorem describes_tryNew (h : Describes s phase) (t : T) :
    Describes (next s (.tryNew t)) (phase.next (.tryNew t)) := by
  cases phase with
  | free =>
    have hocc := h.1
    simp only [next, hocc, tryClaimInstance, Bool.false_eq_true, if_false, if_true]
    exact describes_claim h rfl rfl rfl
  | held =>
    have hsame : next s (.tryNew t) = s := by simp [next, h.1, tryClaimInstance]
    rw [hsame]
    exact h
  | busy v =>
    have hsame : next s (.tryNew t) = s := by simp [next, h.1, tryClaimInstance]
    rw [hsame]
    exact h

/-- The thread that drops the oracle is busy with it from then on. -/
theorem describes_drop (h : Describes s phase) (hpos : 0 < s.oracles) :
    Describes (next s (.drop t)) (phase.next (.drop t)) := by
  cases phase with
  | free => exact absurd h.2.2.1 (by omega)
  | busy v => exact absurd h.2.2.1 (by omega)
  | held =>
    obtain ⟨hocc, halive, hor, hlock, hact⟩ := h
    refine ⟨hocc, ?_, by simp [next, hor], ?_, ?_, fun u hu => ?_⟩
    · simpa [next, Pc.native] using halive
    · simpa [next, Pc.holdsLock] using hlock
    · simp [next, Pc.active, Pc.dropping?]
    · have hpcu : (next s (.drop t)).pc u = s.pc u := goto_pc_of_ne hu
      rw [hpcu, hact u]

/-- Every step but a failing assertion is a step of the abstract protocol. -/
theorem describes_next {a : Label T} (h : Describes s phase) (ha : Enabled s a)
    (hgood : ∀ t, a ≠ .panic t) : Describes (next s a) (phase.next a) := by
  -- a thread inside the protocol is the one the phase names
  have hbusy {t : T} {p : Pc} (hpc : s.pc t = p) (hp : p.active = true) :
      phase = .busy t ∧ Describes s (.busy t) := by
    have hphase := busy_of_active h (t := t) (by rw [hpc, hp])
    exact ⟨hphase, hphase ▸ h⟩
  have hout {t : T} {p q : Pc} (hpc : s.pc t = p) (hp : p.active = false)
      (hq : q.active = false) : Describes (s.goto t q) phase :=
    describes_goto h (by rw [hpc, hp]) hq
  cases a with
  | callNew t =>
    cases phase <;> exact hout ha rfl rfl
  | claim t =>
    obtain ⟨hpc, hocc⟩ := ha
    cases phase with
    | free => exact describes_claim h rfl rfl rfl
    | held => exact absurd h.1 (by rw [hocc]; decide)
    | busy v => exact absurd h.1 (by rw [hocc]; decide)
  | wait t =>
    cases phase <;> exact hout ha.1 rfl rfl
  | wake t =>
    cases phase <;> exact hout ha rfl rfl
  | timeout t =>
    have hidle := hout (q := .idle) ha rfl rfl
    have hclaiming := hout (q := .claiming) ha rfl rfl
    have hphase : phase.next (.timeout t) = phase := by cases phase <;> rfl
    rw [next, hphase]
    split
    · exact hidle
    · exact hclaiming
  | tryNew t => exact describes_tryNew h t
  | lock t =>
    obtain ⟨⟨m, hpc⟩, -⟩ := ha
    obtain ⟨rfl, hb⟩ := hbusy hpc rfl
    rw [next, hpc]
    exact describes_busy hb rfl (by rw [goto_alive, hb.2.1, hpc]; rfl) rfl
  | nativeNew t =>
    obtain ⟨⟨m, hpc⟩, -⟩ := ha
    obtain ⟨rfl, hb⟩ := hbusy hpc rfl
    rw [next, hpc]
    exact describes_busy hb rfl rfl (by rw [goto_lock, hb.2.2.2.1, hpc]; rfl)
  | nativeNull t =>
    obtain ⟨m, hpc⟩ := ha
    obtain ⟨rfl, hb⟩ := hbusy hpc rfl
    rw [next, hpc]
    exact describes_busy hb rfl (by rw [goto_alive, hb.2.1, hpc]; rfl) rfl
  | ready t =>
    obtain ⟨m, hpc⟩ := ha
    obtain ⟨rfl, hocc, halive, hor, -, -, hact⟩ := hbusy hpc rfl
    rw [hpc] at halive
    exact ⟨hocc, halive, by rw [next, hor], rfl, goto_inactive rfl hact⟩
  | panic t => exact absurd rfl (hgood t)
  | releaseFailed t woken =>
    obtain ⟨⟨m, hpc⟩, -⟩ := ha
    obtain ⟨rfl, hb⟩ := hbusy hpc rfl
    exact describes_release hb (by rw [hpc]; rfl) (by rw [hpc]; rfl) woken
  | drop t => exact describes_drop h ha.2
  | lockDrop t =>
    obtain ⟨hpc, -⟩ := ha
    obtain ⟨rfl, hb⟩ := hbusy hpc rfl
    exact describes_busy hb rfl (by rw [goto_alive, hb.2.1, hpc]; rfl) rfl
  | free t =>
    obtain ⟨rfl, hb⟩ := hbusy ha rfl
    exact describes_busy hb rfl rfl rfl
  | releaseDrop t woken =>
    obtain ⟨hpc, -⟩ := ha
    obtain ⟨rfl, hb⟩ := hbusy hpc rfl
    exact describes_release hb (by rw [hpc]; rfl) (by rw [hpc]; rfl) woken

/-! ## Safety -/

theorem Pc.active_of_constructing {p : Pc} (h : p.constructing = true) : p.active = true := by
  rw [Pc.active, h, Bool.true_or]

theorem Pc.active_of_dropping {p : Pc} (h : p.dropping? = true) : p.active = true := by
  rw [Pc.active, h, Bool.or_true]

/-- Every phase is safe. -/
theorem safe_of_describes (h : Describes s phase) : Safe s := by
  have hdrop {t : T} (ht : (s.pc t).dropping? = true) : phase = .busy t :=
    busy_of_active h (Pc.active_of_dropping ht)
  have hquiet (hq : ¬ (Live s ∨ Constructing s)) : phase = .free := by
    cases phase with
    | free => rfl
    | held => exact absurd (Or.inl (Or.inl (by rw [h.2.2.1]; decide))) hq
    | busy t =>
      have hact := h.2.2.2.2.1
      rw [Pc.active, Bool.or_eq_true] at hact
      rcases hact with hc | hd
      · exact absurd (Or.inr ⟨t, hc⟩) hq
      · exact absurd (Or.inl (Or.inr ⟨t, hd⟩)) hq
  refine ⟨⟨?_, fun t ht => ?_, fun t u ht hu => ?_⟩, fun hlive => ?_, fun hq => ?_⟩
  · cases phase with
    | free => rw [h.2.2.1]; decide
    | held => rw [h.2.2.1]
    | busy t => rw [h.2.2.1]; decide
  · obtain rfl := hdrop ht
    exact h.2.2.1
  · have heq := (hdrop ht).symm.trans (hdrop hu)
    cases heq
    rfl
  · have hocc : s.occupied = true := by
      cases phase with
      | held => exact h.1
      | busy t => exact h.1
      | free =>
        obtain ⟨-, -, hor, -, hact⟩ := h
        rcases hlive with (hpos | ⟨t, ht⟩) | ⟨t, ht⟩
        · omega
        · exact absurd (hact t) (by rw [Pc.active_of_dropping ht]; decide)
        · exact absurd (hact t) (by rw [Pc.active_of_constructing ht]; decide)
    rw [hocc]
    rfl
  · obtain rfl := hquiet hq
    exact ⟨h.1, h.2.1⟩

/-- A failing assertion leaves the CPU claimed with nobody to release it. -/
theorem not_safe_of_panic (h : Describes s phase) {t : T} (ha : Enabled s (.panic t)) :
    ¬ Safe (next s (.panic t)) := by
  obtain ⟨m, hpc⟩ := ha
  obtain rfl := busy_of_active h (t := t) (by rw [hpc]; rfl)
  obtain ⟨hocc, -, hor, -, -, hact⟩ := h
  intro hsafe
  have hidle : ∀ u, ((next s (.panic t)).pc u).active = false := goto_inactive rfl hact
  have hquiet : ¬ (Live (next s (.panic t)) ∨ Constructing (next s (.panic t))) := by
    rintro ((hpos | ⟨u, hu⟩) | ⟨u, hu⟩)
    · exact absurd hpos (by simp [next, hor])
    · exact absurd (hidle u) (by rw [Pc.active_of_dropping hu]; decide)
    · exact absurd (hidle u) (by rw [Pc.active_of_constructing hu]; decide)
  have hfree := (hsafe.flags hquiet).1
  rw [next] at hfree
  exact absurd hfree (by simp [hocc])

end Abstract

/-- Over every interleaving of constructors and drops on any threads, the protocol is kept in every
state exactly when no assertion in `init` fails after the native constructor succeeded. -/
theorem safe_iff_no_panic (T : Type*) [DecidableEq T] (run : List (Label T))
    (hrun : (system T).Runs State.initial run) :
    (system T).Always Safe State.initial run ↔ ∀ t, Label.panic t ∉ run := by
  have hiff := (system T).always_iff_eachStep (fun s => ∃ phase, Describes s phase)
    (fun _ a => ∀ t, a ≠ .panic t)
    (fun s ⟨phase, h⟩ => safe_of_describes h)
    (fun s a ⟨phase, h⟩ ha hgood => ⟨_, describes_next h ha hgood⟩)
    (fun s a ⟨phase, h⟩ ha hbad => by
      obtain ⟨t, ht⟩ := not_forall.1 hbad
      obtain rfl := not_not.1 ht
      exact not_safe_of_panic h ha)
    ⟨.free, describes_initial⟩ hrun
  rw [hiff]
  have hmem (s : State T) (as : List (Label T)) :
      (system T).EachStep (fun _ a => ∀ t, a ≠ .panic t) s as ↔ ∀ t, Label.panic t ∉ as := by
    induction as generalizing s with
    | nil => simp [System.EachStep]
    | cons a as ih =>
      rw [System.eachStep_cons, ih]
      simp only [List.mem_cons, not_or, ne_eq, forall_and, eq_comm]
  exact hmem _ _

/-- One thread constructs and drops an oracle while the other's `try_new` is turned away. -/
theorem safe_of_drop_run : (system Bool).Always Safe State.initial
    [.tryNew true, .lock true, .tryNew false, .nativeNew true, .ready true, .drop true,
      .lockDrop true, .free true, .releaseDrop true none] := by
  refine (safe_iff_no_panic Bool _ ?_).2 (by simp)
  simp [system, Enabled, next, State.initial, tryClaimInstance, State.goto, State.Notifies,
    State.notify, Pc.mode]

/-- A failing assertion after the native constructor succeeded: no oracle is live or being
constructed, yet both flags stay set. -/
theorem panic_leaves_flags :
    let run : List (Label Bool) := [.tryNew true, .lock true, .nativeNew true, .panic true]
    let s := (system Bool).after State.initial run
    (system Bool).Runs State.initial run ∧ ¬ (Live s ∨ Constructing s) ∧
      s.occupied = true ∧ s.alive = true ∧ ¬ Safe s := by
  intro run s
  have hs : s.occupied = true ∧ s.alive = true ∧ ¬ (Live s ∨ Constructing s) := by
    refine ⟨rfl, rfl, ?_⟩
    rintro ((hpos | ⟨t, ht⟩) | ⟨t, ht⟩)
    · exact absurd hpos (by decide)
    · cases t <;> exact absurd ht (by decide)
    · cases t <;> exact absurd ht (by decide)
  obtain ⟨hocc, halive, hquiet⟩ := hs
  refine ⟨?_, hquiet, hocc, halive, fun hsafe => ?_⟩
  · simp [run, system, Enabled, next, State.initial, tryClaimInstance, State.goto, Pc.mode]
  · rw [(hsafe.flags hquiet).1] at hocc
    exact absurd hocc (by decide)

end Bochs.Singleton
