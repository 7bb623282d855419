import Mathlib

/-!
# The clock of a process

`bx_pc_system_c` counts the ticks of the process down to its next event (`pc_system.h`,
`pc_system.cc`).  Nothing sets it back: a write of the time-stamp counter, as in a reset, moves
`tsc_adjust` instead (`cpu/proc_ctrl.cc`).

* `tickn`, while no timer but the null timer is active; `tickn_spec`: the clock counts every tick.
* `get_TSC_tickn_set_TSC`, `tsc_adjust_set_TSC_inj`: after a reset the time-stamp counter does not
  show where the clock stands, but `tsc_adjust` does.
-/

namespace Bochs

/-- The timers registered.  The null timer is always active, the others while their flags in
`bx_local_apic_c` are set. -/
inductive Timer
  | null
  | lapic
  | vmxPreemption
  | mwaitx
deriving DecidableEq

/-- The counters and timers of `bx_pc_system`, and `tsc_adjust`. -/
structure Clock where
  ticksTotal : UInt64
  currCountdown : UInt32
  currCountdownPeriod : UInt32
  timeToFire : Timer → UInt64
  tsc_adjust : UInt64

namespace Clock

/-- `NullTimerInterval`. -/
def nullTimerInterval : UInt64 := 0xFFFFFFFF

/-- The start of a process, with the timers registered: nobody calls `initialize`. -/
def start : Clock :=
  { ticksTotal := 0, currCountdown := 0, currCountdownPeriod := 0
    timeToFire := fun timer => if timer = .null then 0 else 1
    tsc_adjust := 0 }

def time_ticks (c : Clock) : UInt64 :=
  c.ticksTotal + (c.currCountdownPeriod - c.currCountdown).toUInt64

/-! ### The time-stamp counter -/

def get_TSC (c : Clock) : UInt64 := c.time_ticks + c.tsc_adjust

def set_TSC (c : Clock) (newval : UInt64) : Clock :=
  { c with tsc_adjust := newval - c.time_ticks }

variable {c d : Clock}

/-- `set_TSC` asserts this. -/
@[simp] theorem get_TSC_set_TSC (c : Clock) (v : UInt64) : (c.set_TSC v).get_TSC = v := by
  change c.time_ticks + (v - c.time_ticks) = v
  rw [UInt64.add_comm, UInt64.sub_add_cancel]

/-- What `tsc_adjust` is after a write of the counter shows the time of the write. -/
theorem tsc_adjust_set_TSC_inj (v : UInt64) :
    (c.set_TSC v).tsc_adjust = (d.set_TSC v).tsc_adjust ↔ c.time_ticks = d.time_ticks := by
  refine ⟨fun h => ?_, fun h => congrArg (v - ·) h⟩
  have hc := get_TSC_set_TSC c v
  have hd := get_TSC_set_TSC d v
  unfold get_TSC at hc hd
  rw [h] at hc
  exact (UInt64.add_left_inj _).1 (hc.trans hd.symm)

/-! ### Ticks -/

/-- The ticks in all when the countdown ends. -/
def total (c : Clock) : UInt64 := c.ticksTotal + c.currCountdownPeriod.toUInt64

/-- The time to fire of the null timer after the countdown has ended. -/
def nullTimeToFire (c : Clock) : UInt64 :=
  if c.total = c.timeToFire .null then c.timeToFire .null + nullTimerInterval
  else c.timeToFire .null

/-- `countdownEvent` while only the null timer is active; its handler does nothing. -/
def countdownEvent (c : Clock) : Clock :=
  let period := (c.nullTimeToFire - c.total).toUInt32
  { c with
    ticksTotal := c.total
    currCountdown := period
    currCountdownPeriod := period
    timeToFire := Function.update c.timeToFire .null c.nullTimeToFire }

/-- The loop of `tickn`, for at most so many rounds. -/
def tickLoop : ℕ → UInt32 → Clock → Option Clock
  | 0, _, _ => none
  | k + 1, n, c =>
    if c.currCountdown ≤ n then
      tickLoop k (n - c.currCountdown) { c with currCountdown := 0 }.countdownEvent
    else some { c with currCountdown := c.currCountdown - n }

/-- `tickn`.  Its loop ends on every clock that runs. -/
def tickn (c : Clock) (n : UInt32) : Clock := (tickLoop (n.toNat + 2) n c).getD c

/-- The countdown is within its period, which ends no later than the null timer fires. -/
structure Runs (c : Clock) : Prop where
  countdown : c.currCountdown ≤ c.currCountdownPeriod
  null : (c.timeToFire .null - c.total).toNat < 2 ^ 32

theorem runs_start : start.Runs where
  countdown := by decide
  null := by decide

theorem Runs.set_TSC (h : c.Runs) (v : UInt64) : (c.set_TSC v).Runs := ⟨h.countdown, h.null⟩

/-- The null timer fires after the countdown that an event starts, and within 32 bits of it. -/
theorem Runs.period (h : c.Runs) :
    c.nullTimeToFire - c.total ≠ 0 ∧ (c.nullTimeToFire - c.total).toNat < 2 ^ 32 := by
  unfold nullTimeToFire
  split_ifs with hfires
  · rw [hfires, UInt64.add_comm, UInt64.add_sub_cancel]
    decide
  · exact ⟨fun hzero => hfires (sub_eq_zero.1 hzero).symm, h.null⟩

theorem Runs.currCountdown_ne_zero (h : c.Runs) : c.countdownEvent.currCountdown ≠ 0 := by
  obtain ⟨hne, hlt⟩ := h.period
  intro hzero
  have hzero : (c.nullTimeToFire - c.total).toUInt32.toNat = 0 := congrArg UInt32.toNat hzero
  rw [UInt64.toNat_toUInt32, Nat.mod_eq_of_lt hlt] at hzero
  exact hne (UInt64.toNat_inj.1 hzero)

theorem Runs.countdownEvent (h : c.Runs) : c.countdownEvent.Runs where
  countdown := UInt32.le_refl _
  null := by
    have hperiod : (c.nullTimeToFire - c.total).toUInt32.toUInt64 = c.nullTimeToFire - c.total := by
      apply UInt64.toNat_inj.1
      rw [UInt32.toNat_toUInt64, UInt64.toNat_toUInt32, Nat.mod_eq_of_lt h.period.2]
    have hnext : c.countdownEvent.timeToFire .null = c.nullTimeToFire := by
      unfold Clock.countdownEvent
      dsimp only
      rw [Function.update_self]
    have htotal : c.countdownEvent.total =
        c.total + (c.nullTimeToFire - c.total).toUInt32.toUInt64 := rfl
    rw [hnext, htotal, hperiod, add_sub_cancel, sub_self]
    decide

theorem time_ticks_countdownEvent (c : Clock) : c.countdownEvent.time_ticks = c.total := by
  unfold time_ticks countdownEvent
  simp only [UInt32.sub_self]
  exact UInt64.add_zero _

theorem toUInt64_sub_of_le {a b : UInt32} (h : a ≤ b) :
    (b - a).toUInt64 = b.toUInt64 - a.toUInt64 := by
  have hle : a.toUInt64 ≤ b.toUInt64 := UInt32.le_iff_toNat_le.1 h
  apply UInt64.toNat_inj.1
  rw [UInt32.toNat_toUInt64, UInt32.toNat_sub_of_le _ _ h, UInt64.toNat_sub_of_le _ _ hle,
    UInt32.toNat_toUInt64, UInt32.toNat_toUInt64]

/-- The countdown is what is left to its total. -/
theorem Runs.time_ticks_add (h : c.Runs) : c.time_ticks + c.currCountdown.toUInt64 = c.total := by
  unfold time_ticks total
  rw [toUInt64_sub_of_le h.countdown, add_assoc, sub_add_cancel]

/-- Ticks that do not end the countdown. -/
theorem Runs.countDown (h : c.Runs) {n : UInt32} (hlt : n < c.currCountdown) :
    Runs { c with currCountdown := c.currCountdown - n } ∧
      time_ticks { c with currCountdown := c.currCountdown - n } = c.time_ticks + n.toUInt64 := by
  have hle : n ≤ c.currCountdown := UInt32.le_of_lt hlt
  have hcountdown : c.currCountdown - n ≤ c.currCountdownPeriod :=
    UInt32.le_trans (UInt32.sub_le hle) h.countdown
  refine ⟨⟨hcountdown, h.null⟩, ?_⟩
  unfold time_ticks
  dsimp only
  rw [toUInt64_sub_of_le hcountdown, toUInt64_sub_of_le hle, toUInt64_sub_of_le h.countdown,
    sub_sub_eq_add_sub, add_sub_right_comm, add_assoc]

/-- Every round counts the ticks it takes off, and each after the first takes off some. -/
theorem tickLoop_spec (h : c.Runs) {k : ℕ} {n : UInt32} (hn : n.toNat < k)
    (hzero : c.currCountdown = 0 → n.toNat + 1 < k) :
    ∃ d, tickLoop k n c = some d ∧ d.Runs ∧ d.time_ticks = c.time_ticks + n.toUInt64 ∧
      d.tsc_adjust = c.tsc_adjust := by
  induction k generalizing c n with
  | zero => exact absurd hn (Nat.not_lt_zero _)
  | succ k ih =>
    unfold tickLoop
    split_ifs with hle
    · have hle' : c.currCountdown.toNat ≤ n.toNat := hle
      have hrest : (n - c.currCountdown).toNat = n.toNat - c.currCountdown.toNat :=
        UInt32.toNat_sub_of_le _ _ hle
      have hround : (n - c.currCountdown).toNat < k := by
        by_cases hnone : c.currCountdown = 0
        · have := hzero hnone
          omega
        · have hpos : c.currCountdown.toNat ≠ 0 := fun heq => hnone (UInt32.toNat_inj.1 heq)
          omega
      obtain ⟨d, hd, hruns, htime, hadjust⟩ :=
        ih h.countdownEvent hround fun hnone => absurd hnone h.currCountdown_ne_zero
      refine ⟨d, hd, hruns, ?_, hadjust⟩
      calc d.time_ticks = c.total + (n - c.currCountdown).toUInt64 := by
            rw [htime]
            exact congrArg (· + _) (time_ticks_countdownEvent c)
        _ = c.time_ticks + n.toUInt64 := by
            rw [← h.time_ticks_add, toUInt64_sub_of_le hle, add_assoc, add_sub_cancel]
    · obtain ⟨hruns, htime⟩ := h.countDown (UInt32.not_le.1 hle)
      exact ⟨_, rfl, hruns, htime, rfl⟩

/-- **A clock that runs counts every tick**, and keeps running. -/
theorem tickn_spec (h : c.Runs) (n : UInt32) :
    (c.tickn n).Runs ∧ (c.tickn n).time_ticks = c.time_ticks + n.toUInt64 ∧
      (c.tickn n).tsc_adjust = c.tsc_adjust := by
  obtain ⟨d, hd, hspec⟩ := tickLoop_spec h (k := n.toNat + 2) (n := n) (by omega) fun _ => by omega
  unfold tickn
  rw [hd]
  exact hspec

/-- The time-stamp counter after a reset counts from there, wherever the clock stands. -/
theorem get_TSC_tickn_set_TSC (h : c.Runs) (n : UInt32) :
    ((c.set_TSC 0).tickn n).get_TSC = n.toUInt64 := by
  obtain ⟨-, htime, hadjust⟩ := tickn_spec (h.set_TSC 0) n
  have hzero := get_TSC_set_TSC c 0
  unfold get_TSC at hzero ⊢
  rw [htime, hadjust, add_right_comm, hzero]
  exact UInt64.zero_add _

end Clock

end Bochs
