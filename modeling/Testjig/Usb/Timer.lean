import Testjig.Time.Delay
import Testjig.Usb.Host

namespace Testjig.Usb

open Machine Testjig.Time

/-- A timer set at reading 0, after the polls at the readings up to that index -/
def timerAfter (readings : Nat → BitVec 32) (timeoutMs : Nat) : Nat → BspTimer
  | 0 => bspInitTimer (readings 0) timeoutMs
  | k + 1 => (bspTimerFired (timerAfter readings timeoutMs k) (readings (k + 1))).1

/-- What the poll at reading `k + 1` returns -/
def fires (readings : Nat → BitVec 32) (timeoutMs k : Nat) : Bool :=
  (bspTimerFired (timerAfter readings timeoutMs k) (readings (k + 1))).2

theorem bspTimerFired_reached {t : BspTimer} {stk : BitVec 32} (reached : t.ticks ≤ (t.prevStk - stk) &&& stkMask) :
    bspTimerFired t stk = ({ t with ticks := 0 }, true) := by
  rw [bspTimerFired]
  exact if_pos reached

theorem bspTimerFired_pending {t : BspTimer} {stk : BitVec 32}
    (pending : ¬ t.ticks ≤ (t.prevStk - stk) &&& stkMask) :
    bspTimerFired t stk = (⟨stk, t.ticks - ((t.prevStk - stk) &&& stkMask)⟩, false) := by
  rw [bspTimerFired]
  exact if_neg pending

theorem bspTimerFired_iff (t : BspTimer) (stk : BitVec 32) :
    (bspTimerFired t stk).2 = true ↔ t.ticks ≤ (t.prevStk - stk) &&& stkMask := by
  by_cases reached : t.ticks ≤ (t.prevStk - stk) &&& stkMask
  · simp [bspTimerFired_reached reached, reached]
  · simp [bspTimerFired_pending reached, reached]

/-- A timer that has fired keeps no ticks, and so fires at every later poll. -/
theorem bspTimerFired_spent {t : BspTimer} (spent : t.ticks = 0) (stk : BitVec 32) :
    bspTimerFired t stk = (t, true) := by
  have reached : t.ticks ≤ (t.prevStk - stk) &&& stkMask := by simp [spent, BitVec.le_def]
  rw [bspTimerFired_reached reached, ← spent]

variable {start : BitVec 24} {times : Nat → Nat} {timeoutMs k : Nat}

/-- Either the timer has fired, and was due, or it counts down from its timeout. -/
inductive Counting (start : BitVec 24) (times : Nat → Nat) (timeoutMs k : Nat) (t : BspTimer) : Prop where
  | spent (ticks : t.ticks = 0) (due : (BitVec.ofNat 32 (stkMs timeoutMs)).toNat ≤ times k - times 0)
  | left (prev : t.prevStk = sampled start times k)
      (remaining : Countdown.Remaining (2^24) (BitVec.ofNat 32 (stkMs timeoutMs)).toNat times k t.ticks.toNat)

theorem timerAfter_counting (start : BitVec 24) (timeoutMs : Nat) (order : Monotone times) (k : Nat) :
    Counting start times timeoutMs k (timerAfter (sampled start times) timeoutMs k) := by
  induction k with
  | zero => exact .left rfl (Countdown.remaining_start _ _ _)
  | succ k ih =>
    rw [timerAfter]
    generalize timerAfter (sampled start times) timeoutMs k = t at ih
    cases ih with
    | spent ticks due =>
      have later := order (Nat.le_succ k)
      rw [bspTimerFired_spent ticks]
      apply Counting.spent ticks
      dsimp only [Nat.succ_eq_add_one] at later
      omega
    | left prev remaining =>
      by_cases reached : t.ticks ≤ (t.prevStk - sampled start times (k + 1)) &&& stkMask
      · rw [bspTimerFired_reached reached]
        rw [prev] at reached
        exact .spent rfl (remaining.due order ((reaches_iff order).mp reached))
      · rw [bspTimerFired_pending reached]
        rw [prev] at reached ⊢
        exact .left rfl (remaining_next order remaining reached)

theorem fires_due (order : Monotone times) (fired : fires (sampled start times) timeoutMs k = true) :
    (BitVec.ofNat 32 (stkMs timeoutMs)).toNat ≤ times (k + 1) - times 0 := by
  have later := order (Nat.le_succ k)
  dsimp only [Nat.succ_eq_add_one] at later
  rw [fires, bspTimerFired_iff] at fired
  cases timerAfter_counting start timeoutMs order k with
  | spent ticks due => omega
  | left prev remaining =>
    rw [prev] at fired
    exact remaining.due order ((reaches_iff order).mp fired)

theorem fires_on_time (order : Monotone times) (dense : Countdown.Dense (2^24) times (k + 1))
    (due : (BitVec.ofNat 32 (stkMs timeoutMs)).toNat ≤ times (k + 1) - times 0) :
    fires (sampled start times) timeoutMs k = true := by
  rw [fires, bspTimerFired_iff]
  cases timerAfter_counting start timeoutMs order k with
  | spent ticks _ => simp [ticks, BitVec.le_def]
  | left prev remaining =>
    rw [prev]
    by_contra pending
    have early := remaining.early order ((reaches_iff order).not.mp pending) dense
    omega

theorem fires_again (readings : Nat → BitVec 32) {later : Nat} (fired : fires readings timeoutMs k = true)
    (order : k ≤ later) : fires readings timeoutMs later = true := by
  have spent : ∀ extra, (timerAfter readings timeoutMs (k + 1 + extra)).ticks = 0 := by
    intro extra
    induction extra with
    | zero =>
      rw [fires, bspTimerFired_iff] at fired
      rw [Nat.add_zero, timerAfter, bspTimerFired_reached fired]
    | succ extra ih => rw [← Nat.add_assoc, timerAfter, bspTimerFired_spent ih, ih]
  rcases Nat.eq_or_lt_of_le order with same | after
  · rwa [← same]
  · obtain ⟨extra, rfl⟩ := Nat.exists_eq_add_of_le after
    rw [fires, bspTimerFired_spent (spent extra)]

/-- Neither countdown ends early, both end at the first chance, and a fired timer stays fired. -/
theorem countdowns_on_time (start : BitVec 24) (times : Nat → Nat) (order : Monotone times) :
    (∀ (ticks : BitVec 32) (turns index : Nat), delayTicks (sampled start times) turns ticks = some index →
      1 ≤ index ∧ ticks.toNat ≤ times index - times 0) ∧
    (∀ (ticks : BitVec 32) (index : Nat), (∀ i < index, times (i + 1) < times i + 2^24) →
      FirstDue times ticks.toNat index →
      ∀ turns, index ≤ turns → delayTicks (sampled start times) turns ticks = some index) ∧
    (∀ timeoutMs k, fires (sampled start times) timeoutMs k = true →
      (BitVec.ofNat 32 (stkMs timeoutMs)).toNat ≤ times (k + 1) - times 0) ∧
    (∀ timeoutMs k, (∀ i < k + 1, times (i + 1) < times i + 2^24) →
      (fires (sampled start times) timeoutMs k = true ↔
        (BitVec.ofNat 32 (stkMs timeoutMs)).toNat ≤ times (k + 1) - times 0)) ∧
    (∀ timeoutMs k later, fires (sampled start times) timeoutMs k = true → k ≤ later →
      fires (sampled start times) timeoutMs later = true) := by
  refine ⟨?_, ?_, ?_, ?_, ?_⟩
  · intro ticks turns index ends
    exact delay_not_early start order turns index ends
  · intro ticks index dense first turns fuel
    exact delay_on_time start order turns index dense first fuel
  · intro timeoutMs k fired
    exact fires_due order fired
  · intro timeoutMs k dense
    exact ⟨fires_due order, fires_on_time order dense⟩
  · intro timeoutMs k later fired after
    exact fires_again (sampled start times) fired after

/-- A five second timeout polled every 1.7 s of the 1.86 s that the counter takes to wrap -/
theorem countdowns_on_time_wrapping :
    Monotone (fun i => 15300000 * i) ∧ fires (sampled 5 fun i => 15300000 * i) dataStageTimeout 1 = false ∧
      fires (sampled 5 fun i => 15300000 * i) dataStageTimeout 2 = true := by
  have order : Monotone (fun i => 15300000 * i) := by
    intro i j lower
    dsimp only
    omega
  have timeout : (BitVec.ofNat 32 (stkMs dataStageTimeout)).toNat = 45000000 := by decide
  have exact := (countdowns_on_time 5 _ order).2.2.2.1 dataStageTimeout
  rw [timeout] at exact
  refine ⟨order, ?_, ?_⟩
  · have iff := exact 1 (by intro i bound; omega)
    simpa using iff
  · have iff := exact 2 (by intro i bound; omega)
    simpa using iff

end Testjig.Usb
