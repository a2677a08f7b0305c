import Testjig.Machine.Reach
import Testjig.Timers.Chain

namespace Testjig.Timers

open Machine Testjig.Time

variable {κ : Type} {n : Nat}

/-- The count of a coarse deadline, 5 ms early and not clamped -/
def coarseCount (delta : Int) : Int := delta.tdiv (timeUs 100) - 50

theorem coarseCount_far {delta : Int} (ahead : 0 ≤ delta) : coarseCount delta = delta / 900 - 50 := by
  have quotient : delta.tdiv (timeUs 100) = delta / 900 := Int.tdiv_eq_ediv_of_nonneg ahead
  rw [coarseCount, quotient]

/-- The registers hold what is computed without any bound on the numbers. -/
theorem reprogramTimer_arr {delta : Int} (bound : delta < 2^31) :
    ((reprogramTimer delta).arr : Int) =
      if delta < 0x10000 then max 1 (delta - slackTicks) else min 0xffff (coarseCount delta) := by
  rw [slackTicks]
  split
  · rename_i near
    rw [reprogramTimer, if_pos near, slackTicks]
    dsimp only
    split <;> omega
  · rename_i far
    rw [reprogramTimer_far delta (by omega) bound, coarseCount_far (by omega)]
    dsimp only
    omega

/-- Ticks of the clock until the timer that is programmed for `delta` expires -/
def expiryTicks (delta : Int) : Nat := (reprogramTimer delta).period / 8

/-- `IRQ_timer()` at `now`, and at the expiry that it programs, if it does, without any latency -/
def TimerQueue.irqNext (queue : TimerQueue κ n) (now : TimeT) : Except (Option (Turn κ n)) TimeT :=
  match queue.irqTurn now with
  | some (.reprogram delta) => .ok (now + BitVec.ofNat 32 (expiryTicks delta))
  | turn => .error turn

/-- The callback of the timer is made at `now`, no more than the slack before its deadline and not after it. -/
def TimerQueue.FiresAt (queue : TimerQueue κ n) (timer : Fin n) (now : TimeT) : Prop :=
  (0 ≤ timeDiff now (queue.timers timer).deadline ∧ timeDiff now (queue.timers timer).deadline ≤ slackTicks) ∧
    ∃ popped, queue.irqTurn now = some (.fire timer (queue.timers timer).callback popped)

theorem expiryTicks_fine {delta : Int} (near : delta < 0x10000) (later : slackTicks < delta) :
    (expiryTicks delta : Int) = delta - 11 := by
  have period := reprogramTimer_fine delta near later
  rw [slackTicks] at later
  rw [expiryTicks]
  omega

theorem expiryTicks_coarse {delta : Int} (far : 0x10000 ≤ delta) (bound : delta < 2^31) :
    (expiryTicks delta : Int) = 900 * (min 0xffff (delta / 900 - 50) + 1) := by
  rw [expiryTicks, reprogramTimer_far delta far bound]
  simp only [Tim.period]
  omega

/-- No part of a tick is lost at an expiry. -/
theorem period_ticks {delta : Int} (bound : delta < 2^31) : (reprogramTimer delta).period = 8 * expiryTicks delta := by
  rw [expiryTicks]
  rcases Int.lt_or_le delta 0x10000 with near | far
  · have prescaler : (reprogramTimer delta).psc = 7 := by
      rw [reprogramTimer, if_pos near]
      rfl
    rw [Tim.period, prescaler]
    omega
  · rw [reprogramTimer_far delta far bound]
    simp only [Tim.period]
    omega

/-- An expiry leaves the fixed rest of a fine deadline, or a rest that is shorter and still to be waited for. -/
theorem expiryTicks_leaves {delta : Int} (later : slackTicks < delta) (bound : delta < 2^31) :
    (delta < 0x10000 → delta - expiryTicks delta = 11) ∧
      (0x10000 ≤ delta → slackTicks < delta - expiryTicks delta ∧ delta - expiryTicks delta < delta) ∧
      (0x10000 ≤ delta → delta / 900 - 50 ≤ 0xffff → delta - expiryTicks delta < 0x10000) := by
  refine ⟨?_, ?_, ?_⟩
  · intro near
    have ticks := expiryTicks_fine near later
    omega
  · intro far
    have ticks := expiryTicks_coarse far bound
    rw [slackTicks]
    omega
  · intro far unclamped
    have ticks := expiryTicks_coarse far bound
    omega

theorem timeDiff_later (now deadline : TimeT) (ticks : Nat) (reached : -2^31 ≤ timeDiff now deadline - ticks) :
    timeDiff (now + BitVec.ofNat 32 ticks) deadline = timeDiff now deadline - ticks := by
  have apart : deadline - (now + BitVec.ofNat 32 ticks) = deadline - now - BitVec.ofNat 32 ticks :=
    (BitVec.sub_sub deadline now (BitVec.ofNat 32 ticks)).symm
  have bound := BitVec.toInt_lt (x := deadline - now)
  rw [timeDiff] at reached ⊢
  rw [apart, BitVec.toInt_sub, BitVec.toInt_ofNat', Int.sub_bmod_bmod, timeDiff]
  exact Int.bmod_eq_of_le (by omega) (by omega)

namespace TimerQueue

variable {queue : TimerQueue κ n} {timer : Fin n} {now : TimeT}

theorem irqNext_pending (head : queue.head = .timer timer)
    (later : slackTicks < timeDiff now (queue.timers timer).deadline) :
    ∃ next, queue.irqNext now = .ok next ∧
      timeDiff next (queue.timers timer).deadline = timeDiff now (queue.timers timer).deadline -
        expiryTicks (timeDiff now (queue.timers timer).deadline) := by
  have bound : timeDiff now (queue.timers timer).deadline < 2^31 := BitVec.toInt_lt
  have turn : queue.irqTurn now = some (.reprogram (timeDiff now (queue.timers timer).deadline)) := by
    rw [irqTurn, head]
    exact if_pos later
  obtain ⟨fine, coarse, -⟩ := expiryTicks_leaves later bound
  refine ⟨_, by rw [irqNext, turn], ?_⟩
  apply timeDiff_later
  rw [slackTicks] at coarse
  omega

theorem fires_soon (head : queue.head = .timer timer) (ahead : 0 ≤ timeDiff now (queue.timers timer).deadline)
    (soon : timeDiff now (queue.timers timer).deadline ≤ slackTicks) : queue.FiresAt timer now := by
  refine ⟨⟨ahead, soon⟩, (queue.store .head (queue.timers timer).next).store (.next timer) .inactive, ?_⟩
  rw [irqTurn, head]
  simp only [if_neg (Int.not_lt.mpr soon), callback_store]

/-- The expiry of a fine deadline is the last one. -/
theorem irqNext_fine (head : queue.head = .timer timer)
    (later : slackTicks < timeDiff now (queue.timers timer).deadline)
    (near : timeDiff now (queue.timers timer).deadline < 0x10000) :
    ∃ next, queue.irqNext now = .ok next ∧ queue.FiresAt timer next := by
  obtain ⟨next, taken, left⟩ := irqNext_pending head later
  have rest := (expiryTicks_leaves later BitVec.toInt_lt).1 near
  rw [rest] at left
  refine ⟨next, taken, fires_soon head ?_ ?_⟩
  · omega
  · rw [left, slackTicks]
    omega

theorem irqNext_coarse (head : queue.head = .timer timer)
    (far : 0x10000 ≤ timeDiff now (queue.timers timer).deadline) :
    ∃ next, queue.irqNext now = .ok next ∧ slackTicks < timeDiff next (queue.timers timer).deadline ∧
      timeDiff next (queue.timers timer).deadline < timeDiff now (queue.timers timer).deadline ∧
      (timeDiff now (queue.timers timer).deadline / 900 - 50 ≤ 0xffff →
        timeDiff next (queue.timers timer).deadline < 0x10000) := by
  have later : slackTicks < timeDiff now (queue.timers timer).deadline := by
    rw [slackTicks]
    omega
  obtain ⟨next, taken, left⟩ := irqNext_pending head later
  obtain ⟨-, coarse, unclamped⟩ := expiryTicks_leaves later BitVec.toInt_lt
  rw [← left] at coarse unclamped
  exact ⟨next, taken, (coarse far).1, (coarse far).2, unclamped far⟩

theorem irqNext_converges (head : queue.head = .timer timer)
    (later : slackTicks < timeDiff now (queue.timers timer).deadline) :
    ∃ last, Reaches queue.irqNext now last ∧ queue.FiresAt timer last := by
  let left := fun time => timeDiff time (queue.timers timer).deadline
  apply reaches_done (fun time => slackTicks < left time) (fun time => (left time).toNat) ?_ later
  intro time waiting
  rcases Int.lt_or_le (left time) 0x10000 with near | far
  · obtain ⟨next, taken, fires⟩ := irqNext_fine head waiting near
    exact ⟨next, taken, .inl fires⟩
  · obtain ⟨next, taken, more, less, -⟩ := irqNext_coarse head far
    refine ⟨next, taken, .inr ⟨more, ?_⟩⟩
    dsimp only [left] at far ⊢
    omega

end TimerQueue

/-- `reprogram_timer()` programs an expiry that is in time for every delta, and the expiries of `IRQ_timer()` lead to
the deadline: a coarse one that is not clamped by way of a single fine one. -/
theorem reprogram_timer_converges (delta : BitVec 32) :
    (1 ≤ (reprogramTimer delta.toInt).arr ∧ (reprogramTimer delta.toInt).arr ≤ 65535) ∧
      ((reprogramTimer delta.toInt).arr : Int) =
        (if delta.toInt < 0x10000 then max 1 (delta.toInt - slackTicks) else min 0xffff (coarseCount delta.toInt)) ∧
      (reprogramTimer delta.toInt).period = 8 * expiryTicks delta.toInt ∧
      (slackTicks < delta.toInt → ((reprogramTimer delta.toInt).period : Int) ≤ 8 * delta.toInt ∧
        ∀ (κ : Type) (n : Nat) (queue : TimerQueue κ n) (timer : Fin n) (now : TimeT), queue.head = .timer timer →
          timeDiff now (queue.timers timer).deadline = delta.toInt →
          (∃ last, Reaches queue.irqNext now last ∧ queue.FiresAt timer last) ∧
          (0x10000 ≤ delta.toInt → coarseCount delta.toInt ≤ 0xffff →
            ∃ first second, queue.irqNext now = .ok first ∧
              slackTicks < timeDiff first (queue.timers timer).deadline ∧
              timeDiff first (queue.timers timer).deadline < 0x10000 ∧
              queue.irqNext first = .ok second ∧ queue.FiresAt timer second)) := by
  have bound : delta.toInt < 2^31 := BitVec.toInt_lt
  have arr := reprogramTimer_arr bound
  refine ⟨?_, arr, period_ticks bound, ?_⟩
  · rw [slackTicks] at arr
    split at arr
    · omega
    · rename_i far
      rw [coarseCount_far (by omega)] at arr
      omega
  · intro later
    have early := reprogramTimer_early delta.toInt later bound
    refine ⟨by omega, ?_⟩
    intro κ n queue timer now head due
    rw [← due] at later ⊢
    refine ⟨TimerQueue.irqNext_converges head later, ?_⟩
    intro far unclamped
    rw [coarseCount_far (by omega)] at unclamped
    obtain ⟨first, taken, more, -, near⟩ := TimerQueue.irqNext_coarse head far
    obtain ⟨second, last, fires⟩ := TimerQueue.irqNext_fine head more (near unclamped)
    exact ⟨first, second, taken, more, near unclamped, last, fires⟩

/-- The shortest deadline that is waited for twice -/
theorem reprogram_timer_converges_least :
    let queue : TimerQueue Unit 1 := { head := .timer 0, timers := fun _ => ⟨0x10000, (), .null⟩ }
    ∃ first second, queue.irqNext 0 = .ok first ∧ queue.irqNext first = .ok second ∧ queue.FiresAt 0 second := by
  intro queue
  obtain ⟨-, -, -, converges⟩ := reprogram_timer_converges 0x10000
  obtain ⟨-, twice⟩ := (converges (by decide)).2 Unit 1 queue 0 0 rfl (by decide)
  obtain ⟨first, second, coarse, -, -, fine, fires⟩ := twice (by decide) (by decide)
  exact ⟨first, second, coarse, fine, fires⟩

end Testjig.Timers
