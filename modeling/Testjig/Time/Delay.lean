import Mathlib.Order.Bounds.Defs
import Testjig.Machine.Countdown
import Testjig.Time.Refinement

namespace Testjig.Time

open Machine

/-- The loop of `delay_ticks()`: the index of the reading that ends it, if one of the next `turns` does. -/
def delayLoop (readings : Nat → BitVec 32) : Nat → Nat → BitVec 32 → BitVec 32 → Option Nat
  | 0, _, _, _ => none
  | turns + 1, index, ticks, prev =>
    let cur := readings index
    let diff := (prev - cur) &&& stkMask
    if ticks ≤ diff then some index
    else delayLoop readings turns (index + 1) (ticks - diff) cur

/-- `delay_ticks()`, given the successive values of `stk->val` -/
def delayTicks (readings : Nat → BitVec 32) (turns : Nat) (ticks : BitVec 32) : Option Nat :=
  delayLoop readings turns 1 ticks (readings 0)

def delayMs (readings : Nat → BitVec 32) (turns : Nat) (ms : BitVec 32) : Option Nat :=
  delayTicks readings turns (ms * 1000 * BitVec.ofNat 32 stkMhz)

def sampled (start : BitVec 24) (times : Nat → Nat) (index : Nat) : BitVec 32 := stkNow start (times index)

theorem stk_diff (start : BitVec 24) {earlier later : Nat} (order : earlier ≤ later) :
    ((stkNow start earlier - stkNow start later) &&& stkMask).toNat = (later - earlier) % 2^24 := by
  have mask : stkMask.toNat = 2^24 - 1 := by decide
  have small := start.isLt
  rw [BitVec.toNat_and, mask, Nat.and_two_pow_sub_one_eq_mod, BitVec.toNat_sub, stkNow_toNat, stkNow_toNat,
    BitVec.toNat_sub, BitVec.toNat_sub, BitVec.toNat_ofNat, BitVec.toNat_ofNat]
  omega

variable {start : BitVec 24} {times : Nat → Nat} {n : Nat} {k : Nat} {ticks : BitVec 32}

theorem reaches_iff (order : Monotone times) :
    ticks ≤ (sampled start times k - sampled start times (k + 1)) &&& stkMask ↔
      ticks.toNat ≤ (times (k + 1) - times k) % 2^24 := by
  rw [BitVec.le_def, sampled, sampled, stk_diff start (order (Nat.le_succ k))]

theorem remaining_next (order : Monotone times) (remaining : Countdown.Remaining (2^24) n times k ticks.toNat)
    (pending : ¬ ticks ≤ (sampled start times k - sampled start times (k + 1)) &&& stkMask) :
    Countdown.Remaining (2^24) n times (k + 1)
      (ticks - ((sampled start times k - sampled start times (k + 1)) &&& stkMask)).toNat := by
  rw [reaches_iff order] at pending
  have elapsed := stk_diff start (order (Nat.le_succ k))
  have left := remaining.next order pending
  dsimp only [Nat.succ_eq_add_one] at elapsed
  have whole : ((sampled start times k - sampled start times (k + 1)) &&& stkMask) ≤ ticks := by
    rw [BitVec.le_def, sampled, sampled, elapsed]
    omega
  rw [BitVec.toNat_sub_of_le whole, sampled, sampled, elapsed]
  exact left

theorem delayLoop_due (order : Monotone times) (turns : Nat)
    (remaining : Countdown.Remaining (2^24) n times k ticks.toNat) (index : Nat)
    (left : delayLoop (sampled start times) turns (k + 1) ticks (sampled start times k) = some index) :
    1 ≤ index ∧ n ≤ times index - times 0 := by
  induction turns generalizing k ticks with
  | zero => cases left
  | succ turns ih =>
    rw [delayLoop] at left
    split at left
    · rename_i reached
      cases left
      exact ⟨by omega, remaining.due order ((reaches_iff order).mp reached)⟩
    · rename_i pending
      exact ih (remaining_next order remaining pending) left

/-- The first sample after the start at which at least `n` ticks have passed -/
def FirstDue (times : Nat → Nat) (n index : Nat) : Prop :=
  IsLeast {i | 1 ≤ i ∧ n ≤ times i - times 0} index

theorem delayLoop_ends (order : Monotone times) (turns : Nat)
    (remaining : Countdown.Remaining (2^24) n times k ticks.toNat) (index : Nat) (ahead : k < index)
    (dense : Countdown.Dense (2^24) times index) (first : FirstDue times n index) (fuel : index ≤ k + turns) :
    delayLoop (sampled start times) turns (k + 1) ticks (sampled start times k) = some index := by
  induction turns generalizing k ticks with
  | zero => omega
  | succ turns ih =>
    rw [delayLoop]
    split
    · rename_i reached
      have due := remaining.due order ((reaches_iff order).mp reached)
      have least : index ≤ k + 1 := first.2 ⟨by omega, due⟩
      have here : k + 1 = index := by omega
      rw [here]
    · rename_i pending
      have early := remaining.early order ((reaches_iff order).not.mp pending) (dense.earlier ahead)
      have due : n ≤ times index - times 0 := first.1.2
      have later : k + 1 ≠ index := by
        intro same
        rw [same] at early
        omega
      exact ih (remaining_next order remaining pending) (by omega) (by omega)

theorem delay_not_early (start : BitVec 24) (order : Monotone times) (turns index : Nat)
    (ends : delayTicks (sampled start times) turns ticks = some index) :
    1 ≤ index ∧ ticks.toNat ≤ times index - times 0 :=
  delayLoop_due order turns (Countdown.remaining_start _ _ _) index ends

theorem delay_on_time (start : BitVec 24) (order : Monotone times) (turns index : Nat)
    (dense : Countdown.Dense (2^24) times index) (first : FirstDue times ticks.toNat index) (fuel : index ≤ turns) :
    delayTicks (sampled start times) turns ticks = some index := by
  have ahead : 1 ≤ index := first.1.1
  exact delayLoop_ends order turns (Countdown.remaining_start _ _ _) index ahead dense first (by omega)

end Testjig.Time
