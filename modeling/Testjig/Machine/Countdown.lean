import Mathlib.Order.Monotone.Basic
import Mathlib.Order.Nat

namespace Machine.Countdown

variable {turn n k left : Nat} {times : Nat → Nat}

/-- No two samples up to index `k` are a whole turn of the counter apart. -/
def Dense (turn : Nat) (times : Nat → Nat) (k : Nat) : Prop := ∀ i < k, times (i + 1) < times i + turn

/-- What is left of a countdown from `n` that takes off the elapsed time modulo `turn` at each sample. -/
structure Remaining (turn n : Nat) (times : Nat → Nat) (k left : Nat) : Prop where
  enough : n ≤ left + (times k - times 0)
  exact : Dense turn times k → left + (times k - times 0) = n

theorem Dense.earlier {j : Nat} (dense : Dense turn times k) (order : j ≤ k) : Dense turn times j := by
  intro i bound
  exact dense i (by omega)

theorem remaining_start (turn n : Nat) (times : Nat → Nat) : Remaining turn n times 0 n where
  enough := by omega
  exact := by
    intro dense
    omega

theorem Remaining.due (remaining : Remaining turn n times k left) (order : Monotone times)
    (done : left ≤ (times (k + 1) - times k) % turn) : n ≤ times (k + 1) - times 0 := by
  have first := order (Nat.zero_le k)
  have step := order (Nat.le_succ k)
  have wrapped := Nat.mod_le (times (k + 1) - times k) turn
  have enough := remaining.enough
  dsimp only [Nat.succ_eq_add_one] at step
  omega

theorem Remaining.next (remaining : Remaining turn n times k left) (order : Monotone times)
    (pending : ¬ left ≤ (times (k + 1) - times k) % turn) :
    Remaining turn n times (k + 1) (left - (times (k + 1) - times k) % turn) := by
  have first := order (Nat.zero_le k)
  have step := order (Nat.le_succ k)
  have wrapped := Nat.mod_le (times (k + 1) - times k) turn
  dsimp only [Nat.succ_eq_add_one] at step
  constructor
  · have enough := remaining.enough
    omega
  · intro dense
    have exact := remaining.exact (dense.earlier (Nat.le_succ k))
    have gap := dense k (Nat.lt_succ_self k)
    have whole : (times (k + 1) - times k) % turn = times (k + 1) - times k := Nat.mod_eq_of_lt (by omega)
    omega

theorem Remaining.early (remaining : Remaining turn n times k left) (order : Monotone times)
    (pending : ¬ left ≤ (times (k + 1) - times k) % turn) (dense : Dense turn times (k + 1)) :
    times (k + 1) - times 0 < n := by
  have exact := (remaining.next order pending).exact dense
  omega

end Machine.Countdown
