import Mathlib.Data.Fintype.Card
import Mathlib.Data.Nat.Prime.Basic
import Mathlib.Dynamics.PeriodicPts.Defs

namespace Machine.Period

open Function

variable {α : Type} {f : α → α} {x z : α} {n : Nat}

/-- A point that comes back after `n` steps, and after none of the largest proper divisors of `n` -/
theorem minimalPeriod_eq (returns : f^[n] x = x)
    (earlier : ∀ p, p.Prime → p ∣ n → f^[n / p] x ≠ x) : minimalPeriod f x = n := by
  have periodic : IsPeriodicPt f n x := returns
  obtain ⟨k, whole⟩ := periodic.minimalPeriod_dvd
  by_cases one : k = 1
  · rw [whole, one, Nat.mul_one]
  · obtain ⟨p, prime, divides⟩ := Nat.exists_prime_and_dvd one
    have part : n / p = minimalPeriod f x * (k / p) := by
      rw [whole, Nat.mul_div_assoc _ divides]
    have multiple : minimalPeriod f x ∣ n / p := ⟨k / p, part⟩
    have back : IsPeriodicPt f (n / p) x := isPeriodicPt_iff_minimalPeriod_dvd.mpr multiple
    exact absurd back (earlier p prime (divides.trans ⟨minimalPeriod f x, by rw [whole, Nat.mul_comm]⟩))

/-- No two of as many consecutive points as the period has are the same. -/
theorem window_injective (period : minimalPeriod f x = n) (positive : 0 < n) (first : Nat) {i j : Nat} (left : i < n)
    (right : j < n) (same : f^[first + i] x = f^[first + j] x) : i = j := by
  have periodic : x ∈ periodicPts f := minimalPeriod_pos_iff_mem_periodicPts.mp (by rw [period]; exact positive)
  have shifted : minimalPeriod f (f^[first] x) = n := (minimalPeriod_apply_iterate periodic first).trans period
  rw [Nat.add_comm first, Nat.add_comm first, iterate_add_apply, iterate_add_apply] at same
  apply (iterate_eq_iterate_iff_of_lt_minimalPeriod _ _).mp same
  · rw [shifted]
    exact left
  · rw [shifted]
    exact right

/-- A window that misses one point of all, and is one shorter than all of them, has each other point once. -/
theorem window_covers [Fintype α] (period : minimalPeriod f x = n) (positive : 0 < n)
    (size : Fintype.card α = n + 1) (avoids : ∀ k, f^[k] x ≠ z) (first : Nat) {y : α} (other : y ≠ z) :
    ∃ i, i < n ∧ f^[first + i] x = y := by
  classical
  let window : Finset α := (Finset.range n).image fun i => f^[first + i] x
  have count : window.card = n := by
    rw [Finset.card_image_of_injOn, Finset.card_range]
    intro i left j right same
    exact window_injective period positive first (Finset.mem_range.mp left) (Finset.mem_range.mp right) same
  have within : window ⊆ Finset.univ.erase z := by
    intro point member
    obtain ⟨i, _, rfl⟩ := Finset.mem_image.mp member
    exact Finset.mem_erase.mpr ⟨avoids _, Finset.mem_univ _⟩
  have whole : window = Finset.univ.erase z := by
    apply Finset.eq_of_subset_of_card_le within
    rw [count, Finset.card_erase_of_mem (Finset.mem_univ z), Finset.card_univ, size, Nat.add_sub_cancel]
  have member : y ∈ window := by
    rw [whole]
    exact Finset.mem_erase.mpr ⟨other, Finset.mem_univ y⟩
  obtain ⟨i, inside, reached⟩ := Finset.mem_image.mp member
  exact ⟨i, Finset.mem_range.mp inside, reached⟩

end Machine.Period
