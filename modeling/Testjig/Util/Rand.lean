import Mathlib.Data.FinEnum
import Mathlib.Tactic.NormNum.Prime
import Testjig.Machine.Linear
import Testjig.Machine.Period

namespace Testjig.Util

open Function Machine.Linear Machine.Period

/-- `rand()`, given its static `x`: the result, and what `x` holds afterwards -/
def rand (x : BitVec 32) : BitVec 32 × BitVec 32 :=
  let x := x ^^^ (x <<< 13)
  let x := x ^^^ (x >>> 17)
  let x := x ^^^ (x <<< 5)
  (x, x)

/-- The static `x` after so many calls -/
def randStatic : Nat → BitVec 32
  | 0 => 0x87a2263c
  | calls + 1 => (rand (randStatic calls)).2

def randResult (call : Nat) : BitVec 32 := (rand (randStatic call)).1

def xorshift (x : BitVec 32) : BitVec 32 := (rand x).2

theorem randResult_iterate (call : Nat) : randResult call = xorshift^[call] (randResult 0) := by
  induction call with
  | zero => rfl
  | succ call ih =>
    rw [iterate_succ_apply', ← ih]
    rfl

theorem xorshift_linear : XorLinear xorshift :=
  (shiftLeft_linear 5).comp ((shiftRight_linear 17).comp (shiftLeft_linear 13))

theorem xorshift_returns : power 32 (columnsOf xorshift) (2^32 - 1) (randResult 0).toNat = (randResult 0).toNat := by
  decide +kernel

theorem xorshift_earlier : ∀ p ∈ [3, 5, 17, 257, 65537],
    power 32 (columnsOf xorshift) ((2^32 - 1) / p) (randResult 0).toNat ≠ (randResult 0).toNat := by
  decide +kernel

theorem prime_divisors {p : Nat} (prime : p.Prime) (divides : p ∣ 2^32 - 1) : p ∈ [3, 5, 17, 257, 65537] := by
  have factors : 2^32 - 1 = 3 * 5 * 17 * 257 * 65537 := rfl
  rw [factors] at divides
  simp only [prime.dvd_mul] at divides
  have same {q : Nat} (other : q.Prime) (part : p ∣ q) : p = q := (Nat.prime_dvd_prime_iff_eq prime other).mp part
  rcases divides with (((three | five) | seventeen) | second) | fermat
  · simp [same (by norm_num) three]
  · simp [same (by norm_num) five]
  · simp [same (by norm_num) seventeen]
  · simp [same (by norm_num) second]
  · simp [same (by norm_num) fermat]

theorem xorshift_period : minimalPeriod xorshift (randResult 0) = 2^32 - 1 := by
  have represents := columnsOf_represents xorshift_linear
  apply minimalPeriod_eq
  · apply BitVec.eq_of_toNat_eq
    rw [represents.power (by decide : 2^32 - 1 < 2^32), xorshift_returns]
  · intro p prime divides back
    have part : (2^32 - 1) / p < 2^32 := Nat.lt_of_le_of_lt (Nat.div_le_self _ _) (by decide)
    apply xorshift_earlier p (prime_divisors prime divides)
    rw [← represents.power part, back]

theorem xorshift_nonzero (k : Nat) : xorshift^[k] (randResult 0) ≠ 0 := by
  intro zero
  have fixed : IsFixedPt xorshift 0 := xorshift_linear.zero
  have stays : xorshift^[k * (2^32 - 1)] (randResult 0) = 0 := by
    have later : k * (2^32 - 1) = k * (2^32 - 2) + k := by omega
    rw [later, iterate_add_apply, zero]
    exact fixed.iterate _
  have periodic : IsPeriodicPt xorshift (2^32 - 1) (randResult 0) := by
    rw [← xorshift_period]
    exact isPeriodicPt_minimalPeriod _ _
  have back : xorshift^[k * (2^32 - 1)] (randResult 0) = randResult 0 := periodic.const_mul k
  exact absurd (back.symm.trans stays) (by decide)

/-- `rand()` goes through all the words but 0, and no word comes again before all the others have come. -/
theorem rand_full_period :
    (∀ call, randResult call ≠ 0) ∧ ∀ first : Nat,
      (∀ i j, i < 2^32 - 1 → j < 2^32 - 1 → randResult (first + i) = randResult (first + j) → i = j) ∧
      ∀ x : BitVec 32, x ≠ 0 → ∃! i, i < 2^32 - 1 ∧ randResult (first + i) = x := by
  have size : Fintype.card (BitVec 32) = 2^32 - 1 + 1 := FinEnum.card_eq_fintypeCard.symm.trans (FinEnum.card_bitVec 32)
  have distinct (first i j : Nat) (left : i < 2^32 - 1) (right : j < 2^32 - 1)
      (same : randResult (first + i) = randResult (first + j)) : i = j := by
    rw [randResult_iterate, randResult_iterate (first + j)] at same
    exact window_injective xorshift_period (by decide) first left right same
  refine ⟨?_, ?_⟩
  · intro call
    rw [randResult_iterate]
    exact xorshift_nonzero call
  · intro first
    refine ⟨distinct first, ?_⟩
    intro x other
    obtain ⟨i, inside, reached⟩ := window_covers xorshift_period (by decide) size xorshift_nonzero first other
    rw [← randResult_iterate] at reached
    refine ⟨i, ⟨inside, reached⟩, ?_⟩
    rintro j ⟨bound, again⟩
    exact distinct first j i bound inside (again.trans reached.symm)

end Testjig.Util
