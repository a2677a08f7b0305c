import Mathlib.Data.Nat.Digits.Lemmas
import Testjig.Text.Format

namespace Testjig.Text

open Testjig.Sequence

/-- The characters of a number in a base, the last digit first -/
def reversed (isUpper : Bool) (radix n : Nat) : List Byte := (Nat.digits radix n).map (digitChar isUpper)

/-- A number written in a base, with no zeros in front -/
def numeral (isUpper : Bool) (radix n : Nat) : List Byte :=
  if n = 0 then [chr '0'] else (reversed isUpper radix n).reverse

/-- The division loop finds the digits of a number, if there is room for them. -/
theorem digitLoop_eq (isUpper : Bool) (radix : BitVec 32) {room : Nat} {x : BitVec 32} (large : 1 < radix.toNat)
    (bound : x.toNat < radix.toNat ^ room) :
    digitLoop isUpper radix room x = some (reversed isUpper radix.toNat x.toNat) := by
  -- Each turn divides the bound by the base along with the value.
  induction room generalizing x with
  | zero =>
    have zero : x = 0 := by
      apply BitVec.eq_of_toNat_eq
      rw [Nat.pow_zero] at bound
      change x.toNat = 0
      omega
    simp [digitLoop, zero, reversed]
  | succ room ih =>
    by_cases zero : x = 0
    · simp [digitLoop, zero, reversed]
    · have positive : 0 < x.toNat := by
        apply Nat.pos_of_ne_zero
        intro none
        exact zero (BitVec.eq_of_toNat_eq none)
      have smaller : (x / radix).toNat < radix.toNat ^ room := by
        rw [BitVec.toNat_udiv]
        apply Nat.div_lt_of_lt_mul
        rwa [Nat.mul_comm, ← Nat.pow_succ]
      rw [digitLoop, if_neg zero, ih smaller, reversed, reversed, Nat.digits_def' large positive, List.map_cons,
        BitVec.toNat_udiv, BitVec.toNat_umod]

def IsRadix (radix : BitVec 32) : Prop := radix = 8 ∨ radix = 10 ∨ radix = 16

theorem IsRadix.bounds {radix : BitVec 32} (isRadix : IsRadix radix) : 8 ≤ radix.toNat ∧ radix.toNat ≤ 16 := by
  rcases isRadix with rfl | rfl | rfl <;> decide

theorem IsRadix.large {radix : BitVec 32} (isRadix : IsRadix radix) : 1 < radix.toNat := by
  have bounds := isRadix.bounds
  omega

theorem IsRadix.reaches {radix : BitVec 32} (isRadix : IsRadix radix) (x : BitVec 32) : x.toNat < radix.toNat ^ 11 := by
  have word := x.isLt
  have power : 8 ^ 11 ≤ radix.toNat ^ 11 := Nat.pow_le_pow_left isRadix.bounds.1 11
  omega

theorem reversed_length {isUpper : Bool} {radix : BitVec 32} (isRadix : IsRadix radix) (x : BitVec 32) :
    (reversed isUpper radix.toNat x.toNat).length ≤ 11 := by
  rw [reversed, List.length_map, Nat.digits_length_le_iff isRadix.large]
  exact isRadix.reaches x

/-- `tmp` never overflows. -/
theorem digitLoop_tmp (isUpper : Bool) {radix : BitVec 32} (isRadix : IsRadix radix) (x : BitVec 32) :
    digitLoop isUpper radix tmpSize x = some (reversed isUpper radix.toNat x.toNat) := by
  apply digitLoop_eq isUpper radix isRadix.large
  have reaches := isRadix.reaches x
  have power : radix.toNat ^ 11 ≤ radix.toNat ^ tmpSize :=
    Nat.pow_le_pow_right (Nat.le_of_lt isRadix.large) (by decide)
  omega

theorem numeral_eq (isUpper : Bool) (radix n : Nat) (positive : n ≠ 0) :
    numeral isUpper radix n = (reversed isUpper radix n).reverse := if_neg positive

theorem numeral_small (isUpper : Bool) {radix n : Nat} (small : n < radix) :
    numeral isUpper radix n = [digitChar isUpper n] := by
  by_cases zero : n = 0
  · subst zero
    cases isUpper <;> rfl
  · rw [numeral_eq isUpper radix n zero, reversed, Nat.digits_of_lt radix n zero small]
    rfl

theorem numeral_step (isUpper : Bool) {radix n : Nat} (large : 1 < radix) (more : radix ≤ n) :
    numeral isUpper radix n = numeral isUpper radix (n / radix) ++ [digitChar isUpper (n % radix)] := by
  have quotient : n / radix ≠ 0 := by
    have positive : 0 < n / radix := Nat.div_pos more (by omega)
    omega
  rw [numeral_eq isUpper radix n (by omega), numeral_eq isUpper radix _ quotient, reversed,
    Nat.digits_def' large (by omega), List.map_cons, List.reverse_cons]
  rfl

/-- A number is one digit, or a number with a digit behind it. -/
theorem numeral_induction (radix : Nat) (large : 1 < radix) {holds : Nat → Prop}
    (small : ∀ n, n < radix → holds n) (step : ∀ n, radix ≤ n → holds (n / radix) → holds n) (n : Nat) : holds n := by
  induction n using Nat.strongRecOn with
  | ind n ih =>
    by_cases one : n < radix
    · exact small n one
    · apply step n (by omega)
      exact ih (n / radix) (Nat.div_lt_self (by omega) large)

theorem mem_numeral {isUpper : Bool} {radix n : Nat} (large : 1 < radix) {c : Byte} (member : c ∈ numeral isUpper radix n) :
    ∃ digit, digit < radix ∧ c = digitChar isUpper digit := by
  induction n using numeral_induction radix large with
  | small n one =>
    rw [numeral_small isUpper one, List.mem_singleton] at member
    exact ⟨n, one, member⟩
  | step n two ih =>
    rw [numeral_step isUpper large two, List.mem_append, List.mem_singleton] at member
    rcases member with earlier | last
    · exact ih earlier
    · exact ⟨n % radix, Nat.mod_lt n (by omega), last⟩

theorem digitChar_nonzero (isUpper : Bool) (digit : Nat) (bound : digit < 16) : digitChar isUpper digit ≠ 0 := by
  decide +revert

theorem numeral_nonzero {isUpper : Bool} {radix n : Nat} (large : 1 < radix) (small : radix ≤ 16) :
    ∀ c ∈ numeral isUpper radix n, c ≠ 0 := by
  intro c member
  obtain ⟨digit, bound, rfl⟩ := mem_numeral large member
  exact digitChar_nonzero isUpper digit (by omega)

theorem tmpText_eq {flags : BitVec 32} (isRadix : IsRadix (flags &&& base)) (x : BitVec 32) :
    ∃ tmp, tmpText flags x = some tmp ∧
      tmp.reverse = numeral (flags &&& upper ≠ 0) (flags &&& base).toNat x.toNat := by
  by_cases zero : x = 0
  · exact ⟨[chr '0'], if_pos zero, by simp [numeral, zero]⟩
  · have nonzero : x.toNat ≠ 0 := fun none => zero (BitVec.eq_of_toNat_eq none)
    refine ⟨_, (if_neg zero).trans (digitLoop_tmp _ isRadix x), ?_⟩
    rw [numeral_eq _ _ _ nonzero]

end Testjig.Text
