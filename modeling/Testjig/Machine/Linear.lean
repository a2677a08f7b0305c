import Mathlib.Algebra.Order.Ring.Int
import Mathlib.Logic.Function.Iterate

namespace Machine.Linear

/-- The exclusive or of the columns that the bits of a number select -/
def combine : List Nat → Nat → Nat
  | [], _ => 0
  | column :: columns, x => x % 2 * column ^^^ combine columns (x / 2)

def square (columns : List Nat) : List Nat := columns.map (combine columns)

/-- `n` applications of a matrix, by its squares -/
def power : Nat → List Nat → Nat → Nat → Nat
  | 0, _, _, x => x
  | bits + 1, columns, n, x => power bits (square columns) (n / 2) (if n % 2 = 1 then combine columns x else x)

theorem parity (x : Nat) : x % 2 = 0 ∨ x % 2 = 1 := by omega

theorem combine_zero (columns : List Nat) : combine columns 0 = 0 := by
  induction columns with
  | nil => rfl
  | cons column columns ih =>
    rw [combine, ih, Nat.zero_mod, Nat.zero_mul]
    rfl

theorem combine_xor (columns : List Nat) (x y : Nat) :
    combine columns (x ^^^ y) = combine columns x ^^^ combine columns y := by
  induction columns generalizing x y with
  | nil => exact (Nat.xor_self 0).symm
  | cons column columns ih =>
    have bit : (x ^^^ y) % 2 = x % 2 ^^^ y % 2 := Nat.xor_mod_two_pow (n := 1)
    have selected : (x % 2 ^^^ y % 2) * column = x % 2 * column ^^^ y % 2 * column := by
      rcases parity x with zero | one <;> rcases parity y with zero' | one' <;> simp [*]
    rw [combine, combine, combine, Nat.xor_div_two, ih, bit, selected]
    ac_rfl

theorem combine_select (columns : List Nat) (x y : Nat) : combine columns (x % 2 * y) = x % 2 * combine columns y := by
  rcases parity x with zero | one
  · rw [zero, Nat.zero_mul, Nat.zero_mul, combine_zero]
  · rw [one, Nat.one_mul, Nat.one_mul]

theorem combine_combine (outer columns : List Nat) (x : Nat) :
    combine outer (combine columns x) = combine (columns.map (combine outer)) x := by
  induction columns generalizing x with
  | nil => exact combine_zero outer
  | cons column columns ih => rw [combine, combine_xor, combine_select, ih, List.map_cons, combine]

section

variable {w : Nat} {f : BitVec w → BitVec w} {columns : List Nat}

def XorLinear (f : BitVec w → BitVec w) : Prop := ∀ x y, f (x ^^^ y) = f x ^^^ f y

theorem XorLinear.comp {g : BitVec w → BitVec w} (outer : XorLinear g) (inner : XorLinear f) : XorLinear (g ∘ f) := by
  intro x y
  rw [Function.comp_apply, inner, outer]
  rfl

theorem shiftLeft_linear (k : Nat) : XorLinear fun x : BitVec w => x ^^^ x <<< k := by
  intro x y
  dsimp only
  rw [BitVec.shiftLeft_xor_distrib]
  ac_rfl

theorem shiftRight_linear (k : Nat) : XorLinear fun x : BitVec w => x ^^^ x >>> k := by
  intro x y
  dsimp only
  rw [BitVec.ushiftRight_xor_distrib]
  ac_rfl

/-- The columns of a matrix for the function -/
def Represents (columns : List Nat) (f : BitVec w → BitVec w) : Prop := ∀ x, (f x).toNat = combine columns x.toNat

theorem Represents.square (represents : Represents columns f) : Represents (square columns) (f ∘ f) := by
  intro x
  rw [Function.comp_apply, represents, represents, combine_combine, Linear.square]

theorem Represents.power {bits n : Nat} (represents : Represents columns f) (bound : n < 2^bits) (x : BitVec w) :
    (f^[n] x).toNat = power bits columns n x.toNat := by
  induction bits generalizing f columns n x with
  | zero =>
    have none : n = 0 := by omega
    rw [none]
    rfl
  | succ bits ih =>
    have half := ih represents.square (by omega : n / 2 < 2^bits)
    have twice : f^[2 * (n / 2)] = (f ∘ f)^[n / 2] := Function.iterate_mul f 2 (n / 2)
    rw [Linear.power]
    rcases parity n with even | odd
    · have whole : n = 2 * (n / 2) := by omega
      rw [if_neg (by omega), ← half, ← twice, ← whole]
    · have whole : n = Nat.succ (2 * (n / 2)) := by omega
      rw [if_pos odd, ← represents, ← half, ← twice, ← Function.iterate_succ_apply, ← whole]

theorem XorLinear.zero (linear : XorLinear f) : f 0 = 0 := by
  have same := linear 0 0
  rwa [BitVec.xor_self, BitVec.xor_self] at same

/-- The columns of a linear function are its values at the single bits. -/
def columnsOf (f : BitVec w → BitVec w) : List Nat := (List.range w).map fun j => (f (BitVec.twoPow w j)).toNat

theorem split_bit (x : BitVec w) {start : Nat} (inside : start < w) :
    x >>> start <<< start =
      (if x.getLsbD start then BitVec.twoPow w start else 0#w) ^^^ (x >>> (start + 1) <<< (start + 1)) := by
  apply BitVec.eq_of_getLsbD_eq
  intro i bound
  have selected : (if x.getLsbD start then BitVec.twoPow w start else 0#w).getLsbD i =
      (x.getLsbD start && decide (start = i)) := by
    cases x.getLsbD start <;> simp [BitVec.getLsbD_twoPow, inside]
  rw [BitVec.getLsbD_xor, BitVec.getLsbD_shiftLeft, BitVec.getLsbD_shiftLeft, BitVec.getLsbD_ushiftRight,
    BitVec.getLsbD_ushiftRight, selected]
  rcases Nat.lt_trichotomy i start with below | rfl | above
  · have other : ¬ start = i := by omega
    have lower : i < start + 1 := by omega
    simp [below, other, lower]
  · simp [bound]
  · have other : ¬ start = i := by omega
    have upper : ¬ i < start := by omega
    have later : ¬ i < start + 1 := by omega
    have first : start + (i - start) = i := by omega
    have second : start + 1 + (i - (start + 1)) = i := by omega
    simp [bound, other, upper, later, first, second]

theorem combine_above (linear : XorLinear f) (x : BitVec w) (count start : Nat) (whole : start + count = w) :
    combine ((List.range' start count).map fun j => (f (BitVec.twoPow w j)).toNat) (x.toNat / 2^start) =
      (f (x >>> start <<< start)).toNat := by
  induction count generalizing start with
  | zero =>
    have last : x >>> start <<< start = 0 := by
      rw [BitVec.ushiftRight_eq_zero (by omega), BitVec.zero_shiftLeft]
      rfl
    rw [last, linear.zero]
    rfl
  | succ count ih =>
    have bit : x.toNat / 2^start % 2 = if x.getLsbD start then 1 else 0 := by
      rw [BitVec.getLsbD, Nat.testBit_eq_decide_div_mod_eq]
      rcases parity (x.toNat / 2^start) with zero | one
      · simp [zero]
      · simp [one]
    have split := split_bit x (by omega : start < w)
    have rest := ih (start + 1) (by omega)
    rw [Nat.pow_succ, ← Nat.div_div_eq_div_mul] at rest
    rw [split, linear, BitVec.toNat_xor, List.range'_succ, List.map_cons, combine, rest, bit]
    congr 1
    split
    · rw [Nat.one_mul]
    · rw [Nat.zero_mul]
      exact (congrArg BitVec.toNat linear.zero).symm

theorem columnsOf_represents (linear : XorLinear f) : Represents (columnsOf f) f := by
  intro x
  have whole := combine_above linear x w 0 (Nat.zero_add w)
  rw [columnsOf, List.range_eq_range']
  simpa using whole.symm

end

end Machine.Linear
