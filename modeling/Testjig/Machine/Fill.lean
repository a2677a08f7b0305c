import Mathlib.Algebra.Order.Ring.Int

namespace Machine.Fill

variable {w : Nat} {β : Type}

/-- A memory with `n` cells from `start` on replaced. Addresses wrap. -/
def fill (memory : BitVec w → β) (start : BitVec w) (n : Nat) (contents : Nat → β) : BitVec w → β := fun a =>
  if (a - start).toNat < n then contents (a - start).toNat else memory a

theorem offset_add (start : BitVec w) {i : Nat} (bound : i < 2^w) : (start + BitVec.ofNat w i - start).toNat = i := by
  rw [BitVec.add_comm, BitVec.add_sub_cancel, BitVec.toNat_ofNat, Nat.mod_eq_of_lt bound]

theorem add_offset (start a : BitVec w) : start + BitVec.ofNat w (a - start).toNat = a := by
  rw [BitVec.ofNat_toNat, BitVec.setWidth_eq, BitVec.add_comm, BitVec.sub_add_cancel]

theorem offset_later (start a : BitVec w) {k : Nat} (bound : k < 2^w) :
    (a - (start + BitVec.ofNat w k)).toNat =
      if k ≤ (a - start).toNat then (a - start).toNat - k else 2^w - (k - (a - start).toNat) := by
  have number : (BitVec.ofNat w k).toNat = k := by
    rw [BitVec.toNat_ofNat, Nat.mod_eq_of_lt bound]
  have split : a - (start + BitVec.ofNat w k) = a - start - BitVec.ofNat w k := by
    simp only [BitVec.sub_eq_add_neg, BitVec.neg_add, BitVec.add_assoc]
  rw [split]
  by_cases reached : k ≤ (a - start).toNat
  · rw [if_pos reached, BitVec.toNat_sub_of_le (by rwa [BitVec.le_def, number]), number]
  · rw [if_neg reached, BitVec.toNat_sub_of_lt (by rw [BitVec.lt_def, number]; omega), number]

/-- A cell before a later start is not within the cells from there on. -/
theorem offset_before {start a : BitVec w} {k n : Nat} (fits : k + (n + 1) ≤ 2^w) (before : (a - start).toNat < k) :
    ¬ (a - (start + BitVec.ofNat w k)).toNat < n + 1 := by
  have later := offset_later start a (by omega : k < 2^w)
  rw [if_neg (by omega)] at later
  omega

@[simp]
theorem fill_zero (memory : BitVec w → β) (start : BitVec w) (contents : Nat → β) :
    fill memory start 0 contents = memory := rfl

theorem fill_inside (memory : BitVec w → β) (start : BitVec w) {n i : Nat} (contents : Nat → β) (fits : n ≤ 2^w)
    (bound : i < n) : fill memory start n contents (start + BitVec.ofNat w i) = contents i := by
  rw [fill, offset_add start (by omega), if_pos bound]

theorem fill_outside {memory : BitVec w → β} {start a : BitVec w} {n : Nat} {contents : Nat → β}
    (outside : ∀ i < n, a ≠ start + BitVec.ofNat w i) : fill memory start n contents a = memory a := by
  rw [fill, if_neg]
  intro inside
  exact outside _ inside (add_offset start a).symm

theorem fill_exact (memory : BitVec w → β) (start : BitVec w) {n : Nat} (contents : Nat → β) (fits : n ≤ 2^w) :
    (∀ i < n, fill memory start n contents (start + BitVec.ofNat w i) = contents i) ∧
      ∀ a, (∀ i < n, a ≠ start + BitVec.ofNat w i) → fill memory start n contents a = memory a := by
  constructor
  · intro i bound
    exact fill_inside memory start contents fits bound
  · intro a outside
    exact fill_outside outside

theorem fill_congr {memory : BitVec w → β} {start : BitVec w} {n : Nat} {contents other : Nat → β}
    (same : ∀ i < n, contents i = other i) : fill memory start n contents = fill memory start n other := by
  funext a
  rw [fill, fill]
  split
  · rename_i inside
    exact same _ inside
  · rfl

theorem fill_append (memory : BitVec w → β) (start : BitVec w) {k n : Nat} (first second : Nat → β)
    (fits : k + n ≤ 2^w) :
    fill (fill memory start k first) (start + BitVec.ofNat w k) n second =
      fill memory start (k + n) (fun i => if i < k then first i else second (i - k)) := by
  cases n with
  | zero =>
    rw [fill_zero, Nat.add_zero]
    apply fill_congr
    intro i bound
    rw [if_pos bound]
  | succ n =>
    funext a
    by_cases before : (a - start).toNat < k
    · simp only [fill]
      rw [if_neg (offset_before fits before), if_pos before, if_pos (by omega), if_pos before]
    · have later := offset_later start a (by omega : k < 2^w)
      rw [if_pos (by omega)] at later
      simp only [fill, later]
      by_cases inside : (a - start).toNat - k < n + 1
      · rw [if_pos inside, if_pos (by omega), if_neg before]
      · rw [if_neg inside, if_neg before, if_neg (by omega)]

theorem fill_extend (memory : BitVec w → β) (start : BitVec w) {k n : Nat} (value : β) (fits : k + n ≤ 2^w) :
    fill (fill memory start k fun _ => value) (start + BitVec.ofNat w k) n (fun _ => value) =
      fill memory start (k + n) fun _ => value := by
  rw [fill_append memory start _ _ fits]
  simp only [ite_self]

theorem fill_prepend (memory : BitVec w → β) (start : BitVec w) {k n : Nat} (first second : Nat → β)
    (fits : k + n ≤ 2^w) :
    fill (fill memory (start + BitVec.ofNat w k) n second) start k first =
      fill memory start (k + n) (fun i => if i < k then first i else second (i - k)) := by
  rw [← fill_append memory start first second fits]
  cases n with
  | zero => rfl
  | succ n =>
    funext a
    by_cases before : (a - start).toNat < k
    · simp only [fill]
      rw [if_pos before, if_neg (offset_before fits before), if_pos before]
    · simp only [fill]
      rw [if_neg before, if_neg before]

end Machine.Fill
