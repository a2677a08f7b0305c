import Mathlib.Logic.Function.Basic

namespace Machine

variable {α : Type}

/-- The cells of a ring hold every item of a sequence from the `read`th on. -/
def Held (cells : Nat → α) (size read : Nat) (items : List α) : Prop :=
  ∀ i (bound : i < items.length), read ≤ i → cells (i % size) = items[i]

/-- Read so many cells one after another. -/
def collect (cells : Nat → α) (size : Nat) : Nat → Nat → List α
  | _, 0 => []
  | i, count + 1 => cells (i % size) :: collect cells size (i + 1) count

theorem held_nil (cells : Nat → α) (size read : Nat) : Held cells size read [] := by
  intro i bound
  simp at bound

theorem Held.later {cells : Nat → α} {size read after : Nat} {items : List α} (held : Held cells size read items)
    (order : read ≤ after) : Held cells size after items :=
  fun i bound from' => held i bound (Nat.le_trans order from')

/-- An item put into a ring that is not full overwrites none that is still to be read. -/
theorem Held.push {cells : Nat → α} {size read : Nat} {items : List α} (held : Held cells size read items)
    (room : items.length < read + size) (item : α) :
    Held (Function.update cells (items.length % size) item) size read (items ++ [item]) := by
  intro i bound unread
  rw [List.length_append, List.length_singleton] at bound
  by_cases last : i = items.length
  · subst last
    rw [Function.update_self, List.getElem_concat_length rfl]
  · have earlier : i < items.length := by omega
    have other : i % size ≠ items.length % size := by
      intro same
      have turns := Nat.sub_mod_eq_zero_of_mod_eq same.symm
      rw [Nat.mod_eq_of_lt (by omega)] at turns
      omega
    rw [Function.update_of_ne other, List.getElem_append_left earlier]
    exact held i earlier unread

theorem Held.collect {cells : Nat → α} {size read : Nat} {items : List α} (held : Held cells size read items)
    {i count : Nat} (unread : read ≤ i) (bound : i + count ≤ items.length) :
    collect cells size i count = (items.drop i).take count := by
  induction count generalizing i with
  | zero => simp [Machine.collect]
  | succ count ih =>
    have inside : i < items.length := by omega
    rw [Machine.collect, held i inside unread, ih (by omega) (by omega), List.drop_eq_getElem_cons inside,
      List.take_succ_cons]

end Machine
