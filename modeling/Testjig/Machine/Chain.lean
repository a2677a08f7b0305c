import Mathlib.Data.List.Nodup
import Mathlib.Data.Option.Basic
import Mathlib.Logic.Function.Basic

namespace Machine

variable {α π : Type} (node : α → π) (null : π)

/-- The nodes that a pointer leads to, one by one, before the null pointer ends them -/
def Linked (cells : Option α → π) : π → List α → Prop
  | pointer, [] => pointer = null
  | pointer, a :: rest => pointer = node a ∧ Linked cells (cells (some a)) rest

/-- The cell that holds the pointer behind the last node of a list, the given one before any -/
def slotAfter : Option α → List α → Option α
  | slot, [] => slot
  | _, a :: rest => slotAfter (some a) rest

variable {node null}

theorem slotAfter_mem (slot : Option α) (list : List α) : slotAfter slot list ∈ slot :: list.map some := by
  induction list generalizing slot with
  | nil => simp [slotAfter]
  | cons a rest ih =>
    rw [slotAfter, List.map_cons]
    exact List.mem_cons_of_mem _ (ih (some a))

theorem Linked.unique (injective : Function.Injective node) (notNull : ∀ a, node a ≠ null)
    {cells : Option α → π} {pointer : π} {left right : List α} (first : Linked node null cells pointer left)
    (second : Linked node null cells pointer right) : left = right := by
  induction left generalizing pointer right with
  | nil =>
    cases right with
    | nil => rfl
    | cons b rest => exact absurd (second.1.symm.trans first) (notNull b)
  | cons a left ih =>
    cases right with
    | nil => exact absurd (first.1.symm.trans second) (notNull a)
    | cons b right =>
      have same : a = b := injective (first.1.symm.trans second.1)
      subst same
      rw [ih first.2 second.2]

theorem Linked.split {cells : Option α → π} {slot : Option α} (left : List α) {right : List α}
    (linked : Linked node null cells (cells slot) (left ++ right)) :
    Linked node null cells (cells (slotAfter slot left)) right := by
  induction left generalizing slot with
  | nil => exact linked
  | cons a left ih => exact ih linked.2

/-- A list that ends does not meet a node twice. -/
theorem Linked.nodup (injective : Function.Injective node) (notNull : ∀ a, node a ≠ null)
    {cells : Option α → π} {pointer : π} {list : List α} (linked : Linked node null cells pointer list) :
    list.Nodup := by
  induction list generalizing pointer with
  | nil => exact List.nodup_nil
  | cons a rest ih =>
    apply List.nodup_cons.mpr
    constructor
    · intro again
      obtain ⟨before, after, cut⟩ := List.append_of_mem again
      have whole := linked.2
      rw [cut] at whole
      have shorter : Linked node null cells (cells (some a)) after := (Linked.split before whole).2
      have same := congrArg List.length (Linked.unique injective notNull whole shorter)
      simp only [List.length_append, List.length_cons] at same
      omega
    · exact ih linked.2

theorem Linked.frame {cells changed : Option α → π} {pointer : π} {list : List α}
    (same : ∀ a ∈ list, changed (some a) = cells (some a)) (linked : Linked node null cells pointer list) :
    Linked node null changed pointer list := by
  induction list generalizing pointer with
  | nil => exact linked
  | cons a rest ih =>
    constructor
    · exact linked.1
    · rw [same a (List.mem_cons_self ..)]
      exact ih (fun b member => same b (List.mem_cons_of_mem a member)) linked.2

theorem cells_nodup {left right : List α} (nodup : (left ++ right).Nodup) :
    (none :: left.map some).Nodup := by
  apply List.nodup_cons.mpr
  constructor
  · simp
  · exact (List.nodup_append.mp nodup).1.map (Option.some_injective α)

theorem slotAfter_apart {left right : List α} (nodup : (left ++ right).Nodup) :
    slotAfter none left ∉ right.map some := by
  intro member
  obtain ⟨a, inRight, same⟩ := List.mem_map.mp member
  have place := slotAfter_mem none left
  rw [← same] at place
  have inLeft : a ∈ left := by simpa using place
  exact (List.nodup_append.mp nodup).2.2 a inLeft a inRight rfl

variable [DecidableEq α]

theorem Linked.update {cells : Option α → π} {pointer next : π} {list : List α} {slot : Option α}
    (untouched : slot ∉ list.map some) (linked : Linked node null cells pointer list) :
    Linked node null (Function.update cells slot next) pointer list := by
  apply linked.frame
  intro a member
  apply Function.update_of_ne
  rintro rfl
  exact untouched (List.mem_map_of_mem member)

/-- Writing the cell behind the first part of a list replaces the rest. -/
theorem Linked.store {cells : Option α → π} {slot : Option α} {left right rest : List α} {next : π}
    (distinct : (slot :: left.map some).Nodup) (linked : Linked node null cells (cells slot) (left ++ right))
    (tail : Linked node null cells next rest) (apart : slotAfter slot left ∉ rest.map some) :
    Linked node null (Function.update cells (slotAfter slot left) next)
      (Function.update cells (slotAfter slot left) next slot) (left ++ rest) := by
  induction left generalizing slot with
  | nil =>
    rw [slotAfter, Function.update_self]
    exact tail.update apart
  | cons a left ih =>
    obtain ⟨new, later⟩ := List.nodup_cons.mp distinct
    have elsewhere : slot ≠ slotAfter (some a) left := by
      rintro rfl
      exact new (slotAfter_mem (some a) left)
    rw [slotAfter, Function.update_of_ne elsewhere]
    constructor
    · exact linked.1
    · exact ih later linked.2 apart

/-- Take a node out of the list: its predecessor's cell gets what its own cell holds. -/
theorem Linked.unlink {cells : Option α → π} {left right : List α} {a : α} (nodup : (left ++ a :: right).Nodup)
    (linked : Linked node null cells (cells none) (left ++ a :: right)) (mark : π) :
    let shorter := Function.update cells (slotAfter none left) (cells (some a))
    Linked node null (Function.update shorter (some a) mark) (Function.update shorter (some a) mark none)
      (left ++ right) := by
  intro shorter
  have apart : (left ++ right).Nodup ∧ a ∉ left ++ right := by
    have moved := List.perm_middle.nodup_iff.mp nodup
    exact ⟨(List.nodup_cons.mp moved).2, (List.nodup_cons.mp moved).1⟩
  have out : Linked node null shorter (shorter none) (left ++ right) :=
    Linked.store (cells_nodup nodup) linked (linked.split left).2 (slotAfter_apart apart.1)
  rw [Function.update_of_ne (by simp)]
  apply out.update
  simpa using apart.2

/-- Put a new node into the list: its cell gets what its predecessor's cell held. -/
theorem Linked.insert {cells : Option α → π} {left right : List α} {a : α} (nodup : (left ++ a :: right).Nodup)
    (linked : Linked node null cells (cells none) (left ++ right)) :
    let longer := Function.update cells (some a) (cells (slotAfter none left))
    Linked node null (Function.update longer (slotAfter none left) (node a))
      (Function.update longer (slotAfter none left) (node a) none) (left ++ a :: right) := by
  intro longer
  have new : a ∉ left ++ right := by
    exact (List.nodup_cons.mp (List.perm_middle.nodup_iff.mp nodup)).1
  have kept : Linked node null longer (longer none) (left ++ right) := by
    rw [show longer none = cells none from Function.update_of_ne (by simp) _ _]
    apply linked.update
    simpa using new
  apply Linked.store (cells_nodup nodup) kept
  · constructor
    · rfl
    · rw [show longer (some a) = cells (slotAfter none left) from Function.update_self ..]
      apply (linked.split left).update
      simp only [List.mem_append, not_or] at new
      simpa using new.2
  · exact slotAfter_apart nodup

end Machine
