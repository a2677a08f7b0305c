import Mathlib.Data.List.Nodup
import Mathlib.Logic.Equiv.Basic

namespace Machine.Segment

variable {α : Type}

/-- A permutation of the indices from `l` to `r` -/
def Within (l r : Int) (σ : Equiv.Perm Int) : Prop := ∀ k, (k < l ∨ r < k) → σ k = k

/-- The same elements between `l` and `r`, and all others in place -/
def Rearranged (a b : Int → α) (l r : Int) : Prop := ∃ σ, Within l r σ ∧ b = a ∘ σ

theorem Within.inside {l r : Int} {σ : Equiv.Perm Int} (within : Within l r σ) {k : Int} (inside : l ≤ k ∧ k ≤ r) :
    l ≤ σ k ∧ σ k ≤ r := by
  by_contra outside
  have fixed := within (σ k) (by omega)
  have same := σ.injective fixed
  rw [same] at outside
  exact outside inside

theorem Rearranged.refl (a : Int → α) (l r : Int) : Rearranged a a l r := ⟨Equiv.refl Int, fun _ _ => rfl, rfl⟩

theorem Rearranged.trans {a b c : Int → α} {l r : Int} (first : Rearranged a b l r) (second : Rearranged b c l r) :
    Rearranged a c l r := by
  obtain ⟨σ, inFirst, rfl⟩ := first
  obtain ⟨τ, inSecond, rfl⟩ := second
  refine ⟨τ.trans σ, ?_, rfl⟩
  intro k outside
  rw [Equiv.trans_apply, inSecond k outside, inFirst k outside]

theorem Rearranged.wider {a b : Int → α} {l r l' r' : Int} (rearranged : Rearranged a b l r) (left : l' ≤ l)
    (right : r ≤ r') : Rearranged a b l' r' := by
  obtain ⟨σ, within, same⟩ := rearranged
  refine ⟨σ, ?_, same⟩
  intro k outside
  exact within k (by omega)

theorem Rearranged.outside {a b : Int → α} {l r k : Int} (rearranged : Rearranged a b l r) (outside : k < l ∨ r < k) :
    b k = a k := by
  obtain ⟨σ, within, rfl⟩ := rearranged
  exact congrArg a (within k outside)

theorem Rearranged.all {a b : Int → α} {l r : Int} (rearranged : Rearranged a b l r) (holds : α → Prop)
    (before : ∀ k, l ≤ k → k ≤ r → holds (a k)) : ∀ k, l ≤ k → k ≤ r → holds (b k) := by
  obtain ⟨σ, within, rfl⟩ := rearranged
  intro k left right
  have inside := within.inside ⟨left, right⟩
  exact before (σ k) inside.1 inside.2

theorem rearranged_swap (a : Int → α) {l r i j : Int} (first : l ≤ i ∧ i ≤ r) (second : l ≤ j ∧ j ≤ r) :
    Rearranged a (Function.update (Function.update a j (a i)) i (a j)) l r := by
  refine ⟨Equiv.swap i j, ?_, (Equiv.comp_swap_eq_update i j a).symm⟩
  intro k outside
  apply Equiv.swap_apply_of_ne_of_ne <;> omega

def contents (n : Nat) (a : Int → α) : List α := (List.range n).map fun k : Nat => a (k : Int)

theorem Rearranged.perm {a b : Int → α} {n : Nat} (rearranged : Rearranged a b 0 (n - 1)) :
    (contents n b).Perm (contents n a) := by
  obtain ⟨σ, within, rfl⟩ := rearranged
  let indices : List Int := (List.range n).map fun k : Nat => (k : Int)
  have member (k : Int) : k ∈ indices ↔ 0 ≤ k ∧ k < n := by
    simp only [indices, List.mem_map, List.mem_range]
    constructor
    · rintro ⟨i, bound, rfl⟩
      omega
    · rintro ⟨low, high⟩
      exact ⟨k.toNat, by omega, by omega⟩
  have distinct : indices.Nodup := by
    apply List.Nodup.map
    · intro i j same
      exact Int.ofNat.inj same
    · exact List.nodup_range
  have moved : (indices.map σ).Perm indices := by
    rw [List.perm_ext_iff_of_nodup (distinct.map σ.injective) distinct]
    intro k
    rw [List.mem_map, member]
    constructor
    · rintro ⟨i, listed, rfl⟩
      have bound := (member i).mp listed
      have inside := within.inside (show 0 ≤ i ∧ i ≤ (n : Int) - 1 by omega)
      omega
    · intro bound
      refine ⟨σ.symm k, ?_, σ.apply_symm_apply k⟩
      by_contra outside
      rw [member] at outside
      have fixed := within (σ.symm k) (by omega)
      rw [σ.apply_symm_apply] at fixed
      rw [← fixed] at outside
      exact outside bound
  have left : contents n (a ∘ σ) = (indices.map σ).map a := by
    simp only [contents, indices, List.map_map]
    rfl
  have right : contents n a = indices.map a := by
    simp only [contents, indices, List.map_map]
    rfl
  rw [left, right]
  exact moved.map a

end Machine.Segment
