import Mathlib.Data.Nat.Log
import Testjig.Machine.Reach
import Testjig.Util.Qsort

namespace Testjig.Util

open Machine

section

variable {α : Type} (compar : α → α → Int) (nr : Nat)

/-- The active calls of `__qsort_p()`, the innermost one first, each with its `l` and `r` -/
structure Calls (α : Type) where
  array : Int → α
  frames : List (Int × Int)

/-- The innermost call returns, or goes round its loop and calls itself on the way. -/
def qsortStep (turns : Nat) (calls : Calls α) : Except (Except SortFault (Int → α)) (Calls α) :=
  match calls.frames with
  | [] => .error (.ok calls.array)
  | (l, r) :: outer =>
    if l < r then
      match partition compar nr turns calls.array l r with
      | .error fault => .error (.error fault)
      | .ok (a, i) =>
        if i - l < r - i then .ok { array := a, frames := (l, i - 1) :: (i + 1, r) :: outer }
        else .ok { array := a, frames := (i + 1, r) :: (l, i - 1) :: outer }
    else .ok { calls with frames := outer }

def qsortCall (a : Int → α) (nr : BitVec 32) : Calls α := { array := a, frames := [(0, (nr - 1).toInt)] }

end

section

variable {α : Type} {compar : α → α → Int} {nr : Nat}

theorem scanUp_more {a : Int → α} {pivot : α} {turns more : Nat} {i stop : Int} (enough : turns ≤ more)
    (ended : scanUp compar nr a pivot turns i = .ok stop) : scanUp compar nr a pivot more i = .ok stop := by
  induction turns generalizing more i with
  | zero => cases ended
  | succ turns ih =>
    obtain ⟨others, rfl⟩ : ∃ others, more = others + 1 := Nat.exists_eq_succ_of_ne_zero (by omega)
    rw [scanUp] at ended ⊢
    split at ended
    · cases ended
    · split at ended
      · rename_i less
        rw [if_pos less]
        exact ih (Nat.le_of_succ_le_succ enough) ended
      · rename_i reached
        rw [if_neg reached]
        exact ended

theorem scanDown_more {a : Int → α} {pivot : α} {i : Int} {turns more : Nat} {j stop : Int} (enough : turns ≤ more)
    (ended : scanDown compar nr a pivot i turns j = .ok stop) : scanDown compar nr a pivot i more j = .ok stop := by
  induction turns generalizing more j with
  | zero => cases ended
  | succ turns ih =>
    obtain ⟨others, rfl⟩ : ∃ others, more = others + 1 := Nat.exists_eq_succ_of_ne_zero (by omega)
    rw [scanDown] at ended ⊢
    split at ended
    · cases ended
    · split at ended
      · rename_i greater
        rw [if_pos greater]
        exact ih (Nat.le_of_succ_le_succ enough) ended
      · rename_i reached
        rw [if_neg reached]
        exact ended

theorem partitionLoop_more {pivot : α} {turns more : Nat} (enough : turns ≤ more) {rounds others : Nat}
    (order : rounds ≤ others) {a : Int → α} {i j : Int} {result : (Int → α) × Int}
    (ended : partitionLoop compar nr pivot turns rounds a i j = .ok result) :
    partitionLoop compar nr pivot more others a i j = .ok result := by
  induction rounds generalizing others a i j with
  | zero => cases ended
  | succ rounds ih =>
    obtain ⟨others, rfl⟩ : ∃ later, others = later + 1 := Nat.exists_eq_succ_of_ne_zero (by omega)
    rw [partitionLoop] at ended ⊢
    split at ended
    · rename_i apart
      rw [if_pos apart]
      split at ended
      · cases ended
      · rename_i stop up
        rw [scanUp_more enough up]
        dsimp only
        split at ended
        · cases ended
        · rename_i back down
          rw [scanDown_more enough down]
          dsimp only at ended ⊢
          split at ended
          · cases ended
          · exact ih (Nat.le_of_succ_le_succ order) ended
    · rename_i met
      rw [if_neg met]
      exact ended

theorem partition_more {turns more : Nat} (enough : turns ≤ more) {a : Int → α} {l r : Int} {result : (Int → α) × Int}
    (ended : partition compar nr turns a l r = .ok result) : partition compar nr more a l r = .ok result := by
  rw [partition] at ended ⊢
  split at ended
  · cases ended
  · rename_i fits
    rw [if_neg fits]
    dsimp only at ended ⊢
    split at ended
    · cases ended
    · split at ended
      · cases ended
      · split at ended
        · cases ended
        · rename_i looped
          rw [partitionLoop_more enough enough looped]
          exact ended

/-- How a call splits its range: `p` and `q` are for the call it makes, `first` and `last` for its own next round. -/
structure Halves (l r p q first last : Int) : Prop where
  called : l ≤ p ∧ q ≤ r
  kept : l ≤ first ∧ last ≤ r
  half : 2 * (q - p + 1) ≤ r - l
  smaller : q - p ≤ last - first

theorem qsortStep_cases (preorder : TotalPreorder compar) {turns : Nat} {calls next : Calls α} {l r : Int}
    {outer : List (Int × Int)} (frames : calls.frames = (l, r) :: outer) (nonneg : 0 ≤ l) (inside : r < nr)
    (taken : qsortStep compar nr turns calls = .ok next) :
    next.frames = outer ∨
      l < r ∧ ∃ p q first last, next.frames = (p, q) :: (first, last) :: outer ∧ Halves l r p q first last := by
  rw [qsortStep, frames] at taken
  dsimp only at taken
  split at taken
  · rename_i order
    right
    refine ⟨order, ?_⟩
    split at taken
    · cases taken
    · rename_i b i split
      have fits : l + r < 2^31 := by
        by_contra overflows
        rw [partition, if_pos (Int.not_lt.mp overflows)] at split
        cases split
      -- with turns enough the partition is the same, and its pivot is known to be in the range
      obtain ⟨c, pivot, whole, low, high, -, -⟩ :=
        partition_splits preorder nonneg order inside fits (turns + (r - l + 2).toNat) (by omega) (a := calls.array)
      have same := (partition_more (Nat.le_add_right turns _) split).symm.trans whole
      cases same
      split at taken
      · cases taken
        exact ⟨l, i - 1, i + 1, r, rfl, by omega, by omega, by omega, by omega⟩
      · cases taken
        exact ⟨i + 1, r, l, i - 1, rfl, by omega, by omega, by omega, by omega⟩
  · cases taken
    exact .inl rfl

/-- The range of a call is at most the array, halved once for each call around it. -/
def Halved (nr : Nat) : List (Int × Int) → Prop
  | [] => True
  | (l, r) :: outer => (0 ≤ l ∧ r < nr ∧ (r - l + 1) * 2^outer.length ≤ nr) ∧ Halved nr outer

structure Shallow (nr : Nat) (frames : List (Int × Int)) : Prop where
  halved : Halved nr frames
  depth : frames.length ≤ Nat.log 2 nr + 1

theorem Shallow.recurs {l r p q first last : Int} {outer : List (Int × Int)} (shallow : Shallow nr ((l, r) :: outer))
    (order : l < r) (halves : Halves l r p q first last) : Shallow nr ((p, q) :: (first, last) :: outer) := by
  obtain ⟨⟨⟨nonneg, inside, size⟩, around⟩, -⟩ := shallow
  obtain ⟨called, kept, half, -⟩ := halves
  have positive : (0 : Int) < 2^outer.length := Int.pow_pos (by decide)
  have bounded (length : Int) (shorter : length ≤ r - l + 1) : length * 2^outer.length ≤ nr :=
    Int.le_trans (Int.mul_le_mul_of_nonneg_right shorter (Int.le_of_lt positive)) size
  constructor
  · refine ⟨⟨by omega, by omega, ?_⟩, ⟨by omega, by omega, bounded _ (by omega)⟩, around⟩
    have doubled : (q - p + 1) * 2^(outer.length + 1) = 2 * (q - p + 1) * 2^outer.length := by
      rw [Int.pow_succ, Int.mul_comm (2^outer.length) 2, ← Int.mul_assoc, Int.mul_comm _ 2]
    rw [List.length_cons, doubled]
    exact bounded (2 * (q - p + 1)) (by omega)
  · have pair := bounded 2 (by omega)
    have power : 2^(outer.length + 1) ≤ nr := by
      rw [Nat.pow_succ, Nat.mul_comm]
      exact_mod_cast pair
    have height := Nat.le_log_of_pow_le (by decide) power
    rw [List.length_cons, List.length_cons]
    omega

theorem Shallow.step (preorder : TotalPreorder compar) {turns : Nat} {calls next : Calls α}
    (shallow : Shallow nr calls.frames) (taken : qsortStep compar nr turns calls = .ok next) :
    Shallow nr next.frames := by
  cases frames : calls.frames with
  | nil =>
    rw [qsortStep, frames] at taken
    cases taken
  | cons frame outer =>
    obtain ⟨l, r⟩ := frame
    rw [frames] at shallow
    have around := shallow.halved.1
    rcases qsortStep_cases preorder frames around.1 around.2.1 taken with returned | ⟨order, p, q, first, last, called, halves⟩
    · rw [returned]
      exact ⟨shallow.halved.2, Nat.le_of_succ_le shallow.depth⟩
    · rw [called]
      exact shallow.recurs order halves

theorem qsortCall_shallow (a : Int → α) (nr : BitVec 32) : Shallow nr.toNat (qsortCall a nr).frames := by
  have last : (nr - 1).toInt ≤ nr.toNat - 1 := by
    have one : BitVec.toNat (1 : BitVec 32) = 1 := rfl
    rw [BitVec.toInt_eq_toNat_cond, BitVec.toNat_sub, one]
    split <;> omega
  constructor
  · refine ⟨⟨Int.le_refl 0, by omega, ?_⟩, trivial⟩
    rw [List.length_nil, Int.pow_zero, Int.mul_one]
    omega
  · exact Nat.le_add_left 1 _

/-- The calls of `qsortLoop` are those of the machine, whatever is active around them. -/
theorem qsortLoop_run {turns more : Nat} (enough : turns ≤ more) {a b : Int → α} {l r : Int}
    (sorted : qsortLoop compar nr turns a l r = .ok b) (outer : List (Int × Int)) :
    Reaches (qsortStep compar nr more) ⟨a, (l, r) :: outer⟩ ⟨b, outer⟩ := by
  induction turns generalizing a b l r outer with
  | zero => cases sorted
  | succ turns ih =>
    have fewer : turns ≤ more := Nat.le_of_succ_le enough
    rw [qsortLoop] at sorted
    split at sorted
    · rename_i order
      split at sorted
      · cases sorted
      · rename_i b i split
        have whole := partition_more fewer split
        split at sorted
        · rename_i small
          split at sorted
          · cases sorted
          · rename_i c first
            have taken : qsortStep compar nr more ⟨a, (l, r) :: outer⟩ = .ok ⟨b, (l, i - 1) :: (i + 1, r) :: outer⟩ := by
              simp only [qsortStep, if_pos order, whole, if_pos small]
            exact .head taken ((ih fewer first _).trans (ih fewer sorted _))
        · rename_i large
          split at sorted
          · cases sorted
          · rename_i c first
            have taken : qsortStep compar nr more ⟨a, (l, r) :: outer⟩ = .ok ⟨b, (i + 1, r) :: (l, i - 1) :: outer⟩ := by
              simp only [qsortStep, if_pos order, whole, if_neg large]
            exact .head taken ((ih fewer first _).trans (ih fewer sorted _))
    · rename_i short
      cases sorted
      have taken : qsortStep compar nr more ⟨a, (l, r) :: outer⟩ = .ok ⟨a, outer⟩ := by
        simp only [qsortStep, if_neg short]
      exact .head taken (.refl _ _)

/-- However the array is split, the calls that are active at one time are no more than the logarithm and one: each is
made for at most half of the range around it. A sort that returns is a run of these calls. -/
theorem qsort_p_depth (compar : α → α → Int) (preorder : TotalPreorder compar) (nr : BitVec 32) (a : Int → α)
    (turns : Nat) :
    (∀ calls, Reaches (qsortStep compar nr.toNat turns) (qsortCall a nr) calls →
      calls.frames.length ≤ Nat.log 2 nr.toNat + 1 ∧
      ∀ next l r p q first last outer, calls.frames = (l, r) :: outer →
        qsortStep compar nr.toNat turns calls = .ok next → next.frames = (p, q) :: (first, last) :: outer →
        2 * (q - p + 1) ≤ r - l ∧ q - p ≤ last - first) ∧
    ∀ final, qsortP compar turns a nr = .ok final →
      Reaches (qsortStep compar nr.toNat turns) (qsortCall a nr) ⟨final, []⟩ := by
  constructor
  · intro calls reached
    have kept (before after : Calls α) (taken : qsortStep compar nr.toNat turns before = .ok after)
        (holds : Shallow nr.toNat before.frames) : Shallow nr.toNat after.frames := holds.step preorder taken
    have shallow := Reaches.keeps kept reached (qsortCall_shallow a nr)
    refine ⟨shallow.depth, ?_⟩
    intro next l r p q first last outer frames taken split
    rw [frames] at shallow
    have around := shallow.halved.1
    rcases qsortStep_cases preorder frames around.1 around.2.1 taken with returned | ⟨-, p', q', first', last', called, halves⟩
    · have lengths := congrArg List.length (returned.symm.trans split)
      simp only [List.length_cons] at lengths
      omega
    · cases called.symm.trans split
      exact ⟨halves.half, halves.smaller⟩
  · intro final sorted
    exact qsortLoop_run (Nat.le_refl turns) sorted []

theorem qsort_p_depth_three :
    TotalPreorder (fun x y : BitVec 32 => (x.toNat : Int) - y.toNat) ∧
      ∀ calls, Reaches (qsortStep (fun x y : BitVec 32 => (x.toNat : Int) - y.toNat) 3 6)
        (qsortCall (fun k => if k = 0 then 30 else if k = 1 then 10 else 20) 3) calls → calls.frames.length ≤ 2 := by
  refine ⟨difference_preorder, ?_⟩
  intro calls reached
  exact ((qsort_p_depth _ difference_preorder 3 _ 6).1 calls reached).1

end

end Testjig.Util
