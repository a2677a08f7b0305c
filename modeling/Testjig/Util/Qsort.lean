import Mathlib.Algebra.Order.Ring.Int
import Testjig.Machine.Segment

namespace Testjig.Util

open Machine.Segment

/-- An index outside of the array, a sum that is no `int`, where the language leaves open what happens, and a loop or a
recursion without end -/
inductive SortFault where
  | outOfArray
  | overflow
  | runaway
deriving DecidableEq, Repr

section

variable {α : Type}

/-- An array of `nr` pointers: only its own elements can be read and written. -/
def readAt (nr : Nat) (a : Int → α) (k : Int) : Except SortFault α :=
  if 0 ≤ k ∧ k < nr then .ok (a k) else .error .outOfArray

def writeAt (nr : Nat) (a : Int → α) (k : Int) (x : α) : Except SortFault (Int → α) :=
  if 0 ≤ k ∧ k < nr then .ok (Function.update a k x) else .error .outOfArray

variable (compar : α → α → Int) (nr : Nat)

/-- `while (compar(a[++i], pivot) < 0)`, for so many turns at most -/
def scanUp (a : Int → α) (pivot : α) : Nat → Int → Except SortFault Int
  | 0, _ => .error .runaway
  | turns + 1, i =>
    match readAt nr a (i + 1) with
    | .error fault => .error fault
    | .ok x => if compar x pivot < 0 then scanUp a pivot turns (i + 1) else .ok (i + 1)

/-- `while ((compar(a[--j], pivot) >= 0) && (i < j))` -/
def scanDown (a : Int → α) (pivot : α) (i : Int) : Nat → Int → Except SortFault Int
  | 0, _ => .error .runaway
  | turns + 1, j =>
    match readAt nr a (j - 1) with
    | .error fault => .error fault
    | .ok x => if 0 ≤ compar x pivot ∧ i < j - 1 then scanDown a pivot i turns (j - 1) else .ok (j - 1)

/-- `x = a[p]; a[p] = a[q]; a[q] = x;` -/
def exchange (a : Int → α) (p q : Int) : Except SortFault (Int → α) :=
  match readAt nr a p, readAt nr a q with
  | .ok x, .ok y =>
    match writeAt nr a p y with
    | .error fault => .error fault
    | .ok a => writeAt nr a q x
  | .error fault, _ | _, .error fault => .error fault

/-- `while (i < j)` -/
def partitionLoop (pivot : α) (turns : Nat) : Nat → (Int → α) → Int → Int → Except SortFault ((Int → α) × Int)
  | 0, _, _, _ => .error .runaway
  | rounds + 1, a, i, j =>
    if i < j then
      match scanUp compar nr a pivot turns i with
      | .error fault => .error fault
      | .ok i =>
        match scanDown compar nr a pivot i turns j with
        | .error fault => .error fault
        | .ok j =>
          match if i < j then exchange nr a i j else .ok a with
          | .error fault => .error fault
          | .ok a => partitionLoop pivot turns rounds a i j
    else .ok (a, i)

/-- The body of the loop of `__qsort_p()` up to the recursion: the array and the index of the pivot. Of the sums
of indices only `l + r` can be out of the range of an `int`; every other index is that of an access or next to it. -/
def partition (turns : Nat) (a : Int → α) (l r : Int) : Except SortFault ((Int → α) × Int) :=
  if 2^31 ≤ l + r then .error .overflow
  else
    let m := (l + r) / 2
    match readAt nr a m with
    | .error fault => .error fault
    | .ok pivot =>
      match exchange nr a m r with
      | .error fault => .error fault
      | .ok a =>
        match partitionLoop compar nr pivot turns turns a (l - 1) r with
        | .error fault => .error fault
        | .ok (a, i) =>
          match readAt nr a i with
          | .error fault => .error fault
          | .ok x =>
            match writeAt nr a r x with
            | .error fault => .error fault
            | .ok a =>
              match writeAt nr a i pivot with
              | .error fault => .error fault
              | .ok a => .ok (a, i)

/-- `__qsort_p()`: the smaller part is sorted by a call, the larger one by going round the loop. -/
def qsortLoop : Nat → (Int → α) → Int → Int → Except SortFault (Int → α)
  | 0, _, _, _ => .error .runaway
  | turns + 1, a, l, r =>
    if l < r then
      match partition compar nr turns a l r with
      | .error fault => .error fault
      | .ok (a, i) =>
        if i - l < r - i then
          match qsortLoop turns a l (i - 1) with
          | .error fault => .error fault
          | .ok a => qsortLoop turns a (i + 1) r
        else
          match qsortLoop turns a (i + 1) r with
          | .error fault => .error fault
          | .ok a => qsortLoop turns a l (i - 1)
    else .ok a

/-- `qsort_p()`. The count is unsigned, and one less than it is passed as an `int`. -/
def qsortP (turns : Nat) (a : Int → α) (nr : BitVec 32) : Except SortFault (Int → α) :=
  qsortLoop compar nr.toNat turns a 0 (nr - 1).toInt

end

/-- A comparison whose sign is that of a total preorder -/
structure TotalPreorder {α : Type} (compar : α → α → Int) : Prop where
  opposite : ∀ x y, compar x y < 0 ↔ 0 < compar y x
  trans : ∀ x y z, compar x y ≤ 0 → compar y z ≤ 0 → compar x z ≤ 0

section

variable {α : Type} {compar : α → α → Int} {nr : Nat}

theorem TotalPreorder.self (preorder : TotalPreorder compar) (x : α) : compar x x = 0 := by
  have same := preorder.opposite x x
  omega

theorem TotalPreorder.flip (preorder : TotalPreorder compar) {x y : α} (least : 0 ≤ compar x y) : compar y x ≤ 0 := by
  have opposite := preorder.opposite x y
  omega

theorem readAt_inside (a : Int → α) {k : Int} (low : 0 ≤ k) (high : k < nr) : readAt nr a k = .ok (a k) :=
  if_pos ⟨low, high⟩

theorem writeAt_inside (a : Int → α) {k : Int} (x : α) (low : 0 ≤ k) (high : k < nr) :
    writeAt nr a k x = .ok (Function.update a k x) :=
  if_pos ⟨low, high⟩

theorem exchange_inside (a : Int → α) {p q : Int} (first : 0 ≤ p ∧ p < nr) (second : 0 ≤ q ∧ q < nr) :
    exchange nr a p q = .ok (Function.update (Function.update a p (a q)) q (a p)) := by
  simp only [exchange, readAt_inside a first.1 first.2, readAt_inside a second.1 second.2,
    writeAt_inside a _ first.1 first.2, writeAt_inside _ _ second.1 second.2]

theorem scanUp_stops (a : Int → α) (pivot : α) {top : Int} (sentinel : 0 ≤ compar (a top) pivot) (inside : top < nr)
    (turns : Nat) (i : Int) (start : 0 ≤ i + 1) (below : i < top) (enough : top - i ≤ turns) :
    ∃ stop, scanUp compar nr a pivot turns i = .ok stop ∧ i < stop ∧ stop ≤ top ∧
      (∀ k, i < k → k < stop → compar (a k) pivot < 0) ∧ 0 ≤ compar (a stop) pivot := by
  induction turns generalizing i with
  | zero => omega
  | succ turns ih =>
    rw [scanUp, readAt_inside a start (by omega)]
    dsimp only
    by_cases less : compar (a (i + 1)) pivot < 0
    · have more : i + 1 ≠ top := by
        intro same
        rw [same] at less
        omega
      obtain ⟨stop, result, after, before, passed, reached⟩ := ih (i + 1) (by omega) (by omega) (by omega)
      rw [if_pos less]
      refine ⟨stop, result, by omega, before, ?_, reached⟩
      intro k above under
      by_cases first : k = i + 1
      · rwa [first]
      · exact passed k (by omega) under
    · rw [if_neg less]
      exact ⟨i + 1, rfl, by omega, by omega, by omega, by omega⟩

theorem scanDown_stops (a : Int → α) (pivot : α) {i : Int} (low : 0 ≤ i) (turns : Nat) (j : Int) (start : 1 ≤ j)
    (inside : j ≤ nr) (enough : j - i ≤ turns) (positive : 1 ≤ turns) :
    ∃ stop, scanDown compar nr a pivot i turns j = .ok stop ∧ stop < j ∧ (i ≤ stop ∨ stop = j - 1) ∧
      (∀ k, stop < k → k < j → 0 ≤ compar (a k) pivot) ∧ (i < stop → compar (a stop) pivot < 0) := by
  induction turns generalizing j with
  | zero => omega
  | succ turns ih =>
    rw [scanDown, readAt_inside a (by omega) (by omega)]
    dsimp only
    by_cases more : 0 ≤ compar (a (j - 1)) pivot ∧ i < j - 1
    · obtain ⟨stop, result, before, met, passed, reached⟩ := ih (j - 1) (by omega) (by omega) (by omega) (by omega)
      rw [if_pos more]
      refine ⟨stop, result, by omega, by omega, ?_, reached⟩
      intro k above under
      by_cases first : k = j - 1
      · rw [first]
        exact more.1
      · exact passed k above (by omega)
    · rw [if_neg more]
      exact ⟨j - 1, rfl, by omega, .inr rfl, by omega, by omega⟩

/-- The loop between its rounds: less than the pivot up to `i`, not less from `j` on, and the pivot at `r` -/
structure Narrowing (compar : α → α → Int) (pivot : α) (a : Int → α) (l r i j : Int) : Prop where
  low : l ≤ i + 1
  apart : i < j
  above : l < j
  high : j ≤ r
  less : ∀ k, l ≤ k → k ≤ i → compar (a k) pivot < 0
  rest : ∀ k, j ≤ k → k ≤ r → 0 ≤ compar (a k) pivot

/-- What the loop leaves: everything before `i` is less than the pivot, and nothing from there on is. -/
structure Narrowed (compar : α → α → Int) (pivot : α) (a : Int → α) (l r i : Int) : Prop where
  low : l ≤ i
  high : i ≤ r
  less : ∀ k, l ≤ k → k < i → compar (a k) pivot < 0
  rest : ∀ k, i ≤ k → k ≤ r → 0 ≤ compar (a k) pivot

theorem Narrowing.exchanged {pivot : α} {a : Int → α} {l r i j stop back : Int}
    (narrowing : Narrowing compar pivot a l r i j) (after : i < stop)
    (passedUp : ∀ k, i < k → k < stop → compar (a k) pivot < 0) (reachedUp : 0 ≤ compar (a stop) pivot)
    (before : back < j) (passedDown : ∀ k, back < k → k < j → 0 ≤ compar (a k) pivot)
    (reachedDown : compar (a back) pivot < 0) (apart : stop < back) :
    Narrowing compar pivot (Function.update (Function.update a stop (a back)) back (a stop)) l r stop back where
  low := by
    have low := narrowing.low
    omega
  apart := apart
  above := by
    have low := narrowing.low
    omega
  high := by
    have high := narrowing.high
    omega
  less := by
    intro k left right
    rw [Function.update_of_ne (by omega)]
    by_cases last : k = stop
    · rwa [last, Function.update_self]
    · rw [Function.update_of_ne last]
      by_cases old : k ≤ i
      · exact narrowing.less k left old
      · exact passedUp k (by omega) (by omega)
  rest := by
    intro k left right
    by_cases first : k = back
    · rwa [first, Function.update_self]
    · rw [Function.update_of_ne first, Function.update_of_ne (by omega)]
      by_cases old : j ≤ k
      · exact narrowing.rest k old right
      · exact passedDown k (by omega) (by omega)

theorem partitionLoop_narrows {pivot : α} {l r : Int} (nonneg : 0 ≤ l) (inside : r < nr) (turns : Nat)
    (enough : r - l + 2 ≤ turns) (rounds : Nat) (a : Int → α) (i j : Int)
    (narrowing : Narrowing compar pivot a l r i j) (measure : j - i + 1 ≤ rounds) :
    ∃ b stop, partitionLoop compar nr pivot turns rounds a i j = .ok (b, stop) ∧ Rearranged a b l (r - 1) ∧
      Narrowed compar pivot b l r stop := by
  induction rounds generalizing a i j with
  | zero =>
    have apart := narrowing.apart
    omega
  | succ rounds ih =>
    have ⟨low, apart, above, high, less, rest⟩ := narrowing
    have inner : j < nr := by omega
    obtain ⟨stop, up, after, below, passedUp, reachedUp⟩ := scanUp_stops a pivot (rest j (by omega) high) inner turns i
      (by omega) apart (by omega)
    obtain ⟨back, down, before, met, passedDown, reachedDown⟩ := scanDown_stops a pivot (by omega : 0 ≤ stop) turns j
      (by omega) (Int.le_of_lt inner) (by omega) (by omega)
    rw [partitionLoop, if_pos apart, up]
    dsimp only
    rw [down]
    dsimp only
    by_cases crossed : stop < back
    · have next := narrowing.exchanged after passedUp reachedUp before passedDown (reachedDown crossed) crossed
      rw [if_pos crossed, exchange_inside a (by omega) (by omega)]
      obtain ⟨b, last, result, rearranged, narrowed⟩ := ih _ stop back next (by omega)
      refine ⟨b, last, result, ?_, narrowed⟩
      exact (rearranged_swap a (by omega) (by omega)).trans rearranged
    · obtain ⟨others, positive⟩ : ∃ others, rounds = others + 1 := Nat.exists_eq_succ_of_ne_zero (by omega)
      rw [if_neg crossed, positive]
      dsimp only
      rw [partitionLoop, if_neg crossed]
      refine ⟨a, stop, rfl, .refl a l (r - 1), by omega, by omega, ?_, ?_⟩
      · intro k left right
        by_cases old : k ≤ i
        · exact less k left old
        · exact passedUp k (by omega) right
      · intro k left right
        by_cases first : k = stop
        · rwa [first]
        · by_cases old : j ≤ k
          · exact rest k old right
          · exact passedDown k (by omega) (by omega)

structure SplitAt (compar : α → α → Int) (a : Int → α) (l r i : Int) : Prop where
  less : ∀ k, l ≤ k → k < i → compar (a k) (a i) < 0
  rest : ∀ k, i < k → k ≤ r → 0 ≤ compar (a k) (a i)

theorem partition_splits (preorder : TotalPreorder compar) {a : Int → α} {l r : Int} (nonneg : 0 ≤ l) (order : l < r)
    (inside : r < nr) (fits : l + r < 2^31) (turns : Nat) (enough : r - l + 2 ≤ turns) :
    ∃ b i, partition compar nr turns a l r = .ok (b, i) ∧ l ≤ i ∧ i ≤ r ∧ Rearranged a b l r ∧
      SplitAt compar b l r i := by
  let m := (l + r) / 2
  have middle : l ≤ m ∧ m ≤ r := by omega
  let first := Function.update (Function.update a m (a r)) r (a m)
  have pivot : first r = a m := Function.update_self _ _ _
  have narrowing : Narrowing compar (a m) first l r (l - 1) r := by
    refine ⟨by omega, by omega, order, by omega, by omega, ?_⟩
    intro k left right
    have same : k = r := by omega
    rw [same, pivot]
    exact Int.le_of_eq (preorder.self _).symm
  obtain ⟨b, i, looped, rearranged, low, high, less, rest⟩ :=
    partitionLoop_narrows nonneg inside turns enough turns first (l - 1) r narrowing (by omega)
  have kept : b r = a m := (rearranged.outside (by omega)).trans pivot
  let last := Function.update (Function.update b r (b i)) i (a m)
  have placed : last i = a m := Function.update_self _ _ _
  refine ⟨last, i, ?_, low, high, ?_, ?_, ?_⟩
  · have small : ¬ 2^31 ≤ l + r := by omega
    rw [partition, if_neg small]
    dsimp only
    rw [readAt_inside a (by omega) (by omega), exchange_inside a (by omega) (by omega)]
    dsimp only
    rw [looped]
    dsimp only
    rw [readAt_inside b (by omega) (by omega)]
    dsimp only
    rw [writeAt_inside b _ (by omega) (by omega)]
    dsimp only
    rw [writeAt_inside _ _ (by omega) (by omega)]
  · have swapped : Rearranged b last l r := by
      have swap := rearranged_swap b (by omega : l ≤ i ∧ i ≤ r) (by omega : l ≤ r ∧ r ≤ r)
      rwa [kept] at swap
    have start : Rearranged a first l r := rearranged_swap a (by omega) middle
    exact (start.trans (rearranged.wider (by omega) (by omega))).trans swapped
  · intro k left right
    rw [placed]
    simp only [last]
    rw [Function.update_of_ne (by omega), Function.update_of_ne (by omega)]
    exact less k left right
  · intro k left right
    rw [placed]
    simp only [last]
    rw [Function.update_of_ne (by omega)]
    by_cases border : k = r
    · rw [border, Function.update_self]
      exact rest i (by omega) (by omega)
    · rw [Function.update_of_ne border]
      exact rest k (by omega) right

def Ordered (compar : α → α → Int) (a : Int → α) (l r : Int) : Prop :=
  ∀ p q, l ≤ p → p ≤ q → q ≤ r → compar (a p) (a q) ≤ 0

theorem SplitAt.moved {a b : Int → α} {l r i p q : Int} (split : SplitAt compar a l r i)
    (rearranged : Rearranged a b p q) (side : (l ≤ p ∧ q < i) ∨ (i < p ∧ q ≤ r)) : SplitAt compar b l r i := by
  have fixed : b i = a i := rearranged.outside (by omega)
  constructor
  · rw [fixed]
    rcases side with left | right
    · have wider : Rearranged a b l (i - 1) := rearranged.wider (by omega) (by omega)
      intro k above under
      exact wider.all (fun x => compar x (a i) < 0) (fun k above under => split.less k above (by omega)) k above
        (by omega)
    · intro k above under
      rw [rearranged.outside (by omega)]
      exact split.less k above under
  · rw [fixed]
    rcases side with left | right
    · intro k above under
      rw [rearranged.outside (by omega)]
      exact split.rest k above under
    · have wider : Rearranged a b (i + 1) r := rearranged.wider (by omega) (by omega)
      intro k above under
      exact wider.all (fun x => 0 ≤ compar x (a i)) (fun k above under => split.rest k (by omega) under) k (by omega)
        under

theorem Ordered.moved {a b : Int → α} {l r p q : Int} (ordered : Ordered compar a l r) (rearranged : Rearranged a b p q)
    (apart : q < l ∨ r < p) : Ordered compar b l r := by
  intro k n low order high
  rw [rearranged.outside (by omega), rearranged.outside (by omega)]
  exact ordered k n low order high

theorem SplitAt.ordered (preorder : TotalPreorder compar) {a : Int → α} {l r i : Int} (split : SplitAt compar a l r i)
    (left : Ordered compar a l (i - 1)) (right : Ordered compar a (i + 1) r) : Ordered compar a l r := by
  have upTo (p : Int) (low : l ≤ p) (high : p ≤ i) : compar (a p) (a i) ≤ 0 := by
    by_cases same : p = i
    · rw [same]
      exact Int.le_of_eq (preorder.self _)
    · exact Int.le_of_lt (split.less p low (by omega))
  have onFrom (q : Int) (low : i ≤ q) (high : q ≤ r) : compar (a i) (a q) ≤ 0 := by
    by_cases same : q = i
    · rw [same]
      exact Int.le_of_eq (preorder.self _)
    · exact preorder.flip (split.rest q (by omega) high)
  intro p q low order high
  by_cases before : q < i
  · exact left p q low order (by omega)
  · by_cases behind : i < p
    · exact right p q (by omega) order high
    · exact preorder.trans _ (a i) _ (upTo p low (by omega)) (onFrom q (by omega) high)

theorem qsortLoop_sorts (preorder : TotalPreorder compar) (turns : Nat) (a : Int → α) (l r : Int) (nonneg : 0 ≤ l)
    (inside : r < nr) (fits : r ≤ 2^30) (enough : r - l + 3 ≤ turns) (positive : 1 ≤ turns) :
    ∃ b, qsortLoop compar nr turns a l r = .ok b ∧ Rearranged a b l r ∧ Ordered compar b l r := by
  induction turns generalizing a l r with
  | zero => omega
  | succ turns ih =>
    rw [qsortLoop]
    by_cases order : l < r
    · obtain ⟨b, i, split, low, high, rearranged, atPivot⟩ :=
        partition_splits preorder nonneg order inside (by omega) turns (by omega) (a := a)
      rw [if_pos order, split]
      dsimp only
      by_cases small : i - l < r - i
      · obtain ⟨c, first, left, leftOrdered⟩ := ih b l (i - 1) nonneg (by omega) (by omega) (by omega) (by omega)
        obtain ⟨d, second, right, rightOrdered⟩ := ih c (i + 1) r (by omega) inside fits (by omega) (by omega)
        rw [if_pos small, first]
        refine ⟨d, second, ?_, ?_⟩
        · exact (rearranged.trans (left.wider (by omega) (by omega))).trans (right.wider (by omega) (by omega))
        · have whole := (atPivot.moved left (by omega)).moved right (by omega)
          exact whole.ordered preorder (leftOrdered.moved right (by omega)) rightOrdered
      · obtain ⟨c, first, right, rightOrdered⟩ := ih b (i + 1) r (by omega) inside fits (by omega) (by omega)
        obtain ⟨d, second, left, leftOrdered⟩ := ih c l (i - 1) nonneg (by omega) (by omega) (by omega) (by omega)
        rw [if_neg small, first]
        refine ⟨d, second, ?_, ?_⟩
        · exact (rearranged.trans (right.wider (by omega) (by omega))).trans (left.wider (by omega) (by omega))
        · have whole := (atPivot.moved right (by omega)).moved left (by omega)
          exact whole.ordered preorder leftOrdered (rightOrdered.moved left (by omega))
    · rw [if_neg order]
      refine ⟨a, rfl, .refl a l r, ?_⟩
      intro p q low middle high
      have same : p = q := by omega
      rw [same]
      exact Int.le_of_eq (preorder.self _)

/-- With enough turns the sort ends without a fault, the elements are rearranged and in order, and no others change. -/
def Sorts (compar : α → α → Int) (nr : BitVec 32) (a : Int → α) : Prop :=
  ∃ enough, ∀ turns, enough ≤ turns → ∃ final, qsortP compar turns a nr = .ok final ∧
    (contents nr.toNat final).Perm (contents nr.toNat a) ∧
    (∀ i : Nat, i + 1 < nr.toNat → compar (final i) (final (i + 1)) ≤ 0) ∧
    ∀ k : Int, (k < 0 ∨ nr.toNat ≤ k) → final k = a k

/-- Up to so many elements that no sum of two indices overflows, `qsort_p()` sorts. -/
theorem qsort_p_sorts (compar : α → α → Int) (preorder : TotalPreorder compar) (nr : BitVec 32)
    (few : nr.toNat ≤ 2^30 + 1) (a : Int → α) : Sorts compar nr a := by
  have last : (nr - 1).toInt = nr.toNat - 1 := by
    have one : BitVec.toNat (1 : BitVec 32) = 1 := rfl
    rw [BitVec.toInt_eq_toNat_cond, BitVec.toNat_sub, one]
    split <;> omega
  refine ⟨nr.toNat + 3, ?_⟩
  intro turns enough
  obtain ⟨final, sorted, rearranged, ordered⟩ := qsortLoop_sorts preorder turns a 0 (nr.toNat - 1) (Int.le_refl 0)
    (by omega : (nr.toNat : Int) - 1 < nr.toNat) (by omega) (by omega) (by omega)
  refine ⟨final, ?_, rearranged.perm, ?_, ?_⟩
  · rw [qsortP, last]
    exact sorted
  · intro i inside
    exact ordered i (i + 1) (by omega) (by omega) (by omega)
  · intro k outside
    exact rearranged.outside (by omega)

theorem difference_preorder : TotalPreorder fun x y : BitVec 32 => (x.toNat : Int) - y.toNat := by
  constructor
  · intro x y
    omega
  · intro x y z
    omega

theorem qsort_p_sorts_three :
    Sorts (fun x y : BitVec 32 => (x.toNat : Int) - y.toNat) 3 (fun k => if k = 0 then 30 else if k = 1 then 10 else 20) :=
  qsort_p_sorts _ difference_preorder 3 (by decide) _

theorem scanDown_equal {a : Int → α} {pivot : α} {i stop : Int} (turns : Nat) (j : Int)
    (ended : scanDown (fun _ _ => 0) nr a pivot i turns j = .ok stop) : ¬ i < stop := by
  induction turns generalizing j with
  | zero => cases ended
  | succ turns ih =>
    rw [scanDown] at ended
    split at ended
    · cases ended
    · split at ended
      · exact ih _ ended
      · rename_i met
        cases ended
        intro ahead
        exact met ⟨Int.le_refl 0, ahead⟩

/-- Among equal elements both scans stop at once, or meet at the first one. -/
theorem partitionLoop_equal {a b : Int → α} {pivot : α} {i j stop : Int} {turns rounds : Nat} (apart : i < j)
    (ended : partitionLoop (fun _ _ => 0) nr pivot turns rounds a i j = .ok (b, stop)) : stop = i + 1 := by
  cases rounds with
  | zero => cases ended
  | succ rounds =>
    rw [partitionLoop, if_pos apart] at ended
    split at ended
    · cases ended
    · rename_i first up
      have next : first = i + 1 := by
        cases turns with
        | zero => cases up
        | succ turns =>
          rw [scanUp] at up
          split at up
          · cases up
          · cases up
            rfl
      split at ended
      · cases ended
      · rename_i back down
        rw [if_neg (scanDown_equal turns j down)] at ended
        cases rounds with
        | zero => cases ended
        | succ rounds =>
          dsimp only at ended
          rw [partitionLoop, if_neg (scanDown_equal turns j down)] at ended
          cases ended
          exact next

theorem partition_equal {a b : Int → α} {l r i : Int} {turns : Nat} (order : l < r)
    (ended : partition (fun _ _ => 0) nr turns a l r = .ok (b, i)) : l + r < 2^31 ∧ i = l := by
  rw [partition] at ended
  split at ended
  · cases ended
  · rename_i small
    refine ⟨by omega, ?_⟩
    dsimp only at ended
    split at ended
    · cases ended
    · split at ended
      · cases ended
      · split at ended
        · cases ended
        · rename_i looped
          have first := partitionLoop_equal (by omega) looped
          split at ended
          · cases ended
          · split at ended
            · cases ended
            · split at ended
              · cases ended
              · cases ended
                omega

/-- A sort of equal elements takes off the first one in each round. -/
theorem qsortLoop_equal {a b : Int → α} {l r : Int} {turns : Nat} (order : l < r)
    (sorted : qsortLoop (fun _ _ => 0) nr turns a l r = .ok b) :
    l + r < 2^31 ∧ ∃ turns c, qsortLoop (fun _ _ => 0) nr turns c (l + 1) r = .ok b := by
  cases turns with
  | zero => cases sorted
  | succ turns =>
    rw [qsortLoop, if_pos order] at sorted
    split at sorted
    · cases sorted
    · rename_i c i split
      obtain ⟨fits, rfl⟩ := partition_equal order split
      refine ⟨fits, ?_⟩
      rw [if_pos (by omega)] at sorted
      split at sorted
      · cases sorted
      · exact ⟨_, _, sorted⟩

/-- 2^31 - 1 equal pointers, which are more than a 32-bit address space holds: `l + r` overflows at `l = 2`. -/
theorem qsort_p_overflows :
    ¬ ∀ (nr : BitVec 32) (compar : BitVec 32 → BitVec 32 → Int) (a : Int → BitVec 32), nr.toNat < 2^31 →
      TotalPreorder compar → Sorts compar nr a := by
  intro all
  have preorder : TotalPreorder fun _ _ : BitVec 32 => (0 : Int) := ⟨by simp, by simp⟩
  obtain ⟨enough, ends⟩ := all 0x7fffffff (fun _ _ => 0) (fun _ => 0) (by decide) preorder
  obtain ⟨final, sorted, -⟩ := ends enough (Nat.le_refl enough)
  have last : (0x7fffffff - 1 : BitVec 32).toInt = 2^31 - 2 := by decide
  rw [qsortP, last] at sorted
  obtain ⟨-, _, _, second⟩ := qsortLoop_equal (by decide) sorted
  obtain ⟨-, _, _, third⟩ := qsortLoop_equal (by decide) second
  obtain ⟨fits, -⟩ := qsortLoop_equal (by decide) third
  exact absurd fits (by decide)

end

end Testjig.Util
