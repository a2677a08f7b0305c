import Mathlib.Tactic.IntervalCases
import Testjig.Util.Memory

namespace Testjig.Util

open Machine.Fill Testjig.Sequence

theorem later_address (p : Address) (k i : Nat) :
    p + BitVec.ofNat 32 k + BitVec.ofNat 32 i = p + BitVec.ofNat 32 (k + i) := by
  rw [BitVec.add_assoc, BitVec.ofNat_add]

theorem setBytes_fill (c : Byte) (n : Nat) (m : Memory) (p : Address) (fits : n ≤ 2^32) :
    setBytes c n m p = fill m p n fun _ => c := by
  induction n generalizing m p with
  | zero => rfl
  | succ n ih =>
    have extended := fill_extend m p c (by omega : 1 + n ≤ 2^32)
    rw [Nat.add_comm 1 n] at extended
    rw [setBytes, ih _ _ (by omega), store]
    exact extended

def Forward (dest src : Address) (n : Nat) : Prop :=
  ∀ j i, j < i → i < n → src + BitVec.ofNat 32 i ≠ dest + BitVec.ofNat 32 j

theorem Forward.later {dest src : Address} {k n : Nat} (forward : Forward dest src (k + n)) :
    Forward (dest + BitVec.ofNat 32 k) (src + BitVec.ofNat 32 k) n := by
  intro j i order bound
  rw [later_address, later_address]
  exact forward (k + j) (k + i) (by omega) (by omega)

theorem Forward.shorter {dest src : Address} {k n : Nat} (forward : Forward dest src n) (order : k ≤ n) :
    Forward dest src k := by
  intro j i earlier bound
  exact forward j i earlier (by omega)

theorem Forward.unread {dest src : Address} {k n i : Nat} (forward : Forward dest src (k + n)) (bound : i < n)
    (m : Memory) (contents : Nat → Byte) :
    fill m dest k contents (src + BitVec.ofNat 32 k + BitVec.ofNat 32 i) = m (src + BitVec.ofNat 32 (k + i)) := by
  rw [later_address]
  apply fill_outside
  intro j before
  exact forward j (k + i) (by omega) (by omega)

theorem copy_append (m : Memory) {dest src : Address} {k n : Nat} (forward : Forward dest src (k + n))
    (fits : k + n ≤ 2^32) :
    let first := fill m dest k fun i => m (src + BitVec.ofNat 32 i)
    fill first (dest + BitVec.ofNat 32 k) n (fun i => first (src + BitVec.ofNat 32 k + BitVec.ofNat 32 i)) =
      fill m dest (k + n) fun i => m (src + BitVec.ofNat 32 i) := by
  intro first
  have unread : ∀ i < n, first (src + BitVec.ofNat 32 k + BitVec.ofNat 32 i) = m (src + BitVec.ofNat 32 (k + i)) := by
    intro i bound
    exact forward.unread bound m _
  rw [fill_congr unread, fill_append m dest _ _ fits]
  apply fill_congr
  intro i bound
  split
  · rfl
  · rename_i late
    have whole : k + (i - k) = i := by omega
    rw [whole]

theorem copyBytes_fill (n : Nat) (m : Memory) (p q : Address) (forward : Forward p q n) (fits : n ≤ 2^32) :
    copyBytes n m p q = fill m p n fun i => m (q + BitVec.ofNat 32 i) := by
  induction n generalizing m p q with
  | zero => rfl
  | succ n ih =>
    rw [Nat.add_comm] at forward fits ⊢
    have joined := copy_append m forward fits
    have first : store m p (m q) = fill m p 1 fun i => m (q + BitVec.ofNat 32 i) := by
      apply fill_congr
      intro i bound
      have zero : i = 0 := by omega
      rw [zero, BitVec.add_zero]
    rw [← joined, Nat.add_comm, copyBytes, first]
    exact ih _ _ _ forward.later (by omega)

theorem byteOf_loadWord (m : Memory) (a : Address) {j : Nat} (bound : j < 4) :
    byteOf (loadWord m a) j = m (a + BitVec.ofNat 32 j) := by
  apply BitVec.eq_of_getLsbD_eq
  intro i low
  rw [byteOf, loadWord, BitVec.getLsbD_setWidth, BitVec.getLsbD_ushiftRight]
  simp only [BitVec.getLsbD_append, low, decide_true, Bool.true_and]
  interval_cases j
  · rw [if_pos (by omega), Nat.zero_add, BitVec.add_zero]
  · have shift : 8 * 1 + i - 8 = i := by omega
    rw [if_neg (by omega), if_pos (by omega), shift]
    rfl
  · have shift : 8 * 2 + i - 8 - 8 = i := by omega
    rw [if_neg (by omega), if_neg (by omega), if_pos (by omega), shift]
    rfl
  · have shift : 8 * 3 + i - 8 - 8 - 8 = i := by omega
    rw [if_neg (by omega), if_neg (by omega), if_neg (by omega), shift]
    rfl

theorem storeWords_fill (words : List (BitVec 32)) (m : Memory) (a : Address) (fits : 4 * words.length ≤ 2^32) :
    storeWords m a words = fill m a (4 * words.length) fun i => byteOf (words.getD (i / 4) 0) (i % 4) := by
  induction words generalizing m a with
  | nil => rfl
  | cons word words ih =>
    rw [List.length_cons] at fits ⊢
    have total : 4 * (words.length + 1) = 4 + 4 * words.length := by omega
    have appended := fill_append m a (byteOf word) (fun i => byteOf (words.getD (i / 4) 0) (i % 4))
      (by omega : 4 + 4 * words.length ≤ 2^32)
    rw [storeWords, ih _ _ (by omega), storeWord, total]
    refine appended.trans (fill_congr ?_)
    intro i _
    by_cases first : i < 4
    · have zero : i / 4 = 0 := by omega
      have same : i % 4 = i := by omega
      rw [if_pos first, zero, same]
      rfl
    · have before : i / 4 = (i - 4) / 4 + 1 := by omega
      have same : i % 4 = (i - 4) % 4 := by omega
      rw [if_neg first, before, same]
      rfl

theorem aligned_iff (a : Address) : a &&& 3 = 0 ↔ a.toNat % 4 = 0 := by
  have low : (a &&& 3).toNat = a.toNat % 4 := by
    rw [BitVec.toNat_and]
    exact Nat.and_two_pow_sub_one_eq_mod a.toNat 2
  constructor
  · intro aligned
    rw [← low, aligned]
    rfl
  · intro aligned
    apply BitVec.eq_of_toNat_eq
    rw [low, aligned]
    rfl

theorem aligned_later {a : Address} (aligned : a &&& 3 = 0) (k : Nat) : a + BitVec.ofNat 32 (4 * k) &&& 3 = 0 := by
  rw [aligned_iff] at aligned ⊢
  rw [BitVec.toNat_add, BitVec.toNat_ofNat]
  omega

theorem ldmia_aligned (m : Memory) {a : Address} (aligned : a &&& 3 = 0) (count : Nat) :
    ldmia m a count =
      .ok ((List.range count).map fun i => loadWord m (a + BitVec.ofNat 32 (4 * i)), a + BitVec.ofNat 32 (4 * count)) :=
  if_neg (fun odd => odd aligned)

theorem stmia_aligned (m : Memory) {a : Address} (aligned : a &&& 3 = 0) (words : List (BitVec 32))
    (fits : 4 * words.length ≤ 2^32) :
    stmia m a words =
      .ok (fill m a (4 * words.length) fun i => byteOf (words.getD (i / 4) 0) (i % 4),
        a + BitVec.ofNat 32 (4 * words.length)) := by
  rw [← storeWords_fill words m a fits]
  exact if_neg (fun odd => odd aligned)

/-- Eight words loaded and stored move 32 bytes, also where these overlap. -/
theorem block_copied (m : Memory) {r0 r1 : Address} (dest : r0 &&& 3 = 0) :
    stmia m r0 ((List.range 8).map fun i => loadWord m (r1 + BitVec.ofNat 32 (4 * i))) =
      .ok (fill m r0 32 fun i => m (r1 + BitVec.ofNat 32 i), r0 + BitVec.ofNat 32 32) := by
  rw [stmia_aligned m dest _ (by simp)]
  have copied : ∀ i < 32,
      byteOf (((List.range 8).map fun i => loadWord m (r1 + BitVec.ofNat 32 (4 * i))).getD (i / 4) 0) (i % 4) =
        m (r1 + BitVec.ofNat 32 i) := by
    intro i bound
    have inside : i / 4 < 8 := by omega
    have whole : 4 * (i / 4) + i % 4 = i := by omega
    rw [List.getD_eq_getElem?_getD, List.getElem?_map, List.getElem?_range inside]
    simp only [Option.map_some, Option.getD_some]
    rw [byteOf_loadWord _ _ (by omega), later_address, whole]
  exact congrArg (fun m => Except.ok (m, r0 + BitVec.ofNat 32 32)) (fill_congr copied)

theorem remaining_blocks (k : Nat) : BitVec.ofNat 32 (32 * (k + 1)) - 32 = BitVec.ofNat 32 (32 * k) := by
  rw [Nat.mul_succ, BitVec.ofNat_add]
  exact BitVec.add_sub_cancel _ _

theorem blocks_left {k : Nat} (small : 32 * k < 2^32) : BitVec.ofNat 32 (32 * k) = 0 ↔ k = 0 := by
  constructor
  · intro none
    have number := congrArg BitVec.toNat none
    rw [BitVec.toNat_ofNat, Nat.mod_eq_of_lt small] at number
    change 32 * k = 0 at number
    omega
  · rintro rfl
    rfl

theorem blocks_more {k : Nat} (small : 32 * (k + 1) < 2^32) : ¬ BitVec.ofNat 32 (32 * (k + 1)) = 0 := by
  rw [blocks_left small]
  omega

/-- The count comes down to zero after one turn for each block. -/
theorem memcpyFast_fill (k turns : Nat) (m : Memory) (r0 r1 : Address) (dest : r0 &&& 3 = 0) (src : r1 &&& 3 = 0)
    (small : 32 * (k + 1) < 2^32) (enough : k < turns) (forward : Forward r0 r1 (32 * (k + 1))) :
    memcpyFast turns m r0 r1 (BitVec.ofNat 32 (32 * (k + 1))) =
      .ok (fill m r0 (32 * (k + 1)) fun i => m (r1 + BitVec.ofNat 32 i)) := by
  induction k generalizing turns m r0 r1 with
  | zero =>
    cases turns with
    | zero => omega
    | succ turns =>
      simp only [memcpyFast, ldmia_aligned m src, block_copied m dest, remaining_blocks]
      rfl
  | succ k ih =>
    cases turns with
    | zero => omega
    | succ turns =>
      have total : 32 * (k + 1 + 1) = 32 + 32 * (k + 1) := by omega
      have more := blocks_more (by omega : 32 * (k + 1) < 2^32)
      rw [total] at forward
      simp only [memcpyFast, ldmia_aligned m src, block_copied m dest, remaining_blocks, if_neg more]
      rw [ih turns _ _ _ (aligned_later dest 8) (aligned_later src 8) (by omega) (by omega) forward.later, total,
        ← copy_append m forward (by omega)]

theorem memset_word (c : Byte) {j : Nat} (bound : j < 4) : byteOf (0x01010101 * c.setWidth 32) j = c := by
  decide +revert +kernel

theorem block_set (m : Memory) {r0 : Address} (dest : r0 &&& 3 = 0) (c : Byte) :
    stmia m r0 (List.replicate 8 (0x01010101 * c.setWidth 32)) =
      .ok (fill m r0 32 fun _ => c, r0 + BitVec.ofNat 32 32) := by
  rw [stmia_aligned m dest _ (by simp)]
  have set : ∀ i < 32, byteOf ((List.replicate 8 (0x01010101 * c.setWidth 32)).getD (i / 4) 0) (i % 4) = c := by
    intro i bound
    have inside : i / 4 < 8 := by omega
    rw [List.getD_eq_getElem?_getD, List.getElem?_replicate, if_pos inside, Option.getD_some]
    exact memset_word c (by omega)
  exact congrArg (fun m => Except.ok (m, r0 + BitVec.ofNat 32 32)) (fill_congr set)

theorem memsetLoop_fill (c : Byte) (k turns : Nat) (m : Memory) (r0 : Address) (dest : r0 &&& 3 = 0)
    (small : 32 * (k + 1) < 2^32) (enough : k < turns) :
    memsetLoop turns m r0 (List.replicate 8 (0x01010101 * c.setWidth 32)) (BitVec.ofNat 32 (32 * (k + 1))) =
      .ok (fill m r0 (32 * (k + 1)) fun _ => c) := by
  induction k generalizing turns m r0 with
  | zero =>
    cases turns with
    | zero => omega
    | succ turns =>
      simp only [memsetLoop, block_set m dest, remaining_blocks]
      rfl
  | succ k ih =>
    cases turns with
    | zero => omega
    | succ turns =>
      have total : 32 * (k + 1 + 1) = 32 + 32 * (k + 1) := by omega
      have more := blocks_more (by omega : 32 * (k + 1) < 2^32)
      have extended := fill_extend m r0 c (by omega : 32 + 32 * (k + 1) ≤ 2^32)
      simp only [memsetLoop, block_set m dest, remaining_blocks, if_neg more]
      rw [ih turns _ _ (aligned_later dest 8) (by omega) (by omega), total, extended]

theorem rounded (n : BitVec 32) : n &&& ~~~31#32 = BitVec.ofNat 32 (32 * (n.toNat / 32)) := by
  have mask : ∀ i < 32, (~~~31#32).getLsbD i = decide (5 ≤ i) := by decide
  have shifted : n &&& ~~~31#32 = (n >>> 5) <<< 5 := by
    apply BitVec.eq_of_getLsbD_eq
    intro i bound
    rw [BitVec.getLsbD_and, mask i bound, BitVec.getLsbD_shiftLeft, BitVec.getLsbD_ushiftRight]
    by_cases low : i < 5
    · have notHigh : ¬ 5 ≤ i := by omega
      simp [low, notHigh]
    · have back : 5 + (i - 5) = i := by omega
      have high : 5 ≤ i := by omega
      simp [low, back, bound, high]
  rw [shifted]
  apply BitVec.eq_of_toNat_eq
  rw [BitVec.toNat_shiftLeft, BitVec.toNat_ushiftRight, BitVec.toNat_ofNat, Nat.shiftRight_eq_div_pow,
    Nat.shiftLeft_eq, Nat.mul_comm]

theorem remainder (n : BitVec 32) : (n &&& 31).toNat = n.toNat % 32 := by
  rw [BitVec.toNat_and]
  exact Nat.and_two_pow_sub_one_eq_mod n.toNat 5

theorem rounded_zero (n : BitVec 32) : n &&& ~~~31#32 ≠ 0 ↔ n.toNat / 32 ≠ 0 := by
  have small := n.isLt
  rw [rounded, ne_eq, blocks_left (by omega)]

theorem or_aligned {a b : Address} (aligned : (a ||| b) &&& 3 = 0) : a &&& 3 = 0 ∧ b &&& 3 = 0 := by
  rw [BitVec.and_or_distrib_right] at aligned
  exact BitVec.or_eq_zero_iff.mp aligned

theorem memset_fill (turns : Nat) (m : Memory) (s : Address) (c n : BitVec 32) (enough : n.toNat / 32 ≤ turns) :
    memset turns m s c n = .ok (fill m s n.toNat (fun _ => c.setWidth 8), s) := by
  have small := n.isLt
  simp only [memset]
  split
  · rename_i fast
    obtain ⟨k, blocks⟩ := Nat.exists_eq_succ_of_ne_zero ((rounded_zero n).mp fast.1)
    have split : 32 * (k + 1) + n.toNat % 32 = n.toNat := by omega
    have extended := fill_extend m s (c.setWidth 8 : Byte) (by omega : 32 * (k + 1) + n.toNat % 32 ≤ 2^32)
    rw [rounded, remainder, blocks, memsetFast, memsetLoop_fill _ k turns m s fast.2 (by omega) (by omega)]
    dsimp only
    rw [setBytes_fill _ _ _ _ (by omega), extended, split]
  · rw [setBytes_fill _ _ _ _ (by omega)]

theorem memcpy_fill (turns : Nat) (m : Memory) (dest src : Address) (n : BitVec 32)
    (forward : Forward dest src n.toNat) (enough : n.toNat / 32 ≤ turns) :
    memcpy turns m dest src n = .ok (fill m dest n.toNat (fun i => m (src + BitVec.ofNat 32 i)), dest) := by
  have small := n.isLt
  simp only [memcpy]
  split
  · rename_i fast
    obtain ⟨k, blocks⟩ := Nat.exists_eq_succ_of_ne_zero ((rounded_zero n).mp fast.1)
    obtain ⟨destAligned, srcAligned⟩ := or_aligned fast.2
    have split : n.toNat = 32 * (k + 1) + n.toNat % 32 := by omega
    rw [rounded, remainder, blocks, memcpyFast_fill k turns m dest src destAligned srcAligned (by omega) (by omega)
      (forward.shorter (by omega))]
    rw [split] at forward
    dsimp only
    rw [copyBytes_fill _ _ _ _ forward.later (by omega), copy_append m forward (by omega), ← split]
  · rw [copyBytes_fill _ _ _ _ forward (by omega)]

def Backward (dest src : Address) (n : Nat) : Prop :=
  ∀ j i, i < j → j < n → src + BitVec.ofNat 32 i ≠ dest + BitVec.ofNat 32 j

theorem copyBytesDown_fill (n : Nat) (m : Memory) (dest src : Address) (backward : Backward dest src n)
    (fits : n ≤ 2^32) :
    copyBytesDown n m (dest + BitVec.ofNat 32 n) (src + BitVec.ofNat 32 n) =
      fill m dest n fun i => m (src + BitVec.ofNat 32 i) := by
  induction n generalizing m with
  | zero => rfl
  | succ n ih =>
    have before (p : Address) : p + BitVec.ofNat 32 (n + 1) - 1 = p + BitVec.ofNat 32 n := by
      rw [BitVec.ofNat_add, ← BitVec.add_assoc]
      exact BitVec.add_sub_cancel _ _
    have unread : ∀ i < n, store m (dest + BitVec.ofNat 32 n) (m (src + BitVec.ofNat 32 n)) (src + BitVec.ofNat 32 i) =
        m (src + BitVec.ofNat 32 i) := by
      intro i bound
      apply fill_outside
      intro j zero
      have only : j = 0 := by omega
      rw [only, BitVec.add_zero]
      exact backward n i bound (by omega)
    rw [copyBytesDown, before, before, ih _ (fun j i order bound => backward j i order (by omega)) (by omega),
      fill_congr unread, store, fill_prepend m dest _ _ (by omega)]
    apply fill_congr
    intro i bound
    split
    · rfl
    · have last : i = n := by omega
      rw [last]

theorem toNat_address {p : Address} {i : Nat} (fits : p.toNat + i < 2^32) : (p + BitVec.ofNat 32 i).toNat = p.toNat + i := by
  rw [BitVec.toNat_add, BitVec.toNat_ofNat]
  omega

theorem forward_below {dest src : Address} {n : Nat} (below : dest < src) (destFits : dest.toNat + n ≤ 2^32)
    (srcFits : src.toNat + n ≤ 2^32) : Forward dest src n := by
  intro j i order bound same
  have number := congrArg BitVec.toNat same
  rw [toNat_address (by omega), toNat_address (by omega)] at number
  rw [BitVec.lt_def] at below
  omega

theorem backward_above {dest src : Address} {n : Nat} (above : ¬ dest < src) (destFits : dest.toNat + n ≤ 2^32)
    (srcFits : src.toNat + n ≤ 2^32) : Backward dest src n := by
  intro j i order bound same
  have number := congrArg BitVec.toNat same
  rw [toNat_address (by omega), toNat_address (by omega)] at number
  rw [BitVec.lt_def] at above
  omega

theorem memmove_fill (turns : Nat) (m : Memory) (dest src : Address) (n : BitVec 32)
    (destFits : dest.toNat + n.toNat ≤ 2^32) (srcFits : src.toNat + n.toNat ≤ 2^32) (enough : n.toNat / 32 ≤ turns) :
    memmove turns m dest src n = .ok (fill m dest n.toNat (fun i => m (src + BitVec.ofNat 32 i)), dest) := by
  rw [memmove]
  split
  · rename_i below
    exact memcpy_fill turns m dest src n (forward_below below destFits srcFits) enough
  · rename_i above
    have down := copyBytesDown_fill n.toNat m dest src (backward_above above destFits srcFits) (by omega)
    rw [BitVec.ofNat_toNat, BitVec.setWidth_eq] at down
    rw [down]

/-- The fast paths do what the byte loops do, and these set and copy just the range that they are given. -/
theorem memset_memcpy_exact (turns : Nat) (m : Memory) (n : BitVec 32) (enough : n.toNat / 32 ≤ turns) :
    (∀ (s : Address) (c : BitVec 32), ∃ final, memset turns m s c n = .ok (final, s) ∧
      final = setBytes (c.setWidth 8) n.toNat m s ∧
      (∀ i < n.toNat, final (s + BitVec.ofNat 32 i) = c.setWidth 8) ∧
      ∀ a, (∀ i < n.toNat, a ≠ s + BitVec.ofNat 32 i) → final a = m a) ∧
    (∀ dest src : Address,
      (∀ i < n.toNat, ∀ j < n.toNat, src + BitVec.ofNat 32 i ≠ dest + BitVec.ofNat 32 j) →
      ∃ final, memcpy turns m dest src n = .ok (final, dest) ∧ final = copyBytes n.toNat m dest src ∧
        (∀ i < n.toNat, final (dest + BitVec.ofNat 32 i) = m (src + BitVec.ofNat 32 i)) ∧
        ∀ a, (∀ i < n.toNat, a ≠ dest + BitVec.ofNat 32 i) → final a = m a) := by
  have fits : n.toNat ≤ 2^32 := Nat.le_of_lt n.isLt
  constructor
  · intro s c
    exact ⟨_, memset_fill turns m s c n enough, (setBytes_fill _ _ _ _ fits).symm, fill_exact m s _ fits⟩
  · intro dest src apart
    have forward : Forward dest src n.toNat := by
      intro j i order bound
      exact apart i bound j (by omega)
    exact ⟨_, memcpy_fill turns m dest src n forward enough, (copyBytes_fill _ _ _ _ forward fits).symm,
      fill_exact m dest _ fits⟩

/-- Two blocks and six bytes, set to the low byte of an `int` -/
theorem memset_memcpy_exact_70 :
    ∃ final, memset 2 (fun _ => 0) 0x20000000 0x1ff 70 = .ok (final, 0x20000000) ∧
      final (0x20000000 + BitVec.ofNat 32 69) = 0xff := by
  obtain ⟨final, set, -, inside, -⟩ := (memset_memcpy_exact 2 (fun _ => 0) 70 (by decide)).1 0x20000000 0x1ff
  exact ⟨final, set, inside 69 (by decide)⟩

/-- Whatever the overlap, the bytes of the source end up at the destination, and no others change. -/
theorem memmove_exact (turns : Nat) (m : Memory) (dest src : Address) (n : BitVec 32)
    (destFits : dest.toNat + n.toNat ≤ 2^32) (srcFits : src.toNat + n.toNat ≤ 2^32) (enough : n.toNat / 32 ≤ turns) :
    ∃ final, memmove turns m dest src n = .ok (final, dest) ∧
      (∀ i < n.toNat, final (dest + BitVec.ofNat 32 i) = m (src + BitVec.ofNat 32 i)) ∧
      ∀ a, (∀ i < n.toNat, a ≠ dest + BitVec.ofNat 32 i) → final a = m a := by
  exact ⟨_, memmove_fill turns m dest src n destFits srcFits enough, fill_exact m dest _ (Nat.le_of_lt n.isLt)⟩

/-- Two overlapping blocks, four bytes down -/
theorem memmove_exact_overlapping :
    ∃ final, memmove 2 (fun a => a.setWidth 8) 0x20000000 0x20000004 64 = .ok (final, 0x20000000) ∧
      final (0x20000000 + BitVec.ofNat 32 63) = 0x43 := by
  obtain ⟨final, moved, inside, -⟩ := memmove_exact 2 (fun a => a.setWidth 8) 0x20000000 0x20000004 64 (by decide)
    (by decide) (by decide)
  exact ⟨final, moved, inside 63 (by decide)⟩

end Testjig.Util
