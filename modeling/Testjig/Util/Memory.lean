import Testjig.Machine.Fill
import Testjig.Sequence.Protocol

namespace Testjig.Util

open Machine.Fill Testjig.Sequence

abbrev Address := BitVec 32

abbrev Memory := Address → Byte

/-- A word access to an address that is not a multiple of 4, and a loop that counts past zero -/
inductive MemoryFault where
  | unaligned
  | runaway
deriving DecidableEq, Repr

def store (m : Memory) (a : Address) (b : Byte) : Memory := fill m a 1 fun _ => b

def byteOf (word : BitVec 32) (j : Nat) : Byte := (word >>> (8 * j)).setWidth 8

/-- The least significant byte comes first. -/
def loadWord (m : Memory) (a : Address) : BitVec 32 := m (a + 3) ++ m (a + 2) ++ m (a + 1) ++ m a

def storeWord (m : Memory) (a : Address) (word : BitVec 32) : Memory := fill m a 4 (byteOf word)

/-- `ldmia a!,{...}` into so many registers -/
def ldmia (m : Memory) (a : Address) (count : Nat) : Except MemoryFault (List (BitVec 32) × Address) :=
  if a &&& 3 ≠ 0 then .error .unaligned
  else .ok ((List.range count).map fun i => loadWord m (a + BitVec.ofNat 32 (4 * i)), a + BitVec.ofNat 32 (4 * count))

def storeWords (m : Memory) (a : Address) : List (BitVec 32) → Memory
  | [] => m
  | word :: words => storeWords (storeWord m a word) (a + 4) words

/-- `stmia a!,{...}` -/
def stmia (m : Memory) (a : Address) (words : List (BitVec 32)) : Except MemoryFault (Memory × Address) :=
  if a &&& 3 ≠ 0 then .error .unaligned
  else .ok (storeWords m a words, a + BitVec.ofNat 32 (4 * words.length))

/-- The loop of `memcpy_fast`, for so many turns at most -/
def memcpyFast : Nat → Memory → Address → Address → BitVec 32 → Except MemoryFault Memory
  | 0, _, _, _, _ => .error .runaway
  | turns + 1, m, r0, r1, r2 =>
    match ldmia m r1 8 with
    | .error fault => .error fault
    | .ok (r3_r10, r1) =>
      match stmia m r0 r3_r10 with
      | .error fault => .error fault
      | .ok (m, r0) =>
        let r2 := r2 - 32
        if r2 = 0 then .ok m else memcpyFast turns m r0 r1 r2

/-- The loop of `memset_fast` -/
def memsetLoop : Nat → Memory → Address → List (BitVec 32) → BitVec 32 → Except MemoryFault Memory
  | 0, _, _, _, _ => .error .runaway
  | turns + 1, m, r0, r3_r10, r2 =>
    match stmia m r0 r3_r10 with
    | .error fault => .error fault
    | .ok (m, r0) =>
      let r2 := r2 - 32
      if r2 = 0 then .ok m else memsetLoop turns m r0 r3_r10 r2

def memsetFast (turns : Nat) (m : Memory) (r0 : Address) (r1 r2 : BitVec 32) : Except MemoryFault Memory :=
  let r5 := (r1.setWidth 8).setWidth 32
  let r4 := 0x01010101 * r5
  memsetLoop turns m r0 (List.replicate 8 r4) r2

/-- `while (n--) *p++ = c;` -/
def setBytes (c : Byte) : Nat → Memory → Address → Memory
  | 0, m, _ => m
  | n + 1, m, p => setBytes c n (store m p c) (p + 1)

/-- `while (n--) *p++ = *q++;` -/
def copyBytes : Nat → Memory → Address → Address → Memory
  | 0, m, _, _ => m
  | n + 1, m, p, q => copyBytes n (store m p (m q)) (p + 1) (q + 1)

/-- `while (n--) *--p = *--q;` -/
def copyBytesDown : Nat → Memory → Address → Address → Memory
  | 0, m, _, _ => m
  | n + 1, m, p, q => copyBytesDown n (store m (p - 1) (m (q - 1))) (p - 1) (q - 1)

def memset (turns : Nat) (m : Memory) (s : Address) (c n : BitVec 32) : Except MemoryFault (Memory × Address) :=
  let n32 := n &&& ~~~31#32
  if n32 ≠ 0 ∧ s &&& 3 = 0 then
    match memsetFast turns m s c n32 with
    | .error fault => .error fault
    | .ok m => .ok (setBytes (c.setWidth 8) (n &&& 31).toNat m (s + n32), s)
  else .ok (setBytes (c.setWidth 8) n.toNat m s, s)

def memcpy (turns : Nat) (m : Memory) (dest src : Address) (n : BitVec 32) : Except MemoryFault (Memory × Address) :=
  let n32 := n &&& ~~~31#32
  if n32 ≠ 0 ∧ (dest ||| src) &&& 3 = 0 then
    match memcpyFast turns m dest src n32 with
    | .error fault => .error fault
    | .ok m => .ok (copyBytes (n &&& 31).toNat m (dest + n32) (src + n32), dest)
  else .ok (copyBytes n.toNat m dest src, dest)

def memmove (turns : Nat) (m : Memory) (dest src : Address) (n : BitVec 32) : Except MemoryFault (Memory × Address) :=
  if dest < src then memcpy turns m dest src n
  else .ok (copyBytesDown n.toNat m (dest + n) (src + n), dest)

end Testjig.Util
