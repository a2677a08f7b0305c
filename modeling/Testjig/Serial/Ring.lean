import Mathlib.Algebra.Order.Ring.Int
import Testjig.Machine.Ring
import Testjig.Machine.Run
import Testjig.Sequence.Protocol

namespace Testjig.Serial

open Machine Testjig.Sequence

def ringSize : Nat := 2048
def strSize : Nat := 128

def nul : Byte := 0
def lf : Byte := 10
def cr : Byte := 13

def mask (x : BitVec 32) : Nat := (x &&& BitVec.ofNat 32 (ringSize - 1)).toNat

/-- The local copies of `cons` and `prod` in a `flush_ring_to_serial()` that is under way -/
structure Flush where
  c : BitVec 32
  p : BitVec 32
deriving DecidableEq, Repr

/-- `console.c` and USART1. `accepted`, `written` and `overrun` are a record of the run. -/
structure Console where
  ring : Nat → Byte
  cons : BitVec 32
  prod : BitVec 32
  syncConsole : Bool
  pending : Bool
  flush : Option Flush
  accepted : List Byte
  written : List Byte
  overrun : Bool

inductive ConsoleInput where
  | vprintk (text : List Byte)
  | softirqConsole
  | sendByte
  | publish
  | systemReset

inductive ConsoleFault where
  | misuse
deriving DecidableEq, Repr

/-- "Resetting...\n" -/
def resetting : List Byte := [0x52, 0x65, 0x73, 0x65, 0x74, 0x74, 0x69, 0x6e, 0x67, 0x2e, 0x2e, 0x2e, 0x0a]

/-- What `vsnprintf()` leaves in `str` of a text, as the loop that follows sees it -/
def shown (text : List Byte) : List Byte := (text.take (strSize - 1)).takeWhile (· ≠ nul)

/-- So many turns of the loop of `flush_ring_to_serial()` -/
def transmit (ring : Nat → Byte) : BitVec 32 → Nat → List Byte
  | _, 0 => []
  | c, turns + 1 => ring (mask c) :: transmit ring (c + 1) turns

namespace Console

def occupancy (s : Console) : Nat := (s.prod - s.cons).toNat

def put (s : Console) (c : Byte) : Console :=
  { s with
    ring := Function.update s.ring (mask s.prod) c
    prod := s.prod + 1
    accepted := s.accepted ++ [c]
    overrun := s.overrun || ringSize < (s.prod + 1 - s.cons).toNat }

def stageChar (s : Console) (c : Byte) : Console :=
  if c = cr then s else if c = lf then (s.put cr).put lf else s.put c

/-- The loop of `vprintk()` -/
def stage : List Byte → Console → Console
  | [], s => s
  | c :: rest, s =>
    if s.prod - s.cons ≠ BitVec.ofNat 32 (ringSize - 1) then stage rest (s.stageChar c) else s

/-- `flush_ring_to_serial()` without interruption -/
def flushRingToSerial (s : Console) : Console :=
  -- `c++` reaches `p` after `p - c` turns, however the two have wrapped
  { s with written := s.written ++ transmit s.ring s.cons (s.prod - s.cons).toNat, cons := s.prod }

def kickTx (s : Console) : Console :=
  if s.syncConsole then s.flushRingToSerial
  else if s.cons ≠ s.prod then { s with pending := true } else s

def vprintk (s : Console) (text : List Byte) : Console := (s.stage (shown text)).kickTx

def consoleSync (s : Console) : Console :=
  if s.syncConsole then s else { s with syncConsole := true }.kickTx

/-- What `system_reset()` preempts never runs again. -/
def systemReset (s : Console) : Console := { s.consoleSync with flush := none }.vprintk resetting

end Console

/-- One step. Nothing follows a reset. -/
def step (input : ConsoleInput) (s : Console) : Except ConsoleFault Console :=
  if s.syncConsole then .error .misuse
  else
    match input with
    | .vprintk text => .ok (s.vprintk text)
    | .softirqConsole =>
      match s.flush with
      | none => .ok { s with pending := false, flush := some ⟨s.cons, s.prod⟩ }
      | some _ => .error .misuse
    | .sendByte =>
      match s.flush with
      | some ⟨c, p⟩ =>
        if c ≠ p then .ok { s with written := s.written ++ [s.ring (mask c)], flush := some ⟨c + 1, p⟩ }
        else .error .misuse
      | none => .error .misuse
    | .publish =>
      match s.flush with
      | some ⟨c, p⟩ => if c = p then .ok { s with cons := c, flush := none } else .error .misuse
      | none => .error .misuse
    | .systemReset => .ok s.systemReset

def boot : Console where
  ring := fun _ => 0
  cons := 0
  prod := 0
  syncConsole := false
  pending := false
  flush := none
  accepted := []
  written := []
  overrun := false

theorem mask_ofNat (i : Nat) : mask (BitVec.ofNat 32 i) = i % ringSize := by
  rw [mask, BitVec.toNat_and, BitVec.toNat_ofNat, BitVec.toNat_ofNat]
  have low : (ringSize - 1) % 2^32 = 2^11 - 1 := by decide
  rw [low, Nat.and_two_pow_sub_one_eq_mod, ringSize]
  omega

theorem transmit_ofNat (ring : Nat → Byte) (i turns : Nat) :
    transmit ring (BitVec.ofNat 32 i) turns = collect ring ringSize i turns := by
  induction turns generalizing i with
  | zero => rfl
  | succ turns ih =>
    have next : BitVec.ofNat 32 i + 1 = BitVec.ofNat 32 (i + 1) := (BitVec.ofNat_add ..).symm
    rw [transmit, collect, mask_ofNat, next, ih]

theorem apart_ofNat {read count : Nat} (order : read ≤ count) (near : count < read + 2^32) :
    (BitVec.ofNat 32 count - BitVec.ofNat 32 read).toNat = count - read := by
  rw [BitVec.toNat_sub, BitVec.toNat_ofNat, BitVec.toNat_ofNat]
  omega

def expandChar (c : Byte) : List Byte := if c = cr then [] else if c = lf then [cr, lf] else [c]

def expand (text : List Byte) : List Byte := text.flatMap expandChar

structure Console.Holds (s : Console) (read : Nat) : Prop where
  sound : s.overrun = false
  prod : s.prod = BitVec.ofNat 32 s.accepted.length
  cons : s.cons = BitVec.ofNat 32 read
  order : read ≤ s.accepted.length
  room : s.accepted.length ≤ read + ringSize
  held : Held s.ring ringSize read s.accepted

namespace Console.Holds

variable {s : Console} {read : Nat}

theorem occupancy_eq (holds : s.Holds read) : s.occupancy = s.accepted.length - read := by
  have room := holds.room
  rw [ringSize] at room
  rw [occupancy, holds.prod, holds.cons]
  exact apart_ofNat holds.order (by omega)

theorem occupancy_le (holds : s.Holds read) : s.occupancy ≤ ringSize := by
  have room := holds.room
  rw [holds.occupancy_eq]
  omega

theorem prod_ofNat (holds : s.Holds read) (more : Nat) :
    s.prod + BitVec.ofNat 32 more = BitVec.ofNat 32 (s.accepted.length + more) := by
  rw [holds.prod, BitVec.ofNat_add]

theorem overrun_put (holds : s.Holds read) (c : Byte) : (s.put c).overrun = decide (s.occupancy = ringSize) := by
  have room := holds.room
  have order := holds.order
  have next := holds.prod_ofNat 1
  rw [ringSize] at room
  simp only [put, holds.sound, Bool.false_or]
  change decide (ringSize < (s.prod + BitVec.ofNat 32 1 - s.cons).toNat) = _
  rw [next, holds.cons, apart_ofNat (by omega) (by omega), holds.occupancy_eq]
  apply decide_eq_decide.mpr
  rw [ringSize]
  omega

theorem put (holds : s.Holds read) {c : Byte} (sound : (s.put c).overrun = false) :
    (s.put c).Holds read ∧ (s.put c).occupancy = s.occupancy + 1 := by
  have order := holds.order
  have count := holds.occupancy_eq
  have free : s.occupancy < ringSize := by
    rw [holds.overrun_put, decide_eq_false_iff_not] at sound
    exact Nat.lt_of_le_of_ne holds.occupancy_le sound
  have longer : (s.put c).accepted.length = s.accepted.length + 1 := by
    rw [Console.put, List.length_append, List.length_singleton]
  have later : (s.put c).Holds read :=
    { sound := sound
      prod := by
        rw [longer]
        exact holds.prod_ofNat 1
      cons := holds.cons
      order := by omega
      room := by omega
      held := by
        simp only [Console.put, holds.prod, mask_ofNat]
        exact holds.held.push (by omega) c }
  constructor
  · exact later
  · rw [later.occupancy_eq, count, longer]
    omega

theorem read_eq (holds : s.Holds read) (empty : s.cons = s.prod) : read = s.accepted.length := by
  have count := holds.occupancy_eq
  have order := holds.order
  rw [Console.occupancy, empty, BitVec.sub_self] at count
  change 0 = _ at count
  omega

theorem same {t : Console} (holds : s.Holds read) (ring : t.ring = s.ring) (cons : t.cons = s.cons)
    (prod : t.prod = s.prod) (accepted : t.accepted = s.accepted) (overrun : t.overrun = s.overrun) :
    t.Holds read where
  sound := overrun.trans holds.sound
  prod := by rw [prod, accepted, holds.prod]
  cons := cons.trans holds.cons
  order := accepted ▸ holds.order
  room := accepted ▸ holds.room
  held := by
    rw [ring, accepted]
    exact holds.held

/-- Everything up to a later point has been taken out of the ring. -/
theorem consume {t : Console} {later : Nat} (holds : s.Holds read) (order : read ≤ later)
    (bound : later ≤ s.accepted.length) (ring : t.ring = s.ring) (cons : t.cons = BitVec.ofNat 32 later)
    (prod : t.prod = s.prod) (accepted : t.accepted = s.accepted) (overrun : t.overrun = s.overrun) :
    t.Holds later where
  sound := overrun.trans holds.sound
  prod := by rw [prod, accepted, holds.prod]
  cons := cons
  order := accepted ▸ bound
  room := by
    have room := holds.room
    rw [accepted]
    omega
  held := by
    rw [ring, accepted]
    exact holds.held.later order

theorem transmit_eq (holds : s.Holds read) {sent turns : Nat} (order : read ≤ sent)
    (bound : sent + turns ≤ s.accepted.length) :
    transmit s.ring (BitVec.ofNat 32 sent) turns = (s.accepted.drop sent).take turns := by
  rw [transmit_ofNat]
  exact holds.held.collect order bound

end Console.Holds

namespace Console

theorem put_overrun {s : Console} (overrun : s.overrun = true) (c : Byte) : (s.put c).overrun = true := by
  simp [put, overrun]

theorem stageChar_overrun {s : Console} (overrun : s.overrun = true) (c : Byte) : (s.stageChar c).overrun = true := by
  rw [stageChar]
  split
  · exact overrun
  · split
    · exact put_overrun (put_overrun overrun cr) lf
    · exact put_overrun overrun c

theorem stage_overrun (text : List Byte) {s : Console} (overrun : s.overrun = true) :
    (stage text s).overrun = true := by
  induction text generalizing s with
  | nil => exact overrun
  | cons c rest ih =>
    rw [stage]
    split
    · exact ih (stageChar_overrun overrun c)
    · exact overrun

theorem stageChar_sound {s : Console} {c : Byte} {rest : List Byte}
    (sound : (stage rest (s.stageChar c)).overrun = false) : (s.stageChar c).overrun = false := by
  rw [← Bool.not_eq_true] at sound ⊢
  exact fun overrun => sound (stage_overrun rest overrun)

theorem stageChar_holds {s : Console} {read : Nat} {c : Byte} (holds : s.Holds read)
    (sound : (s.stageChar c).overrun = false) :
    (s.stageChar c).Holds read ∧ (s.stageChar c).occupancy = s.occupancy + (expandChar c).length := by
  rw [stageChar] at sound ⊢
  rw [expandChar]
  split at sound
  · rename_i isCr
    simp [isCr, holds]
  · rename_i notCr
    split at sound
    · rename_i isLf
      have first : (s.put cr).overrun = false := by
        rw [← Bool.not_eq_true] at sound ⊢
        exact fun overrun => sound (put_overrun overrun lf)
      obtain ⟨half, one⟩ := holds.put first
      obtain ⟨full, two⟩ := half.put sound
      rw [if_neg notCr, if_pos isLf, if_neg notCr, if_pos isLf]
      exact ⟨full, by rw [two, one]; rfl⟩
    · rename_i notLf
      rw [if_neg notCr, if_neg notLf, if_neg notCr, if_neg notLf]
      exact holds.put sound

theorem stage_holds {text : List Byte} {s : Console} {read : Nat} (holds : s.Holds read)
    (sound : (stage text s).overrun = false) : (stage text s).Holds read := by
  induction text generalizing s with
  | nil => exact holds
  | cons c rest ih =>
    rw [stage] at sound ⊢
    split at sound
    · rename_i more
      rw [if_pos more]
      exact ih (stageChar_holds holds (stageChar_sound sound)).1 sound
    · rename_i full
      rwa [if_neg full]

/-- `vprintk()` leaves the reader's side alone. -/
theorem stage_frame (text : List Byte) (s : Console) :
    (stage text s).cons = s.cons ∧ (stage text s).flush = s.flush ∧ (stage text s).pending = s.pending ∧
      (stage text s).written = s.written ∧ (stage text s).syncConsole = s.syncConsole := by
  induction text generalizing s with
  | nil => exact ⟨rfl, rfl, rfl, rfl, rfl⟩
  | cons c rest ih =>
    rw [stage]
    split
    · rw [stageChar]
      split
      · exact ih s
      · split
        · exact ih ((s.put cr).put lf)
        · exact ih (s.put c)
    · exact ⟨rfl, rfl, rfl, rfl, rfl⟩

/-- What is dropped of a text is its tail, and only when the ring is full. -/
theorem stage_accepted (text : List Byte) (s : Console) :
    ∃ kept dropped, text = kept ++ dropped ∧ (stage text s).accepted = s.accepted ++ expand kept ∧
      (dropped ≠ [] → (stage text s).occupancy = ringSize - 1) := by
  induction text generalizing s with
  | nil => exact ⟨[], [], rfl, by simp [stage, expand], by simp⟩
  | cons c rest ih =>
    rw [stage]
    split
    · obtain ⟨kept, dropped, split', taken, full⟩ := ih (s.stageChar c)
      refine ⟨c :: kept, dropped, by rw [split']; rfl, ?_, full⟩
      rw [taken, expand, expand, List.flatMap_cons, ← List.append_assoc]
      congr 1
      rw [stageChar, expandChar]
      split
      · simp
      · split <;> simp [put]
    · rename_i full
      refine ⟨[], c :: rest, rfl, by simp [expand], ?_⟩
      intro _
      rw [occupancy, Decidable.not_not.mp full]
      rfl

end Console

end Testjig.Serial
