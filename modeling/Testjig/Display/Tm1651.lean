import Mathlib.Algebra.Order.Ring.Int
import Testjig.Machine.Wire

namespace Testjig.Display

open Machine.Wire

/-- `CYCLE`, in microseconds -/
def cycle : Nat := 8

inductive Pin where
  | dat
  | clk
deriving DecidableEq, Repr

/-- A pin set high is an input and leaves its line to the pull-up; one set low is an open drain that pulls it low. -/
def tm1651SetPin (pin : Pin) (level : Bool) (bus : Bus) : Bus :=
  match pin with
  | .dat => bus.setDat level
  | .clk => bus.setClk level

def tm1651SetDat (level : Bool) (bus : Bus) : Bus := tm1651SetPin .dat level bus

def tm1651SetClk (level : Bool) (bus : Bus) : Bus := tm1651SetPin .clk level bus

def delayUs (us : Nat) (bus : Bus) : Bus := bus.wait us

/-- One turn of the loop in `tm1651_write()` -/
def tm1651WriteBit (y : BitVec 16) (fail : Bool) (bus : Bus) : Bool × Bus :=
  let bus := tm1651SetClk false bus
  let bus := delayUs (cycle / 4) bus
  let bus := tm1651SetDat (y &&& 1 != 0) bus
  let bus := delayUs (cycle / 8) bus
  let (fail, bus) :=
    if y = 1 then (bus.lines.dat, tm1651SetDat false bus)
    else (fail, bus)
  let bus := delayUs (cycle / 8) bus
  let bus := tm1651SetClk true bus
  let bus := delayUs (cycle / 2) bus
  (fail, bus)

def tm1651WriteLoop (y : BitVec 16) (fail : Bool) (bus : Bus) : Bool × Bus :=
  let (fail, bus) := tm1651WriteBit y fail bus
  if y >>> 1 = 0 then (fail, bus)
  else tm1651WriteLoop (y >>> 1) fail bus
termination_by y.toNat
decreasing_by
  rename_i more
  have nonzero : (y >>> 1).toNat ≠ 0 := by
    intro zero
    exact more (BitVec.eq_of_toNat_eq zero)
  rw [BitVec.toNat_ushiftRight, Nat.shiftRight_eq_div_pow] at nonzero ⊢
  omega

def tm1651Write (x : BitVec 8) (bus : Bus) : Bool × Bus :=
  tm1651WriteLoop (x.setWidth 16 ||| 0x100) false bus

def tm1651Start (bus : Bus) : Bus :=
  let bus := tm1651SetClk false bus
  let bus := delayUs (cycle / 2) bus
  let bus := tm1651SetClk true bus
  let bus := delayUs (cycle / 4) bus
  let bus := tm1651SetDat false bus
  delayUs (cycle / 4) bus

def tm1651Stop (bus : Bus) : Bus :=
  let bus := tm1651SetClk false bus
  let bus := delayUs (cycle / 2) bus
  let bus := tm1651SetClk true bus
  let bus := delayUs (cycle / 4) bus
  let bus := tm1651SetDat true bus
  delayUs (cycle / 4) bus

/-- The `for (retry = 0; fail && (retry < 3); retry++)` of both commands, with the turns left -/
def tm1651Retry (body : Bus → Bool × Bus) : Nat → Bool → Bus → Bool × Bus
  | 0, fail, bus => (fail, bus)
  | left + 1, fail, bus =>
    if fail then
      let (fail, bus) := body (tm1651Start bus)
      tm1651Retry body left fail (tm1651Stop bus)
    else (fail, bus)

def tm1651SendCmd (cmd : BitVec 8) (bus : Bus) : Bool × Bus := tm1651Retry (tm1651Write cmd) 3 true bus

/-- The `||` of two writes: the second is not made when the first fails. -/
def orElse (first second : Bus → Bool × Bus) (bus : Bus) : Bool × Bus :=
  let (fail, bus) := first bus
  if fail then (true, bus)
  else second bus

def tm1651UpdateDisplay (d : Fin 3 → BitVec 8) (bus : Bus) : Bus :=
  (tm1651Retry
    (orElse (tm1651Write 0xc0)
      (orElse (tm1651Write (d 0))
        (orElse (tm1651Write (d 1))
          (orElse (tm1651Write (d 2))
            (tm1651Write 0x00))))) 3 true bus).2

def tm1651Init (bus : Bus) : Bool × Bus :=
  let bus := tm1651SetDat true bus
  let bus := tm1651SetClk true bus
  tm1651SendCmd 0x40 bus

section

variable {bus : Bus} {done : Transaction} {bits : List Bool}

theorem write_data {y : BitVec 16} {fail : Bool} (high : bus.clk = true)
    (opened : bus.chip.current = some (done, bits)) (room : bits.length < 8) (more : y ≠ 1) :
    tm1651WriteBit y fail bus = (fail,
      { bus with
        dat := y &&& 1 != 0
        chip := { bus.chip with current := some (done, bits ++ [y &&& 1 != 0]), wants := false, pulls := false } }) := by
  have short : bits.length ≠ 8 := by omega
  have fallen : bus.chip.see .fall = { bus.chip with wants := false } := by
    simp [Chip.see, opened, short]
  simp only [tm1651WriteBit, tm1651SetClk, tm1651SetDat, tm1651SetPin, delayUs, if_neg more]
  -- CLK falls and rises once, and DAT moves only in between
  simp (disch := first | decide | simp [Chip.see, opened, room, high]) only
    [setClk_fall, fallen, wait_follows, setDat_low, setClk_rise]
  simp [Chip.see, opened, room, Bus.lines, high]

theorem write_ack {fail : Bool} (high : bus.clk = true) (opened : bus.chip.current = some (done, bits))
    (full : bits.length = 8) :
    tm1651WriteBit 1 fail bus = (!bus.chip.answer.acknowledges,
      { bus with dat := false, chip := bus.chip.took done (byteOf bits) }) := by
  have fallen : bus.chip.see .fall = { bus.chip with wants := bus.chip.answer.acknowledges } := by
    simp [Chip.see, opened, full]
  simp only [tm1651WriteBit, tm1651SetClk, tm1651SetDat, tm1651SetPin, delayUs, if_true]
  -- the line is read while the chip pulls, and is low at the rise of CLK whatever the chip does then
  simp (disch := first | decide | simp [high]) only
    [setClk_fall, fallen, wait_follows, setDat_low, setClk_rise]
  simp [Chip.see, Chip.took, Chip.answer, opened, full, Bus.lines, high]

theorem start_opens (high : bus.clk = true) (left : bus.dat = true) (closed : bus.chip.current = none)
    (idle : bus.chip.wants = false) (released : bus.chip.pulls = false) :
    tm1651Start bus =
      { bus with dat := false, chip := { bus.chip with current := some ([], []) }, moves := bus.moves ++ [.start] } := by
  simp only [tm1651Start, tm1651SetClk, tm1651SetDat, tm1651SetPin, delayUs]
  simp (disch := first | decide | simp [Chip.see, high, left, closed, idle, released]) only
    [setClk_fall, wait_follows, setClk_rise, setDat_start]
  simp [Chip.see, closed, idle, released, high]

theorem stop_closes (high : bus.clk = true) (pulled : bus.dat = false) (opened : bus.chip.current = some (done, [])) :
    tm1651Stop bus =
      { bus with
        dat := true
        chip :=
          { bus.chip with current := none, complete := bus.chip.complete ++ [done], wants := false, pulls := false }
        moves := bus.moves ++ [.stop] } := by
  simp only [tm1651Stop, tm1651SetClk, tm1651SetDat, tm1651SetPin, delayUs]
  simp (disch := first | decide | simp [Chip.see, high, pulled, opened]) only
    [setClk_fall, wait_follows, setClk_rise, setDat_stop]
  simp [Chip.see, opened, high]

def shifted (x : BitVec 8) (k : Nat) : BitVec 16 := (x.setWidth 16 ||| 0x100) >>> k

theorem shifted_toNat (x : BitVec 8) (k : Nat) : (shifted x k).toNat = (256 + x.toNat) / 2^k := by
  have small := x.isLt
  have joined : 256 + x.toNat = 256 ||| x.toNat := Nat.two_pow_add_eq_or_of_lt small 1
  rw [shifted, BitVec.toNat_ushiftRight, Nat.shiftRight_eq_div_pow, BitVec.toNat_or, BitVec.toNat_setWidth,
    Nat.mod_eq_of_lt (by omega), joined, Nat.or_comm]
  rfl

theorem shifted_next (x : BitVec 8) (k : Nat) : shifted x k >>> 1 = shifted x (k + 1) := by
  rw [shifted, shifted, BitVec.shiftRight_add]

theorem shifted_least (x : BitVec 8) {k : Nat} (left : k ≤ 8) : 2^(8 - k) ≤ (shifted x k).toNat := by
  have whole : 2^(8 - k) * 2^k = 256 := by
    rw [← Nat.pow_add, Nat.sub_add_cancel left]
  rw [shifted_toNat, Nat.le_div_iff_mul_le (Nat.two_pow_pos k), whole]
  omega

theorem shifted_long (x : BitVec 8) {k : Nat} (left : k < 8) : shifted x k ≠ 1 := by
  intro same
  have least := shifted_least x (Nat.le_of_lt left)
  have two : 2^1 ≤ 2^(8 - k) := Nat.pow_le_pow_right (by omega) (by omega)
  have one : BitVec.toNat (1 : BitVec 16) = 1 := rfl
  rw [same, one] at least
  omega

theorem shifted_nonzero (x : BitVec 8) {k : Nat} (left : k ≤ 8) : shifted x k ≠ 0 := by
  intro same
  have least := shifted_least x left
  have positive := Nat.two_pow_pos (8 - k)
  have zero : BitVec.toNat (0 : BitVec 16) = 0 := rfl
  rw [same, zero] at least
  omega

theorem shifted_last (x : BitVec 8) : shifted x 8 = 1 := by
  apply BitVec.eq_of_toNat_eq
  rw [shifted_toNat]
  have small := x.isLt
  have one : BitVec.toNat (1 : BitVec 16) = 1 := rfl
  omega

theorem shifted_bit (x : BitVec 8) {k : Nat} (left : k < 8) : (shifted x k &&& 1 != 0) = x.getLsbD k := by
  have inside : k < 16 := by omega
  have marker : (0x100 : BitVec 16).getLsbD k = false := by
    have apart : ¬ 8 = k := by omega
    have power : (0x100 : BitVec 16) = BitVec.twoPow 16 8 := rfl
    rw [power, BitVec.getLsbD_twoPow, decide_eq_false apart, Bool.and_false]
  have lowest : (shifted x k).getLsbD 0 = x.getLsbD k := by
    rw [shifted, BitVec.getLsbD_ushiftRight, Nat.add_zero, BitVec.getLsbD_or, marker, Bool.or_false,
      BitVec.getLsbD_setWidth, decide_eq_true inside, Bool.true_and]
  have one : (1 : BitVec 16) = 1#16 := rfl
  rw [← lowest, one, BitVec.and_one_eq_setWidth_ofBool_getLsbD]
  cases (shifted x k).getLsbD 0 <;> rfl

def lowBits (x : BitVec 8) (k : Nat) : List Bool := (List.range k).map fun i => x.getLsbD i

theorem byteOf_bits (x : BitVec 8) : byteOf (lowBits x 8) = x := by
  apply BitVec.eq_of_getLsbD_eq
  intro i bound
  rw [byteOf, BitVec.getLsbD_setWidth, BitVec.getLsbD_ofBoolListLE]
  simp [lowBits, bound]

theorem write_rest (x : BitVec 8) (turns k : Nat) (count : k + turns = 8) {fail : Bool} (bus : Bus)
    (high : bus.clk = true) (opened : bus.chip.current = some (done, lowBits x k)) :
    tm1651WriteLoop (shifted x k) fail bus = (!bus.chip.answer.acknowledges,
      { bus with dat := false, chip := bus.chip.took done x }) := by
  induction turns generalizing k fail bus with
  | zero =>
    have last : k = 8 := by omega
    subst last
    rw [tm1651WriteLoop, shifted_last, write_ack high opened (by simp [lowBits]), byteOf_bits]
    rfl
  | succ turns ih =>
    have left : k < 8 := by omega
    have grown : lowBits x k ++ [x.getLsbD k] = lowBits x (k + 1) := by
      simp [lowBits, List.range_succ]
    rw [tm1651WriteLoop, write_data high opened (by simp [lowBits, left]) (shifted_long x left)]
    dsimp only
    rw [shifted_next, if_neg (shifted_nonzero x (by omega)), shifted_bit x left, grown]
    exact ih (k + 1) (by omega) _ high rfl

theorem write_sends (x : BitVec 8) (high : bus.clk = true) (opened : bus.chip.current = some (done, [])) :
    tm1651Write x bus = (!bus.chip.answer.acknowledges,
      { bus with dat := false, chip := bus.chip.took done x }) := by
  exact write_rest x 8 0 (Nat.zero_add 8) bus high opened

end

end Testjig.Display
