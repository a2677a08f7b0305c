namespace Machine.Shift

variable {w : Nat}

/-- Two lines that the host drives, and a register at their other end. `edges` counts the rising edges of CLK. -/
structure Bus (w : Nat) where
  clk : Bool
  dat : Bool
  register : BitVec w
  edges : Nat
deriving DecidableEq, Repr

def Bus.setDat (level : Bool) (bus : Bus w) : Bus w := { bus with dat := level }

/-- At a rising edge the register moves up by one place, and DAT comes in at its low end. -/
def Bus.setClk (level : Bool) (bus : Bus w) : Bus w :=
  if level && !bus.clk then
    { bus with clk := level, register := bus.register.shiftConcat bus.dat, edges := bus.edges + 1 }
  else { bus with clk := level }

/-- A bit that is put on DAT while CLK is low is taken in once. -/
theorem pulse (bit : Bool) (bus : Bus w) :
    ((bus.setClk false).setDat bit).setClk true =
      { clk := true, dat := bit, register := bus.register.shiftConcat bit, edges := bus.edges + 1 } := rfl

/-- The register after so many top bits of a word -/
def takeIn : Nat → BitVec w → BitVec w → BitVec w
  | 0, _, register => register
  | left + 1, x, register => takeIn left (x <<< 1) (register.shiftConcat x.msb)

theorem takeIn_bit (count : Nat) (x register : BitVec w) {i : Nat} (inside : i < w) :
    (takeIn count x register).getLsbD i =
      if i < count then x.getMsbD (count - 1 - i) else register.getLsbD (i - count) := by
  induction count generalizing x register with
  | zero => rfl
  | succ count ih =>
    rw [takeIn, ih]
    by_cases fed : i < count
    · have index : count - 1 - i + 1 = count + 1 - 1 - i := by omega
      rw [if_pos fed, if_pos (by omega), BitVec.getMsbD_shiftLeft, index]
    · have bound : i - count < w := by omega
      rw [if_neg fed, BitVec.getLsbD_shiftConcat, decide_eq_true bound, Bool.true_and]
      by_cases last : i - count = 0
      · have first : count + 1 - 1 - i = 0 := by omega
        rw [if_pos last, if_pos (by omega), first, BitVec.msb_eq_getMsbD_zero]
      · rw [if_neg last, if_neg (by omega), Nat.sub_sub]

/-- A word as wide as the register replaces whatever was there. -/
theorem takeIn_all (x register : BitVec w) : takeIn w x register = x := by
  apply BitVec.eq_of_getLsbD_eq
  intro i inside
  have top : w - 1 - i < w := by omega
  have mirrored : w - 1 - (w - 1 - i) = i := by omega
  rw [takeIn_bit w x register inside, if_pos inside, BitVec.getMsbD_eq_getLsbD, decide_eq_true top, Bool.true_and,
    mirrored]

end Machine.Shift
