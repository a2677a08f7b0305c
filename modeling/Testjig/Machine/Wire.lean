import Mathlib.Data.List.Basic

namespace Machine.Wire

structure Lines where
  clk : Bool
  dat : Bool
deriving DecidableEq, Repr

/-- What a change of the levels says: a start and a stop are changes of DAT while CLK is high. -/
inductive Edge where
  | start
  | stop
  | rise (dat : Bool)
  | fall
  | quiet
deriving DecidableEq, Repr

def edge (before after : Lines) : Edge :=
  match before.clk, after.clk with
  | true, false => .fall
  | false, true => .rise after.dat
  | false, false => .quiet
  | true, true =>
    if before.dat = after.dat then .quiet
    else if after.dat then .stop
    else .start

/-- How a byte is answered: DAT is left alone, or pulled low until its acknowledge clock rises or falls again. -/
inductive Answer where
  | refuse
  | untilRise
  | untilFall
deriving DecidableEq, Repr

def Answer.acknowledges : Answer → Bool
  | .refuse => false
  | .untilRise | .untilFall => true

def Answer.outlasts : Answer → Bool
  | .refuse | .untilRise => false
  | .untilFall => true

/-- The bytes of a transaction, each with whether it was acknowledged -/
abbrev Transaction := List (BitVec 8 × Bool)

/-- The chip at the other end: `current` holds the bytes and the bits of an open transaction. -/
structure Chip where
  answers : Nat → Answer
  given : Nat
  current : Option (Transaction × List Bool)
  complete : List Transaction
  wants : Bool
  pulls : Bool

/-- Eight samples, least significant bit first -/
def byteOf (bits : List Bool) : BitVec 8 := (BitVec.ofBoolListLE bits).setWidth 8

def Chip.answer (chip : Chip) : Answer := chip.answers chip.given

def Chip.see (chip : Chip) : Edge → Chip
  | .start => { chip with current := some ([], []) }
  | .stop =>
    match chip.current with
    | none => chip
    -- the bits of an incomplete byte are dropped
    | some (bytes, _) => { chip with current := none, complete := chip.complete ++ [bytes] }
  | .rise dat =>
    match chip.current with
    | none => chip
    | some (bytes, bits) =>
      if bits.length < 8 then { chip with current := some (bytes, bits ++ [dat]) }
      else
        { chip with
          current := some (bytes ++ [(byteOf bits, chip.answer.acknowledges)], [])
          given := chip.given + 1
          wants := chip.answer.outlasts }
  | .fall =>
    match chip.current with
    | none => chip
    | some (_, bits) => { chip with wants := bits.length = 8 ∧ chip.answer.acknowledges }
  | .quiet => chip

/-- `clk` and `dat` say which lines the host leaves to their pull-ups; `moves` are the changes of DAT while CLK was high. -/
structure Bus where
  clk : Bool
  dat : Bool
  chip : Chip
  moves : List Edge

/-- Each line is low when either end pulls it low. -/
def Bus.lines (bus : Bus) : Lines := ⟨bus.clk, bus.dat && !bus.chip.pulls⟩

def Edge.moves : Edge → List Edge
  | .start => [.start]
  | .stop => [.stop]
  | _ => []

def Bus.notice (before : Lines) (bus : Bus) : Bus :=
  let change := edge before bus.lines
  { bus with chip := bus.chip.see change, moves := bus.moves ++ change.moves }

def Bus.setClk (level : Bool) (bus : Bus) : Bus := Bus.notice bus.lines { bus with clk := level }

def Bus.setDat (level : Bool) (bus : Bus) : Bus := Bus.notice bus.lines { bus with dat := level }

/-- The chip pulls DAT as it wants to in the first delay after the edge it answers. -/
def Bus.wait (us : Nat) (bus : Bus) : Bus :=
  if us = 0 then bus
  else Bus.notice bus.lines { bus with chip := { bus.chip with pulls := bus.chip.wants } }

def Bus.resting (answers : Nat → Answer) : Bus :=
  { clk := true
    dat := true
    chip := { answers := answers, given := 0, current := none, complete := [], wants := false, pulls := false }
    moves := [] }

section

variable {bus : Bus}

theorem setClk_fall (high : bus.clk = true) :
    bus.setClk false = { bus with clk := false, chip := bus.chip.see .fall } := by
  simp [Bus.setClk, Bus.notice, Bus.lines, edge, high, Edge.moves]

theorem setClk_rise (low : bus.clk = false) :
    bus.setClk true = { bus with clk := true, chip := bus.chip.see (.rise bus.lines.dat) } := by
  simp [Bus.setClk, Bus.notice, Bus.lines, edge, low, Edge.moves]

theorem setDat_low (low : bus.clk = false) (level : Bool) : bus.setDat level = { bus with dat := level } := by
  simp [Bus.setDat, Bus.notice, Bus.lines, edge, low, Edge.moves, Chip.see]

theorem wait_follows (still : bus.clk = false ∨ bus.dat = false ∨ bus.chip.wants = bus.chip.pulls) {us : Nat}
    (time : us ≠ 0) : bus.wait us = { bus with chip := { bus.chip with pulls := bus.chip.wants } } := by
  have unmoved : edge bus.lines (Bus.lines { bus with chip := { bus.chip with pulls := bus.chip.wants } }) = .quiet := by
    cases clk : bus.clk with
    | false => simp [edge, Bus.lines, clk]
    | true =>
      rw [clk] at still
      rcases still with low | released | same
      · cases low
      · simp [edge, Bus.lines, clk, released]
      · simp [edge, Bus.lines, clk, same]
  rw [Bus.wait, if_neg time, Bus.notice, unmoved]
  simp [Edge.moves, Chip.see]

/-- The chip after a byte and its acknowledge clock -/
def Chip.took (chip : Chip) (done : Transaction) (x : BitVec 8) : Chip :=
  { chip with
    current := some (done ++ [(x, chip.answer.acknowledges)], [])
    given := chip.given + 1
    wants := chip.answer.outlasts
    pulls := chip.answer.outlasts }

theorem setDat_start (high : bus.clk = true) (left : bus.dat = true) (released : bus.chip.pulls = false) :
    bus.setDat false =
      { bus with dat := false, chip := bus.chip.see .start, moves := bus.moves ++ [.start] } := by
  simp [Bus.setDat, Bus.notice, Bus.lines, edge, high, left, released, Edge.moves]

theorem setDat_stop (high : bus.clk = true) (pulled : bus.dat = false) (released : bus.chip.pulls = false) :
    bus.setDat true = { bus with dat := true, chip := bus.chip.see .stop, moves := bus.moves ++ [.stop] } := by
  simp [Bus.setDat, Bus.notice, Bus.lines, edge, high, pulled, released, Edge.moves]

theorem setDat_release (closed : bus.chip.current = none) (released : bus.chip.pulls = false) :
    (bus.setDat true).dat = true ∧ (bus.setDat true).chip = bus.chip := by
  cases clk : bus.clk <;> cases dat : bus.dat <;>
    simp [Bus.setDat, Bus.notice, Bus.lines, edge, Chip.see, clk, dat, closed, released]

theorem setClk_release (closed : bus.chip.current = none) :
    (bus.setClk true).clk = true ∧ (bus.setClk true).dat = bus.dat ∧ (bus.setClk true).chip = bus.chip := by
  cases clk : bus.clk <;> simp [Bus.setClk, Bus.notice, Bus.lines, edge, Chip.see, clk, closed]

end

end Machine.Wire
