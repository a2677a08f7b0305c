namespace Testjig.Board

inductive Bank where
  | a
  | b
  | c
  | f
deriving DecidableEq, Repr

structure PinMapping where
  pinId : Nat
  gpioBank : Bank
  gpioPin : Nat
deriving DecidableEq, Repr

/-- One bit per pin of each bank: the `odr` latches, or the `idr` levels. -/
abbrev Gpio := Bank → Nat → Bool

def outPins : List PinMapping :=
  [⟨8, .b, 6⟩, ⟨26, .b, 14⟩, ⟨28, .b, 13⟩, ⟨30, .b, 12⟩, ⟨34, .b, 0⟩]

def inPins : List PinMapping :=
  [⟨2, .b, 9⟩, ⟨4, .b, 8⟩, ⟨6, .b, 7⟩, ⟨10, .b, 5⟩, ⟨12, .b, 4⟩, ⟨14, .b, 3⟩, ⟨16, .a, 15⟩, ⟨18, .f, 7⟩,
    ⟨20, .f, 6⟩, ⟨22, .a, 8⟩, ⟨24, .b, 15⟩, ⟨32, .b, 2⟩, ⟨33, .b, 1⟩]

def gpioWritePin (odr : Gpio) (bank : Bank) (pin : Nat) (level : Bool) : Gpio :=
  fun port n => if port = bank ∧ n = pin then level else odr port n

/-- The latches `pins_init()` leaves: `GPI_floating` writes a 0, `GPO_opendrain(_2MHz, HIGH)` a 1. -/
def pinsInit (odr : Gpio) : Gpio :=
  let odr := inPins.foldl (fun odr ipin => gpioWritePin odr ipin.gpioBank ipin.gpioPin false) odr
  outPins.foldl (fun odr opin => gpioWritePin odr opin.gpioBank opin.gpioPin true) odr

def setPinmask (mask : BitVec 64) (odr : Gpio) : Gpio :=
  outPins.foldl (fun odr opin => gpioWritePin odr opin.gpioBank opin.gpioPin (mask.getLsbD opin.pinId)) odr

def readPinmask (idr : Gpio) : BitVec 64 :=
  inPins.foldl (fun mask ipin =>
    if idr ipin.gpioBank ipin.gpioPin then mask ||| 1#64 <<< ipin.pinId else mask) 0

theorem readPinmask_fold (idr : Gpio) (pins : List PinMapping) (mask : BitVec 64) {line : Nat} (bound : line < 64) :
    (pins.foldl (fun mask ipin =>
      if idr ipin.gpioBank ipin.gpioPin then mask ||| 1#64 <<< ipin.pinId else mask) mask).getLsbD line =
      (mask.getLsbD line || pins.any fun ipin => ipin.pinId = line ∧ idr ipin.gpioBank ipin.gpioPin) := by
  induction pins generalizing mask with
  | nil => simp
  | cons ipin rest ih =>
    rw [List.foldl_cons, ih, List.any_cons]
    by_cases high : idr ipin.gpioBank ipin.gpioPin
    · have bit : (1#64 <<< ipin.pinId).getLsbD line = decide (ipin.pinId = line) := by
        rw [Bool.eq_iff_iff, BitVec.getLsbD_shiftLeft, BitVec.getLsbD_one]
        simp only [bound, decide_true, Bool.true_and, Bool.and_eq_true, Bool.not_eq_true', decide_eq_true_iff,
          decide_eq_false_iff_not]
        omega
      rw [if_pos high, BitVec.getLsbD_or, bit]
      simp [high, Bool.or_assoc]
    · simp [high]

theorem readPinmask_input (idr : Gpio) {ipin : PinMapping} (listed : ipin ∈ inPins) :
    (readPinmask idr).getLsbD ipin.pinId = idr ipin.gpioBank ipin.gpioPin := by
  have small : ∀ pin ∈ inPins, pin.pinId < 64 := by decide
  have alone : ∀ pin ∈ inPins, ∀ other ∈ inPins, other.pinId = pin.pinId → other = pin := by decide
  rw [readPinmask, readPinmask_fold idr inPins 0 (small ipin listed)]
  cases level : idr ipin.gpioBank ipin.gpioPin with
  | true =>
    have found : inPins.any (fun pin => pin.pinId = ipin.pinId ∧ idr pin.gpioBank pin.gpioPin) = true :=
      List.any_eq_true.mpr ⟨ipin, listed, by simp [level]⟩
    rw [found, Bool.or_true]
  | false =>
    have none : inPins.any (fun pin => pin.pinId = ipin.pinId ∧ idr pin.gpioBank pin.gpioPin) = false := by
      rw [List.any_eq_false]
      intro pin member both
      rw [decide_eq_true_iff] at both
      rw [alone ipin listed pin member both.1, level] at both
      exact absurd both.2 (by simp)
    rw [none, Bool.or_false]
    exact BitVec.getLsbD_zero

theorem setPinmask_output (mask : BitVec 64) (odr : Gpio) {opin : PinMapping} (listed : opin ∈ outPins) :
    setPinmask mask odr opin.gpioBank opin.gpioPin = mask.getLsbD opin.pinId := by
  simp only [outPins, List.mem_cons, List.not_mem_nil, or_false] at listed
  rcases listed with rfl | rfl | rfl | rfl | rfl <;> simp [setPinmask, outPins, gpioWritePin]

theorem pinsInit_output (odr : Gpio) {opin : PinMapping} (listed : opin ∈ outPins) :
    pinsInit odr opin.gpioBank opin.gpioPin = true := by
  simp only [outPins, List.mem_cons, List.not_mem_nil, or_false] at listed
  rcases listed with rfl | rfl | rfl | rfl | rfl <;> simp [pinsInit, outPins, gpioWritePin]

end Testjig.Board
