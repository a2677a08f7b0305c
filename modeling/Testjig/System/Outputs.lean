import Testjig.Sequence.Transitions
import Testjig.Sequence.Wiring
import Testjig.System.Connection

namespace Testjig.System

open Machine Testjig.Sequence Testjig.Usb Testjig.Board

/-- The mask that the jig's output lines were last set to -/
def driven (m : Main) : BitVec 64 :=
  match m.state with
  | 0 | 1 | 2 | 3 | 4 | 5 | 6 => -1
  | 7 => if m.pinIter = 0 then -1 else onlyLow (outp.getD (m.pinIter - 1) 0)
  | 8 | 9 => onlyLow (outp.getD m.pinIter 0)
  | 10 => onlyLow (outp.getD 4 0)
  | n => if n < 20 then 0 else -1

def IsOutput (bank : Bank) (pin : Nat) : Prop := ∃ opin ∈ outPins, opin.gpioBank = bank ∧ opin.gpioPin = pin

theorem setPinmask_other (mask : BitVec 64) (odr : Gpio) {bank : Bank} {pin : Nat} (other : ¬ IsOutput bank pin) :
    setPinmask mask odr bank pin = odr bank pin := by
  have apart (opin : PinMapping) (listed : opin ∈ outPins) : ¬ (bank = opin.gpioBank ∧ pin = opin.gpioPin) := by
    rintro ⟨sameBank, samePin⟩
    exact other ⟨opin, listed, sameBank.symm, samePin.symm⟩
  simp only [setPinmask, outPins, List.foldl_cons, List.foldl_nil, gpioWritePin]
  rw [if_neg (apart ⟨34, .b, 0⟩ (by decide)), if_neg (apart ⟨30, .b, 12⟩ (by decide)),
    if_neg (apart ⟨28, .b, 13⟩ (by decide)), if_neg (apart ⟨26, .b, 14⟩ (by decide)),
    if_neg (apart ⟨8, .b, 6⟩ (by decide))]

theorem setPinmask_twice (first second : BitVec 64) (odr : Gpio) :
    setPinmask second (setPinmask first odr) = setPinmask second odr := by
  funext bank pin
  by_cases output : IsOutput bank pin
  · obtain ⟨opin, listed, rfl, rfl⟩ := output
    rw [setPinmask_output second _ listed, setPinmask_output second _ listed]
  · rw [setPinmask_other second _ output, setPinmask_other first _ output, setPinmask_other second _ output]

theorem setPinmask_init (latches : Gpio) : setPinmask (-1) (pinsInit latches) = pinsInit latches := by
  have high : ∀ opin ∈ outPins, (-1 : BitVec 64).getLsbD opin.pinId = true := by decide
  funext bank pin
  by_cases output : IsOutput bank pin
  · obtain ⟨opin, listed, rfl, rfl⟩ := output
    rw [setPinmask_output _ _ listed, pinsInit_output _ listed, high opin listed]
  · rw [setPinmask_other _ _ output]

structure Latched (latches : Gpio) (m : Main) : Prop where
  odr : m.odr = setPinmask (driven m) (pinsInit latches)
  staged : m.state < 20 ∧ Within m ∨ m.state = 20 ∨ m.state = 21

theorem driven_late {m : Main} (late : m.state = 20 ∨ m.state = 21) : driven m = -1 := by
  rcases late with state | state <;> simp [driven, state]

theorem tested_driven {m next : Main} {now : Time.TimeT} {base : Gpio} (within : Within m)
    (odr : m.odr = setPinmask (driven m) base) (tested : Tested m now next) :
    next.odr = setPinmask (driven next) base := by
  cases tested with
  | asks stage makes =>
    rw [makes.odr, odr]
    simp only [List.mem_cons, List.not_mem_nil, or_false] at stage
    rcases stage with state | state | state | state | state | state | state | state
    all_goals simp [driven, makes.state, makes.pinIter, state]
  | judges stage makes =>
    rw [makes.odr, odr]
    simp only [List.mem_cons, List.not_mem_nil, or_false] at stage
    rcases stage with state | state | state | state | state | state
    all_goals
      simp only [Within, state] at within
      simp [driven, makes.state, makes.pinIter, state, within]
  | assertIn iter outer pin stage moves makes | checkIn stage makes | leaveIn stage whole last makes =>
    rw [makes.odr, odr]
    simp [driven, makes.state, stage]
  | assertOut iter outer pin stage moves makes =>
    rw [makes.odr, odr, setPinmask_twice]
    simp only [driven, makes.state, makes.pinIter]
    rw [getD_of_getElem? moves.found]
  | checkOut stage makes =>
    rw [makes.odr, odr]
    simp [driven, makes.state, makes.pinIter, stage]
  | leaveOut stage whole last makes =>
    rw [makes.odr, odr]
    simp [driven, makes.state, stage, whole, outp]
  | assertAll stage makes =>
    rw [makes.odr, odr, setPinmask_twice]
    simp [driven, makes.state]
  | passes stage shown =>
    rw [shown]
    change setPinmask (-1) m.odr = _
    rw [odr, setPinmask_twice]
    rfl

theorem turned_latched {latches : Gpio} {m next : Main} {poll : Poll} (latched : Latched latches m)
    (turned : Turned m poll next) : Latched latches next := by
  obtain ⟨odr, staged⟩ := latched
  cases turned with
  | waits rspbuf cmdrsp call log same =>
    rw [same]
    exact ⟨odr, staged⟩
  | tests middle _ _ same ran =>
    have found : Latched latches middle := by
      obtain ⟨rspbuf, cmdrsp, rfl⟩ := same
      exact ⟨odr, staged⟩
    obtain ⟨odr, staged⟩ := found
    rcases staged with ⟨early, within⟩ | late
    · have tested := runState_tested early within ran
      refine ⟨tested_driven within odr tested, ?_⟩
      rcases tested_within within tested with passed | kept
      · exact .inr (.inl passed.1)
      · exact .inl kept
    · obtain ⟨state, same, _⟩ := runState_late late ran
      refine ⟨?_, .inr state⟩
      rw [same, driven_late state, ← driven_late late]
      exact odr

theorem iterate_latched {latches : Gpio} (input : Input) (s next : Sys) (latched : Latched latches s.main)
    (taken : iterate input s = .ok next) : Latched latches next.main := by
  obtain ⟨usb, main, _, ran, rfl⟩ := iterate_ok taken
  have seen : Latched latches (view s.main usb) := ⟨latched.odr, latched.staged⟩
  exact turned_latched seen (iterate_turned ran)

/-- The lines are all high, or only the one under test is low, or all of them are low on purpose. -/
inductive Levels (m : Main) : Prop where
  | high (mask : driven m = -1) (stage : m.state ≤ 7 ∨ 20 ≤ m.state)
  | one (pin : Nat) (listed : pin ∈ outp) (mask : driven m = onlyLow pin) (stage : 7 ≤ m.state ∧ m.state ≤ 10)
  | low (mask : driven m = 0) (stage : 11 ≤ m.state ∧ m.state < 20)

theorem outp_listed : ∀ iter < 5, outp.getD iter 0 ∈ outp := by decide

theorem driven_first {m : Main} (first : m.state ≤ 6) : driven m = -1 := by
  have states : m.state = 0 ∨ m.state = 1 ∨ m.state = 2 ∨ m.state = 3 ∨ m.state = 4 ∨ m.state = 5 ∨ m.state = 6 := by omega
  rcases states with state | state | state | state | state | state | state <;> simp [driven, state]

theorem driven_last {m : Main} (low : 11 ≤ m.state ∧ m.state < 20) : driven m = 0 := by
  unfold driven
  split <;> first | omega | simp [low.2]

theorem Latched.levels {latches : Gpio} {m : Main} (latched : Latched latches m) : Levels m := by
  rcases latched.staged with ⟨early, within⟩ | late
  · have states : m.state ≤ 6 ∨ m.state = 7 ∨ m.state = 8 ∨ m.state = 9 ∨ m.state = 10 ∨
        11 ≤ m.state ∧ m.state < 20 := by omega
    unfold Within at within
    rcases states with first | state | state | state | state | last
    · exact .high (driven_first first) (by omega)
    · simp only [state] at within
      have length : outp.length = 5 := rfl
      by_cases start : m.pinIter = 0
      · exact .high (by simp [driven, state, start]) (by omega)
      · exact .one _ (outp_listed (m.pinIter - 1) (by omega)) (by simp [driven, state, start]) (by omega)
    · simp only [state] at within
      exact .one _ (outp_listed m.pinIter within.1) (by simp [driven, state]) (by omega)
    · simp only [state] at within
      exact .one _ (outp_listed m.pinIter within.1) (by simp [driven, state]) (by omega)
    · exact .one _ (outp_listed 4 (by decide)) (by simp [driven, state]) (by omega)
    · exact .low (driven_last last) last
  · exact .high (driven_late late) (by omega)

theorem outPins_outp {opin : PinMapping} (listed : opin ∈ outPins) : opin.pinId ∈ outp := by
  revert opin
  decide

/-- The jig's output lines are as the state has them; at most one of them is low at a time, and only while the lines are
tested one by one, but for the test of all of them; and they are high when the sequence begins and from PASS on. -/
theorem outputs_driven (latches : Gpio) (inputs : List Input) (s : Sys)
    (run : exec iterate inputs (powerOn latches) = .ok s) :
    (∀ opin ∈ outPins, s.main.odr opin.gpioBank opin.gpioPin = (driven s.main).getLsbD opin.pinId) ∧
    (∀ opin ∈ outPins, ∀ other ∈ outPins, s.main.odr opin.gpioBank opin.gpioPin = false →
      s.main.odr other.gpioBank other.gpioPin = false →
      opin.pinId = other.pinId ∧ 7 ≤ s.main.state ∨ 11 ≤ s.main.state) ∧
    (s.main.state < 7 ∨ 20 ≤ s.main.state → ∀ opin ∈ outPins, s.main.odr opin.gpioBank opin.gpioPin = true) := by
  have initial : Latched latches (powerOn latches).main := ⟨(setPinmask_init latches).symm, .inl ⟨Nat.succ_pos 19, rfl, rfl⟩⟩
  have latched : Latched latches s.main := exec_invariant iterate_latched initial run
  have level (opin : PinMapping) (listed : opin ∈ outPins) :
      s.main.odr opin.gpioBank opin.gpioPin = (driven s.main).getLsbD opin.pinId := by
    rw [latched.odr]
    exact setPinmask_output _ _ listed
  have high : ∀ opin ∈ outPins, (-1 : BitVec 64).getLsbD opin.pinId = true := by decide
  refine ⟨level, fun opin listed other listed' low low' => ?_, fun ends opin listed => ?_⟩
  · rw [level opin listed] at low
    rw [level other listed'] at low'
    cases latched.levels with
    | high mask =>
      rw [mask, high opin listed] at low
      cases low
    | one pin pinListed mask stage =>
      rw [mask, onlyLow_level pin pinListed _ (outPins_outp listed)] at low
      rw [mask, onlyLow_level pin pinListed _ (outPins_outp listed')] at low'
      simp only [ne_eq, decide_not, Bool.not_eq_false', decide_eq_true_iff] at low low'
      exact .inl ⟨low.trans low'.symm, stage.1⟩
    | low mask stage => exact .inr stage.1
  · rw [level opin listed]
    cases latched.levels with
    | high mask =>
      rw [mask]
      exact high opin listed
    | one _ _ _ stage => omega
    | low _ stage => omega

/-- The jig's input lines, of which at most the given one is low -/
def inputLines (low : Option Nat) : Gpio := fun bank pin =>
  !inPins.any fun ipin => ipin.gpioBank = bank ∧ ipin.gpioPin = pin ∧ some ipin.pinId = low

def beside (low : Option Nat) (irqs : List Irq) : Input :=
  let input := (calm (turnAfter irqs)).input
  { input with reading.idr := inputLines low }

def replied (packet : List Nat) : List Input :=
  [[], transferDone 2, [], lastPacket 3 packet].map (beside none)

/-- The iterations in which a command is sent and replied to, and the lines are checked -/
def checkedLines (low : Option Nat) : List Input :=
  beside none [] :: replied (List.replicate sizeofRsp 255) ++ [beside low []]

/-- A board without faults, up to the test of the first output line -/
def toOutputs : List Input :=
  (firstCommand 2 64).map Schedule.input ++ replied (List.replicate 34 255) ++ [beside none [], beside none []] ++
    replied (testmodersp.map BitVec.toNat) ++ (List.replicate 12 inp).flatten.flatMap (fun pin => checkedLines (some pin)) ++
    [beside none []] ++ checkedLines none ++ [beside none []]

theorem outputs_driven_one : ∃ s, exec iterate toOutputs (powerOn fun _ _ => false) = .ok s ∧
    s.main.state = 8 ∧ ∀ opin ∈ outPins, s.main.odr opin.gpioBank opin.gpioPin = true ↔ opin.pinId ≠ 8 := by
  obtain ⟨s, run, checked⟩ := exists_of_succeedsWith (fun s : Sys => s.main.state = 8 ∧ s.main.pinIter = 0)
    (exec iterate toOutputs (powerOn fun _ _ => false)) (by decide +kernel)
  obtain ⟨state, first⟩ : s.main.state = 8 ∧ s.main.pinIter = 0 := of_decide_eq_true checked
  have low : driven s.main = onlyLow 8 := by simp [driven, state, first, outp]
  have levels : ∀ opin ∈ outPins, (onlyLow 8).getLsbD opin.pinId = true ↔ opin.pinId ≠ 8 := by decide
  refine ⟨s, run, state, fun opin listed => ?_⟩
  rw [(outputs_driven _ _ s run).1 opin listed, low]
  exact levels opin listed

end Testjig.System
