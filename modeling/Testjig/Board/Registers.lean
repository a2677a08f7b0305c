import Mathlib.Logic.Function.Basic
import Testjig.Board.Pins

namespace Machine.BitField

variable {w k : Nat}

/-- Field `i` of a register whose fields are `k` bits wide -/
def get (k : Nat) (register : BitVec w) (i : Nat) : BitVec k := register.extractLsb' (k * i) k

def put (register : BitVec w) (i : Nat) (value : BitVec k) : BitVec w :=
  register &&& ~~~((BitVec.allOnes k).setWidth w <<< (k * i)) ||| value.setWidth w <<< (k * i)

theorem get_put_self (register : BitVec w) {i : Nat} (value : BitVec k) (fits : k * (i + 1) ≤ w) :
    get k (put register i value) i = value := by
  rw [Nat.mul_succ] at fits
  ext bit bound
  have inside : k * i + bit < w := by omega
  have above : ¬ k * i + bit < k * i := by omega
  simp [get, put, inside, bound, above]

theorem get_put_other (register : BitVec w) {i j : Nat} (value : BitVec k) (other : j ≠ i) :
    get k (put register i value) j = get k register j := by
  ext bit bound
  have apart : k * j + bit < k * i ∨ k ≤ k * j + bit - k * i ∧ k * i ≤ k * j + bit := by
    rcases Nat.lt_or_gt_of_ne other with below | above
    · have gap := Nat.mul_le_mul_left k below
      rw [Nat.mul_succ] at gap
      omega
    · have gap := Nat.mul_le_mul_left k above
      rw [Nat.mul_succ] at gap
      omega
  simp only [get, put, BitVec.getElem_extractLsb', BitVec.getLsbD_or, BitVec.getLsbD_and, BitVec.getLsbD_not,
    BitVec.getLsbD_shiftLeft, BitVec.getLsbD_setWidth, BitVec.getLsbD_allOnes]
  by_cases inside : k * j + bit < w
  · rcases apart with low | high
    · simp [inside, low]
    · have empty := BitVec.getLsbD_of_ge value (k * j + bit - k * i) high.1
      simp [inside, empty, Nat.not_lt.mpr high.1]
  · have outside := BitVec.getLsbD_of_ge register (k * j + bit) (Nat.not_lt.mp inside)
    simp [inside, outside]

end Machine.BitField

namespace Testjig.Board

open Machine

/-- `struct gpio`, as far as the firmware writes it -/
structure GpioPort where
  crl : BitVec 32
  crh : BitVec 32
  odr : BitVec 32

namespace GpioPort

variable {pin other : Nat}

/-- A write to BSRR: the low half sets bits of ODR, the high half resets others. -/
def writeBsrr (gpio : GpioPort) (bsrr : BitVec 32) : GpioPort :=
  { gpio with odr := gpio.odr &&& ~~~(bsrr >>> 16) ||| bsrr &&& 0xffff }

def writePin (gpio : GpioPort) (pin : Nat) (level : Bool) : GpioPort :=
  gpio.writeBsrr (((if level then 0x1 else 0x10000) : BitVec 32) <<< pin)

/-- The second register write of `gpio_configure_pin()` -/
def writeMode (gpio : GpioPort) (pin : Nat) (mode : BitVec 32) : GpioPort :=
  let mode := mode &&& 0xf
  if 8 ≤ pin then
    let pin := pin - 8
    { gpio with crh := gpio.crh &&& ~~~(0xf#32 <<< (pin <<< 2)) ||| mode <<< (pin <<< 2) }
  else { gpio with crl := gpio.crl &&& ~~~(0xf#32 <<< (pin <<< 2)) ||| mode <<< (pin <<< 2) }

def mode (gpio : GpioPort) (pin : Nat) : BitVec 4 :=
  if 8 ≤ pin then BitField.get 4 gpio.crh (pin - 8) else BitField.get 4 gpio.crl pin

def level (gpio : GpioPort) (pin : Nat) : Bool := gpio.odr.getLsbD pin

theorem writePin_mode (gpio : GpioPort) (pin other : Nat) (level : Bool) :
    (gpio.writePin pin level).mode other = gpio.mode other := rfl

theorem writeMode_level (gpio : GpioPort) (pin other : Nat) (mode : BitVec 32) :
    (gpio.writeMode pin mode).level other = gpio.level other := by
  rw [writeMode]
  dsimp only
  split <;> rfl

theorem bsrr_bit (pin : Nat) (level : Bool) {bit : Nat} (small : bit < 32) :
    (((if level then 0x1 else 0x10000) : BitVec 32) <<< pin).getLsbD bit =
      decide (bit = pin + if level then 0 else 16) := by
  have one : (0x1 : BitVec 32) = BitVec.twoPow 32 0 := rfl
  have high : (0x10000 : BitVec 32) = BitVec.twoPow 32 16 := rfl
  rw [Bool.eq_iff_iff]
  cases level <;> simp [one, high, small] <;> omega

theorem half_bit (inside : pin < 16) : (0xffff : BitVec 32).getLsbD pin = true := by
  have halves : (0xffff : BitVec 32) = (BitVec.allOnes 16).setWidth 32 := rfl
  rw [halves, BitVec.getLsbD_setWidth, BitVec.getLsbD_allOnes]
  simp only [inside, show pin < 32 by omega, decide_true, Bool.and_self]

theorem writePin_level (gpio : GpioPort) (value : Bool) (inside : pin < 16) (within : other < 16) :
    (gpio.writePin pin value).level other = if other = pin then value else gpio.level other := by
  have set := bsrr_bit pin value (show other < 32 by omega)
  have reset := bsrr_bit pin value (show 16 + other < 32 by omega)
  rw [level, writePin, writeBsrr, BitVec.getLsbD_or, BitVec.getLsbD_and, BitVec.getLsbD_and, BitVec.getLsbD_not,
    BitVec.getLsbD_ushiftRight, set, reset, half_bit within]
  by_cases same : other = pin
  · subst same
    cases value with
    | true => simp [show other < 32 by omega]
    | false => simp [show other < 32 by omega, Nat.add_comm]
  · have far : ¬ 16 + other = pin := by omega
    have none : ¬ other = pin + 16 := by omega
    have apart : ¬ 16 + other = pin + 16 := by omega
    cases value with
    | true => simp [same, far, level, show other < 32 by omega]
    | false => simp [same, none, apart, level, show other < 32 by omega]

theorem nibble_mask (mode : BitVec 32) : mode &&& 0xf = (mode.setWidth 4).setWidth 32 := by
  have nibble : (0xf : BitVec 32) = (BitVec.allOnes 4).setWidth 32 := rfl
  ext bit bound
  rw [nibble, BitVec.getElem_and, BitVec.getElem_setWidth, BitVec.getElem_setWidth, BitVec.getLsbD_setWidth,
    BitVec.getLsbD_allOnes, Bool.and_comm, BitVec.getLsbD_eq_getElem bound]

theorem field_put (i : Nat) (register mode : BitVec 32) :
    register &&& ~~~(0xf#32 <<< (i <<< 2)) ||| (mode &&& 0xf) <<< (i <<< 2) =
      BitField.put register i (mode.setWidth 4) := by
  have four : i <<< 2 = 4 * i := by rw [Nat.shiftLeft_eq, Nat.mul_comm]
  rw [BitField.put, four, nibble_mask]
  rfl

theorem writeMode_mode (gpio : GpioPort) (mode : BitVec 32) (inside : pin < 16) (within : other < 16) :
    (gpio.writeMode pin mode).mode other = if other = pin then mode.setWidth 4 else gpio.mode other := by
  simp only [writeMode, field_put]
  by_cases high : 8 ≤ pin
  · by_cases upper : 8 ≤ other
    · simp only [GpioPort.mode, high, upper, if_true]
      by_cases same : other = pin
      · rw [if_pos same, same, BitField.get_put_self _ _ (by omega)]
      · rw [if_neg same, BitField.get_put_other _ _ (by omega)]
    · rw [if_neg (show ¬ other = pin by omega)]
      simp only [GpioPort.mode, high, upper, if_true, if_false]
  · by_cases upper : 8 ≤ other
    · rw [if_neg (show ¬ other = pin by omega)]
      simp only [GpioPort.mode, high, upper, if_true, if_false]
    · simp only [GpioPort.mode, high, upper, if_false]
      by_cases same : other = pin
      · rw [if_pos same, same, BitField.get_put_self _ _ (by omega)]
      · rw [if_neg same, BitField.get_put_other _ _ same]

end GpioPort

abbrev Ports := Bank → GpioPort

structure PinState where
  mode : BitVec 4
  level : Bool
deriving DecidableEq, Repr

def PinState.of (ports : Ports) (bank : Bank) (pin : Nat) : PinState := ⟨(ports bank).mode pin, (ports bank).level pin⟩

/-- What a pin does to its line. An open drain set high releases it. -/
inductive Drive where
  | input
  | low
  | high
  | released
  | alternate
deriving DecidableEq, Repr

def PinState.drive (s : PinState) : Drive :=
  if s.mode &&& 0x3 = 0 then .input
  else if s.mode &&& 0x8 ≠ 0 then .alternate
  else if s.level then if s.mode &&& 0x4 = 0 then .high else .released
  else .low

/-- The register accesses of `gpio_write_pin()` and, after it, of `gpio_configure_pin()` -/
inductive Access where
  | writePin (bank : Bank) (pin : Nat) (level : Bool)
  | writeMode (bank : Bank) (pin : Nat) (mode : BitVec 32)
deriving DecidableEq, Repr

def gpioConfigurePin (bank : Bank) (pin : Nat) (mode : BitVec 32) : List Access :=
  [.writePin bank pin (mode >>> 4 ≠ 0), .writeMode bank pin mode]

namespace Access

variable {bank : Bank} {pin : Nat} {accesses : List Access}

def target : Access → Bank × Nat
  | .writePin bank pin _ | .writeMode bank pin _ => (bank, pin)

def perform (ports : Ports) : Access → Ports
  | .writePin bank pin level => Function.update ports bank ((ports bank).writePin pin level)
  | .writeMode bank pin mode => Function.update ports bank ((ports bank).writeMode pin mode)

def performAll (ports : Ports) (accesses : List Access) : Ports := accesses.foldl perform ports

def act (s : PinState) : Access → PinState
  | .writePin _ _ level => { s with level }
  | .writeMode _ _ mode => { s with mode := mode.setWidth 4 }

theorem perform_state (ports : Ports) (access : Access) (inside : access.target.2 < 16) (within : pin < 16) :
    PinState.of (access.perform ports) bank pin =
      if access.target = (bank, pin) then access.act (.of ports bank pin) else .of ports bank pin := by
  cases access with
  | writePin port n level =>
    have bound : n < 16 := inside
    by_cases same : bank = port
    · subst same
      rw [PinState.of, perform, Function.update_self, GpioPort.writePin_mode, GpioPort.writePin_level _ _ bound within]
      by_cases reached : pin = n <;> simp [target, act, PinState.of, reached, eq_comm]
    · simp [perform, target, PinState.of, same, eq_comm]
  | writeMode port n mode =>
    have bound : n < 16 := inside
    by_cases same : bank = port
    · subst same
      rw [PinState.of, perform, Function.update_self, GpioPort.writeMode_level,
        GpioPort.writeMode_mode _ _ bound within]
      by_cases reached : pin = n <;> simp [target, act, PinState.of, reached, eq_comm]
    · simp [perform, target, PinState.of, same, eq_comm]

def onPin (bank : Bank) (pin : Nat) (accesses : List Access) : List Access :=
  accesses.filter fun access => access.target = (bank, pin)

/-- A pin sees the accesses to it and no others. -/
theorem performAll_state (ports : Ports) (inside : ∀ access ∈ accesses, access.target.2 < 16) (within : pin < 16) :
    PinState.of (performAll ports accesses) bank pin = (onPin bank pin accesses).foldl act (.of ports bank pin) := by
  induction accesses generalizing ports with
  | nil => rfl
  | cons access rest ih =>
    rw [List.forall_mem_cons] at inside
    have tail := ih (access.perform ports) inside.2
    rw [perform_state ports access inside.1 within] at tail
    by_cases reached : access.target = (bank, pin)
    · rw [if_pos reached] at tail
      simpa [performAll, onPin, reached] using tail
    · rw [if_neg reached] at tail
      simpa [performAll, onPin, reached] using tail

theorem onPin_nil (untouched : ∀ access ∈ accesses, access.target ≠ (bank, pin)) : onPin bank pin accesses = [] := by
  rw [onPin, List.filter_eq_nil_iff]
  intro access made
  rw [decide_eq_true_iff]
  exact untouched access made

theorem onPin_append (first second : List Access) :
    onPin bank pin (first ++ second) = onPin bank pin first ++ onPin bank pin second :=
  List.filter_append ..

theorem performAll_untouched (ports : Ports) (inside : ∀ access ∈ accesses, access.target.2 < 16) (within : pin < 16)
    (untouched : ∀ access ∈ accesses, access.target ≠ (bank, pin)) :
    PinState.of (performAll ports accesses) bank pin = .of ports bank pin := by
  rw [performAll_state ports inside within, onPin_nil untouched, List.foldl_nil]

def chooses (modes : List (BitVec 4)) : Access → Bool
  | .writePin .. => true
  | .writeMode _ _ mode => mode.setWidth 4 ∈ modes

theorem foldl_mode {modes : List (BitVec 4)} (chosen : ∀ access ∈ accesses, access.chooses modes) {s : PinState}
    (first : s.mode ∈ modes) : (accesses.foldl act s).mode ∈ modes := by
  induction accesses generalizing s with
  | nil => exact first
  | cons access rest ih =>
    rw [List.forall_mem_cons] at chosen
    refine ih chosen.2 ?_
    cases access with
    | writePin => exact first
    | writeMode _ _ mode => exact of_decide_eq_true chosen.1

theorem performAll_mode {modes : List (BitVec 4)} (ports : Ports) (inside : ∀ access ∈ accesses, access.target.2 < 16)
    (within : pin < 16) (chosen : ∀ access ∈ accesses, access.target = (bank, pin) → access.chooses modes)
    (first : (ports bank).mode pin ∈ modes) : (PinState.of (performAll ports accesses) bank pin).mode ∈ modes := by
  rw [performAll_state ports inside within]
  apply foldl_mode _ first
  intro access made
  rw [onPin, List.mem_filter, decide_eq_true_iff] at made
  exact chosen access made.1 made.2

end Access

end Testjig.Board
