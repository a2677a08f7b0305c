import Mathlib.Data.List.Induction
import Testjig.Display.Tm1651
import Testjig.Machine.Shift

namespace Testjig.Display

open Machine

def gpioWritePin (pin : Pin) (level : Bool) (bus : Shift.Bus 16) : Shift.Bus 16 :=
  match pin with
  | .dat => bus.setDat level
  | .clk => bus.setClk level

/-- One turn of the loop in `shiftreg_update_display_u16()`. Its delays change no level. -/
def shiftregWriteBit (x : BitVec 16) (bus : Shift.Bus 16) : Shift.Bus 16 :=
  let bus := gpioWritePin .clk false bus
  let bus := gpioWritePin .dat (x.toInt < 0) bus
  gpioWritePin .clk true bus

def shiftregWriteLoop : Nat → BitVec 16 → Shift.Bus 16 → Shift.Bus 16
  | 0, _, bus => bus
  | left + 1, x, bus => shiftregWriteLoop left (x <<< 1) (shiftregWriteBit x bus)

def shiftregUpdateDisplayU16 (x : BitVec 16) (bus : Shift.Bus 16) : Shift.Bus 16 :=
  gpioWritePin .dat true (shiftregWriteLoop 16 x bus)

/-- `GPO_pushpull(_2MHz, HIGH)` writes a 1 to the pin and makes it an output. -/
def shiftregInit (bus : Shift.Bus 16) : Shift.Bus 16 :=
  let bus := gpioWritePin .dat true bus
  gpioWritePin .clk true bus

def tm1651Brightness : BitVec 8 := 1

/-- `curval` is `shiftreg_curval`. One of the two displays is at the pins, and `nr_digits` says which. -/
structure Led7seg where
  nrDigits : BitVec 8
  curval : BitVec 16
  tm1651 : Wire.Bus
  shiftreg : Shift.Bus 16

def shiftregUpdateDisplay (d : Nat → BitVec 8) (led : Led7seg) : Led7seg :=
  let x := (d 0).setWidth 16 <<< 8 ||| (d 1).setWidth 16
  { led with curval := x, shiftreg := shiftregUpdateDisplayU16 x led.shiftreg }

def shiftregDisplaySetting (enable : Bool) (led : Led7seg) : Led7seg :=
  { led with shiftreg := shiftregUpdateDisplayU16 (if enable then led.curval else 0) led.shiftreg }

def led7segDisplaySetting (enable : Bool) (led : Led7seg) : Led7seg :=
  if led.nrDigits = 3 then
    { led with tm1651 := (tm1651SendCmd (if enable then 0x88 + tm1651Brightness else 0x80) led.tm1651).2 }
  else shiftregDisplaySetting enable led

def led7segWriteRaw (d : Nat → BitVec 8) (led : Led7seg) : Led7seg :=
  if led.nrDigits = 3 then { led with tm1651 := tm1651UpdateDisplay (fun i => d i) led.tm1651 }
  else shiftregUpdateDisplay d led

theorem shiftregWriteBit_pulse (x : BitVec 16) (bus : Shift.Bus 16) :
    shiftregWriteBit x bus =
      { clk := true, dat := x.msb, register := bus.register.shiftConcat x.msb, edges := bus.edges + 1 } := by
  rw [BitVec.msb_eq_toInt]
  exact Shift.pulse _ bus

theorem shiftregWriteLoop_takes (turns : Nat) (x : BitVec 16) (bus : Shift.Bus 16) (high : bus.clk = true) :
    gpioWritePin .dat true (shiftregWriteLoop turns x bus) =
      { clk := true
        dat := true
        register := Shift.takeIn turns x bus.register
        edges := bus.edges + turns } := by
  induction turns generalizing x bus with
  | zero =>
    rw [← high]
    rfl
  | succ turns ih =>
    have count : bus.edges + 1 + turns = bus.edges + (turns + 1) := by omega
    rw [shiftregWriteLoop, shiftregWriteBit_pulse, ih _ _ rfl, Shift.takeIn, count]

theorem shiftregUpdateDisplayU16_shows (x : BitVec 16) (bus : Shift.Bus 16) (high : bus.clk = true) :
    shiftregUpdateDisplayU16 x bus = { clk := true, dat := true, register := x, edges := bus.edges + 16 } := by
  rw [shiftregUpdateDisplayU16, shiftregWriteLoop_takes 16 x bus high, Shift.takeIn_all]

theorem shiftregInit_high (bus : Shift.Bus 16) : (shiftregInit bus).clk = true ∧ (shiftregInit bus).dat = true := by
  rw [shiftregInit]
  dsimp only [gpioWritePin, Shift.Bus.setClk, Shift.Bus.setDat]
  split <;> exact ⟨rfl, rfl⟩

theorem twoBytes_toNat (high low : BitVec 8) :
    (high.setWidth 16 <<< 8 ||| low.setWidth 16).toNat = high.toNat * 256 + low.toNat := by
  have highBound := high.isLt
  have lowBound := low.isLt
  have highFits : high.toNat % 2^16 = high.toNat := Nat.mod_eq_of_lt (by omega)
  have lowFits : low.toNat % 2^16 = low.toNat := Nat.mod_eq_of_lt (by omega)
  have shiftedFits : high.toNat * 2^8 % 2^16 = high.toNat * 2^8 := Nat.mod_eq_of_lt (by omega)
  have joined : 2^8 * high.toNat + low.toNat = 2^8 * high.toNat ||| low.toNat :=
    Nat.two_pow_add_eq_or_of_lt lowBound high.toNat
  have value : (high.setWidth 16 <<< 8 ||| low.setWidth 16).toNat = 2^8 * high.toNat + low.toNat := by
    rw [BitVec.toNat_or, BitVec.toNat_shiftLeft, BitVec.toNat_setWidth, BitVec.toNat_setWidth, Nat.shiftLeft_eq,
      highFits, lowFits, shiftedFits, joined, Nat.mul_comm (2^8) high.toNat]
  rw [value]
  omega

inductive Call where
  | writeRaw (d : Nat → BitVec 8)
  | displaySetting (enable : Bool)

def Call.perform : Call → Led7seg → Led7seg
  | .writeRaw d => led7segWriteRaw d
  | .displaySetting enable => led7segDisplaySetting enable

def performAll (calls : List Call) (led : Led7seg) : Led7seg := calls.foldl (fun led call => call.perform led) led

/-- The segments of both digits, the first digit's in the upper byte -/
def Call.written : Call → Option Nat
  | .writeRaw d => some ((d 0).toNat * 256 + (d 1).toNat)
  | .displaySetting _ => none

def lastWritten (calls : List Call) : Nat := (calls.filterMap Call.written).getLast?.getD 0

/-- What both digits are to show after a call that is made after others -/
def Call.shows (calls : List Call) : Call → Nat
  | .writeRaw d => (d 0).toNat * 256 + (d 1).toNat
  | .displaySetting enable => if enable then lastWritten calls else 0

/-- The 2-digit display after `shiftreg_init()`, before anything is written -/
def twoDigits (tm1651 : Wire.Bus) (bus : Shift.Bus 16) : Led7seg :=
  { nrDigits := 2, curval := 0, tm1651, shiftreg := shiftregInit bus }

theorem lastWritten_write (calls : List Call) (d : Nat → BitVec 8) :
    lastWritten (calls ++ [.writeRaw d]) = (d 0).toNat * 256 + (d 1).toNat := by
  rw [lastWritten, List.filterMap_append]
  exact congrArg (Option.getD · 0) List.getLast?_concat

theorem lastWritten_setting (calls : List Call) (enable : Bool) :
    lastWritten (calls ++ [.displaySetting enable]) = lastWritten calls := by
  rw [lastWritten, List.filterMap_append]
  exact congrArg (fun numbers => (List.getLast? numbers).getD 0) (List.append_nil _)

structure Resting (calls : List Call) (led : Led7seg) : Prop where
  digits : led.nrDigits = 2
  saved : led.curval.toNat = lastWritten calls
  clk : led.shiftreg.clk = true
  dat : led.shiftreg.dat = true

def Clocked (x : Nat) (before after : Shift.Bus 16) : Prop :=
  after.register.toNat = x ∧ after.edges = before.edges + 16

theorem Resting.perform {calls : List Call} {led : Led7seg} (resting : Resting calls led) (call : Call) :
    Resting (calls ++ [call]) (call.perform led) ∧
      Clocked (call.shows calls) led.shiftreg (call.perform led).shiftreg := by
  obtain ⟨digits, saved, clk, dat⟩ := resting
  have two : led.nrDigits ≠ 3 := by
    rw [digits]
    decide
  cases call with
  | writeRaw d =>
    have value := twoBytes_toNat (d 0) (d 1)
    rw [Call.perform, led7segWriteRaw, if_neg two, shiftregUpdateDisplay]
    dsimp only
    rw [shiftregUpdateDisplayU16_shows _ _ clk]
    exact ⟨⟨digits, value.trans (lastWritten_write calls d).symm, rfl, rfl⟩, value, rfl⟩
  | displaySetting enable =>
    rw [Call.perform, led7segDisplaySetting, if_neg two, shiftregDisplaySetting, shiftregUpdateDisplayU16_shows _ _ clk]
    refine ⟨⟨digits, saved.trans (lastWritten_setting calls enable).symm, rfl, rfl⟩, ?_, rfl⟩
    cases enable with
    | true => exact saved
    | false => rfl

theorem performAll_resting (tm1651 : Wire.Bus) (bus : Shift.Bus 16) (calls : List Call) :
    Resting calls (performAll calls (twoDigits tm1651 bus)) := by
  induction calls using List.reverseRecOn with
  | nil =>
    obtain ⟨clk, dat⟩ := shiftregInit_high bus
    exact ⟨rfl, rfl, clk, dat⟩
  | append_singleton calls call ih =>
    rw [performAll, List.foldl_append]
    exact (ih.perform call).1

/-- After each call the register of the 2-digit display holds what that call is to show. -/
theorem led_7seg_shows (tm1651 : Wire.Bus) (bus : Shift.Bus 16) (calls : List Call) (call : Call) :
    let before := (performAll calls (twoDigits tm1651 bus)).shiftreg
    let after := (performAll (calls ++ [call]) (twoDigits tm1651 bus)).shiftreg
    after.register.toNat = call.shows calls ∧ after.edges = before.edges + 16 ∧ after.dat = true ∧ after.clk = true := by
  have resting := performAll_resting tm1651 bus (calls ++ [call])
  have clocked := ((performAll_resting tm1651 bus calls).perform call).2
  have last : performAll (calls ++ [call]) (twoDigits tm1651 bus) =
      call.perform (performAll calls (twoDigits tm1651 bus)) := List.foldl_append
  rw [← last] at clocked
  exact ⟨clocked.1, clocked.2, resting.dat, resting.clk⟩

/-- What is written while the display is off is shown when it is switched on. -/
example : (performAll [.displaySetting false, .writeRaw fun i => [0x3f, 0x06, 0x00].getD i 0, .displaySetting true]
    (twoDigits (.resting fun _ => .refuse) ⟨false, false, 0xa5a5, 0⟩)).shiftreg.register = 0x3f06 := by decide +kernel

end Testjig.Display
