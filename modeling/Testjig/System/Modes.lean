import Testjig.Board.Registers
import Testjig.Display.Tm1651

namespace Testjig.System.Pins

open Machine Testjig.Board

def gpiFloating : BitVec 32 := 0x4

/-- `_GPI_pulled(HIGH)` -/
def gpiPullUp : BitVec 32 := 0x8 ||| 1 <<< 4

def gpoPushpull (speed level : BitVec 32) : BitVec 32 := 0x0 ||| speed ||| level <<< 4

def gpoOpendrain (speed level : BitVec 32) : BitVec 32 := 0x4 ||| speed ||| level <<< 4

def afoPushpull (speed : BitVec 32) : BitVec 32 := 0x8 ||| speed

def speed2MHz : BitVec 32 := 2

def speed10MHz : BitVec 32 := 1

def low : BitVec 32 := 0

def high : BitVec 32 := 1

/-- `DAT_PIN` and `CLK_PIN` -/
def number : Display.Pin → Nat
  | .dat => 10
  | .clk => 11

def peripheralInit : List Access :=
  gpioConfigurePin .a 15 gpiFloating ++ gpioConfigurePin .b 3 gpiFloating ++ gpioConfigurePin .b 4 gpiFloating

def consoleInit : List Access :=
  gpioConfigurePin .a 9 (afoPushpull speed10MHz) ++ gpioConfigurePin .a 10 gpiPullUp

def pinsInit : List Access :=
  inPins.flatMap (fun ipin => gpioConfigurePin ipin.gpioBank ipin.gpioPin gpiFloating) ++
    outPins.flatMap fun opin => gpioConfigurePin opin.gpioBank opin.gpioPin (gpoOpendrain speed2MHz high)

def toneInit : List Access := gpioConfigurePin .a 7 (gpoPushpull speed2MHz low)

/-- What main() configures before it sounds the speaker or looks for a display -/
def boot : List Access := peripheralInit ++ consoleInit ++ pinsInit ++ toneInit

def tone (hz ms : Nat) : List Access :=
  (List.replicate (ms * 1000 / (1000000 / hz)) [.writePin .a 7 true, .writePin .a 7 false]).flatten

def setPinmask (mask : BitVec 64) : List Access :=
  outPins.map fun opin => .writePin opin.gpioBank opin.gpioPin (mask.getLsbD opin.pinId)

def tm1651SetPin (pin : Display.Pin) (level : Bool) : List Access :=
  gpioConfigurePin .b (number pin) (if level then gpiPullUp else gpoOpendrain speed2MHz low)

def shiftregInit : List Access :=
  gpioConfigurePin .b (number .dat) (gpoPushpull speed2MHz high) ++
    gpioConfigurePin .b (number .clk) (gpoPushpull speed2MHz high)

/-- The loop of `shiftreg_update_display_u16()`, with the turns left -/
def shiftregWriteLoop : Nat → BitVec 16 → List Access
  | 0, _ => []
  | left + 1, x =>
    [.writePin .b (number .clk) false, .writePin .b (number .dat) (x.toInt < 0), .writePin .b (number .clk) true] ++
      shiftregWriteLoop left (x <<< 1)

def shiftregUpdateDisplayU16 (x : BitVec 16) : List Access :=
  shiftregWriteLoop 16 x ++ [.writePin .b (number .dat) true]

end Pins

open Machine Testjig.Board

/-- The calls after start-up that reach a pin's registers -/
inductive PinCall where
  | tone (hz ms : Nat)
  | setPinmask (mask : BitVec 64)
  | tm1651SetPin (pin : Display.Pin) (level : Bool)
  | shiftregInit
  | shiftregUpdateDisplayU16 (x : BitVec 16)
deriving DecidableEq, Repr

namespace PinCall

def accesses : PinCall → List Access
  | .tone hz ms => Pins.tone hz ms
  | .setPinmask mask => Pins.setPinmask mask
  | .tm1651SetPin pin level => Pins.tm1651SetPin pin level
  | .shiftregInit => Pins.shiftregInit
  | .shiftregUpdateDisplayU16 x => Pins.shiftregUpdateDisplayU16 x

def setsOutputs : PinCall → Bool
  | .setPinmask _ => true
  | _ => false

def isDisplay : PinCall → Bool
  | .tone .. | .setPinmask _ => false
  | _ => true

def isShiftreg : PinCall → Bool
  | .shiftregInit | .shiftregUpdateDisplayU16 _ => true
  | _ => false

def latch (odr : Gpio) : PinCall → Gpio
  | .setPinmask mask => Board.setPinmask mask odr
  | _ => odr

/-- What a call does to the firmware's end of the TM1651's bus -/
def line (bus : Wire.Bus) : PinCall → Wire.Bus
  | .tm1651SetPin pin level => Display.tm1651SetPin pin level bus
  | _ => bus

end PinCall

def pinProgram (calls : List PinCall) : List Access := Pins.boot ++ calls.flatMap PinCall.accesses

def displayPins : List (Bank × Nat) := [(.b, 10), (.b, 11)]

def outputTargets : List (Bank × Nat) := outPins.map fun opin => (opin.gpioBank, opin.gpioPin)

def inputTargets : List (Bank × Nat) := inPins.map fun ipin => (ipin.gpioBank, ipin.gpioPin)

/-- The pins that the firmware ever touches: the speaker, the console, the display and the jig's own -/
def usedPins : List (Bank × Nat) := [(.a, 7), (.a, 9), (.a, 10)] ++ displayPins ++ inputTargets ++ outputTargets

inductive PinCall.Makes : PinCall → Access → Prop where
  | speaker (hz ms : Nat) (level : Bool) : Makes (.tone hz ms) (.writePin .a 7 level)
  | output (mask : BitVec 64) {opin : PinMapping} (listed : opin ∈ outPins) :
    Makes (.setPinmask mask) (.writePin opin.gpioBank opin.gpioPin (mask.getLsbD opin.pinId))
  | level (call : PinCall) (shows : call.isDisplay) (pin : Display.Pin) (level : Bool) :
    Makes call (.writePin .b (Pins.number pin) level)
  | tm1651 (pin : Display.Pin) (level : Bool) :
    Makes (.tm1651SetPin pin level)
      (.writeMode .b (Pins.number pin) (if level then Pins.gpiPullUp else Pins.gpoOpendrain Pins.speed2MHz Pins.low))
  | shiftreg (pin : Display.Pin) :
    Makes .shiftregInit (.writeMode .b (Pins.number pin) (Pins.gpoPushpull Pins.speed2MHz Pins.high))

theorem shiftregWriteLoop_writes (turns : Nat) (x : BitVec 16) :
    ∀ access ∈ Pins.shiftregWriteLoop turns x, ∃ pin level, access = .writePin .b (Pins.number pin) level := by
  induction turns generalizing x with
  | zero => simp [Pins.shiftregWriteLoop]
  | succ turns ih =>
    intro access made
    simp only [Pins.shiftregWriteLoop, List.mem_append, List.mem_cons, List.not_mem_nil, or_false] at made
    rcases made with (rfl | rfl | rfl) | made
    · exact ⟨_, _, rfl⟩
    · exact ⟨_, _, rfl⟩
    · exact ⟨_, _, rfl⟩
    · exact ih _ access made

theorem call_makes {call : PinCall} {access : Access} (made : access ∈ call.accesses) : call.Makes access := by
  cases call with
  | tone hz ms =>
    obtain ⟨pulse, repeated, made⟩ := List.mem_flatten.mp made
    rw [List.eq_of_mem_replicate repeated] at made
    simp only [List.mem_cons, List.not_mem_nil, or_false] at made
    rcases made with rfl | rfl
    · exact .speaker hz ms true
    · exact .speaker hz ms false
  | setPinmask mask =>
    obtain ⟨opin, listed, rfl⟩ := List.mem_map.mp made
    exact .output mask listed
  | tm1651SetPin pin level =>
    simp only [PinCall.accesses, Pins.tm1651SetPin, gpioConfigurePin, List.mem_cons, List.not_mem_nil, or_false] at made
    rcases made with rfl | rfl
    · exact .level _ rfl pin _
    · exact .tm1651 pin level
  | shiftregInit =>
    simp only [PinCall.accesses, Pins.shiftregInit, gpioConfigurePin, List.mem_append, List.mem_cons,
      List.not_mem_nil, or_false] at made
    rcases made with (rfl | rfl) | (rfl | rfl)
    · exact .level _ rfl .dat _
    · exact .shiftreg .dat
    · exact .level _ rfl .clk _
    · exact .shiftreg .clk
  | shiftregUpdateDisplayU16 x =>
    have writes : ∃ pin level, access = .writePin .b (Pins.number pin) level := by
      rcases List.mem_append.mp made with made | last
      · exact shiftregWriteLoop_writes 16 x access made
      · exact ⟨.dat, true, List.mem_singleton.mp last⟩
    obtain ⟨pin, level, rfl⟩ := writes
    exact .level _ rfl pin level

theorem number_listed (pin : Display.Pin) : (Bank.b, Pins.number pin) ∈ displayPins := by
  cases pin <;> decide

theorem number_inside (pin : Display.Pin) : Pins.number pin < 16 := by
  cases pin <;> decide

theorem output_inside {opin : PinMapping} (listed : opin ∈ outPins) : opin.gpioPin < 16 := by
  have all : ∀ opin ∈ outPins, opin.gpioPin < 16 := by decide
  exact all opin listed

theorem output_listed {opin : PinMapping} (listed : opin ∈ outPins) :
    (opin.gpioBank, opin.gpioPin) ∈ outputTargets :=
  List.mem_map_of_mem (f := fun opin => (opin.gpioBank, opin.gpioPin)) listed

namespace PinCall.Makes

variable {call : PinCall} {access : Access}

theorem target (makes : call.Makes access) :
    access.target = (.a, 7) ∨ access.target ∈ displayPins ∨ call.setsOutputs ∧ access.target ∈ outputTargets := by
  cases makes with
  | speaker => exact .inl rfl
  | output mask listed => exact .inr (.inr ⟨rfl, output_listed listed⟩)
  | level _ _ pin => exact .inr (.inl (number_listed pin))
  | tm1651 pin => exact .inr (.inl (number_listed pin))
  | shiftreg pin => exact .inr (.inl (number_listed pin))

theorem input (makes : call.Makes access) : access.target ∉ inputTargets := by
  have apart : ∀ target ∈ inputTargets, target ≠ (.a, 7) ∧ target ∉ displayPins ∧ target ∉ outputTargets := by decide
  intro listed
  obtain ⟨speaker, display, output⟩ := apart _ listed
  rcases makes.target with same | same | ⟨-, same⟩
  · exact speaker same
  · exact display same
  · exact output same

theorem output_apart (makes : call.Makes access) (output : access.target ∈ outputTargets) :
    call.setsOutputs ∧ ∀ modes, access.chooses modes := by
  have apart : ∀ target ∈ outputTargets, target ≠ (.a, 7) ∧ target ∉ displayPins := by decide
  obtain ⟨speaker, display⟩ := apart _ output
  cases makes with
  | speaker => exact absurd rfl speaker
  | output => exact ⟨rfl, fun _ => rfl⟩
  | level _ _ pin => exact absurd (number_listed pin) display
  | tm1651 pin => exact absurd (number_listed pin) display
  | shiftreg pin => exact absurd (number_listed pin) display

theorem openDrain (makes : call.Makes access) (other : call ≠ .shiftregInit) : access.chooses [0x4, 0x8, 0x6] := by
  cases makes with
  | speaker => rfl
  | output => rfl
  | level => rfl
  | tm1651 _ level => cases level <;> rfl
  | shiftreg => exact absurd rfl other

end PinCall.Makes

theorem program_cases {calls : List PinCall} {access : Access} (made : access ∈ pinProgram calls) :
    access ∈ Pins.boot ∨ ∃ call ∈ calls, call.Makes access := by
  rcases List.mem_append.mp made with started | called
  · exact .inl started
  · obtain ⟨call, listed, made⟩ := List.mem_flatMap.mp called
    exact .inr ⟨call, listed, call_makes made⟩

theorem program_target {calls : List PinCall} {access : Access} (made : access ∈ pinProgram calls) :
    access.target ∈ usedPins := by
  rcases program_cases made with started | ⟨call, -, makes⟩
  · have listed : ∀ access ∈ Pins.boot, access.target ∈ usedPins := by decide
    exact listed access started
  · have shown : ∀ target ∈ displayPins, target ∈ usedPins := by decide
    have driven : ∀ target ∈ outputTargets, target ∈ usedPins := by decide
    rcases makes.target with speaker | display | ⟨-, output⟩
    · rw [speaker]
      decide
    · exact shown _ display
    · exact driven _ output

theorem program_inside {calls : List PinCall} {access : Access} (made : access ∈ pinProgram calls) :
    access.target.2 < 16 := by
  have small : ∀ target ∈ usedPins, target.2 < 16 := by decide
  exact small _ (program_target made)

theorem drive_input {s : PinState} (mode : s.mode ∈ [0x4]) : s.drive = .input := by
  obtain ⟨chosen, level⟩ := s
  obtain rfl := List.mem_singleton.mp mode
  cases level <;> decide

theorem drive_openDrain {s : PinState} (mode : s.mode ∈ [0x4, 0x8, 0x6]) : s.drive ≠ .high := by
  obtain ⟨chosen, level⟩ := s
  simp only [List.mem_cons, List.not_mem_nil, or_false] at mode
  rcases mode with rfl | rfl | rfl <;> cases level <;> decide

section

variable {ports : Ports} {calls : List PinCall} {accesses : List Access}

theorem program_mode {modes : List (BitVec 4)} (floating : 0x4 ∈ modes)
    (reset : ∀ bank pin, pin < 16 → (ports bank).mode pin = 0x4) (partway : accesses <+: pinProgram calls)
    {bank : Bank} {pin : Nat} (within : pin < 16)
    (chosen : ∀ access ∈ pinProgram calls, access.target = (bank, pin) → access.chooses modes) :
    (PinState.of (Access.performAll ports accesses) bank pin).mode ∈ modes := by
  apply Access.performAll_mode ports (fun access made => program_inside (partway.subset made)) within
  · exact fun access made => chosen access (partway.subset made)
  · rw [reset bank pin within]
    exact floating

theorem input_floats (reset : ∀ bank pin, pin < 16 → (ports bank).mode pin = 0x4)
    (partway : accesses <+: pinProgram calls) {ipin : PinMapping} (listed : ipin ∈ inPins) :
    (PinState.of (Access.performAll ports accesses) ipin.gpioBank ipin.gpioPin).drive = .input := by
  have small : ∀ ipin ∈ inPins, ipin.gpioPin < 16 := by decide
  have floats : ∀ access ∈ Pins.boot, access.target ∈ inputTargets → access.chooses [0x4] := by decide
  have input : (ipin.gpioBank, ipin.gpioPin) ∈ inputTargets :=
    List.mem_map_of_mem (f := fun ipin => (ipin.gpioBank, ipin.gpioPin)) listed
  apply drive_input
  apply program_mode (List.mem_singleton_self _) reset partway (small ipin listed)
  intro access made reached
  rw [← reached] at input
  rcases program_cases made with started | ⟨call, -, makes⟩
  · exact floats access started input
  · exact absurd input makes.input

theorem output_sinks (reset : ∀ bank pin, pin < 16 → (ports bank).mode pin = 0x4)
    (partway : accesses <+: pinProgram calls) {opin : PinMapping} (listed : opin ∈ outPins) :
    (PinState.of (Access.performAll ports accesses) opin.gpioBank opin.gpioPin).drive ≠ .high := by
  have sinks : ∀ access ∈ Pins.boot, access.target ∈ outputTargets → access.chooses [0x4, 0x8, 0x6] := by decide
  have output := output_listed listed
  apply drive_openDrain
  apply program_mode List.mem_cons_self reset partway (output_inside listed)
  intro access made reached
  rw [← reached] at output
  rcases program_cases made with started | ⟨call, -, makes⟩
  · exact sinks access started output
  · exact (makes.output_apart output).2 _

/-- The accesses of start-up to an output, before any `set_pinmask()` -/
theorem output_boot {opin : PinMapping} (listed : opin ∈ outPins) :
    Access.onPin opin.gpioBank opin.gpioPin Pins.boot =
      [.writePin opin.gpioBank opin.gpioPin true, .writeMode opin.gpioBank opin.gpioPin 0x16] := by
  have all : ∀ opin ∈ outPins, Access.onPin opin.gpioBank opin.gpioPin Pins.boot =
      [.writePin opin.gpioBank opin.gpioPin true, .writeMode opin.gpioBank opin.gpioPin 0x16] := by decide
  exact all opin listed

/-- An output's latch is set before its pin becomes an output, so that it pulls nothing low in between. -/
theorem output_rests (reset : ∀ bank pin, pin < 16 → (ports bank).mode pin = 0x4)
    (partway : accesses <+: pinProgram calls) (unset : ∀ call ∈ calls, call.setsOutputs = false)
    {opin : PinMapping} (listed : opin ∈ outPins) :
    (PinState.of (Access.performAll ports accesses) opin.gpioBank opin.gpioPin).drive ≠ .low := by
  have mode := reset opin.gpioBank opin.gpioPin (output_inside listed)
  have quiet : Access.onPin opin.gpioBank opin.gpioPin (calls.flatMap PinCall.accesses) = [] := by
    apply Access.onPin_nil
    intro access made reached
    obtain ⟨call, called, made⟩ := List.mem_flatMap.mp made
    have sets := ((call_makes made).output_apart (reached ▸ output_listed listed)).1
    rw [unset call called] at sets
    exact absurd sets Bool.false_ne_true
  have seen := partway.filter fun access => access.target = (opin.gpioBank, opin.gpioPin)
  rw [Access.performAll_state ports (fun access made => program_inside (partway.subset made)) (output_inside listed)]
  change Access.onPin opin.gpioBank opin.gpioPin accesses <+:
    Access.onPin opin.gpioBank opin.gpioPin (pinProgram calls) at seen
  rw [pinProgram, Access.onPin_append, quiet, List.append_nil, output_boot listed, List.prefix_cons_iff] at seen
  have floats : (PinState.of ports opin.gpioBank opin.gpioPin).mode ∈ [0x4] := List.mem_singleton.mpr mode
  rcases seen with none | ⟨rest, first, seen⟩
  · rw [none, List.foldl_nil, drive_input floats]
    decide
  · rw [List.prefix_cons_iff] at seen
    rcases seen with none | ⟨last, second, seen⟩
    · have raised : (Access.act (.of ports opin.gpioBank opin.gpioPin)
          (.writePin opin.gpioBank opin.gpioPin true)).mode ∈ [0x4] := floats
      rw [first, none, List.foldl_cons, List.foldl_nil, drive_input raised]
      decide
    · rw [List.prefix_nil] at seen
      rw [first, second, seen]
      change PinState.drive ⟨(0x16 : BitVec 32).setWidth 4, true⟩ ≠ .low
      decide

theorem display_sinks (reset : ∀ bank pin, pin < 16 → (ports bank).mode pin = 0x4)
    (partway : accesses <+: pinProgram calls) (unused : ∀ call ∈ calls, call ≠ .shiftregInit) (pin : Display.Pin) :
    (PinState.of (Access.performAll ports accesses) .b (Pins.number pin)).drive ≠ .high := by
  have untouched : ∀ access ∈ Pins.boot, access.target ∉ displayPins := by decide
  apply drive_openDrain
  apply program_mode List.mem_cons_self reset partway (number_inside pin)
  intro access made reached
  rcases program_cases made with started | ⟨call, called, makes⟩
  · exact absurd (reached ▸ number_listed pin) (untouched access started)
  · exact makes.openDrain (unused call called)

/-- After every single register write, whatever is called in whatever order: no input line is driven, no output line
is driven high, nor pulled low before the first `set_pinmask()`, the lines of a TM1651 are not driven high against
it, and the pins that are not the firmware's keep their state. -/
theorem pins_never_fight (ports : Ports) (reset : ∀ bank pin, pin < 16 → (ports bank).mode pin = 0x4)
    (calls : List PinCall) (accesses : List Access) (partway : accesses <+: pinProgram calls) :
    (∀ ipin ∈ inPins, (PinState.of (Access.performAll ports accesses) ipin.gpioBank ipin.gpioPin).drive = .input) ∧
    (∀ opin ∈ outPins,
      (PinState.of (Access.performAll ports accesses) opin.gpioBank opin.gpioPin).drive ≠ .high ∧
      ((∀ call ∈ calls, call.setsOutputs = false) →
        (PinState.of (Access.performAll ports accesses) opin.gpioBank opin.gpioPin).drive ≠ .low)) ∧
    ((∀ call ∈ calls, call ≠ .shiftregInit) →
      ∀ pin, (PinState.of (Access.performAll ports accesses) .b (Pins.number pin)).drive ≠ .high) ∧
    ∀ bank pin, pin < 16 → (bank, pin) ∉ usedPins →
      PinState.of (Access.performAll ports accesses) bank pin = .of ports bank pin := by
  refine ⟨fun ipin listed => input_floats reset partway listed, fun opin listed => ⟨output_sinks reset partway listed,
    fun unset => output_rests reset partway unset listed⟩, fun unused => display_sinks reset partway unused, ?_⟩
  intro bank pin within unused
  apply Access.performAll_untouched ports (fun access made => program_inside (partway.subset made)) within
  intro access made reached
  exact unused (reached ▸ program_target (partway.subset made))

def resetPorts : Ports := fun _ => ⟨0x44444444, 0x44444444, 0⟩

theorem resetPorts_float (bank : Bank) (pin : Nat) (within : pin < 16) : (resetPorts bank).mode pin = 0x4 := by
  have all : ∀ pin < 16, GpioPort.mode ⟨0x44444444, 0x44444444, 0⟩ pin = 0x4 := by decide
  exact all pin within

theorem pins_never_fight_reset :
    (∀ bank pin, pin < 16 → (resetPorts bank).mode pin = 0x4) ∧ Pins.boot <+: pinProgram [.tm1651SetPin .dat false] ∧
    (PinState.of (Access.performAll resetPorts Pins.boot) .b 6).drive ≠ .low := by
  have partway : Pins.boot <+: pinProgram [.tm1651SetPin .dat false] := List.prefix_append ..
  have fight := pins_never_fight resetPorts resetPorts_float [.tm1651SetPin .dat false] Pins.boot partway
  exact ⟨resetPorts_float, partway, (fight.2.1 ⟨8, .b, 6⟩ (by decide)).2 (by decide)⟩

/-- How the firmware holds one line of the TM1651's bus -/
def released (bus : Wire.Bus) : Display.Pin → Bool
  | .dat => bus.dat
  | .clk => bus.clk

theorem tm1651SetPin_released (pin other : Display.Pin) (level : Bool) (bus : Wire.Bus) :
    released (Display.tm1651SetPin pin level bus) other = if other = pin then level else released bus other := by
  cases pin <;> cases other <;> rfl

/-- What each call keeps between a pin and something that it follows, all calls keep. -/
theorem calls_follow {σ : Type} {bank : Bank} {pin : Nat} (follow : σ → PinCall → σ) (related : PinState → σ → Prop)
    (kept : ∀ call ∈ calls, ∀ s x, related s x →
      related ((Access.onPin bank pin call.accesses).foldl Access.act s) (follow x call))
    {s : PinState} {x : σ} (first : related s x) :
    related ((Access.onPin bank pin (calls.flatMap PinCall.accesses)).foldl Access.act s) (calls.foldl follow x) := by
  induction calls generalizing s x with
  | nil => exact first
  | cons call rest ih =>
    rw [List.forall_mem_cons] at kept
    rw [List.flatMap_cons, Access.onPin_append, List.foldl_append, List.foldl_cons]
    exact ih kept.2 (kept.1 s x first)

theorem program_state (bank : Bank) {pin : Nat} (within : pin < 16) :
    PinState.of (Access.performAll ports (pinProgram calls)) bank pin =
      (Access.onPin bank pin (calls.flatMap PinCall.accesses)).foldl Access.act
        ((Access.onPin bank pin Pins.boot).foldl Access.act (.of ports bank pin)) := by
  rw [Access.performAll_state ports (fun access made => program_inside made) within, pinProgram, Access.onPin_append,
    List.foldl_append]

theorem setPinmask_onPin (mask : BitVec 64) {opin : PinMapping} (listed : opin ∈ outPins) :
    Access.onPin opin.gpioBank opin.gpioPin (Pins.setPinmask mask) =
      [.writePin opin.gpioBank opin.gpioPin (mask.getLsbD opin.pinId)] := by
  simp only [outPins, List.mem_cons, List.not_mem_nil, or_false] at listed
  rcases listed with rfl | rfl | rfl | rfl | rfl <;> rfl

theorem output_follows (latches : Gpio) {opin : PinMapping} (listed : opin ∈ outPins) :
    PinState.of (Access.performAll ports (pinProgram calls)) opin.gpioBank opin.gpioPin =
      ⟨0x6, calls.foldl PinCall.latch (pinsInit latches) opin.gpioBank opin.gpioPin⟩ := by
  rw [program_state _ (output_inside listed), output_boot listed]
  apply calls_follow PinCall.latch fun s odr => s = ⟨0x6, odr opin.gpioBank opin.gpioPin⟩
  · rintro call - s odr rfl
    cases sets : call.setsOutputs with
    | true =>
      cases call with
      | setPinmask mask =>
        rw [PinCall.accesses, setPinmask_onPin mask listed, PinCall.latch, setPinmask_output mask odr listed]
        rfl
      | _ => cases sets
    | false =>
      rw [Access.onPin_nil, List.foldl_nil]
      · cases call with
        | setPinmask mask => cases sets
        | _ => rfl
      · intro access made reached
        have other := ((call_makes made).output_apart (reached ▸ output_listed listed)).1
        rw [sets] at other
        exact Bool.false_ne_true other
  · rw [pinsInit_output latches listed]
    rfl

theorem tm1651SetPin_onPin (pin other : Display.Pin) (level : Bool) (s : PinState) :
    (Access.onPin .b (Pins.number other) (Pins.tm1651SetPin pin level)).foldl Access.act s =
      if other = pin then ⟨if level then 0x8 else 0x6, level⟩ else s := by
  cases pin <;> cases other <;> cases level <;> rfl

theorem bus_follows (reset : ∀ bank pin, pin < 16 → (ports bank).mode pin = 0x4)
    (unused : ∀ call ∈ calls, call.isShiftreg = false) {bus : Wire.Bus} (idle : ∀ pin, released bus pin = true)
    (pin : Display.Pin) :
    (PinState.of (Access.performAll ports (pinProgram calls)) .b (Pins.number pin)).drive =
      if released (calls.foldl PinCall.line bus) pin then .input else .low := by
  have untouched : ∀ access ∈ Pins.boot, access.target ∉ displayPins := by decide
  have boot : Access.onPin .b (Pins.number pin) Pins.boot = [] :=
    Access.onPin_nil fun access made reached => untouched access made (reached ▸ number_listed pin)
  rw [program_state _ (number_inside pin), boot, List.foldl_nil]
  apply calls_follow PinCall.line fun s bus => s.drive = if released bus pin then .input else .low
  · intro call called s bus follows
    cases display : call.isDisplay with
    | true =>
      cases call with
      | tm1651SetPin other level =>
        rw [PinCall.accesses, tm1651SetPin_onPin, PinCall.line, tm1651SetPin_released]
        by_cases same : pin = other
        · rw [if_pos same, if_pos same]
          cases level <;> decide
        · rw [if_neg same, if_neg same]
          exact follows
      | shiftregInit => exact absurd (unused _ called) (by decide)
      | shiftregUpdateDisplayU16 x => exact absurd (unused _ called) (by simp [PinCall.isShiftreg])
      | _ => cases display
    | false =>
      rw [Access.onPin_nil, List.foldl_nil]
      · cases call with
        | tm1651SetPin => cases display
        | _ => exact follows
      · intro access made reached
        have listed := reached ▸ number_listed pin
        cases call_makes made with
        | speaker =>
          have apart : (Bank.a, 7) ∉ displayPins := by decide
          exact apart listed
        | output mask opin =>
          have apart : ∀ target ∈ outputTargets, target ∉ displayPins := by decide
          exact apart _ (output_listed opin) listed
        | level _ shows => exact absurd (display.symm.trans shows) Bool.false_ne_true
        | tm1651 => cases display
        | shiftreg => cases display
  · rw [idle pin, if_pos rfl]
    exact drive_input (List.mem_singleton.mpr (reset _ _ (number_inside pin)))

theorem tone_rests (hz ms : Nat) :
    (Access.onPin .a 7 (Pins.tone hz ms)).foldl Access.act ⟨0x2, false⟩ = ⟨0x2, false⟩ := by
  rw [Pins.tone]
  induction ms * 1000 / (1000000 / hz) with
  | zero => rfl
  | succ pulses ih =>
    rw [List.replicate_succ, List.flatten_cons, Access.onPin_append, List.foldl_append]
    exact ih

theorem speaker_rests :
    PinState.of (Access.performAll ports (pinProgram calls)) .a 7 = ⟨0x2, false⟩ := by
  rw [program_state _ (by decide)]
  refine calls_follow (fun (_ : Unit) _ => ()) (fun s _ => s = ⟨0x2, false⟩) ?_ (x := ()) rfl
  rintro call - s - rfl
  have apart : ∀ target ∈ displayPins ++ outputTargets, target ≠ (.a, 7) := by decide
  cases call with
  | tone hz ms => exact tone_rests hz ms
  | setPinmask mask => rfl
  | tm1651SetPin pin level => cases pin <;> rfl
  | shiftregInit => rfl
  | shiftregUpdateDisplayU16 x =>
    rw [Access.onPin_nil, List.foldl_nil]
    intro access made reached
    cases call_makes made with
    | level _ _ pin => exact apart _ (List.mem_append_left _ (number_listed pin)) reached

/-- The registers after any calls hold the lines as the latches of `set_pinmask()`, the bus of the TM1651 and the end
of a tone have them. -/
theorem lines_follow (ports : Ports) (reset : ∀ bank pin, pin < 16 → (ports bank).mode pin = 0x4)
    (calls : List PinCall) (latches : Gpio) (bus : Wire.Bus) (idle : ∀ pin, released bus pin = true) :
    (∀ opin ∈ outPins,
      (PinState.of (Access.performAll ports (pinProgram calls)) opin.gpioBank opin.gpioPin).drive =
        if calls.foldl PinCall.latch (pinsInit latches) opin.gpioBank opin.gpioPin then .released else .low) ∧
    ((∀ call ∈ calls, call.isShiftreg = false) → ∀ pin,
      (PinState.of (Access.performAll ports (pinProgram calls)) .b (Pins.number pin)).drive =
        if released (calls.foldl PinCall.line bus) pin then .input else .low) ∧
    (PinState.of (Access.performAll ports (pinProgram calls)) .a 7).drive = .low := by
  refine ⟨?_, fun unused pin => bus_follows reset unused idle pin, ?_⟩
  · intro opin listed
    rw [output_follows latches listed]
    cases calls.foldl PinCall.latch (pinsInit latches) opin.gpioBank opin.gpioPin <;> decide
  · rw [speaker_rests]
    decide

theorem lines_follow_reset :
    (∀ bank pin, pin < 16 → (resetPorts bank).mode pin = 0x4) ∧
    (∀ pin, released (.resting fun _ => .refuse) pin = true) ∧
    (PinState.of (Access.performAll resetPorts
      (pinProgram [.setPinmask 0x100, .tm1651SetPin .dat false])) .b 14).drive = .low := by
  have idle : ∀ pin, released (.resting fun _ => .refuse) pin = true := by
    intro pin
    cases pin <;> rfl
  have follows := lines_follow resetPorts resetPorts_float [.setPinmask 0x100, .tm1651SetPin .dat false]
    (fun _ _ => false) (.resting fun _ => .refuse) idle
  exact ⟨resetPorts_float, idle, follows.1 ⟨26, .b, 14⟩ (by decide)⟩

end

end Testjig.System
