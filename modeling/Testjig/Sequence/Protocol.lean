namespace Testjig.Sequence

abbrev Byte := BitVec 8

/-- Memory from the start of a C array on, its neighbours included. -/
abbrev Buffer := Nat → Byte

def memcpy (dest src : Buffer) (n : Nat) : Buffer := fun i => if i < n then src i else dest i

def word (b : Buffer) (at0 : Nat) : BitVec 32 := b (at0 + 3) ++ b (at0 + 2) ++ b (at0 + 1) ++ b at0

def cmdGetInfo : Byte := 0
def cmdTestMode : Byte := 21
def cmdMax : Byte := 21

def cmdOptionBytes : BitVec 32 := 0
def cmdPins : BitVec 32 := 1
def cmdLedCode : BitVec 32 := 2
def cmdTestHeaders : BitVec 32 := 3
def cmdWdatOscOn : BitVec 32 := 4
def cmdWdatOscOff : BitVec 32 := 5

def testHeaderSuccess : BitVec 32 := 100

/-- `struct cmd`, its union as bytes -/
structure Cmd where
  cmd : BitVec 32
  u : List Byte
deriving DecidableEq, Repr

def Cmd.bytes (c : Cmd) : List Byte :=
  [c.cmd.setWidth 8, (c.cmd >>> 8).setWidth 8, (c.cmd >>> 16).setWidth 8, (c.cmd >>> 24).setWidth 8] ++ c.u

/-- `memset(&tcmd, 0, sizeof(tcmd))` and a command code -/
def Cmd.plain (cmd : BitVec 32) : Cmd := { cmd, u := List.replicate 28 0 }

def Cmd.led (state : Byte) : Cmd := { cmd := cmdLedCode, u := state :: List.replicate 27 0 }

/-- The `tcmd` of `cmd_set_pin()`; `none` stands for the -1 that asserts no pin. -/
def Cmd.setPin (pin : Option Nat) : Cmd :=
  let pins := List.replicate 8 0xff
  let pins :=
    match pin with
    | none => pins
    | some pin => pins.modify (pin / 8) fun b => b &&& ~~~(1#8 <<< (pin % 8))
  { cmd := cmdPins, u := pins ++ List.replicate 20 0 }

def sizeofRsp : Nat := 32

/-- `!!(pins[pin/8] & (1<<(pin&7)))` -/
def pinLevel (pins : Buffer) (pin : Nat) : Bool := (pins (pin / 8)).getLsbD (pin % 8)

/-- `struct gw_info`, packed -/
structure GwInfo where
  fwMajor : Byte
  fwMinor : Byte
  isMainFirmware : Byte
  maxCmd : Byte
  sampleFreq : BitVec 32
  hwModel : Byte
  hwSubmodel : Byte
  usbSpeed : Byte
deriving DecidableEq, Repr

def GwInfo.load (b : Buffer) (at0 : Nat) : GwInfo where
  fwMajor := b at0
  fwMinor := b (at0 + 1)
  isMainFirmware := b (at0 + 2)
  maxCmd := b (at0 + 3)
  sampleFreq := word b (at0 + 4)
  hwModel := b (at0 + 8)
  hwSubmodel := b (at0 + 9)
  usbSpeed := b (at0 + 10)

end Testjig.Sequence
