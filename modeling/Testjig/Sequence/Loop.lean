import Testjig.Board.Pins
import Testjig.Machine.Run
import Testjig.Sequence.Protocol
import Testjig.Time.Clock

namespace Testjig.Sequence

open Testjig.Board Testjig.Time

def outp : List Nat := [8, 26, 28, 30, 34]
def inp : List Nat := [2, 4, 6, 10, 12, 14, 16, 18, 20, 22, 24, 32, 33]

def info : List Byte := [cmdGetInfo, 3, 0]
def testmode : List Byte := [cmdTestMode, 10, 0x4e, 0x4b, 0x50, 0x6e, 0xd3, 0x10, 0x29, 0x38]
def testmodersp : List Byte := [cmdTestMode, 0]

def errTxTimeout : Nat := 10
def errTxBadCallback : Nat := 11
def errRxTimeout : Nat := 20
def errRxBadCallback : Nat := 21
def errBadResponse : Nat := 30

/-- What main() does not return from. -/
inductive Halt where
  | systemReset
  /-- `error(nr)`, shown as "E%02u" -/
  | error (nr : Nat)
  /-- `pin_error(nr)`, shown as "P%02u" -/
  | pinError (pin : Nat)
  /-- `_error(s)` -/
  | text (s : String)
  | outOfArray
  /-- A loop that does not end within the address space -/
  | endless
  /-- Not a run of the firmware: the USB stack wrote `rspbuf` with no receive pending. -/
  | stray
deriving DecidableEq, Repr

inductive CmdRspState where
  | idle
  | txBusy
  | txDone
  | rxBusy
  | rxDone
deriving DecidableEq, Repr

structure CmdRsp where
  rsp : Option (List Byte)
  rspLen : Nat
  state : CmdRspState
  time : TimeT

inductive TxBuf where
  | info
  | testmode
  | tcmd
deriving DecidableEq, Repr

/-- A call that main() makes into the CDC class driver. -/
inductive CdcCall where
  | transmit (buf : TxBuf) (len : Nat)
  | receive (len : Nat)
deriving DecidableEq, Repr

inductive Event where
  | command (bytes : List Byte) (rsp : Option (List Byte)) (rspLen : Nat)
  | reply (rspbuf : Buffer)
  | info (gwInfo : GwInfo)
  | drive (mask : BitVec 64)
  | checked (asserted : Option Nat) (mask : BitVec 64)
  | checkedLow (mask : BitVec 64)
  | options (hwModel : Byte)
  | headers
  | oscillation (dmabuf : Nat → BitVec 16)
  | ccVoltage (adc : Nat → BitVec 12)
  | pass

/-- The globals of main.c, with the output latches, the record, and this iteration's CDC call. -/
structure Main where
  state : Nat
  pinIter : Nat
  outerIter : Nat
  success : Bool
  beeps : Nat
  cmdrsp : CmdRsp
  rspbuf : Buffer
  tcmd : Cmd
  trsp : Buffer
  gwInfo : GwInfo
  odr : Gpio
  call : Option CdcCall
  log : List Event

inductive UsbAction where
  | transmitted
  | stored (rspbuf : Buffer)
  | received

/-- Everything that one iteration of the loop reads from outside main.c. -/
structure Poll where
  actions : List UsbAction
  connected : Bool
  now : TimeT
  idr : Gpio
  tcif : Bool
  dmabuf : Nat → BitVec 16
  adc : Nat → BitVec 12

/-- `-1LL & ~(1ull << pin)` -/
def onlyLow (pin : Nat) : BitVec 64 := -1 &&& ~~~(1#64 <<< pin)

namespace Main

def record (m : Main) (e : Event) : Main := { m with log := m.log ++ [e] }

def transmitCallback (m : Main) : Except Halt Main :=
  if m.cmdrsp.state ≠ .txBusy then .error (.error errTxBadCallback)
  else .ok { m with cmdrsp.state := .txDone }

def receiveCallback (m : Main) : Except Halt Main :=
  if m.cmdrsp.state ≠ .rxBusy then .error (.error errRxBadCallback)
  else .ok { m with cmdrsp.state := .rxDone }

def usbAction (m : Main) : UsbAction → Except Halt Main
  | .transmitted => m.transmitCallback
  | .received => m.receiveCallback
  | .stored rspbuf => if m.cmdrsp.state = .rxBusy then .ok { m with rspbuf } else .error .stray

def usbhCdcProcess (m : Main) : List UsbAction → Except Halt Main
  | [] => .ok m
  | action :: rest =>
    match m.usbAction action with
    | .error halt => .error halt
    | .ok m => m.usbhCdcProcess rest

def memcmp (b : Buffer) (bytes : List Byte) (n : Nat) : Bool :=
  (List.range n).any fun i => b i ≠ bytes.getD i 0

def commandResponseHandle (m : Main) (now : TimeT) : Except Halt Main :=
  match m.cmdrsp.state with
  | .idle => .ok m
  | .txBusy =>
    if timeSince m.cmdrsp.time now > (timeMs 500 : Nat) then .error (.error errTxTimeout) else .ok m
  | .txDone =>
    .ok { m with
      cmdrsp.state := .rxBusy
      cmdrsp.time := now
      call := some (.receive m.cmdrsp.rspLen) }
  | .rxBusy =>
    if timeSince m.cmdrsp.time now > (timeMs 5000 : Nat) then .error (.error errRxTimeout) else .ok m
  | .rxDone =>
    match m.cmdrsp.rsp with
    | some rsp =>
      if memcmp m.rspbuf rsp m.cmdrsp.rspLen then .error (.error errBadResponse)
      else .ok ({ m with cmdrsp.state := .idle }.record (.reply m.rspbuf))
    | none => .ok ({ m with cmdrsp.state := .idle }.record (.reply m.rspbuf))

def txBytes (m : Main) : TxBuf → List Byte
  | .info => Sequence.info
  | .testmode => Sequence.testmode
  | .tcmd => m.tcmd.bytes

def commandResponse (m : Main) (now : TimeT) (cmd : TxBuf) (rsp : Option (List Byte)) (rspLen : Nat) : Main :=
  { m with
    cmdrsp := { rsp, rspLen, state := .txBusy, time := now }
    call := some (.transmit cmd (m.txBytes cmd).length) }.record (.command (m.txBytes cmd) rsp rspLen)

/-- The commands sent from `tcmd`, answered by a `struct rsp` -/
def sendCmd (m : Main) (now : TimeT) (tcmd : Cmd) : Main :=
  { m with tcmd }.commandResponse now .tcmd none sizeofRsp

def cmdLed (m : Main) (now : TimeT) (state : Byte) : Main := m.sendCmd now (.led state)

def cmdSetPin (m : Main) (now : TimeT) (pin : Option Nat) : Main := m.sendCmd now (.setPin pin)

def drive (m : Main) (mask : BitVec 64) : Main :=
  { m with odr := setPinmask mask m.odr }.record (.drive mask)

def misread (asserted : Option Nat) (pin : Nat) (level : Bool) : Bool :=
  (some pin = asserted ∧ level) ∨ (some pin ≠ asserted ∧ ¬ level)

def loadTrsp (m : Main) : Main := { m with trsp := memcpy m.trsp m.rspbuf sizeofRsp }

/-- The first line of `outp[]`, then of `inp[]`, whose level is wrong -/
def findBad (trsp : Buffer) (mask : BitVec 64) (wrong : Nat → Bool → Bool) : Option Nat :=
  match outp.find? fun pin => wrong pin (pinLevel trsp pin) with
  | some pin => some pin
  | none => inp.find? fun pin => wrong pin (mask.getLsbD pin)

def checkPins (m : Main) (idr : Gpio) (asserted : Option Nat) : Except Halt Main :=
  let mask := readPinmask idr
  let m := m.loadTrsp
  match findBad m.trsp mask (misread asserted) with
  | some pin => .error (.pinError pin)
  | none => .ok (m.record (.checked asserted mask))

def checkPinsLow (m : Main) (idr : Gpio) : Except Halt Main :=
  let mask := readPinmask idr
  let m := m.loadTrsp
  match findBad m.trsp mask (fun _ level => level) with
  | some pin => .error (.pinError pin)
  | none => .ok (m.record (.checkedLow mask))

def checkInfo (m : Main) : Except Halt Main :=
  let m := { m with gwInfo := .load m.rspbuf 2 }
  if m.gwInfo.maxCmd < cmdMax ∨ m.gwInfo.isMainFirmware = 0 then .error (.error errBadResponse)
  else .ok (m.record (.info m.gwInfo))

def badOptions (hwModel : Byte) (opt : Buffer) : Bool :=
  if hwModel = 1 ∨ hwModel = 4 then
    opt 0 ≠ 0xa5 ∨ opt 1 ≠ 0x5a ∨ [2, 4, 6, 8, 10, 12, 14].any fun i => opt i ≠ 0xff
  else if hwModel = 7 then opt 0 ≠ 0xff ∨ opt 1 ≠ 0xaa
  else false

def checkOptions (m : Main) : Except Halt Main :=
  let m := m.loadTrsp
  if badOptions m.gwInfo.hwModel m.trsp then .error (.text "OPT")
  else .ok (m.record (.options m.gwInfo.hwModel))

def checkHeaders (m : Main) : Except Halt Main :=
  let m := m.loadTrsp
  if word m.trsp 0 ≠ testHeaderSuccess then .error (.text "HDR") else .ok (m.record .headers)

/-- An interval that `test_wdat_osc()` rejects, looked for from the last one down -/
def badInterval (dmabuf : Nat → BitVec 16) : Bool :=
  (List.range 31).reverse.any fun i =>
    let x := dmabuf (i + 1) - dmabuf i
    x < 140 ∨ 148 < x

def testWdatOsc (m : Main) (tcif : Bool) (dmabuf : Nat → BitVec 16) : Except Halt Main :=
  if ¬ tcif then .error (.text "OSC")
  else if badInterval dmabuf then .error (.text "OSC")
  else .ok (m.record (.oscillation dmabuf))

def testUsbCc (adc : Nat → BitVec 12) : Bool :=
  [0, 1].any fun i => 0x7d8 ≤ adc i ∧ adc i ≤ 0x828

def checkCc (m : Main) (adc : Nat → BitVec 12) : Except Halt Main :=
  if m.gwInfo.hwModel = 4 ∧ m.gwInfo.hwSubmodel = 2 then
    if testUsbCc adc then .ok (m.record (.ccVoltage adc)) else .error (.text "CCN")
  else .ok m

/-- States 4 and 8: wrap `pin_iter`, leave for `state` after the last round, else assert the next pin. -/
def nextPin (m : Main) (pins : List Nat) (state : Nat) (assert : Main → Nat → Main) : Except Halt Main :=
  let asserted (m : Main) : Except Halt Main :=
    match pins[m.pinIter]? with
    | none => .error .outOfArray
    | some pin => .ok (assert m pin)
  if pins.length ≤ m.pinIter then
    if 10 < m.outerIter then .ok { m with pinIter := 0, outerIter := 0, state := state - 1 }
    else asserted { m with pinIter := 0, outerIter := m.outerIter + 1 }
  else asserted m

/-- States 5 and 10: check the pin just asserted and go back to `state`. -/
def checkPin (m : Main) (idr : Gpio) (pins : List Nat) (state : Nat) : Except Halt Main :=
  match pins[m.pinIter]? with
  | none => .error .outOfArray
  | some pin =>
    match m.checkPins idr (some pin) with
    | .error halt => .error halt
    | .ok m => .ok { m with pinIter := m.pinIter + 1, state := state - 1 }

def showPass (m : Main) (now : TimeT) : Main :=
  { ((m.record .pass).drive (-1)).cmdSetPin now none with success := true }

def runState (m : Main) (poll : Poll) : Except Halt Main :=
  match m.state with
  | 1 => .ok (m.commandResponse poll.now .info none 34)
  | 2 => m.checkInfo
  | 3 => .ok (m.commandResponse poll.now .testmode (some testmodersp) testmodersp.length)
  | 4 => m.nextPin inp 6 fun m pin => m.cmdSetPin poll.now (some pin)
  | 5 => m.checkPin poll.idr inp 4
  | 6 => .ok (m.cmdSetPin poll.now none)
  | 7 => m.checkPins poll.idr none
  | 8 => m.nextPin outp 11 fun m pin => m.drive (onlyLow pin)
  | 9 => .ok (m.cmdSetPin poll.now none)
  | 10 => m.checkPin poll.idr outp 8
  | 11 => .ok ((m.drive 0).sendCmd poll.now (.plain cmdPins))
  | 12 => m.checkPinsLow poll.idr
  | 13 => .ok (m.sendCmd poll.now (.plain cmdOptionBytes))
  | 14 => m.checkOptions
  | 15 => .ok (m.sendCmd poll.now (.plain cmdTestHeaders))
  | 16 => m.checkHeaders
  | 17 => .ok (m.sendCmd poll.now (.plain cmdWdatOscOn))
  | 18 =>
    match m.testWdatOsc poll.tcif poll.dmabuf with
    | .error halt => .error halt
    | .ok m => .ok (m.sendCmd poll.now (.plain cmdWdatOscOff))
  | 19 => m.checkCc poll.adc
  | 20 => .ok (m.showPass poll.now)
  | 21 => .ok ({ m with beeps := if m.beeps < 2 then m.beeps + 1 else m.beeps }.cmdLed poll.now 1)
  | 22 => .ok { m.cmdLed poll.now 0 with state := 21 - 1 }
  | _ => .ok m

def advance (m : Main) : Main := { m with state := m.state + 1 }

def newIteration (m : Main) : Main := { m with call := none }

/-- The loop after `usbh_cdc_process()` -/
def afterProcess (m : Main) (poll : Poll) : Except Halt Main :=
  if ¬ poll.connected then
    if m.state ≠ 0 ∨ m.cmdrsp.state ≠ .idle then .error .systemReset else .ok m
  else if m.cmdrsp.state ≠ .idle then m.commandResponseHandle poll.now
  else m.advance.runState poll

end Main

/-- One iteration of the loop of main() -/
def iterate (poll : Poll) (m : Main) : Except Halt Main :=
  match m.newIteration.usbhCdcProcess poll.actions with
  | .error halt => .error halt
  | .ok m => m.afterProcess poll

/-- The globals when the loop is entered; what the latches hold before `pins_init()` is left open. -/
def powerOn (latches : Gpio) : Main where
  state := 0
  pinIter := 0
  outerIter := 0
  success := false
  beeps := 0
  cmdrsp := { rsp := none, rspLen := 0, state := .idle, time := 0 }
  rspbuf := fun _ => 0
  tcmd := .plain 0
  trsp := fun _ => 0
  gwInfo := .load (fun _ => 0) 0
  odr := pinsInit latches
  call := none
  log := []

end Testjig.Sequence
