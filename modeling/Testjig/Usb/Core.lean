import Testjig.Usb.Host

namespace Testjig.Usb

open Testjig.Sequence

inductive CdcDataState where
  | idle
  | sendData
  | sendDataWait
  | receiveData
  | receiveDataWait
deriving DecidableEq, Repr

inductive CdcState where
  | idleState
  | setLineCodingState
  | getLastLineCodingState
  | transferData
  | errorState
deriving DecidableEq, Repr

structure Cdc where
  inPipe : Nat
  outPipe : Nat
  outEp : Byte
  inEp : Byte
  outEpSize : Nat
  inEpSize : Nat
  pTxData : Ptr
  pRxData : Ptr
  txDataLength : Nat
  rxDataLength : Nat
  state : CdcState
  dataTxState : CdcDataState
  dataRxState : CdcDataState

/-- The USB stack with the class driver, the flag of usbh_glue.c, the callbacks that
`usbh_cdc_process()` has made into main.c, and the number of enumerations begun. -/
structure Usbh extends Stack where
  cdc : Cdc
  cdcDeviceConnected : Bool
  actions : List UsbAction
  enumerations : Nat

/-- The places in one call of `usbh_cdc_process()` where it matters which interrupts have come -/
inductive Point where
  | connSts
  | portEnabled
  | state
  | reset
  | handle
  | transmission
  | reception
  | xferCnt
  | exit
deriving DecidableEq, Repr

/-- What one call of `usbh_cdc_process()` meets: interrupts, SysTick, and the speed bits of HPRT0. -/
structure Env where
  irq : Point → Hcd → Hcd
  stk : BitVec 32
  prtspd : Nat

structure ClassCb where
  init : Usbh → Usbh × UsbhStatus
  deInit : Usbh → Usbh
  requests : Usbh → Usbh × UsbhStatus
  machine : Env → Usbh → Usbh × UsbhStatus

def usbhDeviceAddressDefault : Nat := 0
def usbOtgMaxEp0Size : Nat := 64
def hprt0PrtspdFullSpeed : Nat := 1

def Stack.deInit (s : Stack) : Stack where
  phost := { s.phost with
    gState := .idle
    gStateBkp := .idle
    enumState := .idle
    requestState := .send
    control := { s.phost.control with state := .setup, ep0size := usbOtgMaxEp0Size }
    deviceProp := { s.phost.deviceProp with address := usbhDeviceAddressDefault, speed := hprt0PrtspdFullSpeed } }
  pdev := (s.pdev.freeChannel s.phost.control.hcNumIn).freeChannel s.phost.control.hcNumOut

namespace Usbh

def irq (usb : Usbh) (env : Env) (point : Point) : Usbh := { usb with pdev := env.irq point usb.pdev }

def setState (usb : Usbh) (state : HostState) : Usbh := { usb with phost.gState := state }

def usrUserApplication (usb : Usbh) : Usbh := { usb with cdcDeviceConnected := true }

def usrDeInit (usb : Usbh) : Usbh := { usb with cdcDeviceConnected := false }

def usrDeviceDisconnected (usb : Usbh) : Usbh := { usb with cdcDeviceConnected := false }

def usrUnrecoveredError (usb : Usbh) : Usbh := { usb with cdcDeviceConnected := false }

/-- `USBH_USR_DeviceNotSupported()` only prints. -/
def usrDeviceNotSupported (usb : Usbh) : Usbh := usb

def errorHandle (usb : Usbh) : UsbhStatus → Usbh
  | .errorSpeedUnknown | .unrecoveredError => usb.usrUnrecoveredError.setState .errorState
  | .applyDeinit => usb.setState .errorState
  | _ => usb

/-- The re-initialization in `HOST_ERROR_STATE` and `HOST_DEV_DISCONNECTED` -/
def deInit (usb : Usbh) (classCb : ClassCb) : Usbh :=
  classCb.deInit { usb with toStack := usb.toStack.deInit }.usrDeInit

/-- `HOST_DEV_ATTACHED`; `HCD_ResetPort()` returns 0. -/
def devAttached (usb : Usbh) (env : Env) : Usbh :=
  let out := usb.pdev.allocChannel 0x00
  let inn := out.1.allocChannel 0x80
  let usb := { usb with
    pdev := inn.1
    phost.control.hcNumOut := out.2
    phost.control.hcNumIn := inn.2
    enumerations := usb.enumerations + 1 }.irq env .reset
  let prop := usb.phost.deviceProp
  let ep0size := usb.phost.control.ep0size
  { usb with
    phost := { usb.phost with deviceProp.speed := env.prtspd, gState := .enumeration }
    pdev := (usb.pdev.resetPort.openChannel inn.2 prop.address env.prtspd .ctrl ep0size).openChannel
      out.2 prop.address env.prtspd .ctrl ep0size }

def devDisconnected (usb : Usbh) (classCb : ClassCb) : Usbh :=
  let usb := usb.usrDeviceDisconnected.deInit classCb
  { usb with pdev := usb.pdev.deAllocateAllChannel.init }.setState .idle

/-- The check for port events at the head of `USBH_Process()` -/
def portEvents (usb : Usbh) (env : Env) : Usbh :=
  let usb := usb.irq env .connSts
  let connected := usb.pdev.port.connSts
  let usb := usb.irq env .portEnabled
  if (¬ connected ∨ ¬ usb.pdev.port.portEnabled) ∧ usb.phost.gState ≠ .idle then usb.setState .devDisconnected
  else usb

def process (usb : Usbh) (classCb : ClassCb) (env : Env) : Except Halt Usbh :=
  let usb := (usb.portEvents env).irq env .state
  match usb.phost.gState with
  | .idle =>
    if usb.pdev.port.connSts then
      let usb := (usb.setState .waitPrtEnabled).irq env .reset
      .ok { usb with pdev := usb.pdev.resetPort }
    else .ok usb
  | .waitPrtEnabled => .ok (if usb.pdev.port.portEnabled then usb.setState .devAttached else usb)
  | .devAttached => .ok (usb.devAttached env)
  | .enumeration =>
    match usb.toStack.handleEnum with
    | .error halt => .error halt
    | .ok (stack, .ok) => .ok ({ usb with toStack := stack }.setState .usrInput)
    | .ok (stack, _) => .ok { usb with toStack := stack }
  | .usrInput =>
    match classCb.init usb with
    | (usb, .ok) => .ok (usb.setState .classRequest)
    | (usb, _) => .ok usb
  | .classRequest =>
    match classCb.requests usb with
    | (usb, .ok) => .ok (usb.setState .hostClass)
    | (usb, status) => .ok (usb.errorHandle status)
  | .hostClass =>
    match classCb.machine env usb with
    | (usb, status) => .ok (usb.errorHandle status)
  | .ctrlXfer => .ok { usb with toStack := usb.toStack.handleControl env.stk }
  | .errorState => .ok (usb.deInit classCb)
  | .devDisconnected => .ok (usb.devDisconnected classCb)

end Usbh

end Testjig.Usb
