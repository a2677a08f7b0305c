import Testjig.Usb.Channels
import Testjig.Usb.Descriptors

namespace Testjig.Usb

open Testjig.Sequence Testjig.Time

inductive HostState where
  | idle
  | waitPrtEnabled
  | devAttached
  | devDisconnected
  | enumeration
  | classRequest
  | hostClass
  | ctrlXfer
  | usrInput
  | errorState
deriving DecidableEq, Repr

inductive EnumState where
  | idle
  | getFullDevDesc
  | setAddr
  | getCfgDesc
  | getFullCfgDesc
  | getMfcStringDesc
  | getProductStringDesc
  | getSerialnumStringDesc
  | setConfiguration
  | devConfigured
deriving DecidableEq, Repr

inductive CtrlState where
  | idle
  | setup
  | setupWait
  | dataIn
  | dataInWait
  | dataOut
  | dataOutWait
  | statusIn
  | statusInWait
  | statusOut
  | statusOutWait
  | error
  | stalled
  | complete
deriving DecidableEq, Repr

inductive CmdState where
  | idle
  | send
  | wait
deriving DecidableEq, Repr

structure Setup where
  bmRequestType : Byte
  bRequest : Byte
  wValue : BitVec 16
  wIndex : BitVec 16
  wLength : Nat

structure BspTimer where
  prevStk : BitVec 32
  ticks : BitVec 32

/-- `USBH_Ctrl_TypeDef`, with the timer of `USBH_HandleControl()` -/
structure Ctrl where
  hcNumIn : Nat
  hcNumOut : Nat
  ep0size : Nat
  buff : Ptr
  length : Nat
  errorcount : BitVec 8
  setup : Setup
  state : CtrlState
  timer : BspTimer

structure Host where
  gState : HostState
  gStateBkp : HostState
  enumState : EnumState
  requestState : CmdState
  control : Ctrl
  deviceProp : DeviceProp

def usbReqDirMask : Byte := 0x80
def usbH2d : Byte := 0x00
def usbD2h : Byte := 0x80
def usbReqRecipientDevice : Byte := 0x00
def usbReqTypeStandard : Byte := 0x00
def usbReqSetAddress : Byte := 0x05
def usbReqGetDescriptor : Byte := 0x06
def usbReqSetConfiguration : Byte := 0x09
def usbDescDevice : BitVec 16 := 0x0100
def usbDescConfiguration : BitVec 16 := 0x0200
def usbDescString : BitVec 16 := 0x0300
def usbhMaxErrorCount : BitVec 8 := 2
def usbhDeviceAddress : Nat := 1
def usbhMaxDataBuffer : Nat := 0x400
def dataStageTimeout : Nat := 5000
def nodataStageTimeout : Nat := 50

/-- `usbh_buf`, which main() registers with `usbh_cdc_buffer_set()` -/
def cfgRxBuffer : Ptr := ⟨.usbhBuf, 0⟩

def bspInitTimer (stk : BitVec 32) (timeoutMs : Nat) : BspTimer := ⟨stk, BitVec.ofNat 32 (stkMs timeoutMs)⟩

def bspTimerFired (t : BspTimer) (stk : BitVec 32) : BspTimer × Bool :=
  let diff := (t.prevStk - stk) &&& stkMask
  if t.ticks ≤ diff then ({ t with ticks := 0 }, true) else ({ prevStk := stk, ticks := t.ticks - diff }, false)

namespace Host

def submitSetupRequest (phost : Host) (buff : Ptr) (length : Nat) : Host :=
  { phost with
    gStateBkp := phost.gState
    gState := .ctrlXfer
    control := { phost.control with buff, length, state := .setup } }

def ctlReq (phost : Host) (buff : Ptr) (length : Nat) : Host × UsbhStatus :=
  match phost.requestState with
  | .send => ({ phost.submitSetupRequest buff length with requestState := .wait }, .busy)
  | .wait =>
    match phost.control.state with
    | .complete => ({ phost with requestState := .send, control.state := .idle }, .ok)
    | .error => ({ phost with requestState := .send }, .fail)
    | .stalled => ({ phost with requestState := .send }, .notSupported)
    | _ => (phost, .busy)
  | .idle => (phost, .busy)

def getDescriptor (phost : Host) (reqType : Byte) (valueIdx : BitVec 16) (buff : Ptr) (length : Nat) :
    Host × UsbhStatus :=
  let setup : Setup :=
    { bmRequestType := usbD2h ||| reqType
      bRequest := usbReqGetDescriptor
      wValue := valueIdx
      wIndex := if valueIdx &&& 0xff00 = usbDescString then 0x0409 else 0
      wLength := length }
  { phost with control.setup := setup }.ctlReq buff length

def getDevDesc (phost : Host) (ram : Buffer) (length : Nat) : Host × UsbhStatus :=
  match phost.getDescriptor (usbReqRecipientDevice ||| usbReqTypeStandard) usbDescDevice cfgRxBuffer length with
  | (phost, .ok) =>
    ({ phost with deviceProp.devDesc := parseDevDesc phost.deviceProp.devDesc ram length }, .ok)
  | (phost, status) => (phost, status)

def getCfgDesc (phost : Host) (ram : Buffer) (length : Nat) : Except Halt (Host × UsbhStatus) :=
  match phost.getDescriptor (usbReqRecipientDevice ||| usbReqTypeStandard) usbDescConfiguration cfgRxBuffer length with
  | (phost, .ok) =>
    match parseCfgDesc phost.deviceProp ram length with
    | .error halt => .error halt
    | .ok (deviceProp, status) => .ok ({ phost with deviceProp }, status)
  | (phost, status) => .ok (phost, status)

/-- `USBH_Get_StringDesc()`; the string itself is only printed. -/
def getStringDesc (phost : Host) (stringIndex : Nat) : Host × UsbhStatus :=
  phost.getDescriptor (usbReqRecipientDevice ||| usbReqTypeStandard)
    (usbDescString ||| BitVec.ofNat 16 stringIndex) cfgRxBuffer 512

def setAddress (phost : Host) (deviceAddress : Nat) : Host × UsbhStatus :=
  let setup : Setup :=
    { bmRequestType := usbH2d ||| usbReqRecipientDevice ||| usbReqTypeStandard
      bRequest := usbReqSetAddress
      wValue := BitVec.ofNat 16 deviceAddress
      wIndex := 0
      wLength := 0 }
  { phost with control.setup := setup }.ctlReq .null 0

def setCfg (phost : Host) (cfgIdx : Nat) : Host × UsbhStatus :=
  let setup : Setup :=
    { bmRequestType := usbH2d ||| usbReqRecipientDevice ||| usbReqTypeStandard
      bRequest := usbReqSetConfiguration
      wValue := BitVec.ofNat 16 cfgIdx
      wIndex := 0
      wLength := 0 }
  { phost with control.setup := setup }.ctlReq .null 0

/-- A string stage of `USBH_HandleEnum()` -/
def stringStage (phost : Host) (stringIndex : Nat) (next : EnumState) : Host :=
  if stringIndex ≠ 0 then
    match phost.getStringDesc stringIndex with
    | (phost, .ok) => { phost with enumState := next }
    | (phost, _) => phost
  else { phost with enumState := next }

end Host

structure Stack where
  pdev : Hcd
  phost : Host

namespace Stack

def handleEnum (s : Stack) : Except Halt (Stack × UsbhStatus) :=
  let ram := s.pdev.ram cfgRxBuffer.object
  match s.phost.enumState with
  | .idle =>
    match s.phost.getDevDesc ram 8 with
    | (phost, .ok) =>
      let ep0size := phost.deviceProp.devDesc.bMaxPacketSize
      let phost := { phost with control.ep0size := ep0size, enumState := .getFullDevDesc }
      let pdev := (s.pdev.modifyChannel phost.control.hcNumOut 0 0 ep0size).modifyChannel
        phost.control.hcNumIn 0 0 ep0size
      .ok (⟨pdev, phost⟩, .busy)
    | (phost, _) => .ok ({ s with phost }, .busy)
  | .getFullDevDesc =>
    match s.phost.getDevDesc ram usbDeviceDescSize with
    | (phost, .ok) => .ok ({ s with phost := { phost with enumState := .setAddr } }, .busy)
    | (phost, _) => .ok ({ s with phost }, .busy)
  | .setAddr =>
    match s.phost.setAddress usbhDeviceAddress with
    | (phost, .ok) =>
      let phost := { phost with deviceProp.address := usbhDeviceAddress, enumState := .getCfgDesc }
      let pdev := (s.pdev.modifyChannel phost.control.hcNumIn usbhDeviceAddress 0 0).modifyChannel
        phost.control.hcNumOut usbhDeviceAddress 0 0
      .ok (⟨pdev, phost⟩, .busy)
    | (phost, _) => .ok ({ s with phost }, .busy)
  | .getCfgDesc =>
    match s.phost.getCfgDesc ram usbConfigurationDescSize with
    | .error halt => .error halt
    | .ok (phost, .ok) =>
      if phost.deviceProp.cfgDesc.wTotalLength ≤ usbhMaxDataBuffer then
        .ok ({ s with phost := { phost with enumState := .getFullCfgDesc } }, .busy)
      else .ok ({ s with phost }, .busy)
    | .ok (phost, _) => .ok ({ s with phost }, .busy)
  | .getFullCfgDesc =>
    match s.phost.getCfgDesc ram s.phost.deviceProp.cfgDesc.wTotalLength with
    | .error halt => .error halt
    | .ok (phost, .ok) => .ok ({ s with phost := { phost with enumState := .getMfcStringDesc } }, .busy)
    | .ok (phost, _) => .ok ({ s with phost }, .busy)
  | .getMfcStringDesc =>
    .ok ({ s with
      phost := s.phost.stringStage s.phost.deviceProp.devDesc.iManufacturer .getProductStringDesc }, .busy)
  | .getProductStringDesc =>
    .ok ({ s with
      phost := s.phost.stringStage s.phost.deviceProp.devDesc.iProduct .getSerialnumStringDesc }, .busy)
  | .getSerialnumStringDesc =>
    .ok ({ s with
      phost := s.phost.stringStage s.phost.deviceProp.devDesc.iSerialNumber .setConfiguration }, .busy)
  | .setConfiguration =>
    match s.phost.setCfg s.phost.deviceProp.cfgDesc.bConfigurationValue with
    | (phost, .ok) => .ok ({ s with phost := { phost with enumState := .devConfigured } }, .busy)
    | (phost, _) => .ok ({ s with phost }, .busy)
  | .devConfigured => .ok (s, .ok)

def setCtrl (s : Stack) (state : CtrlState) : Stack := { s with phost.control.state := state }

/-- Ends the control transfer and returns to the state it was started from. -/
def endCtrl (s : Stack) (state : CtrlState) : Stack :=
  { s with phost := { s.phost with gState := s.phost.gStateBkp, control.state := state } }

/-- `USB_OTG_BSP_TimerFired(&timer)`, and the error state when it has -/
def checkTimer (s : Stack) (stk : BitVec 32) : Stack :=
  match bspTimerFired s.phost.control.timer stk with
  | (timer, fired) =>
    let s := { s with phost.control.timer := timer }
    if fired then s.setCtrl .error else s

def handleControl (s : Stack) (stk : BitVec 32) : Stack :=
  let control := s.phost.control
  match control.state with
  | .setup => { s with pdev := s.pdev.ctlSendSetup ⟨.setup, 0⟩ control.hcNumOut }.setCtrl .setupWait
  | .setupWait =>
    match s.pdev.urbState control.hcNumOut with
    | .done =>
      let dirIn := control.setup.bmRequestType &&& usbReqDirMask = usbD2h
      if control.setup.wLength ≠ 0 then
        { s with phost.control.timer := bspInitTimer stk dataStageTimeout }.setCtrl
          (if dirIn then .dataIn else .dataOut)
      else
        { s with phost.control.timer := bspInitTimer stk nodataStageTimeout }.setCtrl
          (if dirIn then .statusOut else .statusIn)
    | .error => s.setCtrl .error
    | _ => s
  | .dataIn =>
    { s with pdev := s.pdev.ctlReceiveData control.buff control.length control.hcNumIn }.setCtrl .dataInWait
  | .dataInWait =>
    match s.pdev.urbState control.hcNumIn with
    | .done => (s.setCtrl .statusOut).checkTimer stk
    | .stall => s.endCtrl .stalled
    | .error => s.setCtrl .error
    | _ => s.checkTimer stk
  | .dataOut =>
    let pdev := s.pdev.edit control.hcNumOut fun c => { c with toggleOut := true }
    { s with pdev := pdev.ctlSendData control.buff control.length control.hcNumOut }.setCtrl .dataOutWait
  | .dataOutWait =>
    match s.pdev.urbState control.hcNumOut with
    | .done => s.setCtrl .statusIn
    | .stall => s.endCtrl .stalled
    | .notready => s.setCtrl .dataOut
    | .error => s.setCtrl .error
    | .idle => s
  | .statusIn => { s with pdev := s.pdev.ctlReceiveData .null 0 control.hcNumIn }.setCtrl .statusInWait
  | .statusInWait =>
    match s.pdev.urbState control.hcNumIn with
    | .done => s.endCtrl .complete
    | .error => s.setCtrl .error
    | urb =>
      match bspTimerFired control.timer stk with
      | (timer, true) => { s with phost.control.timer := timer }.setCtrl .error
      | (timer, false) =>
        let s := { s with phost.control.timer := timer }
        if urb = .stall then s.endCtrl .stalled else s
  | .statusOut =>
    let pdev := s.pdev.edit control.hcNumOut fun c => { c with toggleOut := !c.toggleOut }
    { s with pdev := pdev.ctlSendData .null 0 control.hcNumOut }.setCtrl .statusOutWait
  | .statusOutWait =>
    match s.pdev.urbState control.hcNumOut with
    | .done => s.endCtrl .complete
    | .notready => s.setCtrl .statusOut
    | .error => s.setCtrl .error
    | _ => s
  | .error =>
    let errorcount := control.errorcount + 1
    let s := { s with phost.control.errorcount := errorcount }
    if errorcount ≤ usbhMaxErrorCount then s.setCtrl .setup
    else { s with phost.gState := s.phost.gStateBkp }
  | .idle | .stalled | .complete => s

end Stack

end Testjig.Usb
