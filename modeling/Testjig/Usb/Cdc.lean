import Testjig.Usb.Core

namespace Testjig.Usb

open Testjig.Sequence

def usbCdcClass : Byte := 0x02
def commonAtCommand : Byte := 0x01

/-- What `USBH_CDC_InterfaceInit()` takes from one endpoint descriptor -/
def Cdc.useEndpoint (cdc : Cdc) (ep : EpDesc) : Cdc :=
  if ep.bEndpointAddress &&& 0x80 ≠ 0 then { cdc with inEp := ep.bEndpointAddress, inEpSize := ep.wMaxPacketSize }
  else { cdc with outEp := ep.bEndpointAddress, outEpSize := ep.wMaxPacketSize }

namespace Usbh

def interfaceInit (usb : Usbh) : Usbh × UsbhStatus :=
  let prop := usb.phost.deviceProp
  if (prop.itfDesc 0).bInterfaceClass ≠ usbCdcClass ∨ (prop.itfDesc 0).bInterfaceProtocol ≠ commonAtCommand then
    (usb.usrDeviceNotSupported, .ok)
  else
    let cdc := (usb.cdc.useEndpoint (prop.epDesc 1 0)).useEndpoint (prop.epDesc 1 1)
    let out := usb.pdev.allocChannel cdc.outEp
    let inn := out.1.allocChannel cdc.inEp
    ({ usb with
      cdc := { cdc with outPipe := out.2, inPipe := inn.2 }
      pdev := (inn.1.openChannel out.2 prop.address prop.speed .bulk cdc.outEpSize).openChannel
        inn.2 prop.address prop.speed .bulk cdc.inEpSize }, .ok)

def interfaceDeInit (usb : Usbh) : Usbh :=
  let usb :=
    if usb.cdc.outPipe ≠ 0 then { usb with pdev := usb.pdev.freeChannel usb.cdc.outPipe, cdc.outPipe := 0 } else usb
  if usb.cdc.inPipe ≠ 0 then { usb with pdev := usb.pdev.freeChannel usb.cdc.inPipe, cdc.inPipe := 0 } else usb

def classRequest (usb : Usbh) : Usbh × UsbhStatus := ({ usb with cdc.state := .idleState }.usrUserApplication, .ok)

def act (usb : Usbh) (action : UsbAction) : Usbh := { usb with actions := usb.actions ++ [action] }

def processTransmission (usb : Usbh) (env : Env) : Usbh :=
  match usb.cdc.dataTxState with
  | .sendData =>
    let length :=
      if usb.cdc.outEpSize < usb.cdc.txDataLength then usb.cdc.outEpSize else usb.cdc.txDataLength % 2 ^ 16
    { usb with
      pdev := usb.pdev.bulkSendData usb.cdc.pTxData length usb.cdc.outPipe
      cdc.dataTxState := .sendDataWait }
  | .sendDataWait =>
    let usb := usb.irq env .transmission
    match usb.pdev.urbState usb.cdc.outPipe with
    | .done =>
      if usb.cdc.outEpSize < usb.cdc.txDataLength then
        { usb with
          cdc.txDataLength := usb.cdc.txDataLength - usb.cdc.outEpSize
          cdc.pTxData := usb.cdc.pTxData.add usb.cdc.outEpSize
          cdc.dataTxState := .sendData }
      else { usb with cdc.txDataLength := 0, cdc.dataTxState := .idle }.act .transmitted
    | .notready => { usb with cdc.dataTxState := .sendData }
    | _ => usb
  | _ => usb

def processReception (usb : Usbh) (env : Env) : Usbh :=
  match usb.cdc.dataRxState with
  | .receiveData =>
    { usb with
      pdev := usb.pdev.bulkReceiveData usb.cdc.pRxData usb.cdc.inEpSize usb.cdc.inPipe
      cdc.dataRxState := .receiveDataWait }
  | .receiveDataWait =>
    let usb := usb.irq env .reception
    if usb.pdev.urbState usb.cdc.inPipe = .done then
      let usb := usb.irq env .xferCnt
      if usb.pdev.xferCnt usb.cdc.inPipe = 0 then { usb with cdc.dataRxState := .receiveData }
      else { usb with cdc.dataRxState := .idle }.act .received
    else usb
  | _ => usb

def handle (env : Env) (usb : Usbh) : Usbh × UsbhStatus :=
  let usb := usb.irq env .handle
  if usb.pdev.port.connSts then
    match usb.cdc.state with
    | .idleState => (usb, .ok)
    | .transferData => ((usb.processTransmission env).processReception env, .busy)
    | _ => (usb, .busy)
  else (usb, .busy)

def transmit (usb : Usbh) (pbuff : Ptr) (length : Nat) : Usbh × UsbhStatus :=
  if usb.cdc.state = .idleState ∨ usb.cdc.state = .transferData then
    ({ usb with cdc := { usb.cdc with
      pTxData := pbuff
      txDataLength := length
      state := .transferData
      dataTxState := .sendData } }, .ok)
  else (usb, .busy)

def receive (usb : Usbh) (pbuff : Ptr) (length : Nat) : Usbh × UsbhStatus :=
  if usb.cdc.state = .idleState ∨ usb.cdc.state = .transferData then
    ({ usb with cdc := { usb.cdc with
      pRxData := pbuff
      rxDataLength := length
      state := .transferData
      dataRxState := .receiveData } }, .ok)
  else (usb, .busy)

def cdcCall (usb : Usbh) : CdcCall → Usbh × UsbhStatus
  | .transmit buf len => usb.transmit ⟨.tx buf, 0⟩ len
  | .receive len => usb.receive ⟨.rspbuf, 0⟩ len

/-- The call that main.c makes in an iteration, whose result it ignores -/
def serve (usb : Usbh) : Option CdcCall → Usbh
  | some call => (usb.cdcCall call).1
  | none => usb

def connected (usb : Usbh) : Bool := usb.cdcDeviceConnected && usb.pdev.port.connSts

end Usbh

def usbhCdcCb : ClassCb where
  init := Usbh.interfaceInit
  deInit := Usbh.interfaceDeInit
  requests := Usbh.classRequest
  machine := Usbh.handle

/-- The class with a machine that reports USBH_UNRECOVERED_ERROR, which `USBH_CDC_Handle()` never does by itself -/
def usbhCdcCb.failing : ClassCb := { usbhCdcCb with
  machine := fun env usb => ((usb.handle env).1, .unrecoveredError) }

/-- The class driver, with `fault` as the version that reports an unrecovered error -/
def classCb (fault : Bool) : ClassCb := if fault then usbhCdcCb.failing else usbhCdcCb

/-- What one call of `usbh_cdc_process()` meets when only interrupts touch `pdev` from outside -/
structure Turn where
  irqs : Point → List Irq
  stk : BitVec 32
  prtspd : Nat

def Turn.env (turn : Turn) : Env := ⟨fun point pdev => pdev.interrupts (turn.irqs point), turn.stk, turn.prtspd⟩

/-- A call of `usbh_cdc_process()`, and any call that main.c may make after it -/
structure Pass extends Turn where
  call : Option CdcCall

def Usbh.pass (x : Pass) (usb : Usbh) : Except Halt Usbh :=
  match { usb with actions := [] }.process usbhCdcCb x.env with
  | .error halt => .error halt
  | .ok usb => .ok ((usb.irq x.env .exit).serve x.call)

def zeroed : Usbh where
  pdev := {
    port := { connSts := false, portEnabled := false, intEnabled := false, resetIssued := false, drops := 0 }
    xferCnt := fun _ => 0
    hcStatus := fun _ => .idle
    urbState := fun _ => .idle
    hc := fun _ => {
      devAddr := 0, epNum := 0, epIsIn := false, speed := 0, epType := .ctrl, maxPacket := 0, dataPid := .data0
      xferBuff := .null, xferLen := 0, xferCount := 0, requested := 0, toggleIn := false, toggleOut := false
      epdir := false, eptype := .ctrl, chen := false, pktcnt := 0, chhltd := false }
    channel := fun _ => 0
    ram := fun _ _ => 0
    high := fun _ => 0
    delivered := []
    overlong := false }
  phost := {
    gState := .idle, gStateBkp := .idle, enumState := .idle, requestState := .idle
    control := {
      hcNumIn := 0, hcNumOut := 0, ep0size := 0, buff := .null, length := 0, errorcount := 0
      setup := { bmRequestType := 0, bRequest := 0, wValue := 0, wIndex := 0, wLength := 0 }
      state := .idle
      timer := { prevStk := 0, ticks := 0 } }
    deviceProp := {
      address := 0, speed := 0
      devDesc := { bMaxPacketSize := 0, iManufacturer := 0, iProduct := 0, iSerialNumber := 0 }
      cfgDesc := { wTotalLength := 0, bNumInterfaces := 0, bConfigurationValue := 0 }
      itfDesc := fun _ => { bNumEndpoints := 0, bInterfaceClass := 0, bInterfaceProtocol := 0 }
      epDesc := fun _ _ => { bEndpointAddress := 0, wMaxPacketSize := 0 }
      prevEpSize := 0, prevItf := 0 } }
  cdc := {
    inPipe := 0, outPipe := 0, outEp := 0, inEp := 0, outEpSize := 0, inEpSize := 0
    pTxData := .null, pRxData := .null, txDataLength := 0, rxDataLength := 0
    state := .idleState, dataTxState := .idle, dataRxState := .idle }
  cdcDeviceConnected := false
  actions := []
  enumerations := 0

def usbhCdcInit : Usbh :=
  let usb := { zeroed with toStack := zeroed.toStack.deInit }
  { usb with pdev := usb.pdev.init }

end Testjig.Usb
