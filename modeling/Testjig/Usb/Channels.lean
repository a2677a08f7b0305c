import Testjig.Usb.Hcd

namespace Testjig.Usb

open Testjig.Sequence

def hcMax : Nat := 8
def hcUsed : BitVec 16 := 0x8000
def hcUsedMask : BitVec 16 := 0x7FFF
def hcError : Nat := 0xFFFF

namespace Hcd

def getFreeChannel (pdev : Hcd) : Nat :=
  match (List.range hcMax).find? fun idx => pdev.channel idx &&& hcUsed = 0 with
  | some idx => idx
  | none => hcError

/-- `USBH_Alloc_Channel()`, which returns the number as a `uint8_t` -/
def allocChannel (pdev : Hcd) (epAddr : Byte) : Hcd × Nat :=
  let hcNum := pdev.getFreeChannel
  if hcNum ≠ hcError then
    ({ pdev with channel := Function.update pdev.channel hcNum (hcUsed ||| epAddr.setWidth 16) }, hcNum % 256)
  else (pdev, hcNum % 256)

def freeChannel (pdev : Hcd) (idx : Nat) : Hcd :=
  if idx < hcMax then { pdev with channel := Function.update pdev.channel idx (pdev.channel idx &&& hcUsedMask) }
  else pdev

def deAllocateAllChannel (pdev : Hcd) : Hcd :=
  { pdev with channel := fun idx => if 2 ≤ idx ∧ idx < hcMax then 0 else pdev.channel idx }

def openChannel (pdev : Hcd) (hcNum devAddress speed : Nat) (epType : EpType) (mps : Nat) : Hcd :=
  (pdev.edit hcNum fun c => { c with
    epNum := (pdev.channel hcNum &&& 0x7F).toNat
    epIsIn := pdev.channel hcNum &&& 0x80 = 0x80
    devAddr := devAddress
    epType
    maxPacket := mps
    speed
    toggleIn := false
    toggleOut := false }).hcInit hcNum

def modifyChannel (pdev : Hcd) (hcNum devAddress speed mps : Nat) : Hcd :=
  (pdev.edit hcNum fun c => { c with
    devAddr := if devAddress ≠ 0 then devAddress else c.devAddr
    maxPacket := if c.maxPacket ≠ mps ∧ mps ≠ 0 then mps else c.maxPacket
    speed := if c.speed ≠ speed ∧ speed ≠ 0 then speed else c.speed }).hcInit hcNum

def ctlSendSetup (pdev : Hcd) (buff : Ptr) (hcNum : Nat) : Hcd :=
  (pdev.edit hcNum fun c => { c with
    epIsIn := false, dataPid := .setup, xferBuff := buff, xferLen := 8 }).submitRequest hcNum

def togglePid (toggle : Bool) : DataPid := if toggle then .data1 else .data0

def ctlSendData (pdev : Hcd) (buff : Ptr) (length hcNum : Nat) : Hcd :=
  (pdev.edit hcNum fun c =>
    let toggleOut := if length = 0 then true else c.toggleOut
    { c with
      epIsIn := false, xferBuff := buff, xferLen := length, toggleOut
      dataPid := togglePid toggleOut }).submitRequest hcNum

def ctlReceiveData (pdev : Hcd) (buff : Ptr) (length hcNum : Nat) : Hcd :=
  (pdev.edit hcNum fun c => { c with
    epIsIn := true, dataPid := .data1, xferBuff := buff, xferLen := length }).submitRequest hcNum

def bulkSendData (pdev : Hcd) (buff : Ptr) (length hcNum : Nat) : Hcd :=
  (pdev.edit hcNum fun c => { c with
    epIsIn := false, xferBuff := buff, xferLen := length, dataPid := togglePid c.toggleOut }).submitRequest hcNum

def bulkReceiveData (pdev : Hcd) (buff : Ptr) (length hcNum : Nat) : Hcd :=
  (pdev.edit hcNum fun c => { c with
    epIsIn := true, xferBuff := buff, xferLen := length, dataPid := togglePid c.toggleIn }).submitRequest hcNum

end Hcd

end Testjig.Usb
