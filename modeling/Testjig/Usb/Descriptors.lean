import Mathlib.Logic.Function.Basic
import Testjig.Sequence.Loop

namespace Testjig.Usb

open Testjig.Sequence

inductive UsbhStatus where
  | ok
  | busy
  | fail
  | notSupported
  | unrecoveredError
  | errorSpeedUnknown
  | applyDeinit
deriving DecidableEq, Repr

def usbhMaxNumEndpoints : Nat := 3
def usbhMaxNumInterfaces : Nat := 2
def usbDescTypeInterface : Byte := 4
def usbDescTypeEndpoint : Byte := 5
def usbDeviceDescSize : Nat := 18
def usbConfigurationDescSize : Nat := 9
def usbLenCfgDesc : Nat := 9

structure DevDesc where
  bMaxPacketSize : Nat
  iManufacturer : Nat
  iProduct : Nat
  iSerialNumber : Nat

structure CfgDesc where
  wTotalLength : Nat
  bNumInterfaces : Nat
  bConfigurationValue : Nat

structure InterfaceDesc where
  bNumEndpoints : Nat
  bInterfaceClass : Byte
  bInterfaceProtocol : Byte

structure EpDesc where
  bEndpointAddress : Byte
  wMaxPacketSize : Nat

/-- `USBH_Device_TypeDef`, with the two statics of `USBH_ParseCfgDesc()` -/
structure DeviceProp where
  address : Nat
  speed : Nat
  devDesc : DevDesc
  cfgDesc : CfgDesc
  itfDesc : Nat → InterfaceDesc
  epDesc : Nat → Nat → EpDesc
  prevEpSize : Nat
  prevItf : Nat

def le16 (buf : Buffer) (i : Nat) : Nat := (buf i).toNat + 256 * (buf (i + 1)).toNat

def parseDevDesc (devDesc : DevDesc) (buf : Buffer) (length : Nat) : DevDesc :=
  let devDesc := { devDesc with bMaxPacketSize := (buf 7).toNat }
  if 8 < length then
    { devDesc with
      iManufacturer := (buf 14).toNat
      iProduct := (buf 15).toNat
      iSerialNumber := (buf 16).toNat }
  else devDesc

def parseInterfaceDesc (buf : Buffer) (pos : Nat) : InterfaceDesc where
  bNumEndpoints := (buf (pos + 4)).toNat
  bInterfaceClass := buf (pos + 5)
  bInterfaceProtocol := buf (pos + 7)

def parseEpDesc (buf : Buffer) (pos : Nat) : EpDesc where
  bEndpointAddress := buf (pos + 2)
  wMaxPacketSize := le16 buf (pos + 4)

/-- `pdesc` as an offset into the buffer, and the separate 16-bit count `ptr` -/
structure DescPtr where
  pdesc : Nat
  ptr : Nat

def getNextDesc (buf : Buffer) (p : DescPtr) : DescPtr :=
  ⟨p.pdesc + (buf p.pdesc).toNat, (p.ptr + (buf p.pdesc).toNat) % 2 ^ 16⟩

/-- The inner loop of `USBH_ParseCfgDesc()`. The entries it stores are bounded by the arrays' sizes. -/
def parseEndpoints (buf : Buffer) (ifIx : Nat) (pif : InterfaceDesc) :
    Nat → Nat → DescPtr → DeviceProp → Except Halt (DescPtr × DeviceProp)
  | 0, _, _, _ => .error .endless
  | fuel + 1, epIx, p, prop =>
    if epIx < pif.bNumEndpoints then
      let p := getNextDesc buf p
      if buf (p.pdesc + 1) = usbDescTypeEndpoint then
        if prop.prevItf = ifIx ∧ prop.prevEpSize > le16 buf (p.pdesc + 4) then .ok (p, prop)
        else if ifIx < usbhMaxNumInterfaces then
          parseEndpoints buf ifIx pif fuel (epIx + 1) p
            { prop with
              itfDesc := Function.update prop.itfDesc ifIx pif
              epDesc := Function.update prop.epDesc ifIx
                (Function.update (prop.epDesc ifIx) epIx (parseEpDesc buf p.pdesc))
              prevItf := ifIx
              prevEpSize := le16 buf (p.pdesc + 4) }
        else .error .outOfArray
      else parseEndpoints buf ifIx pif fuel epIx p prop
    else .ok (p, prop)

/-- A loop over descriptors that advances has left the address space after this many of them. -/
def descLoops : Nat := 2 ^ 16

/-- The outer loop of `USBH_ParseCfgDesc()` -/
def parseInterfaces (buf : Buffer) : Nat → DescPtr → DeviceProp → Except Halt (DeviceProp × UsbhStatus)
  | 0, _, _ => .error .endless
  | fuel + 1, p, prop =>
    if p.ptr < prop.cfgDesc.wTotalLength then
      let p := getNextDesc buf p
      if buf (p.pdesc + 1) = usbDescTypeInterface ∧ buf (p.pdesc + 3) < 3 then
        let pif := parseInterfaceDesc buf p.pdesc
        if pif.bNumEndpoints ≤ usbhMaxNumEndpoints then
          match parseEndpoints buf (buf (p.pdesc + 2)).toNat pif descLoops 0 p prop with
          | .error halt => .error halt
          | .ok (p, prop) => parseInterfaces buf fuel p prop
        else .ok (prop, .notSupported)
      else parseInterfaces buf fuel p prop
    else .ok ({ prop with prevEpSize := 0, prevItf := 0 }, .ok)

def parseCfgDesc (prop : DeviceProp) (buf : Buffer) (length : Nat) : Except Halt (DeviceProp × UsbhStatus) :=
  let prop := { prop with
    cfgDesc.wTotalLength := le16 buf 2
    cfgDesc.bNumInterfaces := (buf 4).toNat
    cfgDesc.bConfigurationValue := (buf 5).toNat }
  if usbConfigurationDescSize < length then
    if prop.cfgDesc.bNumInterfaces ≤ usbhMaxNumInterfaces then
      parseInterfaces buf descLoops ⟨0, usbLenCfgDesc⟩ prop
    else .ok (prop, .notSupported)
  else .ok (prop, .ok)

end Testjig.Usb
