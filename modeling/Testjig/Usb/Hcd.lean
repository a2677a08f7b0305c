import Mathlib.Logic.Function.Basic
import Testjig.Sequence.Loop

namespace Testjig.Usb

open Testjig.Sequence

inductive UrbState where
  | idle
  | done
  | notready
  | error
  | stall
deriving DecidableEq, Repr

inductive HcStatus where
  | idle
  | xfrc
  | nak
  | nyet
  | stall
  | xacterr
  | datatglerr
deriving DecidableEq, Repr

/-- The endpoint types that the firmware opens -/
inductive EpType where
  | ctrl
  | bulk
deriving DecidableEq, Repr

inductive DataPid where
  | data0
  | data1
  | setup
deriving DecidableEq, Repr

/-- The arrays that a transfer buffer can lie in -/
inductive Object where
  | null
  | setup
  | usbhBuf
  | rspbuf
  | tx (buf : TxBuf)
deriving DecidableEq, Repr

structure Ptr where
  object : Object
  offset : Nat
deriving DecidableEq, Repr

namespace Ptr

def null : Ptr := ⟨.null, 0⟩

def add (p : Ptr) (n : Nat) : Ptr := ⟨p.object, p.offset + n⟩

end Ptr

/-- `USB_OTG_HC`, with the fields of the channel's registers that the stack reads back -/
structure HostChannel where
  devAddr : Nat
  epNum : Nat
  epIsIn : Bool
  speed : Nat
  epType : EpType
  maxPacket : Nat
  dataPid : DataPid
  xferBuff : Ptr
  xferLen : Nat
  xferCount : Nat
  /-- `xfer_len` as the transfer was asked for, before it is rounded up to whole packets -/
  requested : Nat
  toggleIn : Bool
  toggleOut : Bool
  /-- HCCHAR.EPDIR, HCCHAR.EPTYPE and HCCHAR.CHENA -/
  epdir : Bool
  eptype : EpType
  chen : Bool
  /-- HCTSIZ.PKTCNT -/
  pktcnt : Nat
  /-- HCINTMSK.CHHM -/
  chhltd : Bool

/-- The port and the interrupt line as the stack sees them -/
structure Port where
  connSts : Bool
  portEnabled : Bool
  /-- The global interrupt is enabled. -/
  intEnabled : Bool
  /-- A port reset has been issued since the port was last disabled. -/
  resetIssued : Bool
  /-- How often the device was disconnected or its port disabled -/
  drops : Nat
deriving DecidableEq, Repr

/-- `HCD_DEV`, with the memory that received packets are stored in -/
structure Hcd where
  port : Port
  xferCnt : Nat → Nat
  hcStatus : Nat → HcStatus
  urbState : Nat → UrbState
  hc : Nat → HostChannel
  channel : Nat → BitVec 16
  ram : Object → Nat → Byte
  /-- One past the highest byte stored in each array -/
  high : Object → Nat
  /-- The packets taken from bulk endpoints, oldest first -/
  delivered : List (List Byte)
  /-- A device has sent more than a control transfer asked for. -/
  overlong : Bool

/-- `HCINTn`, as far as the handlers of control and bulk channels act on it -/
structure HcInt where
  xfercompl : Bool
  stall : Bool
  nak : Bool
  xacterr : Bool
  nyet : Bool
  datatglerr : Bool
  chhltd : Bool
deriving DecidableEq, Repr

inductive Irq where
  | connect
  | disconnect
  | portEnabled
  | portDisabled
  /-- An IN packet of `bcnt` bytes has arrived, padded to whole words in the FIFO. -/
  | rx (chnum : Nat) (fifo : Nat → Byte) (bcnt : Nat)
  | hc (num : Nat) (hcint : HcInt)

namespace Hcd

def edit (pdev : Hcd) (num : Nat) (f : HostChannel → HostChannel) : Hcd :=
  { pdev with hc := Function.update pdev.hc num (f (pdev.hc num)) }

def setStatus (pdev : Hcd) (num : Nat) (status : HcStatus) : Hcd :=
  { pdev with hcStatus := Function.update pdev.hcStatus num status }

def setUrb (pdev : Hcd) (num : Nat) (urb : UrbState) : Hcd :=
  { pdev with urbState := Function.update pdev.urbState num urb }

def hcInit (pdev : Hcd) (num : Nat) : Hcd :=
  pdev.edit num fun c => { c with epdir := c.epIsIn, eptype := c.epType, chen := false, chhltd := false }

/-- `USB_OTG_HC_StartXfer()`. No transfer with bytes is started on a channel with a `max_packet` of 0, where it would
divide by that. -/
def hcStartXfer (pdev : Hcd) (num : Nat) : Hcd :=
  pdev.edit num fun c =>
    let packets := (c.xferLen + c.maxPacket - 1) / c.maxPacket
    let numPackets := if 0 < c.xferLen then min packets 256 else 1
    let xferLen := if 0 < c.xferLen ∧ 256 < packets then numPackets * c.maxPacket else c.xferLen
    { c with
      xferLen := if c.epIsIn then numPackets * c.maxPacket else xferLen
      requested := c.xferLen
      pktcnt := numPackets
      chen := true }

def submitRequest (pdev : Hcd) (num : Nat) : Hcd :=
  ((pdev.setUrb num .idle).edit num fun c => { c with xferCount := 0 }).hcStartXfer num

/-- `USB_OTG_ReadPacket()` stores whole words. -/
def readPacket (pdev : Hcd) (dest : Ptr) (fifo : Nat → Byte) (len : Nat) : Hcd :=
  let count := 4 * ((len + 3) / 4)
  { pdev with
    ram := Function.update pdev.ram dest.object fun i =>
      if dest.offset ≤ i ∧ i < dest.offset + count then fifo (i - dest.offset) else pdev.ram dest.object i
    high := Function.update pdev.high dest.object (max (pdev.high dest.object) (dest.offset + count)) }

/-- `USB_OTG_USBH_handle_rx_qlvl_ISR()` on an IN packet -/
def handleRxQlvl (pdev : Hcd) (chnum : Nat) (fifo : Nat → Byte) (bcnt : Nat) : Hcd :=
  if 0 < bcnt ∧ (pdev.hc chnum).xferBuff.object ≠ .null then
    let read := (pdev.readPacket (pdev.hc chnum).xferBuff fifo bcnt).edit chnum fun c =>
      { c with xferBuff := c.xferBuff.add bcnt, xferCount := c.xferCount + bcnt }
    { read with xferCnt := Function.update read.xferCnt chnum (read.hc chnum).xferCount }.edit chnum fun c =>
      if 0 < c.pktcnt then { c with chen := true } else c
  else pdev

/-- `UNMASK_HOST_INT_CHH(num); USB_OTG_HC_Halt(pdev, num); pdev->host.HC_Status[num] = status` -/
def halt (pdev : Hcd) (num : Nat) (status : HcStatus) : Hcd :=
  (pdev.edit num fun c => { c with chhltd := true }).setStatus num status

/-- `MASK_HOST_INT_CHH(num)`, on a channel that the core has disabled -/
def halted (pdev : Hcd) (num : Nat) : Hcd := pdev.edit num fun c => { c with chhltd := false, chen := false }

def handleHcOut (pdev : Hcd) (num : Nat) (hcint : HcInt) : Hcd :=
  if hcint.xfercompl then pdev.halt num .xfrc
  else if hcint.stall then pdev.halt num .stall
  else if hcint.nak then pdev.halt num .nak
  else if hcint.xacterr then pdev.halt num .xacterr
  else if hcint.nyet then pdev.halt num .nyet
  else if hcint.datatglerr then pdev.halt num .datatglerr
  else if hcint.chhltd then
    let pdev := pdev.halted num
    match pdev.hcStatus num with
    | .xfrc =>
      (pdev.setUrb num .done).edit num fun c => if c.eptype = .bulk then { c with toggleOut := !c.toggleOut } else c
    | .nak | .nyet => pdev.setUrb num .notready
    | .stall => pdev.setUrb num .stall
    | .xacterr => pdev.setUrb num .error
    | .idle | .datatglerr => pdev
  else pdev

def handleHcIn (pdev : Hcd) (num : Nat) (hcint : HcInt) : Hcd :=
  let pdev :=
    if hcint.stall then pdev.halt num .stall
    else if hcint.datatglerr then pdev.halt num .datatglerr
    else pdev
  if hcint.xfercompl then (pdev.halt num .xfrc).edit num fun c => { c with toggleIn := !c.toggleIn }
  else if hcint.chhltd then
    let pdev := pdev.halted num
    match pdev.hcStatus num with
    | .xfrc => pdev.setUrb num .done
    | .stall => pdev.setUrb num .stall
    | .xacterr | .datatglerr => pdev.setUrb num .error
    | .idle | .nak | .nyet => pdev
  else if hcint.xacterr then pdev.halt num .xacterr
  else if hcint.nak ∧ ¬ hcint.stall then (pdev.setStatus num .nak).edit num fun c => { c with chen := true }
  else pdev

/-- What the core does with an IN packet before it interrupts: a short packet ends the transfer. -/
def acceptPacket (pdev : Hcd) (chnum : Nat) (fifo : Nat → Byte) (bcnt : Nat) : Hcd :=
  let c := pdev.hc chnum
  let delivered := if c.eptype = .bulk then pdev.delivered ++ [(List.range bcnt).map fifo] else pdev.delivered
  let surplus := c.eptype = .ctrl ∧ c.xferBuff.object ≠ .null ∧ c.requested < c.xferCount + bcnt
  { pdev with delivered, overlong := pdev.overlong || surplus }.edit chnum fun c =>
    { c with pktcnt := if bcnt < c.maxPacket then 0 else c.pktcnt - 1 }

/-- `USBH_OTG_ISR_Handler()`, for one condition that the core can raise in this state -/
def isrHandler (pdev : Hcd) : Irq → Hcd
  | .connect => { pdev with port.connSts := true }
  | .disconnect =>
    { pdev with port := { pdev.port with connSts := false, intEnabled := false, drops := pdev.port.drops + 1 } }
  | .portEnabled => if pdev.port.resetIssued then { pdev with port.portEnabled := true } else pdev
  | .portDisabled =>
    { pdev with port := { pdev.port with portEnabled := false, resetIssued := false, drops := pdev.port.drops + 1 } }
  | .rx chnum fifo bcnt =>
    let c := pdev.hc chnum
    if c.chen ∧ c.epdir ∧ 0 < c.pktcnt ∧ bcnt ≤ c.maxPacket then
      (pdev.acceptPacket chnum fifo bcnt).handleRxQlvl chnum fifo bcnt
    else pdev
  | .hc num hcint =>
    let c := pdev.hc num
    let hcint := { hcint with chhltd := hcint.chhltd && c.chhltd }
    if ¬ c.chen then pdev
    else if ¬ c.epdir then pdev.handleHcOut num hcint
    else if hcint.xfercompl ∧ 0 < c.pktcnt then pdev
    else pdev.handleHcIn num hcint

def interrupt (pdev : Hcd) (irq : Irq) : Hcd := if pdev.port.intEnabled then pdev.isrHandler irq else pdev

def interrupts (pdev : Hcd) (irqs : List Irq) : Hcd := irqs.foldl interrupt pdev

def resetPort (pdev : Hcd) : Hcd := { pdev with port.resetIssued := true }

/-- `HCD_Init()`, which resets the port as well -/
def init (pdev : Hcd) : Hcd :=
  { pdev with
    port := { pdev.port with connSts := false, intEnabled := true, resetIssued := true }
    xferCnt := fun _ => 0
    hcStatus := fun _ => .idle }.edit 0 fun c => { c with maxPacket := 8 }

end Hcd

end Testjig.Usb
