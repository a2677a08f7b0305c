import Testjig.Usb.Pipe

namespace Testjig.Usb

open Machine Testjig.Sequence

/-- `sizeof(rspbuf)` -/
def rspbufSize : Nat := 64

/-- The endpoint descriptor that `USBH_CDC_InterfaceInit()` takes for the IN pipe, if there is one -/
def DeviceProp.inEndpoint (prop : DeviceProp) : Option EpDesc :=
  if (prop.epDesc 1 1).bEndpointAddress &&& 0x80 ≠ 0 then some (prop.epDesc 1 1)
  else if (prop.epDesc 1 0).bEndpointAddress &&& 0x80 ≠ 0 then some (prop.epDesc 1 0)
  else none

def Narrow (prop : DeviceProp) : Prop := ∀ ep, prop.inEndpoint = some ep → ep.wMaxPacketSize ≤ rspbufSize

structure Single (pdev : Hcd) : Prop where
  pktcnt : (pdev.hc 3).pktcnt ≤ 1
  offset : 0 < (pdev.hc 3).pktcnt → (pdev.hc 3).xferBuff.offset = 0

theorem packet_single (pdev : Hcd) (fifo : Nat → Byte) (bcnt : Nat) (single : Single pdev) :
    ((pdev.packet 3 fifo bcnt).hc 3).pktcnt = 0 := by
  have same := congrArg HostChannel.pktcnt (packet_settings pdev 3 3 fifo bcnt)
  rw [if_pos rfl] at same
  apply Eq.trans same
  simp only [HostChannel.settings, HostChannel.packet]
  have pktcnt := single.pktcnt
  split
  · rfl
  · omega

theorem quiet_pipe {before after : Hcd} (quiet : Quiet before after) :
    (after.hc 3).pktcnt = (before.hc 3).pktcnt ∧ (after.hc 3).xferBuff = (before.hc 3).xferBuff ∧
      (after.hc 3).maxPacket = (before.hc 3).maxPacket := by
  have pktcnt := congrArg HostChannel.pktcnt (quiet.settings 3)
  have xferBuff := congrArg HostChannel.xferBuff (quiet.settings 3)
  have maxPacket := congrArg HostChannel.maxPacket (quiet.settings 3)
  exact ⟨pktcnt, xferBuff, maxPacket⟩

theorem numPackets_self (n : Nat) : numPackets n n = 1 := by
  unfold numPackets
  split
  · rename_i positive
    have one : (n + n - 1) / n = 1 := Nat.div_eq_of_lt_le (by omega) (by omega)
    rw [one]
    rfl
  · rfl

theorem Wired.elsewhere {pdev : Hcd} {outEp inEp : Byte} (wired : Wired pdev outEp inEp) :
    (pdev.hc 1).xferBuff.object ≠ .rspbuf := by
  rcases wired.object with null | usbhBuf
  · rw [null]
    simp
  · rw [usbhBuf]
    simp

end Testjig.Usb
