import Testjig.Usb.Host
import Testjig.Usb.Interrupts

namespace Testjig.Usb

open Testjig.Sequence

def HostChannel.config (c : HostChannel) : HostChannel :=
  { c with
    epIsIn := false, dataPid := .data0, xferBuff := .null, xferLen := 0, xferCount := 0, requested := 0
    toggleIn := false, toggleOut := false, chen := false, pktcnt := 0, chhltd := false }

theorem config_of_settings {c d : HostChannel} (same : c.settings = d.settings) : c.config = d.config := by
  have equal := congrArg HostChannel.config same
  exact equal

def numPackets (length maxPacket : Nat) : Nat :=
  if 0 < length then min ((length + maxPacket - 1) / maxPacket) 256 else 1

structure Started (before : Hcd) (num : Nat) (epIsIn : Bool) (buff : Ptr) (length : Nat) (after : Hcd) : Prop where
  channel : after.channel = before.channel
  xferCnt : after.xferCnt = before.xferCnt
  ram : after.ram = before.ram
  high : after.high = before.high
  delivered : after.delivered = before.delivered
  overlong : after.overlong = before.overlong
  hcStatus : after.hcStatus = before.hcStatus
  urbState : after.urbState = Function.update before.urbState num .idle
  others : ∀ n, n ≠ num → after.hc n = before.hc n
  config : (after.hc num).config = (before.hc num).config
  inward : (after.hc num).epIsIn = epIsIn
  buffer : (after.hc num).xferBuff = buff
  count : (after.hc num).xferCount = 0
  requested : (after.hc num).requested = length
  pktcnt : (after.hc num).pktcnt = numPackets length (before.hc num).maxPacket
  chhltd : (after.hc num).chhltd = (before.hc num).chhltd

theorem submit_started (pdev : Hcd) (num : Nat) {f : HostChannel → HostChannel} {epIsIn : Bool} {buff : Ptr}
    {length : Nat} (inward : (f (pdev.hc num)).epIsIn = epIsIn) (buffer : (f (pdev.hc num)).xferBuff = buff)
    (xferLen : (f (pdev.hc num)).xferLen = length) (config : (f (pdev.hc num)).config = (pdev.hc num).config)
    (chhltd : (f (pdev.hc num)).chhltd = (pdev.hc num).chhltd) :
    Started pdev num epIsIn buff length ((pdev.edit num f).submitRequest num) := by
  have maxPacket : (f (pdev.hc num)).maxPacket = (pdev.hc num).maxPacket := congrArg (fun c => c.maxPacket) config
  have at_num : ((pdev.edit num f).setUrb num .idle).hc num = f (pdev.hc num) := by simp [Hcd.setUrb, edit_hc]
  constructor
  case others =>
    intro n other
    simp [Hcd.submitRequest, Hcd.hcStartXfer, Hcd.setUrb, edit_hc, other]
  case config =>
    simp only [Hcd.submitRequest, Hcd.hcStartXfer, edit_hc, if_true, at_num]
    exact config
  case chhltd =>
    simp only [Hcd.submitRequest, Hcd.hcStartXfer, edit_hc, if_true, at_num]
    exact chhltd
  case pktcnt =>
    simp only [Hcd.submitRequest, Hcd.hcStartXfer, edit_hc, if_true, at_num, numPackets, maxPacket, xferLen]
  case inward =>
    simp only [Hcd.submitRequest, Hcd.hcStartXfer, edit_hc, if_true, at_num]
    exact inward
  case buffer =>
    simp only [Hcd.submitRequest, Hcd.hcStartXfer, edit_hc, if_true, at_num]
    exact buffer
  case count => simp only [Hcd.submitRequest, Hcd.hcStartXfer, edit_hc, if_true]
  case requested =>
    simp only [Hcd.submitRequest, Hcd.hcStartXfer, edit_hc, if_true, at_num]
    exact xferLen
  all_goals rfl

theorem ctlSendSetup_started (pdev : Hcd) (buff : Ptr) (num : Nat) :
    Started pdev num false buff 8 (pdev.ctlSendSetup buff num) := by
  apply submit_started <;> rfl

theorem ctlSendData_started (pdev : Hcd) (buff : Ptr) (length num : Nat) :
    Started pdev num false buff length (pdev.ctlSendData buff length num) := by
  apply submit_started <;> rfl

theorem ctlReceiveData_started (pdev : Hcd) (buff : Ptr) (length num : Nat) :
    Started pdev num true buff length (pdev.ctlReceiveData buff length num) := by
  apply submit_started <;> rfl

theorem bulkSendData_started (pdev : Hcd) (buff : Ptr) (length num : Nat) :
    Started pdev num false buff length (pdev.bulkSendData buff length num) := by
  apply submit_started <;> rfl

theorem bulkReceiveData_started (pdev : Hcd) (buff : Ptr) (length num : Nat) :
    Started pdev num true buff length (pdev.bulkReceiveData buff length num) := by
  apply submit_started <;> rfl

theorem openChannel_hc (pdev : Hcd) (num devAddress speed mps n : Nat) (epType : EpType) :
    (pdev.openChannel num devAddress speed epType mps).hc n = if n = num then { pdev.hc n with
      epNum := (pdev.channel n &&& 0x7F).toNat, devAddr := devAddress, epType, maxPacket := mps, speed
      epIsIn := pdev.channel n &&& 0x80 = 0x80, epdir := pdev.channel n &&& 0x80 = 0x80, eptype := epType
      toggleIn := false, toggleOut := false, chen := false, chhltd := false } else pdev.hc n := by
  simp only [Hcd.openChannel, Hcd.hcInit, edit_hc]
  split
  · rename_i same
    rw [same]
  · rfl

structure Modified (nums : List Nat) (before after : Hcd) : Prop where
  channel : after.channel = before.channel
  xferCnt : after.xferCnt = before.xferCnt
  ram : after.ram = before.ram
  high : after.high = before.high
  delivered : after.delivered = before.delivered
  overlong : after.overlong = before.overlong
  hc : ∀ n, after.hc n = before.hc n ∨ n ∈ nums ∧ ∃ devAddr maxPacket speed, after.hc n = { before.hc n with
    devAddr, maxPacket, speed, epdir := (before.hc n).epIsIn, eptype := (before.hc n).epType
    chen := false, chhltd := false }

theorem modifyChannel_modified (pdev : Hcd) (num devAddress speed mps : Nat) :
    Modified [num] pdev (pdev.modifyChannel num devAddress speed mps) := by
  refine ⟨rfl, rfl, rfl, rfl, rfl, rfl, fun n => ?_⟩
  simp only [Hcd.modifyChannel, Hcd.hcInit, edit_hc]
  by_cases same : n = num
  · rw [if_pos same, if_pos same]
    exact .inr ⟨by simp [same], _, _, _, rfl⟩
  · rw [if_neg same, if_neg same]
    exact .inl rfl

theorem Modified.trans {a b c : Hcd} {first second : List Nat} (one : Modified first a b) (two : Modified second b c) :
    Modified (first ++ second) a c where
  channel := two.channel.trans one.channel
  xferCnt := two.xferCnt.trans one.xferCnt
  ram := two.ram.trans one.ram
  high := two.high.trans one.high
  delivered := two.delivered.trans one.delivered
  overlong := two.overlong.trans one.overlong
  hc n := by
    rcases one.hc n with same | ⟨member, _, _, _, changed⟩
    · rcases two.hc n with same' | ⟨member, _, _, _, changed'⟩
      · exact .inl (same'.trans same)
      · exact .inr ⟨by simp [member], _, _, _, by rw [changed', same]⟩
    · rcases two.hc n with same' | ⟨_, _, _, _, changed'⟩
      · exact .inr ⟨by simp [member], _, _, _, same'.trans changed⟩
      · exact .inr ⟨by simp [member], _, _, _, by rw [changed', changed]⟩

end Testjig.Usb
