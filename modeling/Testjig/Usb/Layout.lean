import Testjig.Usb.Requests
import Testjig.Usb.Step

namespace Testjig.Usb

open Testjig.Sequence

def Used (channel : Nat → BitVec 16) (idx : Nat) : Prop := channel idx &&& hcUsed ≠ 0

def Taken (channel : Nat → BitVec 16) (count : Nat) : Prop := ∀ idx < hcMax, Used channel idx ↔ idx < count

theorem entry_used (epAddr : Byte) : (hcUsed ||| epAddr.setWidth 16) &&& hcUsed ≠ 0 := by
  revert epAddr
  decide

theorem entry_inward (epAddr : Byte) : (hcUsed ||| epAddr.setWidth 16) &&& 0x80 = 0x80 ↔ epAddr &&& 0x80 ≠ 0 := by
  revert epAddr
  decide

theorem entry_number (epAddr : Byte) :
    ((hcUsed ||| epAddr.setWidth 16) &&& 0x7F).toNat = (epAddr &&& 0x7F).toNat := by
  revert epAddr
  decide

theorem masked_unused (entry : BitVec 16) : entry &&& hcUsedMask &&& hcUsed = 0 := by
  rw [BitVec.and_assoc]
  exact BitVec.and_zero

theorem getFreeChannel_taken {pdev : Hcd} {count : Nat} (taken : Taken pdev.channel count) (room : count < hcMax) :
    pdev.getFreeChannel = count := by
  have found : (List.range hcMax).find? (fun idx => pdev.channel idx &&& hcUsed = 0) = some count := by
    rw [List.find?_range_eq_some]
    refine ⟨?_, by simpa using room, ?_⟩
    · have free := mt (taken count room).mp (Nat.lt_irrefl count)
      simpa [Used] using free
    · intro idx below
      have used := (taken idx (Nat.lt_trans below room)).mpr below
      simpa [Used] using used
  rw [Hcd.getFreeChannel, found]

def Hcd.assign (pdev : Hcd) (idx : Nat) (epAddr : Byte) : Hcd :=
  { pdev with channel := Function.update pdev.channel idx (hcUsed ||| epAddr.setWidth 16) }

theorem allocChannel_taken {pdev : Hcd} {count : Nat} (taken : Taken pdev.channel count) (room : count < hcMax)
    (epAddr : Byte) : pdev.allocChannel epAddr = (pdev.assign count epAddr, count) := by
  have small : count ≠ hcError := by
    have : count < 8 := room
    rw [hcError]
    omega
  have byte : count % 256 = count := by
    have : count < 8 := room
    omega
  rw [Hcd.allocChannel, getFreeChannel_taken taken room, if_pos small, byte, Hcd.assign]

theorem assign_taken {pdev : Hcd} {count : Nat} (taken : Taken pdev.channel count) (epAddr : Byte) :
    Taken (pdev.assign count epAddr).channel (count + 1) := by
  intro idx bound
  unfold Used
  by_cases same : idx = count
  · subst same
    simp only [Hcd.assign, Function.update_self]
    exact ⟨fun _ => Nat.lt_succ_self idx, fun _ => entry_used epAddr⟩
  · have before := taken idx bound
    unfold Used at before
    simp only [Hcd.assign, Function.update_of_ne same]
    rw [before]
    omega

theorem freeChannel_used {pdev : Hcd} {idx n : Nat} (bound : n < hcMax) :
    Used (pdev.freeChannel idx).channel n ↔ Used pdev.channel n ∧ n ≠ idx := by
  unfold Hcd.freeChannel
  by_cases same : n = idx
  · subst same
    rw [if_pos bound]
    simp [Used, masked_unused]
  · split
    · simp [Used, same]
    · simp [same]

structure Layout where
  channel : Nat → BitVec 16
  config : Nat → HostChannel
  gState : HostState
  gStateBkp : HostState
  hcNumIn : Nat
  hcNumOut : Nat
  prop : DeviceProp
  inPipe : Nat
  outPipe : Nat
  inEp : Byte
  outEp : Byte
  inEpSize : Nat
  outEpSize : Nat

def Usbh.layout (usb : Usbh) : Layout where
  channel := usb.pdev.channel
  config n := (usb.pdev.hc n).config
  gState := usb.phost.gState
  gStateBkp := usb.phost.gStateBkp
  hcNumIn := usb.phost.control.hcNumIn
  hcNumOut := usb.phost.control.hcNumOut
  prop := usb.phost.deviceProp
  inPipe := usb.cdc.inPipe
  outPipe := usb.cdc.outPipe
  inEp := usb.cdc.inEp
  outEp := usb.cdc.outEp
  inEpSize := usb.cdc.inEpSize
  outEpSize := usb.cdc.outEpSize

namespace Layout

def Owned (l : Layout) : Prop := ∀ n < hcMax, Used l.channel n →
  n = l.hcNumIn ∨ n = l.hcNumOut ∨ n = l.outPipe ∧ l.outPipe ≠ 0 ∨ n = l.inPipe ∧ l.inPipe ≠ 0

structure Unallocated (l : Layout) : Prop where
  taken : Taken l.channel 0
  outPipe : l.outPipe = 0
  inPipe : l.inPipe = 0

structure Controlled (l : Layout) : Prop where
  taken : Taken l.channel 2
  hcNumOut : l.hcNumOut = 0
  hcNumIn : l.hcNumIn = 1
  outPipe : l.outPipe = 0
  inPipe : l.inPipe = 0

end Layout

/-- `USBH_CDC_InterfaceInit()` accepts interface 0. -/
def DeviceProp.Accepted (prop : DeviceProp) : Prop :=
  (prop.itfDesc 0).bInterfaceClass = usbCdcClass ∧ (prop.itfDesc 0).bInterfaceProtocol = commonAtCommand

structure PipeOpen (c : HostChannel) (prop : DeviceProp) (epAddr : Byte) (epSize : Nat) : Prop where
  eptype : c.eptype = .bulk
  epdir : c.epdir = true ↔ epAddr &&& 0x80 ≠ 0
  epNum : c.epNum = (epAddr &&& 0x7F).toNat
  devAddr : c.devAddr = prop.address
  maxPacket : c.maxPacket = epSize

def Cdc.useEndpoints (cdc : Cdc) (prop : DeviceProp) : Cdc :=
  (cdc.useEndpoint (prop.epDesc 1 0)).useEndpoint (prop.epDesc 1 1)

namespace Layout

/-- The control channels and both pipes are allocated, and the pipes are open. -/
structure Piped (l : Layout) : Prop where
  taken : Taken l.channel 4
  hcNumOut : l.hcNumOut = 0
  hcNumIn : l.hcNumIn = 1
  outPipe : l.outPipe = 2
  inPipe : l.inPipe = 3
  accepted : l.prop.Accepted
  outOpen : PipeOpen (l.config 2) l.prop l.outEp l.outEpSize
  inOpen : PipeOpen (l.config 3) l.prop l.inEp l.inEpSize
  endpoints : ∃ cdc : Cdc, l.outEp = (cdc.useEndpoints l.prop).outEp ∧ l.inEp = (cdc.useEndpoints l.prop).inEp

/-- The class driver has accepted the device, or has left it without pipes. -/
def Classed (l : Layout) : Prop := l.Controlled ∧ ¬ l.prop.Accepted ∨ l.Piped

def Allocated (l : Layout) : Prop :=
  match l.gState with
  | .idle | .waitPrtEnabled | .devAttached => l.Unallocated
  | .enumeration | .usrInput => l.Controlled
  | .ctrlXfer => l.Controlled ∧ l.gStateBkp = .enumeration
  | .classRequest | .hostClass => l.Classed
  | .devDisconnected | .errorState => l.Owned

theorem Unallocated.owned {l : Layout} (unallocated : l.Unallocated) : l.Owned := by
  intro n bound used
  exact absurd ((unallocated.taken n bound).mp used) (Nat.not_lt_zero n)

theorem Controlled.owned {l : Layout} (controlled : l.Controlled) : l.Owned := by
  intro n bound used
  have below := (controlled.taken n bound).mp used
  rw [controlled.hcNumIn, controlled.hcNumOut]
  omega

theorem Piped.owned {l : Layout} (piped : l.Piped) : l.Owned := by
  intro n bound used
  have below := (piped.taken n bound).mp used
  rw [piped.hcNumIn, piped.hcNumOut, piped.outPipe, piped.inPipe]
  omega

theorem Allocated.unallocated {l : Layout} (allocated : l.Allocated)
    (state : l.gState = .idle ∨ l.gState = .waitPrtEnabled ∨ l.gState = .devAttached) : l.Unallocated := by
  unfold Allocated at allocated
  rcases state with same | same | same <;> rwa [same] at allocated

theorem Allocated.controlled {l : Layout} (allocated : l.Allocated)
    (state : l.gState = .enumeration ∨ l.gState = .usrInput) : l.Controlled := by
  unfold Allocated at allocated
  rcases state with same | same <;> rwa [same] at allocated

theorem Allocated.transfer {l : Layout} (allocated : l.Allocated) (state : l.gState = .ctrlXfer) :
    l.Controlled ∧ l.gStateBkp = .enumeration := by
  unfold Allocated at allocated
  rwa [state] at allocated

theorem Allocated.classed {l : Layout} (allocated : l.Allocated)
    (state : l.gState = .classRequest ∨ l.gState = .hostClass) : l.Classed := by
  unfold Allocated at allocated
  rcases state with same | same <;> rwa [same] at allocated

theorem Controlled.enumerating {l : Layout} (controlled : l.Controlled) (state : l.gState = .enumeration) :
    l.Allocated := by
  unfold Allocated
  rwa [state]

theorem Controlled.transferring {l : Layout} (controlled : l.Controlled) (state : l.gState = .ctrlXfer)
    (bkp : l.gStateBkp = .enumeration) : l.Allocated := by
  unfold Allocated
  rw [state]
  exact ⟨controlled, bkp⟩

theorem Allocated.owned {l : Layout} (allocated : l.Allocated) : l.Owned := by
  unfold Allocated at allocated
  split at allocated
  case h_4 | h_5 => exact allocated.owned
  case h_6 => exact allocated.1.owned
  case h_7 | h_8 =>
    rcases allocated with ⟨controlled, _⟩ | piped
    · exact controlled.owned
    · exact piped.owned
  case h_9 | h_10 => exact allocated
  all_goals exact allocated.owned

end Layout

structure Wired (pdev : Hcd) (outEp inEp : Byte) : Prop where
  outward : ∀ n, n ≠ 1 → n ≠ 3 → (pdev.hc n).epdir = false ∧ pdev.xferCnt n = 0
  epType : (pdev.hc 1).epType = .ctrl
  eptype : (pdev.hc 1).eptype = .ctrl
  object : (pdev.hc 1).xferBuff.object = .null ∨ (pdev.hc 1).xferBuff.object = .usbhBuf
  outEp : outEp &&& 0x80 = 0
  inEp : inEp &&& 0x80 = 0 → (pdev.hc 3).epdir = false ∧ pdev.xferCnt 3 = 0

theorem Wired.inward {pdev : Hcd} {outEp inEp : Byte} {n : Nat} (wired : Wired pdev outEp inEp)
    (inward : (pdev.hc n).epdir = true) : n = 1 ∨ n = 3 := by
  by_contra neither
  have outward := wired.outward n (fun one => neither (.inl one)) fun three => neither (.inr three)
  rw [inward] at outward
  exact absurd outward.1 (by simp)

structure Undisturbed (before after : Hcd) : Prop where
  channel : after.channel = before.channel
  config : ∀ n, (after.hc n).config = (before.hc n).config
  object : ∀ n, (after.hc n).xferBuff.object = (before.hc n).xferBuff.object
  epIsIn : ∀ n, (after.hc n).epIsIn = (before.hc n).epIsIn
  xferCnt : ∀ n, (before.hc n).epdir = false → after.xferCnt n = before.xferCnt n

theorem Undisturbed.trans {a b c : Hcd} (first : Undisturbed a b) (second : Undisturbed b c) : Undisturbed a c where
  channel := second.channel.trans first.channel
  config n := (second.config n).trans (first.config n)
  object n := (second.object n).trans (first.object n)
  epIsIn n := (second.epIsIn n).trans (first.epIsIn n)
  xferCnt n outward := by
    have same := congrArg HostChannel.epdir (first.config n)
    exact (second.xferCnt n (same.trans outward)).trans (first.xferCnt n outward)

theorem interrupt_undisturbed (pdev : Hcd) (irq : Irq) : Undisturbed pdev (pdev.interrupt irq) := by
  have interrupted := interrupt_cases pdev irq
  generalize pdev.interrupt irq = next at interrupted
  cases interrupted with
  | quiet _ _ quiet =>
    refine ⟨quiet.channel, fun n => config_of_settings (quiet.settings n), fun n => ?_, fun n => ?_, fun n _ => ?_⟩
    · have same := congrArg (fun c => c.xferBuff.object) (quiet.settings n)
      exact same
    · have same := congrArg HostChannel.epIsIn (quiet.settings n)
      exact same
    · rw [quiet.xferCnt]
  | packet chnum fifo bcnt enabled inward waiting fits =>
    have settings := fun n => packet_settings pdev chnum n fifo bcnt
    refine ⟨packet_channel .., fun n => ?_, fun n => ?_, fun n => ?_, fun n outward => ?_⟩
    · rw [config_of_settings (d := if n = chnum then (pdev.hc n).packet bcnt else pdev.hc n)]
      · split <;> rfl
      · rw [settings]
        split <;> rfl
    · have same := congrArg (fun c => c.xferBuff.object) (settings n)
      apply Eq.trans same
      split
      · simp only [HostChannel.packet]
        split <;> rfl
      · rfl
    · have same := congrArg HostChannel.epIsIn (settings n)
      apply Eq.trans same
      split <;> rfl
    · have other : n ≠ chnum := by
        rintro rfl
        rw [inward] at outward
        exact absurd outward (by simp)
      by_cases stores : (pdev.hc chnum).Stores bcnt
      · rw [(packet_stored pdev chnum fifo bcnt stores).2.2, Function.update_of_ne other]
      · rw [(packet_dropped pdev chnum fifo bcnt stores).2.2]

theorem interrupts_undisturbed (pdev : Hcd) (irqs : List Irq) : Undisturbed pdev (pdev.interrupts irqs) :=
  interrupts_invariant (fun middle irq holds => holds.trans (interrupt_undisturbed middle irq)) irqs
    ⟨rfl, fun _ => rfl, fun _ => rfl, fun _ => rfl, fun _ _ => rfl⟩

theorem Undisturbed.wired {before after : Hcd} {outEp inEp : Byte} (undisturbed : Undisturbed before after)
    (wired : Wired before outEp inEp) : Wired after outEp inEp := by
  have epdir (n : Nat) : (after.hc n).epdir = (before.hc n).epdir := by
    have same := congrArg HostChannel.epdir (undisturbed.config n)
    exact same
  refine ⟨fun n one three => ?_, ?_, ?_, ?_, wired.outEp, fun none => ?_⟩
  · obtain ⟨outward, empty⟩ := wired.outward n one three
    exact ⟨(epdir n).trans outward, (undisturbed.xferCnt n outward).trans empty⟩
  · have same := congrArg HostChannel.epType (undisturbed.config 1)
    exact Eq.trans same wired.epType
  · have same := congrArg HostChannel.eptype (undisturbed.config 1)
    exact Eq.trans same wired.eptype
  · rw [undisturbed.object]
    exact wired.object
  · obtain ⟨outward, empty⟩ := wired.inEp none
    exact ⟨(epdir 3).trans outward, (undisturbed.xferCnt 3 outward).trans empty⟩

theorem Undisturbed.layout {usb : Usbh} {pdev : Hcd} (undisturbed : Undisturbed usb.pdev pdev) :
    { usb with pdev }.layout = usb.layout := by
  simp [Usbh.layout, undisturbed.channel, undisturbed.config]

theorem Started.configs {before after : Hcd} {num length : Nat} {epIsIn : Bool} {buff : Ptr}
    (started : Started before num epIsIn buff length after) (n : Nat) :
    (after.hc n).config = (before.hc n).config := by
  by_cases same : n = num
  · rw [same]
    exact started.config
  · rw [started.others n same]

theorem Started.wired {before after : Hcd} {num length : Nat} {epIsIn : Bool} {buff : Ptr}
    {outEp inEp : Byte} (started : Started before num epIsIn buff length after) (wired : Wired before outEp inEp)
    (control : num = 1 → buff.object = .null ∨ buff.object = .usbhBuf) : Wired after outEp inEp := by
  have epdir (n : Nat) : (after.hc n).epdir = (before.hc n).epdir := by
    have same := congrArg HostChannel.epdir (started.configs n)
    exact same
  refine ⟨fun n one three => ?_, ?_, ?_, ?_, wired.outEp, fun none => ?_⟩
  · rw [epdir, started.xferCnt]
    exact wired.outward n one three
  · have same := congrArg HostChannel.epType (started.configs 1)
    exact Eq.trans same wired.epType
  · have same := congrArg HostChannel.eptype (started.configs 1)
    exact Eq.trans same wired.eptype
  · by_cases one : 1 = num
    · subst one
      rw [started.buffer]
      exact control rfl
    · rw [started.others 1 one]
      exact wired.object
  · rw [epdir, started.xferCnt]
    exact wired.inEp none

theorem Started.layout {usb : Usbh} {after : Hcd} {num length : Nat} {epIsIn : Bool} {buff : Ptr}
    (started : Started usb.pdev num epIsIn buff length after) : { usb with pdev := after }.layout = usb.layout := by
  simp [Usbh.layout, started.channel, started.configs]

theorem Modified.wired {before after : Hcd} {nums : List Nat} {outEp inEp : Byte}
    (modified : Modified nums before after) (wired : Wired before outEp inEp)
    (control : ∀ n ∈ nums, n = 1 ∨ n = 0) (outward : (before.hc 0).epIsIn = false) : Wired after outEp inEp := by
  have others (n : Nat) (one : n ≠ 1) (zero : n ≠ 0) : after.hc n = before.hc n := by
    rcases modified.hc n with same | ⟨member, _⟩
    · exact same
    · rcases control n member with equal | equal
      · exact absurd equal one
      · exact absurd equal zero
  refine ⟨fun n one three => ?_, ?_, ?_, ?_, wired.outEp, fun none => ?_⟩
  · rw [modified.xferCnt]
    refine ⟨?_, (wired.outward n one three).2⟩
    by_cases zero : n = 0
    · subst zero
      rcases modified.hc 0 with same | ⟨_, _, _, _, changed⟩
      · rw [same]
        exact (wired.outward 0 one three).1
      · rw [changed]
        exact outward
    · rw [others n one zero]
      exact (wired.outward n one three).1
  · rcases modified.hc 1 with same | ⟨_, _, _, _, changed⟩
    · rw [same]
      exact wired.epType
    · rw [changed]
      exact wired.epType
  · rcases modified.hc 1 with same | ⟨_, _, _, _, changed⟩
    · rw [same]
      exact wired.eptype
    · rw [changed]
      exact wired.epType
  · rcases modified.hc 1 with same | ⟨_, _, _, _, changed⟩
    · rw [same]
      exact wired.object
    · rw [changed]
      exact wired.object
  · rw [modified.xferCnt, others 3 (by simp) (by simp)]
    exact wired.inEp none

structure Laid (usb : Usbh) : Prop where
  allocated : usb.layout.Allocated
  wired : Wired usb.pdev usb.cdc.outEp usb.cdc.inEp
  buff : usb.phost.control.buff.object = .null ∨ usb.phost.control.buff.object = .usbhBuf
  setupOut : usb.phost.gState = .enumeration ∨ usb.phost.gState = .ctrlXfer → (usb.pdev.hc 0).epIsIn = false
  pRxData : usb.cdc.pRxData = .null ∨ usb.cdc.pRxData = ⟨.rspbuf, 0⟩

theorem Undisturbed.laid {usb : Usbh} {pdev : Hcd} (undisturbed : Undisturbed usb.pdev pdev) (laid : Laid usb) :
    Laid { usb with pdev } where
  allocated := by
    rw [undisturbed.layout]
    exact laid.allocated
  wired := undisturbed.wired laid.wired
  buff := laid.buff
  setupOut at_state := (undisturbed.epIsIn 0).trans (laid.setupOut at_state)
  pRxData := laid.pRxData

theorem irq_laid {usb : Usbh} (laid : Laid usb) (turn : Turn) (point : Point) : Laid (usb.irq turn.env point) :=
  (interrupts_undisturbed usb.pdev (turn.irqs point)).laid laid

theorem Laid.setState {usb : Usbh} (laid : Laid usb) (state : HostState)
    (allocated : { usb.layout with gState := state }.Allocated)
    (outside : state ≠ .enumeration ∧ state ≠ .ctrlXfer) : Laid (usb.setState state) where
  allocated := allocated
  wired := laid.wired
  buff := laid.buff
  setupOut at_state := by
    rcases at_state with same | same
    · exact absurd same outside.1
    · exact absurd same outside.2
  pRxData := laid.pRxData

theorem Laid.fresh {usb : Usbh} (laid : Laid usb) : Laid { usb with actions := [] } :=
  ⟨laid.allocated, laid.wired, laid.buff, laid.setupOut, laid.pRxData⟩

theorem portEvents_laid {usb : Usbh} (laid : Laid usb) (turn : Turn) : Laid (usb.portEvents turn.env) := by
  have first := irq_laid laid turn .connSts
  have second := irq_laid first turn .portEnabled
  simp only [Usbh.portEvents]
  split
  · exact second.setState _ second.allocated.owned (by simp)
  · exact second

theorem deInit_unallocated {usb : Usbh} (owned : usb.layout.Owned) :
    (usb.deInit usbhCdcCb).layout.Unallocated := by
  have released (idx : Nat) (bound : idx < hcMax)
      (used : Used (usb.deInit usbhCdcCb).layout.channel idx) : False := by
    have remaining : Used usb.pdev.channel idx ∧ idx ≠ usb.phost.control.hcNumIn ∧
        idx ≠ usb.phost.control.hcNumOut ∧ ¬ (idx = usb.cdc.outPipe ∧ usb.cdc.outPipe ≠ 0) ∧
        ¬ (idx = usb.cdc.inPipe ∧ usb.cdc.inPipe ≠ 0) := by
      simp only [Usbh.layout, Usbh.deInit, usbhCdcCb, Usbh.interfaceDeInit, Usbh.usrDeInit, Stack.deInit] at used
      split at used <;> split at used <;> simp_all [freeChannel_used bound]
    obtain ⟨before, notIn, notOut, notOutPipe, notInPipe⟩ := remaining
    rcases owned idx bound before with same | same | same | same
    · exact notIn same
    · exact notOut same
    · exact notOutPipe same
    · exact notInPipe same
  refine ⟨fun idx bound => ⟨fun used => (released idx bound used).elim, fun below => absurd below (Nat.not_lt_zero idx)⟩,
    ?_, ?_⟩
  all_goals
    simp only [Usbh.layout, Usbh.deInit, usbhCdcCb, Usbh.interfaceDeInit, Usbh.usrDeInit]
    split <;> split <;> simp_all

theorem deInit_idle (usb : Usbh) : (usb.deInit usbhCdcCb).phost.gState = .idle := by
  simp only [Usbh.deInit, usbhCdcCb, Usbh.interfaceDeInit, Usbh.usrDeInit, Stack.deInit]
  split <;> split <;> rfl

theorem deInit_laid {usb : Usbh} (laid : Laid usb) : Laid (usb.deInit usbhCdcCb) := by
  have unallocated := deInit_unallocated laid.allocated.owned
  have idle := deInit_idle usb
  have hc : (usb.deInit usbhCdcCb).pdev.hc = usb.pdev.hc ∧
      (usb.deInit usbhCdcCb).pdev.xferCnt = usb.pdev.xferCnt ∧
      (usb.deInit usbhCdcCb).cdc.outEp = usb.cdc.outEp ∧ (usb.deInit usbhCdcCb).cdc.inEp = usb.cdc.inEp ∧
      (usb.deInit usbhCdcCb).phost.control.buff = usb.phost.control.buff ∧
      (usb.deInit usbhCdcCb).cdc.pRxData = usb.cdc.pRxData := by
    have freed (pdev : Hcd) (idx : Nat) : (pdev.freeChannel idx).hc = pdev.hc ∧
        (pdev.freeChannel idx).xferCnt = pdev.xferCnt := by
      unfold Hcd.freeChannel
      split <;> exact ⟨rfl, rfl⟩
    simp only [Usbh.deInit, usbhCdcCb, Usbh.interfaceDeInit, Usbh.usrDeInit, Stack.deInit]
    split <;> split <;> simp [freed]
  obtain ⟨channels, counts, outEp, inEp, buff, pRxData⟩ := hc
  refine ⟨?_, ?_, ?_, ?_, ?_⟩
  · unfold Layout.Allocated
    rw [show (usb.deInit usbhCdcCb).layout.gState = .idle from idle]
    exact unallocated
  · refine ⟨fun n one three => ?_, ?_, ?_, ?_, ?_, ?_⟩
    · rw [channels, counts]
      exact laid.wired.outward n one three
    · rw [channels]
      exact laid.wired.epType
    · rw [channels]
      exact laid.wired.eptype
    · rw [channels]
      exact laid.wired.object
    · rw [outEp]
      exact laid.wired.outEp
    · rw [inEp, channels, counts]
      exact laid.wired.inEp
  · rw [buff]
    exact laid.buff
  · rw [idle]
    simp
  · rw [pRxData]
    exact laid.pRxData

theorem devDisconnected_laid {usb : Usbh} (laid : Laid usb) : Laid (usb.devDisconnected usbhCdcCb) := by
  have flagged : Laid usb.usrDeviceDisconnected := ⟨laid.allocated, laid.wired, laid.buff, laid.setupOut, laid.pRxData⟩
  have again := deInit_laid flagged
  unfold Usbh.devDisconnected
  have unallocated := deInit_unallocated flagged.allocated.owned
  generalize usb.usrDeviceDisconnected.deInit usbhCdcCb = usb at again unallocated
  refine ⟨?_, ?_, again.buff, by simp [Usbh.setState], again.pRxData⟩
  · refine ⟨fun idx bound => ?_, unallocated.outPipe, unallocated.inPipe⟩
    have free := unallocated.taken idx bound
    change (if 2 ≤ idx ∧ idx < hcMax then 0 else usb.pdev.channel idx) &&& hcUsed ≠ 0 ↔ _
    split
    · simp
    · exact free
  · have hc (n : Nat) : ∃ maxPacket, (usb.pdev.deAllocateAllChannel.init.hc n) = { usb.pdev.hc n with maxPacket } := by
      simp only [Hcd.init, edit_hc]
      split
      · exact ⟨8, rfl⟩
      · exact ⟨_, rfl⟩
    refine ⟨fun n one three => ?_, ?_, ?_, ?_, again.wired.outEp, fun none => ?_⟩
    · obtain ⟨_, same⟩ := hc n
      exact ⟨by rw [Usbh.setState, same]; exact (again.wired.outward n one three).1, rfl⟩
    · obtain ⟨_, same⟩ := hc 1
      rw [Usbh.setState, same]
      exact again.wired.epType
    · obtain ⟨_, same⟩ := hc 1
      rw [Usbh.setState, same]
      exact again.wired.eptype
    · obtain ⟨_, same⟩ := hc 1
      rw [Usbh.setState, same]
      exact again.wired.object
    · obtain ⟨_, same⟩ := hc 3
      exact ⟨by rw [Usbh.setState, same]; exact (again.wired.inEp none).1, rfl⟩

theorem devAttached_eq {usb : Usbh} (unallocated : usb.layout.Unallocated) (env : Env) :
    usb.devAttached env =
      let pdev := (env.irq .reset ((usb.pdev.assign 0 0x00).assign 1 0x80)).resetPort
      let prop := usb.phost.deviceProp
      let ep0size := usb.phost.control.ep0size
      { usb with
        phost := { usb.phost with
          gState := .enumeration, deviceProp.speed := env.prtspd, control.hcNumOut := 0, control.hcNumIn := 1 }
        pdev := (pdev.openChannel 1 prop.address env.prtspd .ctrl ep0size).openChannel
          0 prop.address env.prtspd .ctrl ep0size
        enumerations := usb.enumerations + 1 } := by
  have out := allocChannel_taken unallocated.taken (by decide) 0x00
  have inn := allocChannel_taken (assign_taken unallocated.taken 0x00) (by decide) 0x80
  change (usb.pdev.assign 0 0x00).allocChannel 0x80 = ((usb.pdev.assign 0 0x00).assign 1 0x80, 1) at inn
  change usb.pdev.allocChannel 0x00 = (usb.pdev.assign 0 0x00, 0) at out
  simp only [Usbh.devAttached, out, inn, Usbh.irq]

theorem devAttached_laid {usb : Usbh} (laid : Laid usb) (attached : usb.phost.gState = .devAttached) (turn : Turn) :
    Laid (usb.devAttached turn.env) := by
  have unallocated := laid.allocated.unallocated (.inr (.inr attached))
  rw [devAttached_eq unallocated]
  have undisturbed := interrupts_undisturbed ((usb.pdev.assign 0 0x00).assign 1 0x80) (turn.irqs .reset)
  have taken := assign_taken (assign_taken unallocated.taken 0x00) 0x80
  have zero : ((usb.pdev.assign 0 0x00).assign 1 0x80).channel 0 = hcUsed ||| (0x00 : Byte).setWidth 16 := rfl
  have wired : Wired ((usb.pdev.assign 0 0x00).assign 1 0x80) usb.cdc.outEp usb.cdc.inEp :=
    ⟨laid.wired.outward, laid.wired.epType, laid.wired.eptype, laid.wired.object, laid.wired.outEp, laid.wired.inEp⟩
  have wired' := undisturbed.wired wired
  change Taken ((usb.pdev.assign 0 0x00).assign 1 0x80).channel 2 at taken
  change Wired (turn.env.irq .reset ((usb.pdev.assign 0 0x00).assign 1 0x80)) usb.cdc.outEp usb.cdc.inEp at wired'
  have channel : (turn.env.irq .reset ((usb.pdev.assign 0 0x00).assign 1 0x80)).channel = _ := undisturbed.channel
  generalize turn.env.irq .reset ((usb.pdev.assign 0 0x00).assign 1 0x80) = pdev at *
  have outward : ¬ pdev.channel 0 &&& 0x80 = 0x80 := by
    rw [channel, zero]
    decide
  refine ⟨⟨?_, rfl, rfl, unallocated.outPipe, unallocated.inPipe⟩, ?_, laid.buff, fun _ => ?_, laid.pRxData⟩
  · change Taken pdev.channel 2
    rw [channel]
    exact taken
  · refine ⟨fun n one three => ?_, ?_, ?_, ?_, laid.wired.outEp, fun none => ?_⟩
    · rw [openChannel_hc, openChannel_hc]
      by_cases equal : n = 0
      · rw [if_pos equal, equal]
        exact ⟨decide_eq_false outward, (wired'.outward 0 (by simp) (by simp)).2⟩
      · rw [if_neg equal, if_neg one]
        exact wired'.outward n one three
    · simp [openChannel_hc]
    · simp [openChannel_hc]
    · rw [openChannel_hc, if_neg (by simp), openChannel_hc, if_pos rfl]
      exact wired'.object
    · rw [openChannel_hc, if_neg (by simp), openChannel_hc, if_neg (by simp)]
      exact wired'.inEp none
  · simp only [openChannel_hc, if_true]
    exact decide_eq_false outward

theorem useEndpoint_outEp (cdc : Cdc) (ep : EpDesc) (outward : cdc.outEp &&& 0x80 = 0) :
    (cdc.useEndpoint ep).outEp &&& 0x80 = 0 := by
  unfold Cdc.useEndpoint
  split
  · exact outward
  · rename_i out
    exact Decidable.of_not_not out

theorem useEndpoint_inEp (cdc : Cdc) (ep : EpDesc) (none : (cdc.useEndpoint ep).inEp &&& 0x80 = 0) :
    (cdc.useEndpoint ep).inEp = cdc.inEp := by
  unfold Cdc.useEndpoint at none ⊢
  split at none
  · rename_i inn
    exact absurd none inn
  · rename_i out
    rw [if_neg out]

theorem interfaceInit_eq {usb : Usbh} (controlled : usb.layout.Controlled)
    (accepted : usb.phost.deviceProp.Accepted) : usb.interfaceInit.1 =
      let prop := usb.phost.deviceProp
      let cdc := usb.cdc.useEndpoints prop
      { usb with
        cdc := { cdc with outPipe := 2, inPipe := 3 }
        pdev := (((usb.pdev.assign 2 cdc.outEp).assign 3 cdc.inEp).openChannel
          2 prop.address prop.speed .bulk cdc.outEpSize).openChannel 3 prop.address prop.speed .bulk cdc.inEpSize } := by
  have out := allocChannel_taken controlled.taken (by decide) (usb.cdc.useEndpoints usb.phost.deviceProp).outEp
  have inn := allocChannel_taken
    (assign_taken controlled.taken (usb.cdc.useEndpoints usb.phost.deviceProp).outEp) (by decide)
    (usb.cdc.useEndpoints usb.phost.deviceProp).inEp
  simp only [Cdc.useEndpoints] at out inn ⊢
  obtain ⟨itfClass, protocol⟩ := accepted
  simp only [Usbh.interfaceInit, itfClass, protocol, ne_eq, not_true, or_self, if_false, out, inn]

theorem interfaceInit_rejected {usb : Usbh} (rejected : ¬ usb.phost.deviceProp.Accepted) :
    usb.interfaceInit.1 = usb := by
  simp only [Usbh.interfaceInit]
  rw [if_pos (Decidable.not_and_iff_or_not.mp rejected)]
  rfl

theorem useEndpoints_outEp {cdc : Cdc} (prop : DeviceProp) (outward : cdc.outEp &&& 0x80 = 0) :
    (cdc.useEndpoints prop).outEp &&& 0x80 = 0 :=
  useEndpoint_outEp _ _ (useEndpoint_outEp _ _ outward)

theorem useEndpoints_inEp (cdc : Cdc) (prop : DeviceProp) (none : (cdc.useEndpoints prop).inEp &&& 0x80 = 0) :
    cdc.inEp &&& 0x80 = 0 := by
  have second := useEndpoint_inEp _ _ none
  rw [Cdc.useEndpoints, second] at none
  rw [← useEndpoint_inEp _ _ none]
  exact none

theorem opened_pipe (pdev : Hcd) (num : Nat) {epAddr : Byte} (entry : pdev.channel num = hcUsed ||| epAddr.setWidth 16)
    (prop : DeviceProp) (mps : Nat) :
    PipeOpen (((pdev.openChannel num prop.address prop.speed .bulk mps).hc num).config) prop epAddr mps := by
  rw [openChannel_hc, if_pos rfl]
  refine ⟨rfl, ?_, ?_, rfl, rfl⟩
  · change decide (pdev.channel num &&& 0x80 = 0x80) = true ↔ _
    rw [entry, decide_eq_true_iff]
    exact entry_inward epAddr
  · change (pdev.channel num &&& 0x7F).toNat = _
    rw [entry]
    exact entry_number epAddr

theorem openChannel_other (pdev : Hcd) {num n : Nat} (other : n ≠ num) (devAddress speed mps : Nat) (epType : EpType) :
    (pdev.openChannel num devAddress speed epType mps).hc n = pdev.hc n := by
  rw [openChannel_hc, if_neg other]

theorem init_laid {usb : Usbh} (laid : Laid usb) (input : usb.phost.gState = .usrInput) :
    Laid (usb.interfaceInit.1.setState .classRequest) := by
  have controlled := laid.allocated.controlled (.inr input)
  by_cases accepted : usb.phost.deviceProp.Accepted
  · rw [interfaceInit_eq controlled accepted]
    -- read off the record, so that the layouts before and after need not be compared
    have hcNumOut : usb.phost.control.hcNumOut = 0 := controlled.hcNumOut
    have hcNumIn : usb.phost.control.hcNumIn = 1 := controlled.hcNumIn
    have outward := useEndpoints_outEp usb.phost.deviceProp laid.wired.outEp
    have turned := useEndpoints_inEp usb.cdc usb.phost.deviceProp
    have rxBuffer : (usb.cdc.useEndpoints usb.phost.deviceProp).pRxData = usb.cdc.pRxData := by
      have same (cdc : Cdc) (ep : EpDesc) : (cdc.useEndpoint ep).pRxData = cdc.pRxData := by
        unfold Cdc.useEndpoint
        split <;> rfl
      rw [Cdc.useEndpoints, same, same]
    have endpoints : ∃ cdc : Cdc, (usb.cdc.useEndpoints usb.phost.deviceProp).outEp =
        (cdc.useEndpoints usb.phost.deviceProp).outEp ∧ (usb.cdc.useEndpoints usb.phost.deviceProp).inEp =
        (cdc.useEndpoints usb.phost.deviceProp).inEp := ⟨usb.cdc, rfl, rfl⟩
    simp only
    generalize usb.cdc.useEndpoints usb.phost.deviceProp = cdc at *
    have taken := assign_taken (assign_taken controlled.taken cdc.outEp) cdc.inEp
    have outPipe := opened_pipe ((usb.pdev.assign 2 cdc.outEp).assign 3 cdc.inEp) 2 rfl
      usb.phost.deviceProp cdc.outEpSize
    have inPipe := opened_pipe (((usb.pdev.assign 2 cdc.outEp).assign 3 cdc.inEp).openChannel 2
      usb.phost.deviceProp.address usb.phost.deviceProp.speed .bulk cdc.outEpSize) 3 rfl
      usb.phost.deviceProp cdc.inEpSize
    refine ⟨.inr ⟨taken, hcNumOut, hcNumIn, rfl, rfl, accepted, ?_, inPipe, endpoints⟩,
      ⟨fun n one three => ?_, ?_, ?_, ?_, outward, fun none => ?_⟩, laid.buff, by simp [Usbh.setState], ?_⟩
    · simp only [Usbh.layout, Usbh.setState]
      rw [openChannel_other _ (by simp)]
      exact outPipe
    · simp only [Usbh.setState]
      rw [openChannel_other _ three]
      by_cases two : n = 2
      · subst two
        have closed := mt outPipe.epdir.mp (not_not_intro outward)
        exact ⟨Bool.eq_false_iff.mpr closed, (laid.wired.outward 2 (by simp) (by simp)).2⟩
      · rw [openChannel_other _ two]
        exact laid.wired.outward n one three
    · simp only [Usbh.setState]
      rw [openChannel_other _ (by simp), openChannel_other _ (by simp)]
      exact laid.wired.epType
    · simp only [Usbh.setState]
      rw [openChannel_other _ (by simp), openChannel_other _ (by simp)]
      exact laid.wired.eptype
    · simp only [Usbh.setState]
      rw [openChannel_other _ (by simp), openChannel_other _ (by simp)]
      exact laid.wired.object
    · have closed := mt inPipe.epdir.mp (not_not_intro none)
      exact ⟨Bool.eq_false_iff.mpr closed, (laid.wired.inEp (turned none)).2⟩
    · simp only [Usbh.setState]
      rw [rxBuffer]
      exact laid.pRxData
  · rw [interfaceInit_rejected accepted]
    refine laid.setState _ (.inl ⟨?_, accepted⟩) (by simp)
    exact ⟨controlled.taken, controlled.hcNumOut, controlled.hcNumIn, controlled.outPipe, controlled.inPipe⟩

theorem asked_line (phost : Host) (request : Option (Ptr × Nat)) : phost.asked request = phost.line ∨
    phost.requestState = .send ∧ ∃ buff length, request = some (buff, length) ∧
      phost.asked request = { phost.line with gState := .ctrlXfer, gStateBkp := phost.gState, buff, length } := by
  unfold Host.asked
  split
  · split
    · rename_i ready
      exact .inr ⟨ready, _, _, rfl, rfl⟩
    · exact .inl rfl
  · exact .inl rfl

theorem request_object {phost : Host} {buff : Ptr} {length : Nat} (request : phost.request = some (buff, length)) :
    buff.object = .null ∨ buff.object = .usbhBuf := by
  have string {index : Nat} (asked : Host.stringRequest index = some (buff, length)) : buff.object = .usbhBuf := by
    unfold Host.stringRequest at asked
    split at asked
    · cases asked
      rfl
    · cases asked
  unfold Host.request at request
  split at request
  case h_7 | h_8 | h_9 => exact .inr (string request)
  case h_10 => cases request
  case h_3 | h_4 =>
    cases request
    exact .inl rfl
  all_goals
    cases request
    exact .inr rfl

theorem handleEnum_laid {usb : Usbh} {stack : Stack} {status : UsbhStatus} (laid : Laid usb)
    (enumeration : usb.phost.gState = .enumeration) (handled : usb.toStack.handleEnum = .ok (stack, status)) :
    Laid { usb with toStack := stack } ∧ { usb with toStack := stack }.layout.Controlled := by
  have controlled := laid.allocated.controlled (.inl enumeration)
  have pdev : stack.pdev.channel = usb.pdev.channel ∧ (stack.pdev.hc 0).epIsIn = (usb.pdev.hc 0).epIsIn ∧
      Wired stack.pdev usb.cdc.outEp usb.cdc.inEp := by
    rcases handleEnum_pdev handled with same | ⟨nums, known, modified⟩
    · rw [same]
      exact ⟨rfl, rfl, laid.wired⟩
    · refine ⟨modified.channel, ?_, modified.wired laid.wired (fun n member => ?_) (laid.setupOut (.inl enumeration))⟩
      · rcases modified.hc 0 with same | ⟨_, _, _, _, changed⟩
        · rw [same]
        · rw [changed]
      · rcases known n member with equal | equal
        · exact .inl (equal.trans controlled.hcNumIn)
        · exact .inr (equal.trans controlled.hcNumOut)
  obtain ⟨channel, epIsIn, wired⟩ := pdev
  have kept (hcNumIn : stack.phost.line.hcNumIn = usb.phost.line.hcNumIn)
      (hcNumOut : stack.phost.line.hcNumOut = usb.phost.line.hcNumOut) :
      { usb with toStack := stack }.layout.Controlled := by
    refine ⟨?_, hcNumOut.trans controlled.hcNumOut, hcNumIn.trans controlled.hcNumIn, controlled.outPipe,
      controlled.inPipe⟩
    simp only [Usbh.layout, channel]
    exact controlled.taken
  have line := handleEnum_line handled
  rcases asked_line usb.phost usb.phost.request with same | ⟨_, buff, length, request, asked⟩
  · rw [same] at line
    have controlled' := kept (by rw [line]) (by rw [line])
    have gState : stack.phost.gState = .enumeration := (congrArg Line.gState line).trans enumeration
    refine ⟨⟨?_, wired, ?_, fun _ => ?_, laid.pRxData⟩, controlled'⟩
    · exact controlled'.enumerating gState
    · change stack.phost.line.buff.object = .null ∨ stack.phost.line.buff.object = .usbhBuf
      rw [line]
      exact laid.buff
    · rw [epIsIn]
      exact laid.setupOut (.inl enumeration)
  · rw [asked] at line
    have controlled' := kept (by rw [line]) (by rw [line])
    have gState : stack.phost.gState = .ctrlXfer := congrArg Line.gState line
    refine ⟨⟨?_, wired, ?_, fun _ => ?_, laid.pRxData⟩, controlled'⟩
    · exact controlled'.transferring gState ((congrArg Line.gStateBkp line).trans enumeration)
    · change stack.phost.line.buff.object = .null ∨ stack.phost.line.buff.object = .usbhBuf
      rw [line]
      exact request_object request
    · rw [epIsIn]
      exact laid.setupOut (.inl enumeration)

theorem control_laid {usb : Usbh} (laid : Laid usb) (transfer : usb.phost.gState = .ctrlXfer) (stk : BitVec 32) :
    Laid { usb with toStack := usb.toStack.handleControl stk } := by
  obtain ⟨controlled, bkp⟩ := laid.allocated.transfer transfer
  obtain ⟨transferred, line, deviceProp⟩ := handleControl_step usb.toStack stk
  generalize usb.toStack.handleControl stk = next at *
  have pdev : next.pdev.channel = usb.pdev.channel ∧ (next.pdev.hc 0).epIsIn = false ∧
      Wired next.pdev usb.cdc.outEp usb.cdc.inEp := by
    have outward := laid.setupOut (.inr transfer)
    generalize next.pdev = after at transferred ⊢
    cases transferred with
    | none => exact ⟨rfl, outward, laid.wired⟩
    | sent toggled _ buff length quiet _ started =>
      rw [show usb.phost.control.hcNumOut = 0 from controlled.hcNumOut] at started
      have undisturbed : Undisturbed usb.pdev toggled :=
        ⟨quiet.channel, fun n => config_of_settings (quiet.settings n),
          fun n => by have same := congrArg (fun c => c.xferBuff.object) (quiet.settings n); exact same,
          fun n => by have same := congrArg HostChannel.epIsIn (quiet.settings n); exact same,
          fun n _ => by rw [quiet.xferCnt]⟩
      exact ⟨started.channel.trans quiet.channel, started.inward,
        started.wired (undisturbed.wired laid.wired) (by simp)⟩
    | asked _ buff length request started =>
      rw [show usb.phost.control.hcNumIn = 1 from controlled.hcNumIn] at started
      refine ⟨started.channel, ?_, started.wired laid.wired fun _ => ?_⟩
      · rw [started.others 0 (by simp)]
        exact outward
      · rcases request with ⟨same, _⟩ | ⟨same, _⟩
        · rw [same]
          exact laid.buff
        · rw [same]
          exact .inl rfl
  obtain ⟨channel, epIsIn, wired⟩ := pdev
  have kept (hcNumIn : next.phost.line.hcNumIn = usb.phost.line.hcNumIn)
      (hcNumOut : next.phost.line.hcNumOut = usb.phost.line.hcNumOut) :
      { usb with toStack := next }.layout.Controlled := by
    refine ⟨?_, hcNumOut.trans controlled.hcNumOut, hcNumIn.trans controlled.hcNumIn, controlled.outPipe,
      controlled.inPipe⟩
    simp only [Usbh.layout, channel]
    exact controlled.taken
  rcases line with same | ended
  · have controlled' := kept (by rw [same]) (by rw [same])
    have gState : next.phost.gState = .ctrlXfer := (congrArg Line.gState same).trans transfer
    refine ⟨?_, wired, ?_, fun _ => epIsIn, laid.pRxData⟩
    · exact controlled'.transferring gState ((congrArg Line.gStateBkp same).trans bkp)
    · change next.phost.line.buff.object = .null ∨ next.phost.line.buff.object = .usbhBuf
      rw [same]
      exact laid.buff
  · have controlled' := kept (by rw [ended]) (by rw [ended])
    have gState : next.phost.gState = .enumeration := (congrArg Line.gState ended).trans bkp
    refine ⟨?_, wired, ?_, fun _ => epIsIn, laid.pRxData⟩
    · exact controlled'.enumerating gState
    · change next.phost.line.buff.object = .null ∨ next.phost.line.buff.object = .usbhBuf
      rw [ended]
      exact laid.buff

theorem Layout.Classed.pipes {l : Layout} (classed : l.Classed) :
    l.outPipe = 0 ∧ l.inPipe = 0 ∨ l.outPipe = 2 ∧ l.inPipe = 3 := by
  rcases classed with ⟨controlled, _⟩ | piped
  · exact .inl ⟨controlled.outPipe, controlled.inPipe⟩
  · exact .inr ⟨piped.outPipe, piped.inPipe⟩

theorem Laid.pipes {usb : Usbh} (laid : Laid usb) (active : usb.phost.gState = .hostClass) :
    usb.cdc.outPipe ≠ 1 ∧ usb.cdc.outPipe ≠ 3 ∧ usb.cdc.inPipe ≠ 1 := by
  rcases (laid.allocated.classed (.inr active)).pipes with ⟨out, inn⟩ | ⟨out, inn⟩
  · exact ⟨ne_of_eq_of_ne out (by simp), ne_of_eq_of_ne out (by simp), ne_of_eq_of_ne inn (by simp)⟩
  · exact ⟨ne_of_eq_of_ne out (by simp), ne_of_eq_of_ne out (by simp), ne_of_eq_of_ne inn (by simp)⟩

theorem Started.laid {usb : Usbh} {after : Hcd} {num length : Nat} {epIsIn : Bool} {buff : Ptr}
    (started : Started usb.pdev num epIsIn buff length after) (laid : Laid usb) (active : usb.phost.gState = .hostClass)
    (other : num ≠ 1) : Laid { usb with pdev := after } where
  allocated := by
    rw [started.layout]
    exact laid.allocated
  wired := started.wired laid.wired fun one => absurd one other
  buff := laid.buff
  setupOut at_state := by
    rcases at_state with same | same
    · exact absurd (active.symm.trans same) (by simp)
    · exact absurd (active.symm.trans same) (by simp)
  pRxData := laid.pRxData

theorem processTransmission_laid {usb : Usbh} (laid : Laid usb) (active : usb.phost.gState = .hostClass) (turn : Turn) :
    Laid (usb.processTransmission turn.env) := by
  obtain ⟨other, _⟩ := laid.pipes active
  have waited := irq_laid laid turn .transmission
  simp only [Usbh.processTransmission]
  split
  · have sent := (bulkSendData_started usb.pdev usb.cdc.pTxData
      (if usb.cdc.outEpSize < usb.cdc.txDataLength then usb.cdc.outEpSize else usb.cdc.txDataLength % 2 ^ 16)
      usb.cdc.outPipe).laid laid active other
    exact ⟨sent.allocated, sent.wired, sent.buff, sent.setupOut, sent.pRxData⟩
  · split
    · split
      · exact ⟨waited.allocated, waited.wired, waited.buff, waited.setupOut, waited.pRxData⟩
      · exact ⟨waited.allocated, waited.wired, waited.buff, waited.setupOut, waited.pRxData⟩
    · exact ⟨waited.allocated, waited.wired, waited.buff, waited.setupOut, waited.pRxData⟩
    · exact waited
  · exact laid

theorem processReception_laid {usb : Usbh} (laid : Laid usb) (active : usb.phost.gState = .hostClass) (turn : Turn) :
    Laid (usb.processReception turn.env) := by
  obtain ⟨_, _, other⟩ := laid.pipes active
  have waited := irq_laid laid turn .reception
  have counted := irq_laid waited turn .xferCnt
  simp only [Usbh.processReception]
  split
  · have asked := (bulkReceiveData_started usb.pdev usb.cdc.pRxData usb.cdc.inEpSize
      usb.cdc.inPipe).laid laid active other
    exact ⟨asked.allocated, asked.wired, asked.buff, asked.setupOut, asked.pRxData⟩
  · split
    · split
      · exact ⟨counted.allocated, counted.wired, counted.buff, counted.setupOut, counted.pRxData⟩
      · exact ⟨counted.allocated, counted.wired, counted.buff, counted.setupOut, counted.pRxData⟩
    · exact waited
  · exact laid

theorem handle_laid {usb : Usbh} (laid : Laid usb) (active : usb.phost.gState = .hostClass) (turn : Turn) :
    Laid (usb.handle turn.env).1 := by
  have first := irq_laid laid turn .handle
  simp only [Usbh.handle]
  split
  · split
    · exact first
    · apply processReception_laid
      · exact processTransmission_laid first active turn
      · rw [(processTransmission_same (usb.irq turn.env .handle) turn.env).2.1]
        exact active
    · exact first
  · exact first

theorem waitPrtEnabled_laid {usb : Usbh} (laid : Laid usb) (idle : usb.phost.gState = .idle) :
    Laid (usb.setState .waitPrtEnabled) := by
  have unallocated := laid.allocated.unallocated (.inl idle)
  exact laid.setState _ ⟨unallocated.taken, unallocated.outPipe, unallocated.inPipe⟩ (by simp)

/-- `USBH_Process()` keeps the channels in order. -/
theorem process_laid {usb next : Usbh} (fault : Bool) {turn : Turn} (laid : Laid usb)
    (ran : usb.process (classCb fault) turn.env = .ok next) : Laid next := by
  have found := irq_laid (portEvents_laid laid turn) turn .state
  have stepped := process_stepped ran
  generalize (usb.portEvents turn.env).irq turn.env .state = mid at found stepped
  cases stepped with
  | noDevice => exact found
  | portDisabled => exact found
  | device idle =>
    have waiting := irq_laid (waitPrtEnabled_laid found idle) turn .reset
    exact ⟨waiting.allocated, ⟨waiting.wired.outward, waiting.wired.epType, waiting.wired.eptype,
      waiting.wired.object, waiting.wired.outEp, waiting.wired.inEp⟩, waiting.buff, waiting.setupOut, waiting.pRxData⟩
  | portEnabled waiting =>
    have unallocated := found.allocated.unallocated (.inr (.inl waiting))
    exact found.setState _ ⟨unallocated.taken, unallocated.outPipe, unallocated.inPipe⟩ (by simp)
  | attached attached => exact devAttached_laid found attached turn
  | enumerating stack enumeration handled => exact (handleEnum_laid found enumeration handled).1
  | enumerated stack enumeration handled =>
    obtain ⟨laid', controlled⟩ := handleEnum_laid found enumeration handled
    exact laid'.setState _ ⟨controlled.taken, controlled.hcNumOut, controlled.hcNumIn, controlled.outPipe,
      controlled.inPipe⟩ (by simp)
  | init input => exact init_laid found input
  | request request =>
    have requested : Laid mid.classRequest.1 :=
      ⟨found.allocated, found.wired, found.buff, found.setupOut, found.pRxData⟩
    refine requested.setState _ ?_ (by simp)
    rcases found.allocated.classed (.inl request) with ⟨controlled, rejected⟩ | piped
    · exact .inl ⟨⟨controlled.taken, controlled.hcNumOut, controlled.hcNumIn, controlled.outPipe,
        controlled.inPipe⟩, rejected⟩
    · exact .inr ⟨piped.taken, piped.hcNumOut, piped.hcNumIn, piped.outPipe, piped.inPipe, piped.accepted,
        piped.outOpen, piped.inOpen, piped.endpoints⟩
  | machine active => exact handle_laid found active turn
  | failed active =>
    have handled := handle_laid found active turn
    have cleared : Laid (mid.handle turn.env).1.usrUnrecoveredError :=
      ⟨handled.allocated, handled.wired, handled.buff, handled.setupOut, handled.pRxData⟩
    exact cleared.setState _ handled.allocated.owned (by simp)
  | control transfer => exact control_laid found transfer turn.env.stk
  | reinit => exact deInit_laid found
  | disconnected => exact devDisconnected_laid found

theorem serve_laid {usb : Usbh} (laid : Laid usb) (call : Option CdcCall) : Laid (usb.serve call) := by
  cases call with
  | none => exact laid
  | some call =>
    cases call with
    | transmit buf length =>
      simp only [Usbh.serve, Usbh.cdcCall, Usbh.transmit]
      split
      · exact ⟨laid.allocated, laid.wired, laid.buff, laid.setupOut, laid.pRxData⟩
      · exact laid
    | receive length =>
      simp only [Usbh.serve, Usbh.cdcCall, Usbh.receive]
      split
      · exact ⟨laid.allocated, laid.wired, laid.buff, laid.setupOut, .inr rfl⟩
      · exact laid

theorem usbhCdcInit_laid : Laid usbhCdcInit where
  allocated := by
    refine ⟨fun idx bound => ?_, rfl, rfl⟩
    change Used ((zeroed.pdev.freeChannel 0).freeChannel 0).channel idx ↔ _
    rw [freeChannel_used bound, freeChannel_used bound]
    simp [Used, zeroed]
  wired := by
    refine ⟨fun n _ _ => ⟨?_, rfl⟩, rfl, rfl, .inl rfl, rfl, fun _ => ⟨rfl, rfl⟩⟩
    simp only [usbhCdcInit, Hcd.init, edit_hc]
    split <;> rfl
  buff := .inl rfl
  setupOut := by simp [usbhCdcInit, zeroed, Stack.deInit]
  pRxData := .inl rfl

theorem pass_laid (x : Pass) (usb next : Usbh) (laid : Laid usb) (ran : usb.pass x = .ok next) : Laid next := by
  unfold Usbh.pass at ran
  split at ran
  · cases ran
  · rename_i processed called
    cases ran
    exact serve_laid (irq_laid (process_laid false laid.fresh called) x.toTurn .exit) x.call

end Testjig.Usb
