import Testjig.Usb.Enumeration
import Testjig.Usb.Reception

namespace Testjig.Usb

open Machine Testjig.Sequence

/-- `sizeof(usbh_buf)` -/
def usbhBufSize : Nat := 4 * (512 / 8)

/-- `usbh_buf` has room for `length` bytes that come in packets of `maxPacket` bytes, each stored in whole words. -/
def Fits (maxPacket length : Nat) : Prop :=
  length ≤ usbhBufSize ∧ ∀ k, k * maxPacket ≤ length →
    k * maxPacket + 4 * ((min maxPacket (length - k * maxPacket) + 3) / 4) ≤ usbhBufSize

theorem fits_of_short (maxPacket : Nat) {length : Nat} (short : length + 3 ≤ usbhBufSize) : Fits maxPacket length := by
  refine ⟨by omega, fun k within => ?_⟩
  have last := Nat.min_le_right maxPacket (length - k * maxPacket)
  omega

/-- Packets of 8, 16, 32 or 64 bytes are stored without a gap: only the length counts. -/
theorem fits_of_dvd {maxPacket length : Nat} (words : 4 ∣ maxPacket) (bound : length ≤ usbhBufSize) :
    Fits maxPacket length := by
  refine ⟨bound, fun k within => ?_⟩
  obtain ⟨a, equal⟩ := Dvd.dvd.mul_left words k
  have last := Nat.min_le_right maxPacket (length - k * maxPacket)
  rw [usbhBufSize] at bound ⊢
  omega

-- After five packets of 51 bytes, a last one of a single byte is stored as a word.
example : ¬ Fits 51 256 := fun fits => absurd (fits.2 5 (by decide)) (by decide)

theorem packet_fits {maxPacket length bcnt : Nat} (fits : Fits maxPacket length) (k : Nat) (narrow : bcnt ≤ maxPacket)
    (asked : k * maxPacket + bcnt ≤ length) : k * maxPacket + 4 * ((bcnt + 3) / 4) ≤ usbhBufSize := by
  have bound := fits.2 k (by omega)
  have last : bcnt ≤ min maxPacket (length - k * maxPacket) := Nat.le_min.mpr ⟨narrow, by omega⟩
  omega

/-- The call makes the request of the stage that the enumeration has reached. -/
def Asks (x : Pass) (usb : Usbh) : Prop := (x.mid usb).phost.gState = .enumeration ∧ usb.phost.requestState = .send

/-- No request for a descriptor is longer than `usbh_buf`, and nothing has been stored past its end. -/
structure Bounded (usb : Usbh) : Prop where
  requested : usb.phost.gState = .ctrlXfer → usb.phost.control.buff = cfgRxBuffer →
    usb.phost.control.length ≤ usbhBufSize
  stored : usb.pdev.high .usbhBuf ≤ usbhBufSize

/-- The descriptors that the stage depends on: a configuration that fits into `usbh_buf`, and no strings -/
def Modest (usb : Usbh) : Prop :=
  match usb.phost.enumState with
  | .getFullCfgDesc => Fits (usb.pdev.hc 1).maxPacket usb.phost.deviceProp.cfgDesc.wTotalLength
  | .getMfcStringDesc => usb.phost.deviceProp.devDesc.iManufacturer = 0
  | .getProductStringDesc => usb.phost.deviceProp.devDesc.iProduct = 0
  | .getSerialnumStringDesc => usb.phost.deviceProp.devDesc.iSerialNumber = 0
  | _ => True

theorem request_modest {usb : Usbh} {buff : Ptr} {length : Nat} (modest : Modest usb)
    (request : usb.phost.request = some (buff, length)) :
    buff = .null ∨ buff = cfgRxBuffer ∧ Fits (usb.pdev.hc 1).maxPacket length := by
  unfold Host.request at request
  unfold Modest at modest
  cases enum : usb.phost.enumState
  all_goals simp only [enum] at request modest
  case getMfcStringDesc | getProductStringDesc | getSerialnumStringDesc => simp [Host.stringRequest, modest] at request
  case getFullCfgDesc =>
    cases request
    exact .inr ⟨rfl, modest⟩
  case devConfigured => cases request
  case setAddr | setConfiguration =>
    cases request
    exact .inl rfl
  all_goals
    cases request
    exact .inr ⟨rfl, fits_of_short _ (by decide)⟩

theorem request_immodest {usb : Usbh} (immodest : ¬ Modest usb) :
    ∃ length, usb.phost.request = some (cfgRxBuffer, length) ∧ ¬ Fits (usb.pdev.hc 1).maxPacket length := by
  unfold Modest at immodest
  unfold Host.request
  cases enum : usb.phost.enumState
  all_goals simp only [enum, not_true] at immodest
  case getFullCfgDesc => exact ⟨_, rfl, immodest⟩
  all_goals
    refine ⟨512, if_pos immodest, fun fits => ?_⟩
    exact absurd fits.1 (by decide)

/-- A control transfer waits for a packet to go into `usbh_buf`. -/
structure Filling (pdev : Hcd) : Prop where
  chen : (pdev.hc 1).chen = true
  pktcnt : 0 < (pdev.hc 1).pktcnt
  object : (pdev.hc 1).xferBuff.object = .usbhBuf

/-- `usbh_buf` has been filled with whole packets, and has room for all that was asked for. -/
structure Filled (pdev : Hcd) : Prop where
  offset : (pdev.hc 1).xferBuff.offset = (pdev.hc 1).xferCount
  packets : ∃ k, k * (pdev.hc 1).maxPacket = (pdev.hc 1).xferCount
  fits : Fits (pdev.hc 1).maxPacket (pdev.hc 1).requested

/-- Nothing has been stored past the end of `usbh_buf`, or will be by the transfer that is under way. -/
structure Within (pdev : Hcd) : Prop where
  high : pdev.high .usbhBuf ≤ usbhBufSize
  filled : Filling pdev → Filled pdev

def Honest (pdev : Hcd) : Prop := pdev.overlong = false → Within pdev

/-- A change that leaves the channel of control IN transfers alone, and the buffer of descriptors -/
structure Beside (before after : Hcd) : Prop where
  hc : after.hc 1 = before.hc 1
  high : after.high .usbhBuf = before.high .usbhBuf
  overlong : after.overlong = before.overlong

theorem Beside.honest {before after : Hcd} (beside : Beside before after) (honest : Honest before) : Honest after := by
  intro short
  have within := honest (beside.overlong.symm.trans short)
  refine ⟨Nat.le_trans (Nat.le_of_eq beside.high) within.high, fun filling => ?_⟩
  have filled := within.filled ⟨beside.hc ▸ filling.chen, beside.hc ▸ filling.pktcnt, beside.hc ▸ filling.object⟩
  exact ⟨by rw [beside.hc]; exact filled.offset, by rw [beside.hc]; exact filled.packets,
    by rw [beside.hc]; exact filled.fits⟩

/-- A channel that has been set up anew waits for nothing. -/
theorem honest_closed {before after : Hcd} (high : after.high .usbhBuf = before.high .usbhBuf)
    (overlong : after.overlong = before.overlong) (closed : (after.hc 1).chen = false) (honest : Honest before) :
    Honest after := by
  intro short
  refine ⟨Nat.le_trans (Nat.le_of_eq high) (honest (overlong.symm.trans short)).high, fun filling => ?_⟩
  exact absurd (closed.symm.trans filling.chen) (by simp)

theorem packet_within {pdev : Hcd} (within : Within pdev) (filled : (pdev.hc 1).xferBuff.object = .usbhBuf → Filled pdev)
    (fifo : Nat → Byte) {bcnt : Nat} (narrow : bcnt ≤ (pdev.hc 1).maxPacket) (ctrl : (pdev.hc 1).eptype = .ctrl)
    (honest : ¬ (pdev.hc 1).Surplus bcnt) : Within (pdev.packet 1 fifo bcnt) := by
  have settings := packet_settings pdev 1 1 fifo bcnt
  rw [if_pos rfl] at settings
  have maxPacket := congrArg HostChannel.maxPacket settings
  have requested := congrArg HostChannel.requested settings
  have pktcnt := congrArg HostChannel.pktcnt settings
  have xferBuff := congrArg HostChannel.xferBuff settings
  have xferCount := congrArg HostChannel.xferCount settings
  simp only [HostChannel.settings, HostChannel.packet] at maxPacket requested pktcnt xferBuff xferCount
  by_cases stores : (pdev.hc 1).Stores bcnt
  · rw [if_pos stores] at xferBuff xferCount
    have asked : (pdev.hc 1).xferCount + bcnt ≤ (pdev.hc 1).requested := by
      by_contra more
      exact honest ⟨ctrl, stores.2, by omega⟩
    refine ⟨?_, fun filling => ?_⟩
    · rw [(packet_stored pdev 1 fifo bcnt stores).2.1]
      simp only [Hcd.readPacket]
      by_cases object : (pdev.hc 1).xferBuff.object = .usbhBuf
      · obtain ⟨offset, ⟨k, packets⟩, fits⟩ := filled object
        rw [object, Function.update_self, offset, ← packets]
        exact Nat.max_le.mpr ⟨within.high, packet_fits fits k narrow (by omega)⟩
      · rw [Function.update_of_ne (Ne.symm object)]
        exact within.high
    · have object := filling.object
      rw [xferBuff] at object
      obtain ⟨offset, ⟨k, packets⟩, fits⟩ := filled object
      -- Only a full packet leaves more to come.
      have full : bcnt = (pdev.hc 1).maxPacket := by
        have more := filling.pktcnt
        rw [pktcnt] at more
        by_contra short
        rw [if_pos (by omega)] at more
        exact absurd more (Nat.lt_irrefl 0)
      refine ⟨?_, ⟨k + 1, ?_⟩, ?_⟩
      · rw [xferBuff, xferCount, Ptr.add, offset]
      · rw [maxPacket, xferCount, ← packets, full, Nat.succ_mul]
      · rw [maxPacket, requested]
        exact fits
  · rw [if_neg stores] at xferBuff xferCount
    refine ⟨?_, fun filling => ?_⟩
    · rw [(packet_dropped pdev 1 fifo bcnt stores).2.1]
      exact within.high
    · have object := filling.object
      rw [xferBuff] at object
      obtain ⟨offset, packets, fits⟩ := filled object
      refine ⟨?_, ?_, ?_⟩
      · rw [xferBuff, xferCount]
        exact offset
      · rw [maxPacket, xferCount]
        exact packets
      · rw [maxPacket, requested]
        exact fits

theorem interrupt_honest {pdev : Hcd} {outEp inEp : Byte} (wired : Wired pdev outEp inEp)
    (elsewhere : (pdev.hc 3).xferBuff.object ≠ .usbhBuf) (irq : Irq) (honest : Honest pdev) :
    Honest (pdev.interrupt irq) := by
  -- An interrupt enables no channel that was not enabled before.
  have enabled (filling : Filling (pdev.interrupt irq)) : (pdev.hc 1).chen = true := by
    by_contra off
    have untouched := interrupt_disabled_channel pdev irq (n := 1) (Bool.eq_false_iff.mpr off)
    exact off (untouched.hc ▸ filling.chen)
  intro short
  have interrupted := interrupt_cases pdev irq
  generalize pdev.interrupt irq = next at interrupted enabled short
  cases interrupted with
  | quiet _ _ quiet =>
    have within := honest (quiet.overlong.symm.trans short)
    refine ⟨?_, fun filling => ?_⟩
    · rw [quiet.high]
      exact within.high
    · have pktcnt := congrArg HostChannel.pktcnt (quiet.settings 1)
      have xferBuff := congrArg HostChannel.xferBuff (quiet.settings 1)
      have xferCount := congrArg HostChannel.xferCount (quiet.settings 1)
      have maxPacket := congrArg HostChannel.maxPacket (quiet.settings 1)
      have requested := congrArg HostChannel.requested (quiet.settings 1)
      simp only [HostChannel.settings] at pktcnt xferBuff xferCount maxPacket requested
      obtain ⟨offset, packets, fits⟩ := within.filled
        ⟨enabled filling, pktcnt ▸ filling.pktcnt, xferBuff ▸ filling.object⟩
      refine ⟨?_, ?_, ?_⟩
      · rw [xferBuff, xferCount]
        exact offset
      · rw [maxPacket, xferCount]
        exact packets
      · rw [maxPacket, requested]
        exact fits
  | packet chnum fifo bcnt chen inward waiting narrow =>
    obtain ⟨before, proper⟩ := (packet_overlong pdev chnum fifo bcnt).mp short
    have within := honest before
    rcases wired.inward inward with rfl | rfl
    · exact packet_within within (fun object => within.filled ⟨chen, waiting, object⟩) fifo narrow wired.eptype proper
    · refine (Beside.honest ⟨(packet_untouched (by simp) pdev fifo bcnt).hc, ?_, short.trans before.symm⟩ honest) short
      by_cases stores : (pdev.hc 3).Stores bcnt
      · rw [(packet_stored pdev 3 fifo bcnt stores).2.1]
        simp only [Hcd.readPacket]
        rw [Function.update_of_ne (Ne.symm elsewhere)]
      · rw [(packet_dropped pdev 3 fifo bcnt stores).2.1]

/-- What is kept about `usbh_buf`, beside where the channels are pointed at -/
structure Safe (usb : Usbh) : Prop where
  laid : Laid usb
  elsewhere : (usb.pdev.hc 3).xferBuff.object ≠ .usbhBuf
  honest : Honest usb.pdev

theorem elsewhere_invariant : PipeInvariant fun pdev => (pdev.hc 3).xferBuff.object ≠ .usbhBuf where
  apart before after apart elsewhere := by
    rw [apart.hc]
    exact elsewhere
  interrupt pdev irq _ _ _ elsewhere := by
    rw [(interrupt_undisturbed pdev irq).object]
    exact elsewhere

theorem started_elsewhere {cdc : Cdc} (pRxData : cdc.pRxData = .null ∨ cdc.pRxData = ⟨.rspbuf, 0⟩) :
    PipeInvariant.Asked (fun pdev => (pdev.hc 3).xferBuff.object ≠ .usbhBuf) cdc := by
  intro _ before after _ _ started
  rw [started.buffer]
  rcases pRxData with null | rspbuf
  · rw [null]
    simp [Ptr.null]
  · rw [rspbuf]
    simp

theorem opened_elsewhere (usb : Usbh) :
    PipeInvariant.Opened (fun pdev => (pdev.hc 3).xferBuff.object ≠ .usbhBuf) usb := by
  intro _ _ pdev devAddress speed elsewhere
  rw [openChannel_hc, if_pos rfl]
  exact elsewhere

theorem interrupts_honest {pdev : Hcd} {outEp inEp : Byte} (wired : Wired pdev outEp inEp)
    (elsewhere : (pdev.hc 3).xferBuff.object ≠ .usbhBuf) (honest : Honest pdev) (irqs : List Irq) :
    Honest (pdev.interrupts irqs) := by
  have step (middle : Hcd) (irq : Irq)
      (all : Wired middle outEp inEp ∧ (middle.hc 3).xferBuff.object ≠ .usbhBuf ∧ Honest middle) :
      Wired (middle.interrupt irq) outEp inEp ∧ ((middle.interrupt irq).hc 3).xferBuff.object ≠ .usbhBuf ∧
        Honest (middle.interrupt irq) := by
    obtain ⟨wired, elsewhere, honest⟩ := all
    exact ⟨(interrupt_undisturbed middle irq).wired wired, elsewhere_invariant.interrupt middle irq _ _ wired elsewhere,
      interrupt_honest wired elsewhere irq honest⟩
  exact (interrupts_invariant step irqs ⟨wired, elsewhere, honest⟩).2.2

theorem irq_safe {usb : Usbh} (safe : Safe usb) (turn : Turn) (point : Point) : Safe (usb.irq turn.env point) where
  laid := irq_laid safe.laid turn point
  elsewhere := elsewhere_invariant.irq safe.laid safe.elsewhere turn point
  honest := interrupts_honest safe.laid.wired safe.elsewhere safe.honest (turn.irqs point)

theorem portEvents_safe {usb : Usbh} (safe : Safe usb) (turn : Turn) : Safe (usb.portEvents turn.env) where
  laid := portEvents_laid safe.laid turn
  elsewhere := elsewhere_invariant.portEvents safe.laid safe.elsewhere turn
  honest := by
    have second := (irq_safe (irq_safe safe turn .connSts) turn .portEnabled).honest
    simp only [Usbh.portEvents]
    split <;> exact second

theorem mid_safe (x : Pass) {usb : Usbh} (safe : Safe usb) : Safe (x.mid usb) := by
  have fresh : Safe { usb with actions := [] } := ⟨safe.laid.fresh, safe.elsewhere, safe.honest⟩
  exact irq_safe (portEvents_safe fresh x.toTurn) x.toTurn .state

theorem Started.beside {before after : Hcd} {num length : Nat} {epIsIn : Bool} {buff : Ptr}
    (started : Started before num epIsIn buff length after) (other : num ≠ 1) : Beside before after where
  hc := started.others 1 other.symm
  high := by rw [started.high]
  overlong := started.overlong

theorem openChannel_beside (pdev : Hcd) {num : Nat} (other : 1 ≠ num) (devAddress speed mps : Nat) (epType : EpType) :
    Beside pdev (pdev.openChannel num devAddress speed epType mps) :=
  ⟨openChannel_other pdev other devAddress speed mps epType, rfl, rfl⟩

theorem processTransmission_honest {usb : Usbh} (safe : Safe usb) (active : usb.phost.gState = .hostClass)
    (turn : Turn) : Honest (usb.processTransmission turn.env).pdev := by
  have waited := (irq_safe safe turn .transmission).honest
  simp only [Usbh.processTransmission]
  split
  · exact ((bulkSendData_started ..).beside (safe.laid.pipes active).1).honest safe.honest
  · split
    · split <;> exact waited
    · exact waited
    · exact waited
  · exact safe.honest

theorem processTransmission_safe {usb : Usbh} (safe : Safe usb) (active : usb.phost.gState = .hostClass) (turn : Turn) :
    Safe (usb.processTransmission turn.env) where
  laid := processTransmission_laid safe.laid active turn
  elsewhere := elsewhere_invariant.processTransmission safe.laid active safe.elsewhere turn
  honest := processTransmission_honest safe active turn

theorem processReception_honest {usb : Usbh} (safe : Safe usb) (active : usb.phost.gState = .hostClass)
    (turn : Turn) : Honest (usb.processReception turn.env).pdev := by
  have waited := irq_safe safe turn .reception
  have counted := irq_safe waited turn .xferCnt
  simp only [Usbh.processReception]
  split
  · exact ((bulkReceiveData_started ..).beside (safe.laid.pipes active).2.2).honest safe.honest
  · split
    · split <;> exact counted.honest
    · exact waited.honest
  · exact safe.honest

theorem handle_honest {usb : Usbh} (safe : Safe usb) (active : usb.phost.gState = .hostClass) (turn : Turn) :
    Honest (usb.handle turn.env).1.pdev := by
  have first := irq_safe safe turn .handle
  simp only [Usbh.handle]
  split
  · split
    · exact first.honest
    · apply processReception_honest (processTransmission_safe first active turn)
      rw [(processTransmission_same (usb.irq turn.env .handle) turn.env).2.1]
      exact active
    · exact first.honest
  · exact first.honest

theorem maxPacket_of_config {c d : HostChannel} (same : c.config = d.config) : c.maxPacket = d.maxPacket := by
  have maxPacket := congrArg HostChannel.maxPacket same
  exact maxPacket

/-- The control transfer that is under way asks for what fits into its buffer. -/
def Requests (usb : Usbh) : Prop := usb.phost.gState = .ctrlXfer → usb.phost.control.buff = .null ∨
  usb.phost.control.buff = cfgRxBuffer ∧ Fits (usb.pdev.hc 1).maxPacket usb.phost.control.length

theorem control_honest {usb : Usbh} (safe : Safe usb) (requests : Requests usb) (transfer : usb.phost.gState = .ctrlXfer)
    (stk : BitVec 32) : Honest (usb.toStack.handleControl stk).pdev := by
  obtain ⟨controlled, _⟩ := safe.laid.allocated.transfer transfer
  have hcNumOut : usb.phost.control.hcNumOut = 0 := controlled.hcNumOut
  have hcNumIn : usb.phost.control.hcNumIn = 1 := controlled.hcNumIn
  have transferred := (handleControl_step usb.toStack stk).transferred
  generalize (usb.toStack.handleControl stk).pdev = next at transferred ⊢
  cases transferred with
  | none => exact safe.honest
  | sent toggled _ buff length quiet others started =>
    rw [hcNumOut] at started others
    have beside : Beside usb.pdev toggled := ⟨others 1 (by simp), by rw [quiet.high], quiet.overlong⟩
    exact (started.beside (by simp)).honest (beside.honest safe.honest)
  | asked _ buff length request started =>
    rw [hcNumIn] at started
    intro short
    refine ⟨?_, fun filling => ?_⟩
    · rw [started.high]
      exact (safe.honest (started.overlong.symm.trans short)).high
    · have object := filling.object
      rw [started.buffer] at object
      have maxPacket := maxPacket_of_config started.config
      rcases request with ⟨rfl, rfl⟩ | ⟨rfl, rfl⟩
      · rcases requests transfer with null | ⟨buff, fits⟩
        · rw [null] at object
          cases object
        · refine ⟨?_, ⟨0, ?_⟩, ?_⟩
          · rw [started.buffer, started.count, buff]
            rfl
          · rw [started.count, Nat.zero_mul]
          · rw [maxPacket, started.requested]
            exact fits
      · cases object

theorem enumeration_honest {usb : Usbh} {stack : Stack} {status : UsbhStatus} (safe : Safe usb)
    (handled : usb.toStack.handleEnum = .ok (stack, status)) : Honest stack.pdev := by
  rcases handleEnum_pdev handled with same | ⟨nums, _, modified⟩
  · rw [same]
    exact safe.honest
  · have high : stack.pdev.high .usbhBuf = usb.pdev.high .usbhBuf := by rw [modified.high]
    rcases modified.hc 1 with same | ⟨_, _, _, _, changed⟩
    · exact Beside.honest ⟨same, high, modified.overlong⟩ safe.honest
    · refine honest_closed high modified.overlong ?_ safe.honest
      rw [changed]

theorem deInit_honest {usb : Usbh} (honest : Honest usb.pdev) : Honest (usb.deInit usbhCdcCb).pdev := by
  have freed (pdev : Hcd) (idx : Nat) (honest : Honest pdev) : Honest (pdev.freeChannel idx) := by
    refine Beside.honest ?_ honest
    unfold Hcd.freeChannel
    split <;> exact ⟨rfl, rfl, rfl⟩
  have stack := freed _ usb.phost.control.hcNumOut (freed _ usb.phost.control.hcNumIn honest)
  simp only [Usbh.deInit, usbhCdcCb, Usbh.interfaceDeInit, Usbh.usrDeInit, Stack.deInit]
  split
  · split
    · exact freed _ _ (freed _ _ stack)
    · exact freed _ _ stack
  · split
    · exact freed _ _ stack
    · exact stack

theorem devAttached_honest {usb : Usbh} (safe : Safe usb) (attached : usb.phost.gState = .devAttached) (turn : Turn) :
    Honest (usb.devAttached turn.env).pdev := by
  rw [devAttached_eq (safe.laid.allocated.unallocated (.inr (.inr attached)))]
  have wired : Wired ((usb.pdev.assign 0 0x00).assign 1 0x80) usb.cdc.outEp usb.cdc.inEp :=
    ⟨safe.laid.wired.outward, safe.laid.wired.epType, safe.laid.wired.eptype, safe.laid.wired.object,
      safe.laid.wired.outEp, safe.laid.wired.inEp⟩
  have assigned : Beside usb.pdev ((usb.pdev.assign 0 0x00).assign 1 0x80) := ⟨rfl, rfl, rfl⟩
  have waited := interrupts_honest wired safe.elsewhere (assigned.honest safe.honest) (turn.irqs .reset)
  refine honest_closed ?_ ?_ ?_ waited
  · rfl
  · rfl
  · rw [openChannel_other _ (by simp), openChannel_hc, if_pos rfl]

theorem stepped_honest {x : Pass} {mid next : Usbh} (safe : Safe mid) (requests : Requests mid)
    (stepped : Stepped false x.env mid next) : Honest next.pdev := by
  cases stepped with
  | noDevice => exact safe.honest
  | portDisabled => exact safe.honest
  | portEnabled => exact safe.honest
  | request => exact safe.honest
  | device idle =>
    have waiting : Safe (mid.setState .waitPrtEnabled) :=
      ⟨waitPrtEnabled_laid safe.laid idle, safe.elsewhere, safe.honest⟩
    have waited := (irq_safe waiting x.toTurn .reset).honest
    have beside : Beside ((mid.setState .waitPrtEnabled).irq x.env .reset).pdev
        ((mid.setState .waitPrtEnabled).irq x.env .reset).pdev.resetPort := ⟨rfl, rfl, rfl⟩
    exact beside.honest waited
  | attached attached => exact devAttached_honest safe attached x.toTurn
  | enumerating stack _ handled => exact enumeration_honest safe handled
  | enumerated stack _ handled =>
    have enumerated : Honest stack.pdev := enumeration_honest safe handled
    exact enumerated
  | init input =>
    by_cases accepted : mid.phost.deviceProp.Accepted
    · rw [interfaceInit_eq (safe.laid.allocated.controlled (.inr input)) accepted]
      apply (openChannel_beside _ (by simp) ..).honest
      apply (openChannel_beside _ (by simp) ..).honest
      have assigned (pdev : Hcd) (idx : Nat) (epAddr : Byte) : Beside pdev (pdev.assign idx epAddr) := ⟨rfl, rfl, rfl⟩
      exact (assigned ..).honest ((assigned ..).honest safe.honest)
    · rw [interfaceInit_rejected accepted]
      exact safe.honest
  | machine active => exact handle_honest safe active x.toTurn
  | failed active => exact handle_honest safe active x.toTurn
  | control transfer => exact control_honest safe requests transfer x.env.stk
  | reinit => exact deInit_honest safe.honest
  | disconnected =>
    have again : Honest (mid.usrDeviceDisconnected.deInit usbhCdcCb).pdev := deInit_honest safe.honest
    have beside : Beside (mid.usrDeviceDisconnected.deInit usbhCdcCb).pdev (mid.devDisconnected usbhCdcCb).pdev := by
      refine ⟨?_, rfl, rfl⟩
      simp [Usbh.devDisconnected, Usbh.setState, Hcd.init, edit_hc, Hcd.deAllocateAllChannel]
    exact beside.honest again

/-- A control transfer goes on with its request, or begins with that of the stage. -/
theorem stepped_transfer {x : Pass} {mid next : Usbh} (laid : Laid mid) (stepped : Stepped false x.env mid next)
    (transfer : next.phost.gState = .ctrlXfer) : (next.pdev.hc 1).maxPacket = (mid.pdev.hc 1).maxPacket ∧
      (mid.phost.gState = .ctrlXfer ∧ next.phost.line = mid.phost.line ∨
        mid.phost.gState = .enumeration ∧ mid.phost.requestState = .send ∧
          mid.phost.request = some (next.phost.control.buff, next.phost.control.length)) := by
  cases stepped with
  | noDevice idle => exact absurd (idle.symm.trans transfer) (by simp)
  | portDisabled waiting => exact absurd (waiting.symm.trans transfer) (by simp)
  | enumerating stack enumeration handled =>
    have line := handleEnum_line handled
    rcases asked_line mid.phost mid.phost.request with same | ⟨ready, buff, length, request, asked⟩
    · rw [same] at line
      have state : stack.phost.gState = .enumeration := (congrArg Line.gState line).trans enumeration
      exact absurd (state.symm.trans transfer) (by simp)
    · rw [asked] at line
      have isBuff : stack.phost.control.buff = buff := congrArg Line.buff line
      have isLength : stack.phost.control.length = length := congrArg Line.length line
      refine ⟨?_, .inr ⟨enumeration, ready, ?_⟩⟩
      · rcases handleEnum_sends ready handled with ⟨_, same, _⟩ | ⟨_, _, same⟩ | ⟨_, submitted⟩
        · rw [same]
        · rw [same]
        · rw [submitted.pdev]
      · rw [request, isBuff, isLength]
  | control waiting =>
    obtain ⟨transferred, line, _⟩ := handleControl_step mid.toStack x.env.stk
    have maxPacket : ((mid.toStack.handleControl x.env.stk).pdev.hc 1).maxPacket = (mid.pdev.hc 1).maxPacket := by
      generalize (mid.toStack.handleControl x.env.stk).pdev = after at transferred
      cases transferred with
      | none => rfl
      | sent toggled _ _ _ quiet _ started =>
        have settings := config_of_settings (quiet.settings 1)
        exact maxPacket_of_config ((started.configs 1).trans settings)
      | asked _ _ _ _ started => exact maxPacket_of_config (started.configs 1)
    refine ⟨maxPacket, ?_⟩
    rcases line with same | ended
    · exact .inl ⟨waiting, same⟩
    · have state : (mid.toStack.handleControl x.env.stk).phost.line.gState = .enumeration := by
        rw [ended]
        exact (laid.allocated.transfer waiting).2
      exact absurd (state.symm.trans transfer) (by simp)
  | machine active =>
    rw [(handle_same mid x.env).2.1] at transfer
    exact absurd (active.symm.trans transfer) (by simp)
  | reinit =>
    rw [deInit_idle] at transfer
    cases transfer
  | _ => cases transfer

theorem mid_maxPacket (x : Pass) (usb : Usbh) : ((x.mid usb).pdev.hc 1).maxPacket = (usb.pdev.hc 1).maxPacket := by
  have connSts := interrupts_undisturbed usb.pdev (x.irqs .connSts)
  have portEnabled := interrupts_undisturbed (usb.pdev.interrupts (x.irqs .connSts)) (x.irqs .portEnabled)
  have events : ((({ usb with actions := [] } : Usbh).portEvents x.env).pdev.hc 1).config = (usb.pdev.hc 1).config := by
    have config := ((connSts.trans portEnabled).config 1)
    simp only [Usbh.portEvents]
    split <;> exact config
  have state := interrupts_undisturbed (({ usb with actions := [] } : Usbh).portEvents x.env).pdev (x.irqs .state)
  exact maxPacket_of_config ((state.config 1).trans events)

theorem mid_modest {x : Pass} {usb : Usbh} (same : (x.mid usb).phost = usb.phost) :
    Modest (x.mid usb) ↔ Modest usb := by
  unfold Modest
  rw [same, mid_maxPacket]

theorem mid_requests {x : Pass} {usb : Usbh} (requests : Requests usb) : Requests (x.mid usb) := by
  unfold Requests
  rw [mid_maxPacket]
  rcases mid_phost x usb with same | gone
  · rw [same]
    exact requests
  · rw [gone]
    simp

theorem pass_safe {x : Pass} {usb next : Usbh} (safe : Safe usb) (requests : Requests usb)
    (modest : Asks x usb → Modest usb) (ran : usb.pass x = .ok next) : Safe next ∧ Requests next := by
  have laid := pass_laid x usb next safe.laid ran
  have elsewhere := elsewhere_invariant.pass safe.laid safe.elsewhere ran (started_elsewhere safe.laid.pRxData)
    (opened_elsewhere usb)
  obtain ⟨processed, called, stepped, rfl⟩ := pass_ok ran
  have safe' : Safe processed := by
    refine ⟨process_laid false safe.laid.fresh called, ?_, stepped_honest (mid_safe x safe) (mid_requests requests) stepped⟩
    exact elsewhere_invariant.process safe.laid.fresh safe.elsewhere called (started_elsewhere safe.laid.pRxData)
      (opened_elsewhere _)
  have stack := (serve_same (processed.irq x.env .exit) x.call).1
  refine ⟨⟨laid, elsewhere, ?_⟩, fun transfer => ?_⟩
  · rw [stack]
    exact (irq_safe safe' x.toTurn .exit).honest
  · have exit := maxPacket_of_config ((interrupts_undisturbed processed.pdev (x.irqs .exit)).config 1)
    rw [stack] at transfer ⊢
    rw [show ((processed.irq x.env .exit).toStack.pdev.hc 1).maxPacket = (processed.pdev.hc 1).maxPacket from exit]
    change processed.phost.gState = .ctrlXfer at transfer
    change processed.phost.control.buff = .null ∨ processed.phost.control.buff = cfgRxBuffer ∧
      Fits (processed.pdev.hc 1).maxPacket processed.phost.control.length
    obtain ⟨maxPacket, going⟩ := stepped_transfer (mid_safe x safe).laid stepped transfer
    rw [maxPacket]
    rcases going with ⟨going, line⟩ | ⟨enumeration, ready, request⟩
    · have buff : processed.phost.control.buff = (x.mid usb).phost.control.buff := congrArg Line.buff line
      have length : processed.phost.control.length = (x.mid usb).phost.control.length := congrArg Line.length line
      rw [buff, length]
      exact mid_requests requests going
    · rcases mid_phost x usb with same | gone
      · have asks : Asks x usb := ⟨enumeration, same ▸ ready⟩
        exact request_modest ((mid_modest same).mpr (modest asks)) request
      · rw [gone] at enumeration
        cases enumeration

theorem process_enumerating {usb : Usbh} {classCb : ClassCb} {env : Env} {stack : Stack}
    (enumeration : ((usb.portEvents env).irq env .state).phost.gState = .enumeration)
    (handled : ((usb.portEvents env).irq env .state).toStack.handleEnum = .ok (stack, .busy)) :
    usb.process classCb env = .ok { (usb.portEvents env).irq env .state with toStack := stack } := by
  simp only [Usbh.process, enumeration, handled]

theorem handleEnum_immodest {usb : Usbh} (ready : usb.phost.requestState = .send) (immodest : ¬ Modest usb) :
    ∃ stack, usb.toStack.handleEnum = .ok (stack, .busy) := by
  unfold Modest at immodest
  unfold Stack.handleEnum
  cases enum : usb.phost.enumState
  all_goals simp only [enum, not_true] at immodest
  case getFullCfgDesc =>
    simp only [Host.getCfgDesc, Host.getDescriptor, Host.ctlReq, ready]
    exact ⟨_, rfl⟩
  all_goals exact ⟨_, rfl⟩

/-- A request for a descriptor that `usbh_buf` has no room for has been made. -/
structure Oversized (usb : Usbh) : Prop where
  transfer : usb.phost.gState = .ctrlXfer
  buff : usb.phost.control.buff = cfgRxBuffer
  unfit : ¬ Fits (usb.pdev.hc 1).maxPacket usb.phost.control.length

/-- A stage that depends on immodest descriptors asks for more than `usbh_buf` has room for. -/
theorem pass_immodest {x : Pass} {usb : Usbh} (asks : Asks x usb) (immodest : ¬ Modest usb) :
    ∃ next, usb.pass x = .ok next ∧ Oversized next := by
  obtain ⟨enumeration, ready⟩ := asks
  have same : (x.mid usb).phost = usb.phost := by
    rcases mid_phost x usb with same | gone
    · exact same
    · rw [gone] at enumeration
      cases enumeration
  have immodest' := mt (mid_modest same).mp immodest
  rw [← same] at ready
  obtain ⟨length, request, unfit⟩ := request_immodest immodest'
  obtain ⟨stack, handled⟩ := handleEnum_immodest ready immodest'
  have line := handleEnum_line handled
  rw [request] at line
  simp only [Host.asked, if_pos ready] at line
  have gState : stack.phost.gState = .ctrlXfer := congrArg Line.gState line
  have buff : stack.phost.control.buff = cfgRxBuffer := congrArg Line.buff line
  have isLength : stack.phost.control.length = length := congrArg Line.length line
  have pdev : stack.pdev = (x.mid usb).pdev := by
    rcases handleEnum_sends ready handled with ⟨_, _, status⟩ | ⟨_, _, skipped⟩ | ⟨_, submitted⟩
    · cases status
    · have stays : stack.phost.gState = .enumeration := by
        rw [skipped]
        exact enumeration
      exact absurd (gState.symm.trans stays) (by simp)
    · exact submitted.pdev
  refine ⟨(({ x.mid usb with toStack := stack } : Usbh).irq x.env .exit).serve x.call, ?_, ?_⟩
  · simp only [Usbh.pass, process_enumerating enumeration handled]
    rfl
  · have served := (serve_same (({ x.mid usb with toStack := stack } : Usbh).irq x.env .exit) x.call).1
    have exit := maxPacket_of_config ((interrupts_undisturbed stack.pdev (x.irqs .exit)).config 1)
    refine ⟨?_, ?_, ?_⟩
    · rw [served]
      exact gState
    · rw [served]
      exact buff
    · rw [served]
      change ¬ Fits ((stack.pdev.interrupts (x.irqs .exit)).hc 1).maxPacket stack.phost.control.length
      rw [exit, pdev, isLength]
      exact unfit

/-- A transfer into `usbh_buf` that waits for its packet number `k` -/
structure Awaiting (k : Nat) (pdev : Hcd) : Prop where
  intEnabled : pdev.port.intEnabled = true
  chen : (pdev.hc 1).chen = true
  inward : (pdev.hc 1).epdir = true
  buffer : (pdev.hc 1).xferBuff = ⟨.usbhBuf, k * (pdev.hc 1).maxPacket⟩
  count : (pdev.hc 1).xferCount = k * (pdev.hc 1).maxPacket
  pktcnt : (pdev.hc 1).pktcnt + k = numPackets (pdev.hc 1).requested (pdev.hc 1).maxPacket
  positive : 0 < (pdev.hc 1).maxPacket
  short : pdev.overlong = false

theorem packet_chen {pdev : Hcd} {num : Nat} (fifo : Nat → Byte) (bcnt : Nat) (chen : (pdev.hc num).chen = true) :
    ((pdev.packet num fifo bcnt).hc num).chen = true := by
  have accepted : ((pdev.acceptPacket num fifo bcnt).hc num).chen = true := by
    rw [acceptPacket_hc, if_pos rfl]
    exact chen
  unfold Hcd.packet Hcd.handleRxQlvl
  split
  · rw [edit_hc, if_pos rfl]
    split
    · rfl
    · simp only [edit_hc, Hcd.readPacket]
      exact accepted
  · exact accepted

theorem awaiting_packet {pdev : Hcd} {k bcnt : Nat} (awaiting : Awaiting k pdev) (fifo : Nat → Byte)
    (narrow : bcnt ≤ (pdev.hc 1).maxPacket) (more : k < numPackets (pdev.hc 1).requested (pdev.hc 1).maxPacket) :
    pdev.interrupt (.rx 1 fifo bcnt) = pdev.packet 1 fifo bcnt := by
  have waiting : 0 < (pdev.hc 1).pktcnt := by
    have pktcnt := awaiting.pktcnt
    omega
  simp only [Hcd.interrupt, Hcd.isrHandler, awaiting.intEnabled, awaiting.chen, awaiting.inward, waiting, narrow,
    and_self, if_true]
  rfl

theorem honest_packet {pdev : Hcd} {k bcnt : Nat} (awaiting : Awaiting k pdev) (fifo : Nat → Byte)
    (asked : k * (pdev.hc 1).maxPacket + bcnt ≤ (pdev.hc 1).requested) :
    (pdev.packet 1 fifo bcnt).overlong = false := by
  refine (packet_overlong pdev 1 fifo bcnt).mpr ⟨awaiting.short, fun surplus => ?_⟩
  have count := awaiting.count
  have beyond := surplus.2.2
  omega

theorem awaiting_full {pdev : Hcd} {k : Nat} (awaiting : Awaiting k pdev) (fifo : Nat → Byte)
    (asked : (k + 1) * (pdev.hc 1).maxPacket ≤ (pdev.hc 1).requested)
    (more : k + 1 < numPackets (pdev.hc 1).requested (pdev.hc 1).maxPacket) :
    Awaiting (k + 1) (pdev.packet 1 fifo (pdev.hc 1).maxPacket) ∧
      ((pdev.packet 1 fifo (pdev.hc 1).maxPacket).hc 1).maxPacket = (pdev.hc 1).maxPacket ∧
      ((pdev.packet 1 fifo (pdev.hc 1).maxPacket).hc 1).requested = (pdev.hc 1).requested := by
  have settings := packet_settings pdev 1 1 fifo (pdev.hc 1).maxPacket
  rw [if_pos rfl] at settings
  have stores : (pdev.hc 1).Stores (pdev.hc 1).maxPacket := ⟨awaiting.positive, by rw [awaiting.buffer]; simp⟩
  have maxPacket := congrArg HostChannel.maxPacket settings
  have requested := congrArg HostChannel.requested settings
  have pktcnt := congrArg HostChannel.pktcnt settings
  have xferBuff := congrArg HostChannel.xferBuff settings
  have xferCount := congrArg HostChannel.xferCount settings
  have inward := congrArg HostChannel.epdir settings
  simp only [HostChannel.settings, HostChannel.packet, if_pos stores, Nat.lt_irrefl, if_false]
    at maxPacket requested pktcnt xferBuff xferCount inward
  have port : (pdev.packet 1 fifo (pdev.hc 1).maxPacket).port = pdev.port := handleRxQlvl_port ..
  refine ⟨⟨?_, packet_chen fifo _ awaiting.chen, ?_, ?_, ?_, ?_, ?_, ?_⟩, maxPacket, requested⟩
  · rw [port]
    exact awaiting.intEnabled
  · rw [inward]
    exact awaiting.inward
  · rw [xferBuff, maxPacket, awaiting.buffer, Ptr.add, Nat.succ_mul]
  · rw [xferCount, maxPacket, awaiting.count, Nat.succ_mul]
  · have before := awaiting.pktcnt
    rw [pktcnt, requested, maxPacket]
    omega
  · rw [maxPacket]
    exact awaiting.positive
  · rw [Nat.succ_mul] at asked
    exact honest_packet awaiting fifo asked

/-- The packets before number `k` can all come in full. -/
theorem awaiting_reached {pdev : Hcd} (awaiting : Awaiting 0 pdev) (k : Nat)
    (asked : k * (pdev.hc 1).maxPacket ≤ (pdev.hc 1).requested)
    (more : k < numPackets (pdev.hc 1).requested (pdev.hc 1).maxPacket) :
    ∃ irqs, Awaiting k (pdev.interrupts irqs) ∧ ((pdev.interrupts irqs).hc 1).maxPacket = (pdev.hc 1).maxPacket ∧
      ((pdev.interrupts irqs).hc 1).requested = (pdev.hc 1).requested := by
  induction k with
  | zero => exact ⟨[], awaiting, rfl, rfl⟩
  | succ k ih =>
    obtain ⟨irqs, reached, maxPacket, requested⟩ := ih (Nat.le_trans (Nat.mul_le_mul_right _ (Nat.le_succ k)) asked)
      (Nat.lt_of_succ_lt more)
    rw [← maxPacket, ← requested] at asked more
    obtain ⟨next, maxPacket', requested'⟩ := awaiting_full reached (fun _ => 0) asked more
    have taken := awaiting_packet reached (fun _ => 0) (Nat.le_refl _) (Nat.lt_of_succ_lt more)
    refine ⟨irqs ++ [.rx 1 (fun _ => 0) ((pdev.interrupts irqs).hc 1).maxPacket], ?_⟩
    rw [Hcd.interrupts, List.foldl_append]
    change Awaiting (k + 1) ((pdev.interrupts irqs).interrupt _) ∧
      (((pdev.interrupts irqs).interrupt _).hc 1).maxPacket = _ ∧
      (((pdev.interrupts irqs).interrupt _).hc 1).requested = _
    rw [taken]
    exact ⟨next, maxPacket'.trans maxPacket, requested'.trans requested⟩

/-- The packet that is stored past the end of `usbh_buf` -/
theorem unfit_packet {maxPacket length : Nat} (positive : 0 < maxPacket) (unfit : ¬ Fits maxPacket length) :
    ∃ k, k < numPackets length maxPacket ∧ k * maxPacket < length ∧
      usbhBufSize < k * maxPacket + 4 * ((min maxPacket (length - k * maxPacket) + 3) / 4) := by
  have counted {k : Nat} (asked : k * maxPacket < length) (few : k < 256) : k < numPackets length maxPacket := by
    rw [numPackets, if_pos (Nat.zero_lt_of_lt asked)]
    refine Nat.lt_min.mpr ⟨?_, few⟩
    apply (Nat.le_div_iff_mul_le positive).mpr
    rw [Nat.succ_mul]
    omega
  by_cases bound : length ≤ usbhBufSize
  · have past : ∃ k, k * maxPacket ≤ length ∧
        usbhBufSize < k * maxPacket + 4 * ((min maxPacket (length - k * maxPacket) + 3) / 4) := by
      by_contra none
      exact unfit ⟨bound, fun k within => Nat.le_of_not_lt fun beyond => none ⟨k, within, beyond⟩⟩
    obtain ⟨k, within, beyond⟩ := past
    have asked : k * maxPacket < length := by
      by_contra long
      rw [Nat.sub_eq_zero_of_le (Nat.le_of_not_lt long), Nat.min_zero] at beyond
      omega
    have few := Nat.le_mul_of_pos_right k positive
    rw [usbhBufSize] at bound
    exact ⟨k, counted asked (by omega), asked, beyond⟩
  · rw [usbhBufSize] at bound ⊢
    -- no more than 256 packets are asked for
    by_cases few : (length - 1) / maxPacket < 256
    · have asked := Nat.div_mul_le_self (length - 1) maxPacket
      have last := Nat.lt_mul_div_succ (length - 1) positive
      rw [Nat.mul_comm, Nat.succ_mul] at last
      exact ⟨_, counted (by omega) few, by omega, by omega⟩
    · have asked := (Nat.le_div_iff_mul_le positive).mp (Nat.le_of_not_lt few)
      have full := Nat.le_mul_of_pos_right 255 positive
      exact ⟨255, counted (by omega) (by omega), by omega, by omega⟩

theorem transfer_overruns {pdev : Hcd} (awaiting : Awaiting 0 pdev)
    (unfit : ¬ Fits (pdev.hc 1).maxPacket (pdev.hc 1).requested) :
    ∃ irqs, (pdev.interrupts irqs).overlong = false ∧ usbhBufSize < (pdev.interrupts irqs).high .usbhBuf := by
  obtain ⟨k, more, asked, beyond⟩ := unfit_packet awaiting.positive unfit
  obtain ⟨irqs, reached, maxPacket, requested⟩ := awaiting_reached awaiting k (Nat.le_of_lt asked) more
  rw [← maxPacket, ← requested] at more asked beyond
  -- the last packet, as long as the request leaves it
  obtain ⟨bcnt, last⟩ : ∃ bcnt, bcnt = min ((pdev.interrupts irqs).hc 1).maxPacket
      (((pdev.interrupts irqs).hc 1).requested - k * ((pdev.interrupts irqs).hc 1).maxPacket) := ⟨_, rfl⟩
  have narrow : bcnt ≤ ((pdev.interrupts irqs).hc 1).maxPacket := last ▸ Nat.min_le_left ..
  have some : 0 < bcnt := last ▸ Nat.lt_min.mpr ⟨reached.positive, by omega⟩
  rw [← last] at beyond
  have stores : ((pdev.interrupts irqs).hc 1).Stores bcnt := ⟨some, by rw [reached.buffer]; simp⟩
  refine ⟨irqs ++ [.rx 1 (fun _ => 0) bcnt], ?_⟩
  rw [Hcd.interrupts, List.foldl_append]
  change ((pdev.interrupts irqs).interrupt _).overlong = false ∧
    usbhBufSize < ((pdev.interrupts irqs).interrupt _).high .usbhBuf
  rw [awaiting_packet reached (fun _ => 0) narrow more]
  refine ⟨honest_packet reached _ (by omega), ?_⟩
  rw [(packet_stored _ 1 _ bcnt stores).2.1]
  simp only [Hcd.readPacket, reached.buffer, Function.update_self]
  exact Nat.lt_of_lt_of_le beyond (Nat.le_max_right ..)

theorem awaiting_answered {usb : Usbh} (laid : Laid usb) (elsewhere : (usb.pdev.hc 3).xferBuff.object ≠ .usbhBuf)
    (high : usb.pdev.high .usbhBuf ≤ usbhBufSize) (awaiting : Awaiting 0 usb.pdev) :
    (∀ irqs, (usb.pdev.interrupts irqs).overlong = false → (usb.pdev.interrupts irqs).high .usbhBuf ≤ usbhBufSize) ↔
      Fits (usb.pdev.hc 1).maxPacket (usb.pdev.hc 1).requested := by
  constructor
  · intro contained
    by_contra unfit
    obtain ⟨irqs, short, beyond⟩ := transfer_overruns awaiting unfit
    exact Nat.lt_irrefl _ (Nat.lt_of_lt_of_le beyond (contained irqs short))
  · intro fits irqs short
    have offset : (usb.pdev.hc 1).xferBuff.offset = (usb.pdev.hc 1).xferCount := by
      rw [awaiting.buffer, awaiting.count]
    have honest : Honest usb.pdev := fun _ => ⟨high, fun _ => ⟨offset, ⟨0, awaiting.count.symm⟩, fits⟩⟩
    exact (interrupts_honest laid.wired elsewhere honest irqs short).high

/-- A run whose stages find modest descriptors, with devices that send no more than they are asked for, keeps every
request within `usbh_buf` and stores nothing past its end. Any other stage makes a request that there is no room for,
and an answer to a request can be stored past the end exactly when there is no room for it. -/
theorem descriptors_bounded (inputs : List Pass) :
    ((∀ usb, Visits Usbh.pass inputs usbhCdcInit usb → usb.pdev.overlong = false) →
      (∀ x usb, Takes Usbh.pass inputs usbhCdcInit x usb → Asks x usb → Modest usb) →
      ∀ usb, Visits Usbh.pass inputs usbhCdcInit usb → Bounded usb) ∧
    (∀ x usb, Asks x usb → ¬ Modest usb → ∃ next, usb.pass x = .ok next ∧ Oversized next) ∧
    ∀ usb, Visits Usbh.pass inputs usbhCdcInit usb → usb.pdev.high .usbhBuf ≤ usbhBufSize → Awaiting 0 usb.pdev →
      ((∀ irqs, (usb.pdev.interrupts irqs).overlong = false →
        (usb.pdev.interrupts irqs).high .usbhBuf ≤ usbhBufSize) ↔
          Fits (usb.pdev.hc 1).maxPacket (usb.pdev.hc 1).requested) := by
  have elsewhere : (usbhCdcInit.pdev.hc 3).xferBuff.object ≠ .usbhBuf := by decide
  refine ⟨fun short modest usb visits => ?_, fun x usb => pass_immodest, fun usb visits high awaiting => ?_⟩
  · have kept (x : Pass) (before after : Usbh) (takes : Takes Usbh.pass inputs usbhCdcInit x before)
        (holds : Safe before ∧ Requests before) (ran : before.pass x = .ok after) : Safe after ∧ Requests after :=
      pass_safe holds.1 holds.2 (modest x before takes) ran
    have initial : Safe usbhCdcInit := by
      refine ⟨usbhCdcInit_laid, elsewhere, fun _ => ⟨by decide, fun filling => ?_⟩⟩
      exact absurd filling.chen (by decide)
    have unasked : Requests usbhCdcInit := fun transfer => by cases transfer
    obtain ⟨safe, requests⟩ := visits_invariant kept ⟨initial, unasked⟩ visits
    refine ⟨fun transfer buff => ?_, (safe.honest (short usb visits)).high⟩
    rcases requests transfer with null | ⟨_, fits⟩
    · rw [null] at buff
      cases buff
    · exact fits.1
  · have kept (x : Pass) (before after : Usbh) (takes : Takes Usbh.pass inputs usbhCdcInit x before)
        (holds : Laid before ∧ (before.pdev.hc 3).xferBuff.object ≠ .usbhBuf) (ran : before.pass x = .ok after) :
        Laid after ∧ (after.pdev.hc 3).xferBuff.object ≠ .usbhBuf :=
      ⟨pass_laid x before after holds.1 ran, elsewhere_invariant.pass holds.1 holds.2 ran
        (started_elsewhere holds.1.pRxData) (opened_elsewhere before)⟩
    obtain ⟨laid, apart⟩ := visits_invariant kept ⟨usbhCdcInit_laid, elsewhere⟩ visits
    exact awaiting_answered laid apart high awaiting

/-- Everything that the enumeration of a device without strings takes from it is modest. -/
def plain (usb : Usbh) : Bool :=
  !usb.pdev.overlong &&
    (usb.phost.enumState ≠ .getFullCfgDesc || usb.phost.deviceProp.cfgDesc.wTotalLength ≤ 253) &&
    usb.phost.deviceProp.devDesc.iManufacturer = 0 && usb.phost.deviceProp.devDesc.iProduct = 0 &&
    usb.phost.deviceProp.devDesc.iSerialNumber = 0

theorem plain_modest {usb : Usbh} (checked : plain usb = true) : usb.pdev.overlong = false ∧ Modest usb := by
  simp only [plain, Bool.and_eq_true, Bool.not_eq_true', Bool.or_eq_true, decide_eq_true_eq] at checked
  obtain ⟨⟨⟨⟨short, wTotalLength⟩, manufacturer⟩, product⟩, serialNumber⟩ := checked
  refine ⟨short, ?_⟩
  unfold Modest
  cases enum : usb.phost.enumState
  all_goals simp only [manufacturer, product, serialNumber]
  rcases wTotalLength with other | fits
  · exact absurd enum other
  · exact fits_of_short _ (by rw [usbhBufSize]; omega)

theorem descriptors_bounded_cdc :
    (∃ usb, exec Usbh.pass (enumerationPasses (deviceDescriptor 0 0 0) (configurationDescriptor 2 64)) usbhCdcInit =
      .ok usb ∧ usb.connected = true) ∧
    ∀ usb, Visits Usbh.pass (enumerationPasses (deviceDescriptor 0 0 0) (configurationDescriptor 2 64)) usbhCdcInit
      usb → Bounded usb := by
  refine ⟨⟨_, rfl, rfl⟩, ?_⟩
  have along : holdsAlong Usbh.pass plain
      (enumerationPasses (deviceDescriptor 0 0 0) (configurationDescriptor 2 64)) usbhCdcInit = true := by
    decide +kernel
  exact (descriptors_bounded _).1 (fun usb visits => (plain_modest (holdsAlong_visits along visits)).1)
    fun x usb takes _ => (plain_modest (holdsAlong_visits along takes.visits_before)).2

/-- The calls up to the answer to the first string request, which has the given number of bytes in its last packet -/
def stringPasses (lastBytes : Nat) : List Pass :=
  let fullPacket : Irq := .rx 1 (bytesOf []) 64
  let answer := List.replicate 4 fullPacket ++ lastPacket 1 (List.replicate lastBytes 0)
  ((enumerationTurns (deviceDescriptor 1 0 0) (configurationDescriptor 2 64)).take 41 ++
    [[], [], transferDone 0, [], answer].map turnAfter).map fun turn => ⟨turn, none⟩

/-- A manufacturer string of 260 bytes, 4 more than `usbh_buf` has, is asked for with a length of 512 and stored. -/
theorem string_overrun : ∃ usb, exec Usbh.pass (stringPasses 4) usbhCdcInit = .ok usb ∧
    usb.pdev.overlong = false ∧ usb.pdev.high .usbhBuf = 260 ∧ ¬ Bounded usb := by
  obtain ⟨usb, run, checked⟩ := exists_of_succeedsWith
    (fun usb : Usbh => usb.pdev.overlong = false ∧ usb.pdev.high .usbhBuf = 260)
    (exec Usbh.pass (stringPasses 4) usbhCdcInit) (by decide +kernel)
  obtain ⟨short, high⟩ := of_decide_eq_true checked
  refine ⟨usb, run, short, high, fun bounded => ?_⟩
  have stored := bounded.stored
  rw [high] at stored
  exact absurd stored (by decide)

end Testjig.Usb
