import Testjig.Usb.Connected

namespace Testjig.Usb

open Machine Testjig.Sequence

/-- A change that leaves the channel of the IN pipe alone, and what has come in through it -/
structure Apart (before after : Hcd) : Prop where
  hc : after.hc 3 = before.hc 3
  high : after.high .rspbuf = before.high .rspbuf
  delivered : after.delivered = before.delivered

theorem Started.apart {before after : Hcd} {num length : Nat} {epIsIn : Bool} {buff : Ptr}
    (started : Started before num epIsIn buff length after) (other : 3 ≠ num) : Apart before after where
  hc := started.others 3 other
  high := by rw [started.high]
  delivered := started.delivered

theorem Modified.apart {before after : Hcd} {nums : List Nat} (modified : Modified nums before after)
    (other : 3 ∉ nums) : Apart before after where
  hc := by
    rcases modified.hc 3 with same | ⟨member, _⟩
    · exact same
    · exact absurd member other
  high := by rw [modified.high]
  delivered := modified.delivered

theorem openChannel_apart (pdev : Hcd) {num : Nat} (other : 3 ≠ num) (devAddress speed mps : Nat) (epType : EpType) :
    Apart pdev (pdev.openChannel num devAddress speed epType mps) :=
  ⟨openChannel_other pdev other devAddress speed mps epType, rfl, rfl⟩

theorem freeChannel_apart (pdev : Hcd) (idx : Nat) : Apart pdev (pdev.freeChannel idx) := by
  unfold Hcd.freeChannel
  split <;> exact ⟨rfl, rfl, rfl⟩

theorem processTransmission_rx (usb : Usbh) (env : Env) :
    (usb.processTransmission env).cdc.dataRxState = usb.cdc.dataRxState ∧
    (usb.processTransmission env).cdc.pRxData = usb.cdc.pRxData ∧
    (usb.processTransmission env).cdc.inEpSize = usb.cdc.inEpSize ∧
    (usb.processTransmission env).cdc.inPipe = usb.cdc.inPipe := by
  simp only [Usbh.processTransmission]
  repeat' split
  all_goals exact ⟨rfl, rfl, rfl, rfl⟩

/-- What is kept as long as the IN pipe is neither opened nor asked for data -/
structure PipeInvariant (holds : Hcd → Prop) : Prop where
  apart : ∀ before after, Apart before after → holds before → holds after
  interrupt : ∀ pdev irq outEp inEp, Wired pdev outEp inEp → holds pdev → holds (pdev.interrupt irq)

namespace PipeInvariant

variable {holds : Hcd → Prop} (invariant : PipeInvariant holds)

include invariant

theorem interrupts {pdev : Hcd} {outEp inEp : Byte} (wired : Wired pdev outEp inEp) (kept : holds pdev)
    (irqs : List Irq) : holds (pdev.interrupts irqs) := by
  have step (middle : Hcd) (irq : Irq) (both : Wired middle outEp inEp ∧ holds middle) :
      Wired (middle.interrupt irq) outEp inEp ∧ holds (middle.interrupt irq) :=
    ⟨(interrupt_undisturbed middle irq).wired both.1, invariant.interrupt middle irq _ _ both.1 both.2⟩
  exact (interrupts_invariant step irqs ⟨wired, kept⟩).2

theorem irq {usb : Usbh} (laid : Laid usb) (kept : holds usb.pdev) (turn : Turn) (point : Point) :
    holds (usb.irq turn.env point).pdev :=
  invariant.interrupts laid.wired kept (turn.irqs point)

theorem portEvents {usb : Usbh} (laid : Laid usb) (kept : holds usb.pdev) (turn : Turn) :
    holds (usb.portEvents turn.env).pdev := by
  have second := invariant.irq (irq_laid laid turn .connSts) (invariant.irq laid kept turn .connSts) turn .portEnabled
  simp only [Usbh.portEvents]
  split <;> exact second

theorem processTransmission {usb : Usbh} (laid : Laid usb) (active : usb.phost.gState = .hostClass)
    (kept : holds usb.pdev) (turn : Turn) : holds (usb.processTransmission turn.env).pdev := by
  have other : 3 ≠ usb.cdc.outPipe := (laid.pipes active).2.1.symm
  have waited := invariant.irq laid kept turn .transmission
  simp only [Usbh.processTransmission]
  split
  · exact invariant.apart _ _ ((bulkSendData_started ..).apart other) kept
  · split
    · split <;> exact waited
    · exact waited
    · exact waited
  · exact kept

theorem processReception {usb : Usbh} (laid : Laid usb) (active : usb.phost.gState = .hostClass)
    (kept : holds usb.pdev) (turn : Turn)
    (started : usb.cdc.dataRxState = .receiveData → ∀ before after, (before.hc 3).maxPacket = usb.cdc.inEpSize →
      holds before → Started before 3 true usb.cdc.pRxData usb.cdc.inEpSize after → holds after) :
    holds (usb.processReception turn.env).pdev := by
  have waited := invariant.irq laid kept turn .reception
  have counted := invariant.irq (irq_laid laid turn .reception) waited turn .xferCnt
  simp only [Usbh.processReception]
  split
  · rename_i asking
    rcases laid.allocated.classed (.inr active) with ⟨controlled, _⟩ | piped
    · have other : 3 ≠ usb.cdc.inPipe := ne_of_ne_of_eq (by simp) (Eq.symm controlled.inPipe)
      exact invariant.apart _ _ ((bulkReceiveData_started ..).apart other) kept
    · rw [show usb.cdc.inPipe = 3 from piped.inPipe]
      exact started asking _ _ piped.inOpen.maxPacket kept (bulkReceiveData_started ..)
  · split
    · split <;> exact counted
    · exact waited
  · exact kept

def Asked (holds : Hcd → Prop) (cdc : Cdc) : Prop :=
  cdc.dataRxState = .receiveData → ∀ before after, (before.hc 3).maxPacket = cdc.inEpSize → holds before →
    Started before 3 true cdc.pRxData cdc.inEpSize after → holds after

theorem handle {usb : Usbh} (laid : Laid usb) (active : usb.phost.gState = .hostClass) (kept : holds usb.pdev)
    (turn : Turn) (started : Asked holds usb.cdc) : holds (usb.handle turn.env).1.pdev := by
  have laid' := irq_laid laid turn .handle
  have first := invariant.irq laid kept turn .handle
  simp only [Usbh.handle]
  split
  · split
    · exact first
    · obtain ⟨dataRxState, pRxData, inEpSize, _⟩ := processTransmission_rx (usb.irq turn.env .handle) turn.env
      apply invariant.processReception (processTransmission_laid laid' active turn)
      · rw [(processTransmission_same (usb.irq turn.env .handle) turn.env).2.1]
        exact active
      · exact invariant.processTransmission laid' active first turn
      · unfold Asked at started
        rw [dataRxState, pRxData, inEpSize]
        exact started
    · exact first
  · exact first

theorem control {usb : Usbh} (laid : Laid usb) (transfer : usb.phost.gState = .ctrlXfer) (kept : holds usb.pdev)
    (stk : BitVec 32) : holds (usb.toStack.handleControl stk).pdev := by
  have controlled := (laid.allocated.transfer transfer).1
  have hcNumOut : usb.phost.control.hcNumOut = 0 := controlled.hcNumOut
  have hcNumIn : usb.phost.control.hcNumIn = 1 := controlled.hcNumIn
  have transferred := (handleControl_step usb.toStack stk).transferred
  generalize (usb.toStack.handleControl stk).pdev = next at transferred ⊢
  cases transferred with
  | none => exact kept
  | sent toggled _ buff length quiet others started =>
    have apart : Apart usb.pdev toggled := by
      refine ⟨others 3 ?_, by rw [quiet.high], quiet.delivered⟩
      rw [hcNumOut]
      simp
    refine invariant.apart _ _ (started.apart ?_) (invariant.apart _ _ apart kept)
    rw [hcNumOut]
    simp
  | asked _ buff length request started =>
    refine invariant.apart _ _ (started.apart ?_) kept
    rw [hcNumIn]
    simp

theorem enumeration {usb : Usbh} {stack : Stack} {status : UsbhStatus} (laid : Laid usb)
    (enumeration : usb.phost.gState = .enumeration) (kept : holds usb.pdev)
    (handled : usb.toStack.handleEnum = .ok (stack, status)) : holds stack.pdev := by
  have controlled := laid.allocated.controlled (.inl enumeration)
  rcases handleEnum_pdev handled with same | ⟨nums, known, modified⟩
  · rw [same]
    exact kept
  · refine invariant.apart _ _ (modified.apart fun member => ?_) kept
    rcases known 3 member with equal | equal
    · exact absurd (equal.trans controlled.hcNumIn) (by simp)
    · exact absurd (equal.trans controlled.hcNumOut) (by simp)

theorem deInit {usb : Usbh} (kept : holds usb.pdev) : holds (usb.deInit usbhCdcCb).pdev := by
  have freed (pdev : Hcd) (idx : Nat) (kept : holds pdev) : holds (pdev.freeChannel idx) :=
    invariant.apart _ _ (freeChannel_apart pdev idx) kept
  have stack := freed _ usb.phost.control.hcNumOut (freed _ usb.phost.control.hcNumIn kept)
  simp only [Usbh.deInit, usbhCdcCb, Usbh.interfaceDeInit, Usbh.usrDeInit, Stack.deInit]
  split
  · split
    · exact freed _ _ (freed _ _ stack)
    · exact freed _ _ stack
  · split
    · exact freed _ _ stack
    · exact stack

theorem devAttached {usb : Usbh} (laid : Laid usb) (attached : usb.phost.gState = .devAttached)
    (kept : holds usb.pdev) (turn : Turn) : holds (usb.devAttached turn.env).pdev := by
  rw [devAttached_eq (laid.allocated.unallocated (.inr (.inr attached)))]
  have assigned : holds ((usb.pdev.assign 0 0x00).assign 1 0x80) := invariant.apart usb.pdev _ ⟨rfl, rfl, rfl⟩ kept
  have wired : Wired ((usb.pdev.assign 0 0x00).assign 1 0x80) usb.cdc.outEp usb.cdc.inEp :=
    ⟨laid.wired.outward, laid.wired.epType, laid.wired.eptype, laid.wired.object, laid.wired.outEp, laid.wired.inEp⟩
  have waited := invariant.interrupts wired assigned (turn.irqs .reset)
  apply invariant.apart _ _ (openChannel_apart _ (by simp) _ _ _ _)
  apply invariant.apart _ _ (openChannel_apart _ (by simp) _ _ _ _)
  exact invariant.apart (((usb.pdev.assign 0 0x00).assign 1 0x80).interrupts (turn.irqs .reset)) _ ⟨rfl, rfl, rfl⟩
    waited

def Opened (holds : Hcd → Prop) (usb : Usbh) : Prop :=
  usb.phost.gState = .usrInput → usb.phost.deviceProp.Accepted → ∀ pdev devAddress speed, holds pdev →
    holds (pdev.openChannel 3 devAddress speed .bulk (usb.cdc.useEndpoints usb.phost.deviceProp).inEpSize)

/-- `USBH_Process()` keeps what interrupts keep and what opening the IN pipe and asking it for data keep. -/
theorem process {usb next : Usbh} {fault : Bool} {turn : Turn} (laid : Laid usb) (kept : holds usb.pdev)
    (ran : usb.process (classCb fault) turn.env = .ok next) (started : Asked holds usb.cdc)
    (opened : Opened holds usb) : holds next.pdev := by
  have laid' := irq_laid (portEvents_laid laid turn) turn .state
  have kept' := invariant.irq (portEvents_laid laid turn) (invariant.portEvents laid kept turn) turn .state
  have cdc : ((usb.portEvents turn.env).irq turn.env .state).cdc = usb.cdc := (portEvents_same usb turn.env).1
  have stepped := process_stepped ran
  have opened' : Opened holds ((usb.portEvents turn.env).irq turn.env .state) := by
    unfold Opened
    rw [cdc, show ((usb.portEvents turn.env).irq turn.env .state).phost = (usb.portEvents turn.env).phost from rfl]
    rcases portEvents_phost usb turn.env with same | gone
    · rw [same]
      exact opened
    · rw [gone]
      simp
  rw [← cdc] at started
  generalize (usb.portEvents turn.env).irq turn.env .state = mid at *
  cases stepped with
  | noDevice => exact kept'
  | portDisabled => exact kept'
  | portEnabled => exact kept'
  | request => exact kept'
  | device idle =>
    refine invariant.apart ((mid.setState .waitPrtEnabled).irq turn.env .reset).pdev _ ⟨rfl, rfl, rfl⟩ ?_
    exact invariant.irq (waitPrtEnabled_laid laid' idle) kept' turn .reset
  | attached attached => exact invariant.devAttached laid' attached kept' turn
  | enumerating stack enumeration handled => exact invariant.enumeration laid' enumeration kept' handled
  | enumerated stack enumeration handled =>
    have enumerated : holds stack.pdev := invariant.enumeration laid' enumeration kept' handled
    exact enumerated
  | init input =>
    by_cases accepted : mid.phost.deviceProp.Accepted
    · rw [interfaceInit_eq (laid'.allocated.controlled (.inr input)) accepted]
      apply opened' input accepted _ _ _
      apply invariant.apart _ _ (openChannel_apart _ (by simp) _ _ _ _)
      exact invariant.apart mid.pdev _ ⟨rfl, rfl, rfl⟩ kept'
    · rw [interfaceInit_rejected accepted]
      exact kept'
  | machine active => exact invariant.handle laid' active kept' turn started
  | failed active => exact invariant.handle laid' active kept' turn started
  | control transfer => exact invariant.control laid' transfer kept' turn.env.stk
  | reinit => exact invariant.deInit kept'
  | disconnected =>
    have again : holds (mid.usrDeviceDisconnected.deInit usbhCdcCb).pdev := invariant.deInit kept'
    refine invariant.apart (mid.usrDeviceDisconnected.deInit usbhCdcCb).pdev _ ⟨?_, rfl, rfl⟩ again
    simp [Usbh.devDisconnected, Usbh.setState, Hcd.init, edit_hc, Hcd.deAllocateAllChannel]

theorem pass {x : Pass} {usb next : Usbh} (laid : Laid usb) (kept : holds usb.pdev) (ran : usb.pass x = .ok next)
    (started : Asked holds usb.cdc) (opened : Opened holds usb) : holds next.pdev := by
  obtain ⟨processed, called, _, rfl⟩ := pass_ok ran
  rw [(serve_same (processed.irq x.env .exit) x.call).1]
  have kept' := invariant.process laid.fresh kept called started opened
  exact invariant.irq (process_laid false laid.fresh called) kept' x.toTurn .exit

end PipeInvariant

end Testjig.Usb
