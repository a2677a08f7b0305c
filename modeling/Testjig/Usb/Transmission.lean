import Testjig.Usb.Reception

namespace Testjig.Usb

open Testjig.Sequence

structure OutIdle (toggle : Bool) (pdev : Hcd) : Prop where
  chen : (pdev.hc 2).chen = false
  chhltd : (pdev.hc 2).chhltd = false
  toggleOut : (pdev.hc 2).toggleOut = toggle

/-- How far the transfer in the OUT pipe has come: its data toggle changes when it has been acknowledged. -/
inductive OutProgress (toggle : Bool) (pdev : Hcd) : Prop where
  | live (chen : (pdev.hc 2).chen = true) (toggleOut : (pdev.hc 2).toggleOut = toggle)
    (urb : pdev.urbState 2 = .idle)
  | acknowledged (idle : OutIdle (!toggle) pdev) (urb : pdev.urbState 2 = .done)
  | failed (idle : OutIdle toggle pdev) (urb : pdev.urbState 2 ≠ .done)

structure OutAcknowledged (toggle : Bool) (pdev : Hcd) : Prop where
  idle : OutIdle (!toggle) pdev
  dataPid : (pdev.hc 2).dataPid = Hcd.togglePid toggle

structure OutLoaded (toggle : Bool) (buff : Ptr) (length : Nat) (pdev : Hcd) : Prop where
  bulk : (pdev.hc 2).eptype = .bulk
  dataPid : (pdev.hc 2).dataPid = Hcd.togglePid toggle
  xferBuff : (pdev.hc 2).xferBuff = buff
  xferLen : (pdev.hc 2).xferLen = length
  progress : OutProgress toggle pdev

variable {toggle : Bool} {buff : Ptr} {length : Nat} {pdev : Hcd}

theorem OutIdle.of_hc {after : Hcd} (idle : OutIdle toggle pdev) (hc : after.hc 2 = pdev.hc 2) : OutIdle toggle after :=
  ⟨by rw [hc]; exact idle.chen, by rw [hc]; exact idle.chhltd, by rw [hc]; exact idle.toggleOut⟩

theorem OutProgress.of_untouched {after : Hcd} (progress : OutProgress toggle pdev)
    (untouched : Untouched 2 pdev after) : OutProgress toggle after := by
  obtain ⟨hc, urbState, _, _⟩ := untouched
  cases progress with
  | live chen toggleOut urb => exact .live (by rwa [hc]) (by rwa [hc]) (by rwa [urbState])
  | acknowledged idle urb => exact .acknowledged (idle.of_hc hc) (by rwa [urbState])
  | failed idle urb => exact .failed (idle.of_hc hc) (by rwa [urbState])

/-- What leaves the channel of the OUT pipe alone, and interrupts on it, keep what is known of the pipe. -/
structure OutInvariant (holds : Hcd → Prop) : Prop where
  untouched : ∀ before after, Untouched 2 before after → holds before → holds after
  handled : ∀ pdev hcint, (pdev.hc 2).chen = true → holds pdev → holds (pdev.handleHcOut 2 hcint)

/-- What is said of an idle channel alone -/
theorem idle_only {holds : Hcd → Prop} (of_hc : ∀ before after : Hcd, after.hc 2 = before.hc 2 → holds before → holds after)
    (idle : ∀ pdev, holds pdev → (pdev.hc 2).chen = false) : OutInvariant holds where
  untouched before after untouched kept := of_hc before after untouched.hc kept
  handled pdev _ enabled kept := absurd (enabled.symm.trans (idle pdev kept)) (by simp)

theorem idle_invariant (toggle : Bool) : OutInvariant (OutIdle toggle) :=
  idle_only (fun _ _ hc idle => idle.of_hc hc) fun _ idle => idle.chen

theorem acknowledged_invariant (toggle : Bool) : OutInvariant (OutAcknowledged toggle) :=
  idle_only (fun _ _ hc kept => ⟨kept.idle.of_hc hc, by rw [hc]; exact kept.dataPid⟩) fun _ kept => kept.idle.chen

/-- One of the checks in `USB_OTG_USBH_handle_hc_n_Out_ISR()` that halt the channel -/
theorem OutProgress.checked {rest : Hcd} (chen : (pdev.hc 2).chen = true) (toggleOut : (pdev.hc 2).toggleOut = toggle)
    (urb : pdev.urbState 2 = .idle) (flag : Bool) (status : HcStatus) (kept : OutProgress toggle rest) :
    OutProgress toggle (if flag then pdev.halt 2 status else rest) := by
  split
  · refine .live ?_ ?_ urb
    · simp [Hcd.halt, Hcd.setStatus, edit_hc, chen]
    · simp [Hcd.halt, Hcd.setStatus, edit_hc, toggleOut]
  · exact kept

theorem handleHcOut_progress (bulk : (pdev.hc 2).eptype = .bulk) (hcint : HcInt) (enabled : (pdev.hc 2).chen = true)
    (progress : OutProgress toggle pdev) : OutProgress toggle (pdev.handleHcOut 2 hcint) := by
  cases progress with
  | acknowledged idle => exact absurd (enabled.symm.trans idle.chen) (by simp)
  | failed idle => exact absurd (enabled.symm.trans idle.chen) (by simp)
  | live chen toggleOut urb =>
    have halted : OutIdle toggle (pdev.halted 2) := by
      refine ⟨?_, ?_, ?_⟩ <;> simp [Hcd.halted, edit_hc, toggleOut]
    rw [Hcd.handleHcOut]
    iterate 6 apply OutProgress.checked chen toggleOut urb
    split
    · dsimp only
      cases (pdev.halted 2).hcStatus 2 with
      | xfrc =>
        refine .acknowledged ⟨?_, ?_, ?_⟩ ?_
        · simp [Hcd.halted, Hcd.setUrb, edit_hc, bulk]
        · simp [Hcd.halted, Hcd.setUrb, edit_hc, bulk]
        · simp [Hcd.halted, Hcd.setUrb, edit_hc, bulk, toggleOut]
        · simp [Hcd.setUrb, Hcd.edit]
      | nak | nyet | stall | xacterr => exact .failed (halted.of_hc rfl) (by simp [Hcd.setUrb])
      | idle | datatglerr => exact .failed halted (by rw [show (pdev.halted 2).urbState 2 = .idle from urb]; simp)
    · exact .live chen toggleOut urb

theorem loaded_invariant (toggle : Bool) (buff : Ptr) (length : Nat) : OutInvariant (OutLoaded toggle buff length) where
  untouched before after untouched loaded := by
    have hc := untouched.hc
    refine ⟨?_, ?_, ?_, ?_, loaded.progress.of_untouched untouched⟩
    · rw [hc]; exact loaded.bulk
    · rw [hc]; exact loaded.dataPid
    · rw [hc]; exact loaded.xferBuff
    · rw [hc]; exact loaded.xferLen
  handled pdev hcint enabled loaded := by
    have same := (handleHcOut_quiet pdev 2 hcint).settings 2
    refine ⟨?_, ?_, ?_, ?_, handleHcOut_progress loaded.bulk hcint enabled loaded.progress⟩
    · exact (congrArg HostChannel.eptype same :).trans loaded.bulk
    · exact (congrArg HostChannel.dataPid same :).trans loaded.dataPid
    · exact (congrArg HostChannel.xferBuff same :).trans loaded.xferBuff
    · exact (congrArg HostChannel.xferLen same :).trans loaded.xferLen

theorem Started.untouched {before after : Hcd} {n num length : Nat} {epIsIn : Bool} {buff : Ptr}
    (started : Started before num epIsIn buff length after) (other : n ≠ num) : Untouched n before after where
  hc := started.others n other
  urbState := by rw [started.urbState, Function.update_of_ne other]
  hcStatus := by rw [started.hcStatus]
  xferCnt := by rw [started.xferCnt]

structure Transmission where
  state : CdcDataState
  data : Ptr
  length : Nat
  epSize : Nat
  pipe : Nat

def Cdc.transmission (cdc : Cdc) : Transmission :=
  ⟨cdc.dataTxState, cdc.pTxData, cdc.txDataLength, cdc.outEpSize, cdc.outPipe⟩

def Transmission.chunk (tx : Transmission) : Nat := min tx.epSize tx.length

def Transmission.acknowledged (tx : Transmission) : Transmission :=
  if tx.epSize < tx.length then
    { tx with state := .sendData, data := tx.data.add tx.epSize, length := tx.length - tx.epSize }
  else { tx with state := .idle, length := 0 }

namespace OutInvariant

variable {holds : Hcd → Prop} (invariant : OutInvariant holds)

include invariant

theorem interrupt {outEp inEp : Byte} (wired : Wired pdev outEp inEp) (irq : Irq) (kept : holds pdev) :
    holds (pdev.interrupt irq) := by
  by_cases here : irq.channel = some 2
  · have outward : (pdev.hc 2).epdir = false := (wired.outward 2 (by simp) (by simp)).1
    simp only [Hcd.interrupt]
    split
    · cases irq
      case rx chnum fifo bcnt =>
        cases Option.some.inj here
        simp only [Hcd.isrHandler]
        split
        · rename_i guards
          rw [outward] at guards
          cases guards.2.1
        · exact kept
      case hc num hcint =>
        cases Option.some.inj here
        simp only [Hcd.isrHandler]
        split
        · exact kept
        split
        · rename_i enabled _
          exact invariant.handled pdev _ (by simpa using enabled) kept
        · rename_i inward
          exact absurd (by simp [outward]) inward
      all_goals cases here
    · exact kept
  · exact invariant.untouched _ _ (interrupt_untouched pdev irq here) kept

theorem interrupts {outEp inEp : Byte} (wired : Wired pdev outEp inEp) (kept : holds pdev) (irqs : List Irq) :
    holds (pdev.interrupts irqs) := by
  have step (middle : Hcd) (irq : Irq) (both : Wired middle outEp inEp ∧ holds middle) :
      Wired (middle.interrupt irq) outEp inEp ∧ holds (middle.interrupt irq) :=
    ⟨(interrupt_undisturbed middle irq).wired both.1, invariant.interrupt both.1 irq both.2⟩
  exact (interrupts_invariant step irqs ⟨wired, kept⟩).2

theorem irq {usb : Usbh} (laid : Laid usb) (kept : holds usb.pdev) (turn : Turn) (point : Point) :
    holds (usb.irq turn.env point).pdev :=
  invariant.interrupts laid.wired kept (turn.irqs point)

theorem portEvents {usb : Usbh} (laid : Laid usb) (kept : holds usb.pdev) (turn : Turn) :
    holds (usb.portEvents turn.env).pdev := by
  have second := invariant.irq (irq_laid laid turn .connSts) (invariant.irq laid kept turn .connSts) turn .portEnabled
  simp only [Usbh.portEvents]
  split <;> exact second

theorem reception {usb : Usbh} (laid : Laid usb) (active : usb.phost.gState = .hostClass) (kept : holds usb.pdev)
    (turn : Turn) : holds (usb.processReception turn.env).pdev := by
  have other : 2 ≠ usb.cdc.inPipe := by
    rcases (laid.allocated.classed (.inr active)).pipes with ⟨_, inn⟩ | ⟨_, inn⟩
    · exact ne_of_ne_of_eq (by simp) (Eq.symm inn)
    · exact ne_of_ne_of_eq (by simp) (Eq.symm inn)
  have waited := invariant.irq laid kept turn .reception
  have counted := invariant.irq (irq_laid laid turn .reception) waited turn .xferCnt
  simp only [Usbh.processReception]
  split
  · exact invariant.untouched _ _ ((bulkReceiveData_started ..).untouched other) kept
  · split
    · split <;> exact counted
    · exact waited
  · exact kept

end OutInvariant

theorem processReception_transmission (usb : Usbh) (env : Env) :
    (usb.processReception env).cdc.transmission = usb.cdc.transmission := by
  simp only [Usbh.processReception]
  repeat' split
  all_goals rfl

theorem portEvents_transmission (usb : Usbh) (env : Env) :
    (usb.portEvents env).cdc.transmission = usb.cdc.transmission := by
  rw [(portEvents_same usb env).1]

/-- What a call of `CDC_ProcessTransmission()` leaves of a transmission, with the toggle of the packet in question -/
inductive Transmitted (toggle : Bool) (tx : Transmission) (next : Usbh) : Prop where
  /-- The packet is still to be put into the pipe. -/
  | unsent (same : next.cdc.transmission = { tx with state := .sendData }) (idle : OutIdle toggle next.pdev)
  /-- The packet is in the pipe. -/
  | waits (same : next.cdc.transmission = { tx with state := .sendDataWait })
    (loaded : OutLoaded toggle tx.data tx.chunk next.pdev)
  /-- The packet that was in the pipe has arrived. -/
  | acknowledged (waited : tx.state = .sendDataWait) (moved : next.cdc.transmission = tx.acknowledged)
    (taken : OutAcknowledged toggle next.pdev)

theorem Transmitted.keep {tx : Transmission} {mid next : Usbh} (transmitted : Transmitted toggle tx mid)
    (same : next.cdc.transmission = mid.cdc.transmission)
    (kept : ∀ {holds : Hcd → Prop}, OutInvariant holds → holds mid.pdev → holds next.pdev) :
    Transmitted toggle tx next := by
  cases transmitted with
  | unsent equal idle => exact .unsent (same.trans equal) (kept (idle_invariant toggle) idle)
  | waits equal loaded => exact .waits (same.trans equal) (kept (loaded_invariant ..) loaded)
  | acknowledged waited moved taken =>
    exact .acknowledged waited (same.trans moved) (kept (acknowledged_invariant toggle) taken)

/-- `USB_OTG_HC_StartXfer()` of no more than one packet leaves the length as it is. -/
theorem hcStartXfer_xferLen {num : Nat} (outward : (pdev.hc num).epIsIn = false)
    (single : (pdev.hc num).xferLen ≤ (pdev.hc num).maxPacket) :
    ((pdev.hcStartXfer num).hc num).xferLen = (pdev.hc num).xferLen := by
  simp only [Hcd.hcStartXfer, edit_hc, if_true, outward]
  have few : 0 < (pdev.hc num).xferLen →
      ((pdev.hc num).xferLen + (pdev.hc num).maxPacket - 1) / (pdev.hc num).maxPacket ≤ 1 := by
    intro some
    have positive : 0 < (pdev.hc num).maxPacket := by omega
    apply Nat.le_of_lt_succ
    rw [Nat.div_lt_iff_lt_mul positive]
    omega
  have short : ¬ (0 < (pdev.hc num).xferLen ∧
      256 < ((pdev.hc num).xferLen + (pdev.hc num).maxPacket - 1) / (pdev.hc num).maxPacket) := by
    rintro ⟨some, many⟩
    have one := few some
    omega
  simp [short]

theorem bulkSendData_loaded (idle : OutIdle toggle pdev) (bulk : (pdev.hc 2).eptype = .bulk)
    (single : length ≤ (pdev.hc 2).maxPacket) : OutLoaded toggle buff length (pdev.bulkSendData buff length 2) := by
  have started := bulkSendData_started pdev buff length 2
  have xferLen : ((pdev.bulkSendData buff length 2).hc 2).xferLen = length := by
    simp only [Hcd.bulkSendData, Hcd.submitRequest]
    rw [hcStartXfer_xferLen]
    all_goals simp [Hcd.setUrb, edit_hc, single]
  refine ⟨?_, ?_, started.buffer, xferLen, .live ?_ ?_ ?_⟩
  · exact (congrArg HostChannel.eptype started.config :).trans bulk
  · simp [Hcd.bulkSendData, Hcd.submitRequest, Hcd.hcStartXfer, Hcd.setUrb, edit_hc, idle.toggleOut]
  · simp [Hcd.bulkSendData, Hcd.submitRequest, Hcd.hcStartXfer, Hcd.setUrb, edit_hc]
  · simp [Hcd.bulkSendData, Hcd.submitRequest, Hcd.hcStartXfer, Hcd.setUrb, edit_hc, idle.toggleOut]
  · rw [started.urbState, Function.update_self]

/-- The pipe is open for packets of the size that the class driver sends, and the text to be sent is short. -/
structure Sendable (usb : Usbh) : Prop where
  pipe : usb.cdc.outPipe = 2
  bulk : (usb.pdev.hc 2).eptype = .bulk
  maxPacket : (usb.pdev.hc 2).maxPacket = usb.cdc.outEpSize
  short : usb.cdc.txDataLength < 2 ^ 16

theorem processTransmission_quiet {usb : Usbh} (env : Env) (unsent : usb.cdc.dataTxState ≠ .sendData)
    (done : usb.cdc.dataTxState ≠ .sendDataWait) : usb.processTransmission env = usb := by
  unfold Usbh.processTransmission
  cases state : usb.cdc.dataTxState with
  | sendData => exact absurd state unsent
  | sendDataWait => exact absurd state done
  | _ => rfl

theorem processTransmission_sends {usb : Usbh} (sendable : Sendable usb) (asked : usb.cdc.dataTxState = .sendData)
    (idle : OutIdle toggle usb.pdev) (env : Env) :
    Transmitted toggle usb.cdc.transmission (usb.processTransmission env) := by
  have length : (if usb.cdc.outEpSize < usb.cdc.txDataLength then usb.cdc.outEpSize
      else usb.cdc.txDataLength % 2 ^ 16) = usb.cdc.transmission.chunk := by
    have chunk : usb.cdc.transmission.chunk = min usb.cdc.outEpSize usb.cdc.txDataLength := rfl
    rw [Nat.mod_eq_of_lt sendable.short, chunk]
    by_cases more : usb.cdc.outEpSize < usb.cdc.txDataLength
    · rw [if_pos more, Nat.min_eq_left (Nat.le_of_lt more)]
    · rw [if_neg more, Nat.min_eq_right (Nat.le_of_not_lt more)]
  have fits : usb.cdc.transmission.chunk ≤ (usb.pdev.hc 2).maxPacket := by
    rw [sendable.maxPacket]
    exact Nat.min_le_left _ _
  simp only [Usbh.processTransmission, asked]
  rw [length]
  refine .waits rfl ?_
  dsimp only
  rw [sendable.pipe]
  exact bulkSendData_loaded idle sendable.bulk fits

theorem processTransmission_waits {usb : Usbh} (laid : Laid usb) (pipe : usb.cdc.outPipe = 2)
    (waits : usb.cdc.dataTxState = .sendDataWait)
    (loaded : OutLoaded toggle usb.cdc.pTxData usb.cdc.transmission.chunk usb.pdev) (turn : Turn) :
    Transmitted toggle usb.cdc.transmission (usb.processTransmission turn.env) := by
  have waited := (loaded_invariant ..).irq laid loaded turn .transmission
  have same : (usb.irq turn.env .transmission).cdc = usb.cdc := rfl
  simp only [Usbh.processTransmission, waits]
  generalize usb.irq turn.env .transmission = mid at *
  have still : mid.cdc.transmission = { usb.cdc.transmission with state := .sendDataWait } := by
    rw [same, ← waits]
    rfl
  rw [show mid.pdev.urbState mid.cdc.outPipe = mid.pdev.urbState 2 by rw [same, pipe]]
  cases waited.progress with
  | live chen toggleOut urb =>
    rw [urb]
    exact .waits still waited
  | acknowledged idle urb =>
    rw [urb]
    by_cases more : usb.cdc.outEpSize < usb.cdc.txDataLength
    · have advanced : usb.cdc.transmission.acknowledged = { usb.cdc.transmission with
          state := .sendData
          data := usb.cdc.pTxData.add usb.cdc.outEpSize
          length := usb.cdc.txDataLength - usb.cdc.outEpSize } := if_pos more
      simp only [same, if_pos more]
      exact .acknowledged waits advanced.symm ⟨idle.of_hc rfl, waited.dataPid⟩
    · have ended : usb.cdc.transmission.acknowledged = { usb.cdc.transmission with state := .idle, length := 0 } :=
        if_neg more
      simp only [same, if_neg more]
      exact .acknowledged waits ended.symm ⟨idle.of_hc rfl, waited.dataPid⟩
  | failed idle urb =>
    cases state : mid.pdev.urbState 2 with
    | done => exact absurd state urb
    | notready =>
      refine .unsent ?_ (idle.of_hc rfl)
      rw [same.symm]
      rfl
    | _ => exact .waits still waited

inductive Underway (toggle : Bool) (usb : Usbh) : Prop where
  | asked (asked : usb.cdc.dataTxState = .sendData) (idle : OutIdle toggle usb.pdev)
  | waits (waits : usb.cdc.dataTxState = .sendDataWait)
    (loaded : OutLoaded toggle usb.cdc.pTxData usb.cdc.transmission.chunk usb.pdev)

theorem Underway.keep {usb next : Usbh} (underway : Underway toggle usb)
    (same : next.cdc.transmission = usb.cdc.transmission)
    (kept : ∀ {holds : Hcd → Prop}, OutInvariant holds → holds usb.pdev → holds next.pdev) : Underway toggle next := by
  have state : next.cdc.dataTxState = usb.cdc.dataTxState := congrArg Transmission.state same
  have data : next.cdc.pTxData = usb.cdc.pTxData := congrArg Transmission.data same
  cases underway with
  | asked asked idle => exact .asked (state.trans asked) (kept (idle_invariant toggle) idle)
  | waits waits loaded =>
    refine .waits (state.trans waits) ?_
    rw [data, same]
    exact kept (loaded_invariant ..) loaded

/-- Nothing has happened to the transmission. -/
theorem Underway.transmitted {usb : Usbh} (underway : Underway toggle usb) :
    Transmitted toggle usb.cdc.transmission usb := by
  cases underway with
  | asked asked idle => exact .unsent (by rw [← asked]; rfl) idle
  | waits waits loaded => exact .waits (by rw [← waits]; rfl) loaded

theorem irq_underway {usb : Usbh} (laid : Laid usb) (underway : Underway toggle usb) (turn : Turn) (point : Point) :
    Underway toggle (usb.irq turn.env point) :=
  underway.keep rfl fun invariant kept => invariant.irq laid kept turn point

theorem portEvents_underway {usb : Usbh} (laid : Laid usb) (underway : Underway toggle usb) (turn : Turn) :
    Underway toggle (usb.portEvents turn.env) :=
  underway.keep (portEvents_transmission usb turn.env) fun invariant kept => invariant.portEvents laid kept turn

theorem irq_sendable {usb : Usbh} (sendable : Sendable usb) (turn : Turn) (point : Point) :
    Sendable (usb.irq turn.env point) := by
  have config := (interrupts_undisturbed usb.pdev (turn.irqs point)).config 2
  refine ⟨sendable.pipe, ?_, ?_, sendable.short⟩
  · exact (congrArg HostChannel.eptype config :).trans sendable.bulk
  · exact (congrArg HostChannel.maxPacket config :).trans sendable.maxPacket

theorem portEvents_sendable {usb : Usbh} (sendable : Sendable usb) (turn : Turn) :
    Sendable (usb.portEvents turn.env) := by
  have second := irq_sendable (irq_sendable sendable turn .connSts) turn .portEnabled
  simp only [Usbh.portEvents]
  split
  · exact ⟨second.pipe, second.bulk, second.maxPacket, second.short⟩
  · exact second

/-- A call of `USBH_CDC_Handle()` while a packet is to be sent or in the pipe -/
theorem handle_transmits {usb : Usbh} (laid : Laid usb) (active : usb.phost.gState = .hostClass)
    (sendable : Sendable usb) (underway : Underway toggle usb) (turn : Turn) :
    Transmitted toggle usb.cdc.transmission (usb.handle turn.env).1 := by
  have laid' := irq_laid laid turn .handle
  have first := irq_underway laid underway turn .handle
  have sendable' := irq_sendable sendable turn .handle
  have same : (usb.irq turn.env .handle).cdc.transmission = usb.cdc.transmission := rfl
  have active' : (usb.irq turn.env .handle).phost.gState = .hostClass := active
  simp only [Usbh.handle]
  generalize usb.irq turn.env .handle = mid at *
  rw [← same]
  have sent : Transmitted toggle mid.cdc.transmission (mid.processTransmission turn.env) := by
    cases first with
    | asked asked idle => exact processTransmission_sends sendable' asked idle turn.env
    | waits waits loaded => exact processTransmission_waits laid' sendable'.pipe waits loaded turn
  split
  · split
    · exact first.transmitted
    · apply sent.keep (processReception_transmission _ turn.env)
      intro holds invariant kept
      apply invariant.reception (processTransmission_laid laid' active' turn) ?_ kept turn
      rw [(processTransmission_same mid turn.env).2.1]
      exact active'
    · exact first.transmitted
  · exact first.transmitted

/-- A call of `USBH_CDC_Handle()` when nothing is to be sent -/
theorem handle_quiet {usb : Usbh} (laid : Laid usb) (active : usb.phost.gState = .hostClass)
    (unsent : usb.cdc.dataTxState ≠ .sendData) (done : usb.cdc.dataTxState ≠ .sendDataWait) (turn : Turn) :
    (usb.handle turn.env).1.cdc.transmission = usb.cdc.transmission ∧
      ∀ {holds : Hcd → Prop}, OutInvariant holds → holds usb.pdev → holds (usb.handle turn.env).1.pdev := by
  have laid' := irq_laid laid turn .handle
  have idle : (usb.irq turn.env .handle).processTransmission turn.env = usb.irq turn.env .handle :=
    processTransmission_quiet turn.env unsent done
  simp only [Usbh.handle]
  split
  · split
    · exact ⟨rfl, fun invariant kept => invariant.irq laid kept turn .handle⟩
    · rw [idle]
      refine ⟨processReception_transmission _ turn.env, fun invariant kept => ?_⟩
      exact invariant.reception laid' active (invariant.irq laid kept turn .handle) turn
    · exact ⟨rfl, fun invariant kept => invariant.irq laid kept turn .handle⟩
  · exact ⟨rfl, fun invariant kept => invariant.irq laid kept turn .handle⟩

structure OutFresh (pdev : Hcd) : Prop where
  idle : OutIdle false pdev
  dataPid : (pdev.hc 2).dataPid = .data0

theorem OutFresh.of_hc {after : Hcd} (fresh : OutFresh pdev) (hc : after.hc 2 = pdev.hc 2) : OutFresh after :=
  ⟨fresh.idle.of_hc hc, by rw [hc]; exact fresh.dataPid⟩

theorem fresh_invariant : OutInvariant OutFresh :=
  idle_only (fun _ _ hc fresh => fresh.of_hc hc) fun _ fresh => fresh.idle.chen

theorem freeChannel_hc (pdev : Hcd) (idx : Nat) : (pdev.freeChannel idx).hc = pdev.hc := by
  unfold Hcd.freeChannel
  split <;> rfl

theorem deInit_hc (usb : Usbh) : (usb.deInit usbhCdcCb).pdev.hc = usb.pdev.hc := by
  simp only [Usbh.deInit, usbhCdcCb, Usbh.interfaceDeInit, Usbh.usrDeInit, Stack.deInit]
  split <;> split <;> simp only [freeChannel_hc]

/-- Until something is sent, the OUT pipe stays as it was opened. -/
theorem process_fresh {usb next : Usbh} {fault : Bool} {turn : Turn} (laid : Laid usb) (fresh : OutFresh usb.pdev)
    (unsent : usb.cdc.dataTxState ≠ .sendData) (done : usb.cdc.dataTxState ≠ .sendDataWait)
    (ran : usb.process (classCb fault) turn.env = .ok next) : OutFresh next.pdev := by
  have laid' := irq_laid (portEvents_laid laid turn) turn .state
  have fresh' := fresh_invariant.irq (portEvents_laid laid turn) (fresh_invariant.portEvents laid fresh turn) turn .state
  have cdc : ((usb.portEvents turn.env).irq turn.env .state).cdc = usb.cdc := (portEvents_same usb turn.env).1
  have stepped := process_stepped ran
  rw [← cdc] at unsent done
  generalize (usb.portEvents turn.env).irq turn.env .state = mid at *
  have enumerates {stack : Stack} {status : UsbhStatus} (enumeration : mid.phost.gState = .enumeration)
      (handled : mid.toStack.handleEnum = .ok (stack, status)) : OutFresh stack.pdev := by
    have controlled := laid'.allocated.controlled (.inl enumeration)
    rcases handleEnum_pdev handled with same | ⟨nums, known, modified⟩
    · rw [same]
      exact fresh'
    · rcases modified.hc 2 with same | ⟨member, _⟩
      · exact fresh'.of_hc same
      · rcases known 2 member with equal | equal
        · exact absurd (equal.trans controlled.hcNumIn) (by simp)
        · exact absurd (equal.trans controlled.hcNumOut) (by simp)
  cases stepped with
  | noDevice => exact fresh'
  | portDisabled => exact fresh'
  | portEnabled => exact fresh'
  | request => exact fresh'
  | device idle => exact (fresh_invariant.irq (waitPrtEnabled_laid laid' idle) fresh' turn .reset).of_hc rfl
  | attached attached =>
    rw [devAttached_eq (laid'.allocated.unallocated (.inr (.inr attached)))]
    have wired : Wired ((mid.pdev.assign 0 0x00).assign 1 0x80) mid.cdc.outEp mid.cdc.inEp :=
      ⟨laid'.wired.outward, laid'.wired.epType, laid'.wired.eptype, laid'.wired.object, laid'.wired.outEp,
        laid'.wired.inEp⟩
    have waited := fresh_invariant.interrupts wired (fresh'.of_hc rfl) (turn.irqs .reset)
    refine waited.of_hc ?_
    dsimp only
    rw [openChannel_other _ (by simp), openChannel_other _ (by simp)]
    rfl
  | enumerating stack enumeration handled => exact enumerates enumeration handled
  | enumerated stack enumeration handled =>
    have enumerated : OutFresh stack.pdev := enumerates enumeration handled
    exact enumerated
  | init input =>
    by_cases accepted : mid.phost.deviceProp.Accepted
    · rw [interfaceInit_eq (laid'.allocated.controlled (.inr input)) accepted]
      refine ⟨⟨?_, ?_, ?_⟩, ?_⟩
      all_goals
        simp only [Usbh.setState, openChannel_hc]
        simp [Hcd.assign, fresh'.dataPid]
    · rw [interfaceInit_rejected accepted]
      exact fresh'
  | machine active => exact (handle_quiet laid' active unsent done turn).2 fresh_invariant fresh'
  | failed active => exact (handle_quiet laid' active unsent done turn).2 fresh_invariant fresh'
  | control transfer =>
    have controlled := (laid'.allocated.transfer transfer).1
    have hcNumOut : mid.phost.control.hcNumOut = 0 := controlled.hcNumOut
    have hcNumIn : mid.phost.control.hcNumIn = 1 := controlled.hcNumIn
    have transferred := (handleControl_step mid.toStack turn.env.stk).transferred
    generalize (mid.toStack.handleControl turn.env.stk).pdev = after at transferred
    cases transferred with
    | none => exact fresh'
    | sent toggled _ buff length quiet others started =>
      rw [hcNumOut] at others started
      exact fresh'.of_hc ((started.others 2 (by simp)).trans (others 2 (by simp)))
    | asked _ buff length request started =>
      rw [hcNumIn] at started
      exact fresh'.of_hc (started.others 2 (by simp))
  | reinit =>
    apply fresh'.of_hc
    rw [deInit_hc]
  | disconnected =>
    apply fresh'.of_hc
    have again := congrFun (deInit_hc mid.usrDeviceDisconnected) 2
    simp only [Usbh.devDisconnected, Usbh.setState, Hcd.init, edit_hc, Hcd.deAllocateAllChannel]
    exact again

theorem handle_pipe (usb : Usbh) (env : Env) :
    (usb.handle env).1.cdc.outPipe = usb.cdc.outPipe ∧ (usb.handle env).1.cdc.outEpSize = usb.cdc.outEpSize := by
  have received (usb : Usbh) : (usb.processReception env).cdc.outPipe = usb.cdc.outPipe ∧
      (usb.processReception env).cdc.outEpSize = usb.cdc.outEpSize := by
    have same := processReception_transmission usb env
    exact ⟨congrArg Transmission.pipe same, congrArg Transmission.epSize same⟩
  have sent (usb : Usbh) : (usb.processTransmission env).cdc.outPipe = usb.cdc.outPipe ∧
      (usb.processTransmission env).cdc.outEpSize = usb.cdc.outEpSize := by
    simp only [Usbh.processTransmission]
    repeat' split
    all_goals exact ⟨rfl, rfl⟩
  simp only [Usbh.handle]
  split
  · split
    · exact ⟨rfl, rfl⟩
    · rw [(received _).1, (received _).2, (sent _).1, (sent _).2]
      exact ⟨rfl, rfl⟩
    · exact ⟨rfl, rfl⟩
  · exact ⟨rfl, rfl⟩

/-- The pipe of a supported device, which has one -/
theorem Laid.sendable {usb : Usbh} (laid : Laid usb) (active : usb.phost.gState = .hostClass)
    (pipe : usb.cdc.outPipe = 2) (short : usb.cdc.txDataLength < 2 ^ 16) : Sendable usb := by
  rcases laid.allocated.classed (.inr active) with ⟨controlled, _⟩ | piped
  · exact absurd (pipe.symm.trans controlled.outPipe) (by simp)
  · exact ⟨pipe, piped.outOpen.eptype, piped.outOpen.maxPacket, short⟩

end Testjig.Usb
