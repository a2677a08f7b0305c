import Testjig.Sequence.Calls
import Testjig.System.Loop
import Testjig.Usb.Connected

namespace Testjig.System

open Machine Testjig.Sequence Testjig.Usb Testjig.Board

def Sending (usb : Usbh) : Prop := usb.cdc.dataTxState = .sendData ∨ usb.cdc.dataTxState = .sendDataWait

def Receiving (usb : Usbh) : Prop := usb.cdc.dataRxState = .receiveData ∨ usb.cdc.dataRxState = .receiveDataWait

/-- `USBH_CDC_Transmit()` and `USBH_CDC_Receive()` accept a call. -/
def Ready (usb : Usbh) : Prop := usb.cdc.state = .idleState ∨ usb.cdc.state = .transferData

inductive Ends (callback : UsbAction) (active active' : Prop) : List UsbAction → Prop where
  | goesOn (same : active' ↔ active) : Ends callback active active' []
  | ends (was : active) (stopped : ¬ active') : Ends callback active active' [callback]

/-- What a call of `usbh_cdc_process()` does to the two data machines -/
structure Moved (before after : Usbh) : Prop where
  ready : Ready before → Ready after
  calls : ∃ sent got, after.actions = before.actions ++ sent ++ got ∧
    Ends .transmitted (Sending before) (Sending after) sent ∧ Ends .received (Receiving before) (Receiving after) got

theorem Moved.untouched {before after : Usbh} (actions : after.actions = before.actions)
    (state : after.cdc.state = before.cdc.state ∨ after.cdc.state = .idleState)
    (tx : after.cdc.dataTxState = before.cdc.dataTxState) (rx : after.cdc.dataRxState = before.cdc.dataRxState) :
    Moved before after where
  ready ready := by
    rcases state with same | same
    · rw [Ready, same]
      exact ready
    · exact .inl same
  calls := ⟨[], [], by simp [actions], .goesOn (by rw [Sending, tx]; rfl), .goesOn (by rw [Receiving, rx]; rfl)⟩

theorem interfaceInit_same (usb : Usbh) : usb.interfaceInit.1.cdc.state = usb.cdc.state ∧
    usb.interfaceInit.1.cdc.dataTxState = usb.cdc.dataTxState ∧
    usb.interfaceInit.1.cdc.dataRxState = usb.cdc.dataRxState ∧ usb.interfaceInit.1.actions = usb.actions := by
  have same (cdc : Cdc) (ep : EpDesc) : (cdc.useEndpoint ep).state = cdc.state ∧
      (cdc.useEndpoint ep).dataTxState = cdc.dataTxState ∧ (cdc.useEndpoint ep).dataRxState = cdc.dataRxState := by
    unfold Cdc.useEndpoint
    split <;> exact ⟨rfl, rfl, rfl⟩
  simp only [Usbh.interfaceInit]
  split
  · exact ⟨rfl, rfl, rfl, rfl⟩
  · simp [same]

theorem interfaceDeInit_same (usb : Usbh) : usb.interfaceDeInit.cdc.state = usb.cdc.state ∧
    usb.interfaceDeInit.cdc.dataTxState = usb.cdc.dataTxState ∧
    usb.interfaceDeInit.cdc.dataRxState = usb.cdc.dataRxState ∧ usb.interfaceDeInit.actions = usb.actions := by
  simp only [Usbh.interfaceDeInit]
  split <;> split <;> exact ⟨rfl, rfl, rfl, rfl⟩

theorem processTransmission_moved (usb : Usbh) (env : Env) :
    (usb.processTransmission env).cdc.state = usb.cdc.state ∧
    (usb.processTransmission env).cdc.dataRxState = usb.cdc.dataRxState ∧
    ∃ sent, (usb.processTransmission env).actions = usb.actions ++ sent ∧
      Ends .transmitted (Sending usb) (Sending (usb.processTransmission env)) sent := by
  unfold Usbh.processTransmission
  cases tx : usb.cdc.dataTxState
  all_goals simp only
  case sendData =>
    exact ⟨trivial, trivial, [], by simp, .goesOn (by simp [Sending, tx])⟩
  case sendDataWait =>
    have waiting : (usb.irq env .transmission).cdc.dataTxState = .sendDataWait := tx
    split
    · split
      · exact ⟨rfl, rfl, [], by simp [Usbh.irq], .goesOn (by simp [Sending, tx])⟩
      · exact ⟨rfl, rfl, _, rfl, .ends (.inr tx) (by simp [Sending, Usbh.act])⟩
    · exact ⟨rfl, rfl, [], by simp [Usbh.irq], .goesOn (by simp [Sending, tx])⟩
    · exact ⟨rfl, rfl, [], by simp [Usbh.irq], .goesOn Iff.rfl⟩
  all_goals exact ⟨trivial, trivial, [], by simp, .goesOn Iff.rfl⟩

theorem processReception_moved (usb : Usbh) (env : Env) :
    (usb.processReception env).cdc.state = usb.cdc.state ∧
    (usb.processReception env).cdc.dataTxState = usb.cdc.dataTxState ∧
    ∃ got, (usb.processReception env).actions = usb.actions ++ got ∧
      Ends .received (Receiving usb) (Receiving (usb.processReception env)) got := by
  unfold Usbh.processReception
  cases rx : usb.cdc.dataRxState
  all_goals simp only
  case receiveData =>
    exact ⟨trivial, trivial, [], by simp, .goesOn (by simp [Receiving, rx])⟩
  case receiveDataWait =>
    split
    · split
      · exact ⟨rfl, rfl, [], by simp [Usbh.irq], .goesOn (by simp [Receiving, rx])⟩
      · exact ⟨rfl, rfl, _, rfl, .ends (.inr rx) (by simp [Receiving, Usbh.act])⟩
    · exact ⟨rfl, rfl, [], by simp [Usbh.irq], .goesOn Iff.rfl⟩
  all_goals exact ⟨trivial, trivial, [], by simp, .goesOn Iff.rfl⟩

theorem handle_moved (usb : Usbh) (env : Env) : Moved usb (usb.handle env).1 := by
  simp only [Usbh.handle]
  split
  · split
    · exact .untouched rfl (.inl rfl) rfl rfl
    · obtain ⟨state, rx, sent, actions, tx⟩ := processTransmission_moved (usb.irq env .handle) env
      obtain ⟨state', tx', got, actions', received⟩ :=
        processReception_moved ((usb.irq env .handle).processTransmission env) env
      refine ⟨?_, sent, got, ?_, ?_, ?_⟩
      · intro ready
        rw [Ready, state', state]
        exact ready
      · rw [actions', actions]
        rfl
      · rw [Sending, Sending, tx']
        exact tx
      · rw [Receiving, rx] at received
        exact received
    · exact .untouched rfl (.inl rfl) rfl rfl
  · exact .untouched rfl (.inl rfl) rfl rfl

theorem process_moved {usb next : Usbh} {fault : Bool} {env : Env}
    (ran : usb.process (classCb fault) env = .ok next) : Moved usb next := by
  obtain ⟨cdc, actions⟩ := portEvents_same usb env
  have from_mid {next : Usbh} (moved : Moved ((usb.portEvents env).irq env .state) next) : Moved usb next := by
    obtain ⟨ready, calls⟩ := moved
    rw [Sending, Receiving, show ((usb.portEvents env).irq env .state).cdc = usb.cdc from cdc,
      show ((usb.portEvents env).irq env .state).actions = usb.actions from actions] at calls
    rw [Ready, show ((usb.portEvents env).irq env .state).cdc = usb.cdc from cdc] at ready
    exact ⟨ready, calls⟩
  apply from_mid
  have stepped := process_stepped ran
  generalize (usb.portEvents env).irq env .state = mid at stepped
  cases stepped with
  | init =>
    obtain ⟨state, tx, rx, actions⟩ := interfaceInit_same mid
    exact .untouched actions (.inl state) tx rx
  | request => exact .untouched rfl (.inr rfl) rfl rfl
  | machine => exact handle_moved mid env
  | failed => exact ⟨(handle_moved mid env).ready, (handle_moved mid env).calls⟩
  | reinit =>
    obtain ⟨state, tx, rx, actions⟩ := interfaceDeInit_same { mid with toStack := mid.toStack.deInit }.usrDeInit
    exact .untouched actions (.inl state) tx rx
  | disconnected =>
    obtain ⟨state, tx, rx, actions⟩ := interfaceDeInit_same
      { mid.usrDeviceDisconnected with toStack := mid.usrDeviceDisconnected.toStack.deInit }.usrDeInit
    exact .untouched actions (.inl state) tx rx
  | _ => exact .untouched rfl (.inl rfl) rfl rfl

def InPhase (usb : Usbh) : CmdRspState → Prop
  | .txBusy => Sending usb ∧ ¬ Receiving usb
  | .rxBusy => ¬ Sending usb ∧ Receiving usb
  | .idle | .txDone | .rxDone => ¬ Sending usb ∧ ¬ Receiving usb

def Passing (state : CmdRspState) : Prop := state = .txDone ∨ state = .rxDone

structure Alternates (s : Sys) : Prop where
  ready : Ready s.usb
  phase : InPhase s.usb s.main.cmdrsp.state
  settled : ¬ Passing s.main.cmdrsp.state

inductive Advanced (before : CmdRspState) : CmdRspState → Prop where
  | same : Advanced before before
  | transmitted (busy : before = .txBusy) : Advanced before .txDone
  | received (busy : before = .rxBusy) : Advanced before .rxDone

theorem Advanced.idle {before after : CmdRspState} (advanced : Advanced before after) :
    before = .idle ↔ after = .idle := by
  cases advanced with
  | same => exact Iff.rfl
  | transmitted busy => simp [busy]
  | received busy => simp [busy]

theorem callbacks_phase {m : Main} {before after : Usbh} (moved : Moved before after) (fresh : before.actions = [])
    (phase : InPhase before m.cmdrsp.state) (settled : ¬ Passing m.cmdrsp.state) :
    ∃ state, m.usbhCdcProcess after.actions = .ok { m with cmdrsp.state := state } ∧ InPhase after state ∧
      Advanced m.cmdrsp.state state := by
  obtain ⟨sent, got, actions, tx, rx⟩ := moved.calls
  rw [actions, fresh, List.nil_append]
  cases state : m.cmdrsp.state
  all_goals rw [state] at phase settled
  case txDone => exact absurd (.inl rfl) settled
  case rxDone => exact absurd (.inr rfl) settled
  case idle =>
    obtain ⟨quietTx, quietRx⟩ := phase
    cases tx with
    | ends was => exact absurd was quietTx
    | goesOn sameTx =>
      cases rx with
      | ends was => exact absurd was quietRx
      | goesOn sameRx =>
        exact ⟨.idle, by rw [← state]; rfl, ⟨mt sameTx.mp quietTx, mt sameRx.mp quietRx⟩, .same⟩
  case txBusy =>
    obtain ⟨activeTx, quietRx⟩ := phase
    cases rx with
    | ends was => exact absurd was quietRx
    | goesOn sameRx =>
      cases tx with
      | goesOn sameTx => exact ⟨.txBusy, by rw [← state]; rfl, ⟨sameTx.mpr activeTx, mt sameRx.mp quietRx⟩, .same⟩
      | ends _ stopped =>
        refine ⟨.txDone, ?_, ⟨stopped, mt sameRx.mp quietRx⟩, .transmitted rfl⟩
        simp [Main.usbhCdcProcess, Main.usbAction, Main.transmitCallback, state]
  case rxBusy =>
    obtain ⟨quietTx, activeRx⟩ := phase
    cases tx with
    | ends was => exact absurd was quietTx
    | goesOn sameTx =>
      cases rx with
      | goesOn sameRx => exact ⟨.rxBusy, by rw [← state]; rfl, ⟨mt sameTx.mp quietTx, sameRx.mpr activeRx⟩, .same⟩
      | ends _ stopped =>
        refine ⟨.rxDone, ?_, ⟨mt sameTx.mp quietTx, stopped⟩, .received rfl⟩
        simp [Main.usbhCdcProcess, Main.usbAction, Main.receiveCallback, state]

theorem input_moved {input : Input} {usb next : Usbh} (ran : input.process usb = .ok next) :
    Moved { usb with actions := [] } next := by
  unfold Input.process at ran
  split at ran
  · cases ran
  · rename_i processed called
    cases ran
    exact ⟨(process_moved called).ready, (process_moved called).calls⟩

theorem iterate_parts {input : Input} {s : Sys} {usb : Usbh} (kept : Alternates s)
    (processed : input.process s.usb = .ok usb) :
    ∃ state, (view s.main usb).newIteration.usbhCdcProcess (input.poll usb).actions =
        .ok { (view s.main usb).newIteration with cmdrsp.state := state } ∧
      Ready usb ∧ InPhase usb state ∧ Advanced s.main.cmdrsp.state state := by
  have moved := input_moved processed
  obtain ⟨state, called, phase, advanced⟩ :=
    callbacks_phase (m := (view s.main usb).newIteration) moved rfl kept.phase kept.settled
  exact ⟨state, called, moved.ready kept.ready, phase, advanced⟩

theorem served_call {m next : Main} {poll : Poll} {usb : Usbh} {call : CdcCall} (served : Served m poll next)
    (uncalled : m.call = none) (made : next.call = some call) (phase : InPhase usb m.cmdrsp.state) :
    ¬ Sending usb ∧ ¬ Receiving usb := by
  cases served with
  | unconnected => simp [uncalled] at made
  | txWait => simp [uncalled] at made
  | rxWait => simp [uncalled] at made
  | transmitted _ done =>
    rw [done] at phase
    exact phase
  | received => simp [Main.record, uncalled] at made
  | test _ _ idle =>
    rw [idle] at phase
    exact phase

theorem cdcCall_accepted {usb : Usbh} (ready : Ready usb) (call : CdcCall) : (usb.cdcCall call).2 = .ok := by
  rw [Ready] at ready
  cases call with
  | transmit buf len => rw [Usbh.cdcCall, Usbh.transmit, if_pos ready]
  | receive len => rw [Usbh.cdcCall, Usbh.receive, if_pos ready]

theorem serve_sending {usb : Usbh} (ready : Ready usb) (quiet : ¬ Receiving usb) (buf : TxBuf) (len : Nat) :
    Ready (usb.serve (some (.transmit buf len))) ∧ InPhase (usb.serve (some (.transmit buf len))) .txBusy := by
  rw [Ready] at ready
  rw [Usbh.serve, Usbh.cdcCall, Usbh.transmit, if_pos ready]
  exact ⟨.inr rfl, .inl rfl, quiet⟩

theorem serve_receiving {usb : Usbh} (ready : Ready usb) (quiet : ¬ Sending usb) (len : Nat) :
    Ready (usb.serve (some (.receive len))) ∧ InPhase (usb.serve (some (.receive len))) .rxBusy := by
  rw [Ready] at ready
  rw [Usbh.serve, Usbh.cdcCall, Usbh.receive, if_pos ready]
  exact ⟨.inr rfl, quiet, .inl rfl⟩

theorem served_alternates {m next : Main} {poll : Poll} {usb : Usbh} (served : Served m poll next)
    (uncalled : m.call = none) (ready : Ready usb) (phase : InPhase usb m.cmdrsp.state) :
    Alternates { main := next, usb := usb.serve next.call } := by
  cases served with
  | unconnected _ _ idle =>
    rw [uncalled]
    exact ⟨ready, phase, by simp [Passing, idle]⟩
  | txWait _ busy =>
    rw [uncalled]
    exact ⟨ready, phase, by simp [Passing, busy]⟩
  | rxWait _ busy =>
    rw [uncalled]
    exact ⟨ready, phase, by simp [Passing, busy]⟩
  | transmitted _ done =>
    rw [done] at phase
    obtain ⟨ready', phase'⟩ := serve_receiving ready phase.1 m.cmdrsp.rspLen
    exact ⟨ready', phase', by simp [Passing]⟩
  | received _ done =>
    rw [done] at phase
    have still : (Main.record { m with cmdrsp.state := .idle } (.reply m.rspbuf)).call = none := uncalled
    rw [still]
    exact ⟨ready, phase, by simp [Passing, Main.record]⟩
  | test _ _ idle ran =>
    cases runState_issued ran with
    | quiet cmdrsp call =>
      have still : next.call = none := call.trans uncalled
      rw [still]
      rw [← show next.cmdrsp = m.cmdrsp from cmdrsp] at phase idle
      exact ⟨ready, phase, by simp [Passing, idle]⟩
    | command buf busy call =>
      rw [idle] at phase
      obtain ⟨ready', phase'⟩ := serve_sending ready phase.2 buf (next.txBytes buf).length
      rw [call]
      exact ⟨ready', busy ▸ phase', by simp [Passing, busy]⟩

theorem iterate_ok {input : Input} {s next : Sys} (taken : iterate input s = .ok next) :
    ∃ usb main, input.process s.usb = .ok usb ∧ Sequence.iterate (input.poll usb) (view s.main usb) = .ok main ∧
      next = { main, usb := usb.serve main.call } := by
  unfold iterate at taken
  split at taken
  · cases taken
  · rename_i usb processed
    split at taken
    · cases taken
    · rename_i main ran
      cases taken
      exact ⟨usb, main, processed, ran, rfl⟩

theorem iterate_alternates (input : Input) (s next : Sys) (kept : Alternates s) (taken : iterate input s = .ok next) :
    Alternates next := by
  obtain ⟨usb, main, processed, ran, rfl⟩ := iterate_ok taken
  obtain ⟨state, called, ready, phase, _⟩ := iterate_parts kept processed
  obtain ⟨after, called', served⟩ := iterate_served ran
  cases called.symm.trans called'
  exact served_alternates served rfl ready phase

theorem powerOn_alternates (latches : Gpio) : Alternates (powerOn latches) :=
  ⟨.inl rfl, ⟨by simp [Sending, powerOn, usbhCdcInit, zeroed], by simp [Receiving, powerOn, usbhCdcInit, zeroed]⟩,
    by simp [Passing, powerOn, Sequence.powerOn]⟩

theorem iterate_error {input : Input} {s : Sys} {nr : Nat} (kept : Alternates s)
    (stopped : iterate input s = .error (.error nr)) :
    nr = errTxTimeout ∨ nr = errRxTimeout ∨ nr = errBadResponse := by
  unfold iterate at stopped
  split at stopped
  · rename_i halt processed
    cases stopped
    unfold Input.process at processed
    split at processed
    · rename_i called
      cases processed
      rcases process_stuck called with stuck | stuck <;> cases stuck
    · cases processed
  · rename_i usb processed
    obtain ⟨state, called, _⟩ := iterate_parts kept processed
    split at stopped
    · rename_i ran
      cases stopped
      unfold Sequence.iterate at ran
      rw [called] at ran
      exact afterProcess_error ran
    · cases stopped

theorem served_held {m next : Main} {poll : Poll} (served : Served m poll next) (busy : m.cmdrsp.state ≠ .idle)
    (buf : TxBuf) : next.txBytes buf = m.txBytes buf := by
  cases served with
  | unconnected _ _ idle => exact absurd idle busy
  | test _ _ idle => exact absurd idle busy
  | _ => cases buf <;> rfl

/-- The rules of the exchange in the next iteration from a state -/
structure InTurn (input : Input) (s : Sys) : Prop where
  goodTransmit : iterate input s ≠ .error (.error errTxBadCallback)
  goodReceive : iterate input s ≠ .error (.error errRxBadCallback)
  accepted : ∀ usb main call, input.process s.usb = .ok usb →
    Sequence.iterate (input.poll usb) (view s.main usb) = .ok main → main.call = some call →
    (usb.cdcCall call).2 = .ok
  complete : ∀ usb main buf len, input.process s.usb = .ok usb →
    Sequence.iterate (input.poll usb) (view s.main usb) = .ok main → main.call = some (.transmit buf len) →
    s.main.cmdrsp.state = .idle ∧ ¬ Sending usb ∧ ¬ Receiving usb
  held : s.main.cmdrsp.state = .txBusy → ∀ next, iterate input s = .ok next →
    ∀ buf, next.main.txBytes buf = s.main.txBytes buf

theorem Alternates.inTurn {s : Sys} (kept : Alternates s) (input : Input) : InTurn input s where
  goodTransmit stopped := by
    rcases iterate_error kept stopped with number | number | number <;> cases number
  goodReceive stopped := by
    rcases iterate_error kept stopped with number | number | number <;> cases number
  accepted usb main call processed _ _ := by
    obtain ⟨_, _, ready, _⟩ := iterate_parts kept processed
    exact cdcCall_accepted ready call
  complete usb main buf len processed ran made := by
    obtain ⟨state, called, _, phase, advanced⟩ := iterate_parts kept processed
    obtain ⟨after, called', served⟩ := iterate_served ran
    cases called.symm.trans called'
    refine ⟨?_, served_call served rfl made phase⟩
    cases served with
    | test _ _ quiet => exact advanced.idle.mpr quiet
    | transmitted => cases made
    | _ => simp [Main.newIteration, Main.record] at made
  held busy next taken buf := by
    obtain ⟨usb, main, processed, ran, rfl⟩ := iterate_ok taken
    obtain ⟨state, called, _, _, advanced⟩ := iterate_parts kept processed
    obtain ⟨after, called', served⟩ := iterate_served ran
    cases called.symm.trans called'
    have busy' : state ≠ .idle := mt advanced.idle.mpr (by rw [busy]; simp)
    rw [served_held served busy' buf]
    cases buf <;> rfl

/-- Whatever the bulk pipes report, commands and responses take turns. -/
theorem strict_alternation (latches : Gpio) (inputs : List Input) (s : Sys)
    (run : exec iterate inputs (powerOn latches) = .ok s) :
    (s.main.cmdrsp.state = .txBusy ↔ Sending s.usb) ∧ (s.main.cmdrsp.state = .rxBusy ↔ Receiving s.usb) ∧
      ¬ (Sending s.usb ∧ Receiving s.usb) ∧ ∀ input, InTurn input s := by
  have kept := exec_invariant iterate_alternates (powerOn_alternates latches) run
  have phase := kept.phase
  have settled := kept.settled
  refine ⟨?_, ?_, ?_, kept.inTurn⟩
  all_goals
    cases state : s.main.cmdrsp.state
    all_goals simp_all [InPhase, Passing]

def calm (turn : Turn) : Schedule where
  turn
  fault := false
  reading := { now := 0, idr := fun _ _ => true, tcif := true, dmabuf := fun _ => 0, adc := fun _ => 0 }

/-- The iterations in which a device is enumerated and sent its first command -/
def firstCommand (interfaceClass inSize : Nat) : List Schedule :=
  (enumerationTurns (deviceDescriptor 0 0 0) (configurationDescriptor interfaceClass inSize)).map calm ++
    [calm (turnAfter [])]

theorem strict_alternation_first : ∃ s,
    exec iterate ((firstCommand 2 64).map Schedule.input) (powerOn fun _ _ => false) = .ok s ∧
    s.main.cmdrsp.state = .txBusy ∧ Sending s.usb ∧ ¬ Receiving s.usb ∧ ∀ input, InTurn input s := by
  obtain ⟨s, run, checked⟩ := exists_of_succeedsWith (fun s : Sys => s.main.cmdrsp.state = .txBusy)
    (exec iterate ((firstCommand 2 64).map Schedule.input) (powerOn fun _ _ => false)) (by decide +kernel)
  have busy : s.main.cmdrsp.state = .txBusy := of_decide_eq_true checked
  obtain ⟨sends, _, apart, inTurn⟩ := strict_alternation _ _ s run
  have sending := sends.mp busy
  exact ⟨s, run, busy, sending, fun receiving => apart ⟨sending, receiving⟩, inTurn⟩

end Testjig.System
