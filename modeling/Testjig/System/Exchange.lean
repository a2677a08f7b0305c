import Testjig.System.Connection
import Testjig.Usb.Reception

namespace Testjig.System

open Machine Testjig.Sequence Testjig.Usb Testjig.Board

/-- A response that main() has taken as complete: its length and the packets of the reply, `rspbuf` as main() reads it,
and the packets that are still to be received. -/
structure Completion where
  rspLen : Nat
  reply : List (List Byte)
  rspbuf : Buffer
  pending : List (List Byte)

/-- main() has the whole reply, and nothing but the reply. -/
def Completion.Integral (c : Completion) : Prop :=
  (List.range c.rspLen).map c.rspbuf = c.reply.flatten ∧ c.pending = []

/-- The reply came in one packet, of the length that was asked for. -/
def Completion.Single (c : Completion) : Prop := ∃ packet, c.reply = [packet] ∧ packet.length = c.rspLen

/-- The firmware and the device that it talks to: the packets sent by the device, those of them that answer the last
command, and the responses taken as complete, all oldest first -/
structure Talk where
  sys : Sys
  sent : List (List Byte)
  reply : List (List Byte)
  completions : List Completion

/-- An iteration, with the packets of the reply if the device receives a command in it -/
structure Answer where
  schedule : Schedule
  reply : List (List Byte)

namespace Talk

def Replies (t : Talk) (sys : Sys) : Prop := t.sys.main.cmdrsp.state = .txBusy ∧ sys.main.cmdrsp.state = .rxBusy

def Completes (t : Talk) (sys : Sys) : Prop := t.sys.main.cmdrsp.state = .rxBusy ∧ sys.main.cmdrsp.state = .idle

instance (t : Talk) (sys : Sys) : Decidable (t.Replies sys) := inferInstanceAs (Decidable (_ ∧ _))

instance (t : Talk) (sys : Sys) : Decidable (t.Completes sys) := inferInstanceAs (Decidable (_ ∧ _))

def completion (t : Talk) (sys : Sys) : Completion where
  rspLen := sys.main.cmdrsp.rspLen
  reply := t.reply
  rspbuf := sys.usb.pdev.ram .rspbuf
  pending := t.sent.drop sys.usb.pdev.delivered.length

/-- The device replies when main() has sent the command. -/
def next (t : Talk) (reply : List (List Byte)) (sys : Sys) : Talk where
  sys
  sent := if t.Replies sys then t.sent ++ reply else t.sent
  reply := if t.Replies sys then reply else t.reply
  completions := if t.Completes sys then t.completions ++ [t.completion sys] else t.completions

/-- What the controller takes from the bulk endpoint is what the device has sent, and no packet is empty. -/
def Genuine (t : Talk) : Prop := t.sys.usb.pdev.delivered <+: t.sent ∧ [] ∉ t.sent

instance (t : Talk) : Decidable t.Genuine := inferInstanceAs (Decidable (_ ∧ _))

def powerOn (latches : Gpio) : Talk where
  sys := System.powerOn latches
  sent := []
  reply := []
  completions := []

end Talk

/-- How a run ends: main() stops, or the packets are not those of the device. -/
inductive Ended where
  | halted (halt : Halt)
  | forged

def talk (x : Answer) (t : Talk) : Except Ended Talk :=
  match step x.schedule t.sys with
  | .error halt => .error (.halted halt)
  | .ok sys => if (t.next x.reply sys).Genuine then .ok (t.next x.reply sys) else .error .forged

/-- What has come in through the IN pipe after the given packets, and what the class driver makes of it -/
structure Reception (d : List (List Byte)) (usb : Usbh) : Prop where
  buffer : Receiving usb → usb.cdc.pRxData = ⟨.rspbuf, 0⟩
  asked : usb.cdc.dataRxState = .receiveDataWait → usb.cdc.inPipe = 3 → Fetch d usb.pdev
  unasked : usb.cdc.dataRxState ≠ .receiveDataWait ∨ usb.cdc.inPipe ≠ 3 → Still d usb.pdev

variable {d : List (List Byte)}

theorem irq_reception {usb : Usbh} (laid : Laid usb) (reception : Reception d usb) (turn : Turn) (point : Point) :
    Reception d (usb.irq turn.env point) where
  buffer := reception.buffer
  asked waits piped := interrupts_fetch laid.wired (reception.asked waits piped) (turn.irqs point)
  unasked other := (still_invariant d).irq laid (reception.unasked other) turn point

theorem portEvents_reception {usb : Usbh} (laid : Laid usb) (reception : Reception d usb) (turn : Turn) :
    Reception d (usb.portEvents turn.env) := by
  have second := irq_reception (irq_laid laid turn .connSts) (irq_reception laid reception turn .connSts) turn
    .portEnabled
  simp only [Usbh.portEvents]
  split
  · exact ⟨second.buffer, second.asked, second.unasked⟩
  · exact second

theorem processTransmission_reception {usb : Usbh} (laid : Laid usb) (active : usb.phost.gState = .hostClass)
    (reception : Reception d usb) (turn : Turn) : Reception d (usb.processTransmission turn.env) := by
  obtain ⟨dataRxState, pRxData, _, inPipe⟩ := processTransmission_rx usb turn.env
  constructor
  · rw [Receiving, dataRxState, pRxData]
    exact reception.buffer
  · rw [dataRxState, inPipe]
    exact fun waits piped => processTransmission_fetch laid active (reception.asked waits piped) turn
  · rw [dataRxState, inPipe]
    exact fun other => (still_invariant d).processTransmission laid active (reception.unasked other) turn

/-- How a call of `usbh_cdc_process()` leaves a reception: it goes on, or it has ended with a packet. -/
inductive Received (d : List (List Byte)) (usb : Usbh) : Prop where
  | goesOn (receiving : Receiving usb) (reception : Reception d usb)
  | ended (packet : List Byte) (stopped : ¬ Receiving usb) (still : Still (d ++ [packet]) usb.pdev)
    (stored : Stored packet usb.pdev)
  | empty (still : Still (d ++ [[]]) usb.pdev)

theorem processReception_asks {usb : Usbh} (laid : Laid usb) (active : usb.phost.gState = .hostClass)
    (asks : usb.cdc.dataRxState = .receiveData) (reception : Reception d usb) (turn : Turn) :
    Received d (usb.processReception turn.env) := by
  have buffer := reception.buffer (.inl asks)
  have still : Still d usb.pdev := reception.unasked (.inl (by rw [asks]; simp))
  have started := bulkReceiveData_started usb.pdev usb.cdc.pRxData usb.cdc.inEpSize usb.cdc.inPipe
  simp only [Usbh.processReception, asks]
  refine .goesOn (.inr rfl) ⟨fun _ => buffer, fun _ piped => ?_, fun other => ?_⟩
  · replace piped : usb.cdc.inPipe = 3 := piped
    rw [buffer, piped] at started
    rw [buffer, piped]
    rcases laid.allocated.classed (.inr active) with ⟨controlled, _⟩ | pipes
    · exact absurd (piped.symm.trans controlled.inPipe) (by simp)
    · refine started.begins still pipes.inOpen.maxPacket pipes.inOpen.eptype fun outward => ?_
      have none : usb.cdc.inEp &&& 0x80 = 0 := by
        by_contra inward
        have epdir : (usb.pdev.hc 3).epdir = true := pipes.inOpen.epdir.mpr inward
        rw [outward] at epdir
        cases epdir
      exact (laid.wired.inEp none).2
  · rcases other with state | other
    · exact absurd rfl state
    · exact (still_invariant d).apart _ _ (started.apart (Ne.symm other)) still

theorem processReception_waits {usb : Usbh} (laid : Laid usb) (active : usb.phost.gState = .hostClass)
    (waits : usb.cdc.dataRxState = .receiveDataWait) (reception : Reception d usb) (turn : Turn) :
    Received d (usb.processReception turn.env) := by
  have buffer := reception.buffer (.inr waits)
  have waited := irq_reception laid reception turn .reception
  replace laid := irq_laid laid turn .reception
  simp only [Usbh.processReception, waits]
  replace waits : (usb.irq turn.env .reception).cdc.dataRxState = .receiveDataWait := waits
  replace buffer : (usb.irq turn.env .reception).cdc.pRxData = ⟨.rspbuf, 0⟩ := buffer
  replace active : (usb.irq turn.env .reception).phost.gState = .hostClass := active
  generalize usb.irq turn.env .reception = mid at *
  have restarts (still : Still d (mid.irq turn.env .xferCnt).pdev) :
      Received d { mid.irq turn.env .xferCnt with cdc.dataRxState := .receiveData } :=
    .goesOn (.inl rfl) ⟨fun _ => buffer, fun waits => absurd waits (by simp), fun _ => still⟩
  by_cases done : mid.pdev.urbState mid.cdc.inPipe = .done
  · rw [if_pos done]
    by_cases piped : mid.cdc.inPipe = 3
    · rw [piped] at done
      have fetch := waited.asked waits piped
      have stopped := fetch.stopped done
      obtain ⟨untouched, delivered, ram⟩ := interrupts_nothing laid.wired stopped.chen (turn.irqs .xferCnt)
      have halted : Halted (mid.irq turn.env .xferCnt).pdev := stopped.of_same untouched.hc
      have count : (mid.irq turn.env .xferCnt).pdev.xferCnt (mid.irq turn.env .xferCnt).cdc.inPipe =
          mid.pdev.xferCnt 3 := by
        rw [show (mid.irq turn.env .xferCnt).cdc.inPipe = 3 from piped]
        exact untouched.xferCnt
      rw [count]
      cases fetch.progress with
      | waiting _ _ _ _ _ going => exact absurd done going
      | mute outward empty same =>
        rw [if_pos empty]
        exact restarts ⟨halted, delivered.trans same⟩
      | taken packet pktcnt same stored =>
        have still : Still (d ++ [packet]) (mid.irq turn.env .xferCnt).pdev := ⟨halted, delivered.trans same⟩
        rcases stored with rfl | ⟨length, stored⟩
        · split
          · exact .empty still
          · exact .empty still
        · split
          · rename_i zero
            have none : packet = [] := List.length_eq_zero_iff.mp (length.symm.trans zero)
            rw [none] at still
            exact .empty still
          · refine .ended packet (by simp [Receiving, Usbh.act]) still ?_
            exact stored.of_same ram
    · -- Without a pipe the driver looks at channel 0, where no bytes are ever counted.
      have counted := irq_laid laid turn .xferCnt
      have first : mid.cdc.inPipe = 0 := by
        rcases (laid.allocated.classed (.inr active)).pipes with ⟨_, inn⟩ | ⟨_, inn⟩
        · exact inn
        · exact absurd inn piped
      have zero : (mid.irq turn.env .xferCnt).pdev.xferCnt (mid.irq turn.env .xferCnt).cdc.inPipe = 0 := by
        rw [show (mid.irq turn.env .xferCnt).cdc.inPipe = 0 from first]
        exact (counted.wired.outward 0 (by simp) (by simp)).2
      have still := (still_invariant d).irq laid (waited.unasked (.inr piped)) turn .xferCnt
      rw [if_pos zero]
      exact restarts still
  · rw [if_neg done]
    exact .goesOn (.inr waits) waited

theorem handle_received {usb : Usbh} (laid : Laid usb) (active : usb.phost.gState = .hostClass)
    (receiving : Receiving usb) (reception : Reception d usb) (turn : Turn) :
    Received d (usb.handle turn.env).1 := by
  have first := irq_reception laid reception turn .handle
  have laid' := irq_laid laid turn .handle
  simp only [Usbh.handle]
  split
  · split
    · exact .goesOn receiving first
    · have sent := processTransmission_reception laid' active first turn
      have laid'' := processTransmission_laid laid' active turn
      have active' : ((usb.irq turn.env .handle).processTransmission turn.env).phost.gState = .hostClass := by
        rw [(processTransmission_same (usb.irq turn.env .handle) turn.env).2.1]
        exact active
      have same := (processTransmission_rx (usb.irq turn.env .handle) turn.env).1
      rcases receiving with asks | waits
      · exact processReception_asks laid'' active' (same.trans asks) sent turn
      · exact processReception_waits laid'' active' (same.trans waits) sent turn
    · exact .goesOn receiving first
  · exact .goesOn receiving first

theorem Parts.laid {x : Schedule} {s next : Sys} {inner : Usbh} {state : CmdRspState}
    (parts : Parts x s next inner state) (laid : Laid s.usb) : Laid inner ∧ Laid next.usb := by
  have processed := process_laid x.fault laid.fresh parts.ran
  refine ⟨processed, ?_⟩
  rw [parts.usb]
  exact serve_laid (irq_laid processed x.turn .exit) next.main.call

theorem Alternates.receiving {s : Sys} (alternates : Alternates s) :
    Receiving s.usb ↔ s.main.cmdrsp.state = .rxBusy := by
  have phase := alternates.phase
  have settled := alternates.settled
  cases state : s.main.cmdrsp.state
  all_goals simp_all [InPhase, Passing]

/-- Outside a reception nothing comes in, and a reception begins when the command has been sent. -/
theorem step_waited {x : Schedule} {s next : Sys} (alternates : Alternates s) (laid : Laid s.usb)
    (other : s.main.cmdrsp.state ≠ .rxBusy) (still : Still d s.usb.pdev) (taken : step x s = .ok next) :
    Still d next.usb.pdev ∧
      (next.main.cmdrsp.state = .rxBusy → s.main.cmdrsp.state = .txBusy ∧ Reception d next.usb) := by
  obtain ⟨inner, state, parts⟩ := step_parts alternates taken
  have quiet : ¬ Receiving s.usb := mt alternates.receiving.mp other
  have asked : PipeInvariant.Asked (Still d) s.usb.cdc := fun asks => absurd (.inl asks) quiet
  have processed := (still_invariant d).process laid.fresh still parts.ran asked (opened_still d _)
  have still' : Still d next.usb.pdev := by
    rw [parts.usb, (serve_same (inner.irq x.turn.env .exit) next.main.call).1]
    exact (still_invariant d).irq (parts.laid laid).1 processed x.turn .exit
  refine ⟨still', fun busy => ?_⟩
  have advanced := parts.advanced
  have usb := parts.usb
  have served := parts.served
  generalize next.main = main at served busy usb
  cases served with
  | unconnected _ _ idle => exact absurd (idle.symm.trans busy) (by simp)
  | txWait _ waits => exact absurd (waits.symm.trans busy) (by simp)
  | rxWait _ waits =>
    cases advanced with
    | same => exact absurd waits other
    | _ => cases waits
  | transmitted _ done =>
    have sent : s.main.cmdrsp.state = .txBusy := by
      cases advanced with
      | same => exact absurd (.inl done) alternates.settled
      | transmitted sent => exact sent
      | received => cases done
    have accepted : (inner.irq x.turn.env .exit).cdc.state = .idleState ∨
        (inner.irq x.turn.env .exit).cdc.state = .transferData := parts.ready
    simp only [Usbh.serve, Usbh.cdcCall, Usbh.receive, if_pos accepted] at usb
    refine ⟨sent, ⟨fun _ => by rw [usb], fun waits => ?_, fun _ => still'⟩⟩
    rw [usb] at waits
    cases waits
  | received => cases busy
  | test _ _ idle ran =>
    cases runState_issued ran with
    | quiet cmdrsp =>
      have same : main.cmdrsp.state = .idle := (congrArg CmdRsp.state cmdrsp :).trans idle
      exact absurd (same.symm.trans busy) (by simp)
    | command _ sending => exact absurd (sending.symm.trans busy) (by simp)

inductive Fetched (d : List (List Byte)) (next : Sys) : Prop where
  | goesOn (busy : next.main.cmdrsp.state = .rxBusy) (reception : Reception d next.usb)
  | ended (packet : List Byte) (idle : next.main.cmdrsp.state = .idle) (still : Still (d ++ [packet]) next.usb.pdev)
    (stored : Stored packet next.usb.pdev)
  | empty (delivered : next.usb.pdev.delivered = d ++ [[]])

theorem step_fetched {x : Schedule} {s next : Sys} (linked : Linked s) (laid : Laid s.usb)
    (busy : s.main.cmdrsp.state = .rxBusy) (reception : Reception d s.usb) (taken : step x s = .ok next) :
    Fetched d next := by
  obtain ⟨inner, state, parts⟩ := step_parts linked.alternates taken
  have laid' := laid.fresh
  have busy' : state ≠ .idle := mt parts.advanced.idle.mpr (by rw [busy]; simp)
  obtain ⟨_, machine⟩ := process_flagged { s.usb with actions := [] } linked.flagged parts.ran
  obtain ⟨same, _, active⟩ := machine (linked.on (linked.begun (by rw [busy]; simp)))
    (Bool.and_eq_true_iff.mp (parts.served.connected busy')).1
  have received : Received d inner := by
    rw [same]
    apply handle_received (irq_laid (portEvents_laid laid' x.turn) x.turn .state) active
    · have cdc := (portEvents_same { s.usb with actions := [] } x.turn.env).1
      change Receiving (Usbh.portEvents { s.usb with actions := [] } x.turn.env)
      rw [Receiving, cdc]
      exact linked.alternates.receiving.mpr busy
    · have reception' : Reception d { s.usb with actions := [] } :=
        ⟨reception.buffer, reception.asked, reception.unasked⟩
      exact irq_reception (portEvents_laid laid' x.turn) (portEvents_reception laid' reception' x.turn) x.turn .state
  have innerLaid := (parts.laid laid).1
  have phase := parts.phase
  have advanced := parts.advanced
  rw [busy] at advanced
  cases received with
  | goesOn receiving reception =>
    cases advanced with
    | transmitted sent => cases sent
    | received => exact absurd receiving phase.2
    | same =>
      have main := parts.served.waiting rfl
      have usb := parts.usb
      rw [main] at usb
      refine .goesOn (by rw [main]) ?_
      rw [usb]
      exact irq_reception innerLaid reception x.turn .exit
  | ended packet stopped still stored =>
    cases advanced with
    | transmitted sent => cases sent
    | same => exact absurd phase.2 stopped
    | received =>
      have main := parts.served.completed rfl
      have usb := parts.usb
      rw [main] at usb
      refine .ended packet (by rw [main]; rfl) ?_ ?_
      · rw [usb]
        exact (still_invariant _).irq innerLaid still x.turn .exit
      · rw [usb]
        exact stored.of_same (interrupts_nothing innerLaid.wired still.halted.chen (x.turn.irqs .exit)).2.2
  | empty still =>
    refine .empty ?_
    rw [parts.usb, (serve_same (inner.irq x.turn.env .exit) next.main.call).1]
    exact ((still_invariant _).irq innerLaid still x.turn .exit).delivered

theorem talk_ok {x : Answer} {t next : Talk} (taken : talk x t = .ok next) :
    ∃ sys, step x.schedule t.sys = .ok sys ∧ next = t.next x.reply sys ∧ next.Genuine := by
  unfold talk at taken
  split at taken
  · cases taken
  · rename_i sys stepped
    split at taken
    · rename_i genuine
      cases taken
      exact ⟨sys, stepped, rfl, genuine⟩
    · cases taken

theorem completion_agrees {t : Talk} {sys : Sys} {packet : List Byte} (sent : t.sent = d ++ t.reply)
    (genuine : d ++ [packet] <+: t.sent) (delivered : sys.usb.pdev.delivered = d ++ [packet])
    (stored : Stored packet sys.usb.pdev) : ((t.completion sys).Integral ↔ (t.completion sys).Single) ∧
      ((t.completion sys).Single → t.sent = d ++ [packet]) := by
  rw [sent, List.prefix_append_right_inj] at genuine
  obtain ⟨rest, reply⟩ := genuine
  have pending : (t.completion sys).pending = rest := by
    simp [Talk.completion, sent, delivered, ← reply]
  have single : (t.completion sys).Single ↔ rest = [] ∧ packet.length = sys.main.cmdrsp.rspLen := by
    simp only [Completion.Single, Talk.completion, ← reply]
    constructor
    · rintro ⟨other, same, length⟩
      obtain ⟨rfl, rfl⟩ := List.cons.inj same
      exact ⟨rfl, length⟩
    · rintro ⟨rfl, length⟩
      exact ⟨packet, rfl, length⟩
  refine ⟨?_, fun one => ?_⟩
  · rw [Completion.Integral, pending, single]
    simp only [Talk.completion, ← reply]
    constructor
    · rintro ⟨same, rfl⟩
      have length := congrArg List.length same
      simp only [List.length_map, List.length_range, List.append_nil, List.flatten_singleton] at length
      exact ⟨rfl, length.symm⟩
    · rintro ⟨rfl, length⟩
      rw [← length]
      have flat : [packet].flatten = packet := List.flatten_singleton
      exact ⟨stored.trans flat.symm, rfl⟩
  · rw [sent, ← reply, (single.mp one).1, List.append_nil]

structure Synced (t : Talk) : Prop where
  quiet : t.sys.main.cmdrsp.state ≠ .rxBusy → Still t.sent t.sys.usb.pdev
  busy : t.sys.main.cmdrsp.state = .rxBusy → ∃ d, t.sent = d ++ t.reply ∧ Reception d t.sys.usb

/-- What is kept of an exchange: it stays in step as long as every reply was a single packet, and the first one that
was not has left a response that is not integral. -/
structure Kept (t : Talk) : Prop where
  linked : Linked t.sys
  laid : Laid t.sys.usb
  synced : (∀ c ∈ t.completions, c.Single) → Synced t
  agree : (∀ c ∈ t.completions, c.Integral) ↔ ∀ c ∈ t.completions, c.Single

theorem Kept.goesOn {t : Talk} {reply : List (List Byte)} {sys : Sys} (kept : Kept t) (linked : Linked sys)
    (laid : Laid sys.usb) (open' : ¬ t.Completes sys)
    (synced : (∀ c ∈ t.completions, c.Single) → Synced (t.next reply sys)) : Kept (t.next reply sys) := by
  have same : (t.next reply sys).completions = t.completions := if_neg open'
  refine ⟨linked, laid, ?_, ?_⟩
  · rw [same]
    exact synced
  · rw [same]
    exact kept.agree

theorem synced_waited {x : Schedule} {t : Talk} {reply : List (List Byte)} {sys : Sys} (kept : Kept t)
    (synced : Synced t) (quiet : t.sys.main.cmdrsp.state ≠ .rxBusy) (taken : step x t.sys = .ok sys) :
    Synced (t.next reply sys) := by
  obtain ⟨still, begins⟩ := step_waited kept.linked.alternates kept.laid quiet (synced.quiet quiet) taken
  constructor
  · intro quiet'
    have silent : ¬ t.Replies sys := fun replies => quiet' replies.2
    rw [Talk.next, if_neg silent]
    exact still
  · intro busy
    obtain ⟨sending, reception⟩ := begins busy
    have replies : t.Replies sys := ⟨sending, busy⟩
    rw [Talk.next, if_pos replies, if_pos replies]
    exact ⟨t.sent, rfl, reception⟩

theorem talk_kept (x : Answer) (t next : Talk) (kept : Kept t) (taken : talk x t = .ok next) : Kept next := by
  obtain ⟨sys, stepped, rfl, genuine⟩ := talk_ok taken
  have linked := (step_linked x.schedule t.sys sys kept.linked stepped).1
  obtain ⟨inner, state, parts⟩ := step_parts kept.linked.alternates stepped
  have laid := (parts.laid kept.laid).2
  by_cases busy : t.sys.main.cmdrsp.state = .rxBusy
  · have silent : ¬ t.Replies sys := fun replies => absurd (busy.symm.trans replies.1) (by simp)
    have sent : (t.next x.reply sys).sent = t.sent := if_neg silent
    have reply : (t.next x.reply sys).reply = t.reply := if_neg silent
    by_cases single : ∀ c ∈ t.completions, c.Single
    · obtain ⟨d, before, reception⟩ := (kept.synced single).busy busy
      have fetched := step_fetched kept.linked kept.laid busy reception stepped
      cases fetched with
      | goesOn busy' reception' =>
        refine kept.goesOn linked laid (fun completes => ?_) fun _ => ⟨fun quiet => absurd busy' quiet, fun _ => ?_⟩
        · exact absurd (busy'.symm.trans completes.2) (by simp)
        · rw [sent, reply]
          exact ⟨d, before, reception'⟩
      | ended packet idle still stored =>
        have genuine' : d ++ [packet] <+: t.sent := by
          rw [← sent, ← still.delivered]
          exact genuine.1
        obtain ⟨agree, whole⟩ := completion_agrees before genuine' still.delivered stored
        have completions : (t.next x.reply sys).completions = t.completions ++ [t.completion sys] :=
          if_pos ⟨busy, idle⟩
        refine ⟨linked, laid, ?_, ?_⟩
        · rw [completions]
          intro all
          have one : (t.completion sys).Single := all _ (by simp)
          refine ⟨fun _ => ?_, fun busy' => absurd (idle.symm.trans busy') (by simp)⟩
          rw [sent, whole one]
          exact still
        · rw [completions, List.forall_mem_append, List.forall_mem_append, List.forall_mem_singleton,
            List.forall_mem_singleton, kept.agree, agree]
      | empty delivered =>
        have member : [] ∈ t.sent := by
          rw [← sent]
          apply genuine.1.subset
          change [] ∈ sys.usb.pdev.delivered
          rw [delivered]
          simp
        exact absurd member (by rw [← sent]; exact genuine.2)
    · -- From the first response that was not a single packet on, nothing more is claimed.
      obtain ⟨more, completions⟩ : ∃ more, (t.next x.reply sys).completions = t.completions ++ more := by
        by_cases completes : t.Completes sys
        · exact ⟨_, if_pos completes⟩
        · exact ⟨[], (if_neg completes).trans (List.append_nil _).symm⟩
      have rejected : ¬ ∀ c ∈ (t.next x.reply sys).completions, c.Single := by
        rw [completions, List.forall_mem_append]
        exact fun all => single all.1
      refine ⟨linked, laid, fun all => absurd all rejected, ?_⟩
      refine iff_of_false (fun all => single (kept.agree.mp ?_)) rejected
      rw [completions, List.forall_mem_append] at all
      exact all.1
  · have open' : ¬ t.Completes sys := fun completes => busy completes.1
    exact kept.goesOn linked laid open' fun single => synced_waited kept (kept.synced single) busy stepped

/-- In every run, the responses that main() takes as complete are the replies to its commands, with nothing left to be
received, if and only if each reply came in one packet of the length asked for. -/
theorem response_integrity (latches : Gpio) (answers : List Answer) (t : Talk)
    (run : exec talk answers (Talk.powerOn latches) = .ok t) :
    (∀ c ∈ t.completions, c.Integral) ↔ ∀ c ∈ t.completions, c.Single := by
  have initial : Kept (Talk.powerOn latches) := by
    have none : (Talk.powerOn latches).completions = [] := rfl
    exact ⟨powerOn_linked latches, usbhCdcInit_laid, fun _ => ⟨fun _ => ⟨⟨rfl, rfl⟩, rfl⟩, fun busy => by cases busy⟩,
      by simp [none]⟩
  exact (exec_invariant talk_kept initial run).agree

/-- The iterations in which a device is enumerated, replies to the first command with the given packets, and has the
first of them taken -/
def firstReply (packet : List Nat) (others : List (List Nat)) : List Answer :=
  (firstCommand 2 64 ++ [[], transferDone 2, [], lastPacket 3 packet].map fun irqs => calm (turnAfter irqs)).map
    fun schedule => ⟨schedule, (packet :: others).map (List.map (BitVec.ofNat 8))⟩

theorem response_integrity_single : ∃ t,
    exec talk (firstReply (List.range 34) []) (Talk.powerOn fun _ _ => false) = .ok t ∧ t.completions ≠ [] ∧
      ∀ c ∈ t.completions, c.Integral := by
  obtain ⟨t, run, checked⟩ := exists_of_succeedsWith
    (fun t : Talk => t.completions.map (fun c => (c.reply, c.rspLen)) =
      [([(List.range 34).map (BitVec.ofNat 8)], 34)])
    (exec talk (firstReply (List.range 34) []) (Talk.powerOn fun _ _ => false)) (by decide +kernel)
  have completions := of_decide_eq_true checked
  refine ⟨t, run, fun none => ?_, (response_integrity _ _ t run).mpr fun c member => ?_⟩
  · simp [none] at completions
  · have found := List.mem_map_of_mem (f := fun c : Completion => (c.reply, c.rspLen)) member
    rw [completions, List.mem_singleton] at found
    obtain ⟨reply, rspLen⟩ := Prod.mk.inj found
    exact ⟨_, reply, by rw [rspLen]; simp⟩

/-- A reply of 34 bytes in packets of 10 and 24 is taken as complete after the first 10 bytes. -/
theorem split_reply : ∃ t,
    exec talk (firstReply (List.range 10) [(List.range 34).drop 10]) (Talk.powerOn fun _ _ => false) = .ok t ∧
      ∃ c ∈ t.completions, c.rspLen = c.reply.flatten.length ∧ ¬ c.Integral := by
  obtain ⟨t, run, checked⟩ := exists_of_succeedsWith
    (fun t : Talk => t.completions.map (fun c => (c.rspLen, c.reply.flatten.length, c.pending.length)) = [(34, 34, 1)])
    (exec talk (firstReply (List.range 10) [(List.range 34).drop 10]) (Talk.powerOn fun _ _ => false))
    (by decide +kernel)
  have completions := of_decide_eq_true checked
  have member : (34, 34, 1) ∈ t.completions.map fun c => (c.rspLen, c.reply.flatten.length, c.pending.length) := by
    rw [completions]
    exact List.mem_singleton_self _
  obtain ⟨c, listed, same⟩ := List.mem_map.mp member
  obtain ⟨rspLen, rest⟩ := Prod.mk.inj same
  obtain ⟨length, pending⟩ := Prod.mk.inj rest
  refine ⟨t, run, c, listed, rspLen.trans length.symm, fun integral => ?_⟩
  rw [integral.2] at pending
  cases pending

end Testjig.System
