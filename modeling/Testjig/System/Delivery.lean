import Testjig.Machine.StopAndWait
import Testjig.System.Exchange
import Testjig.Usb.Transmission

namespace Testjig.System

open Machine Machine.StopAndWait Testjig.Sequence Testjig.Usb Testjig.Board

/-- What main() transmits from the given place on -/
def contents (m : Main) (data : Ptr) (length : Nat) : List Byte :=
  match data.object with
  | .tx buf => ((m.txBytes buf).drop data.offset).take length
  | _ => []

def handed (commands : List (List Byte)) (m : Main) : List (List Byte) :=
  match m.call with
  | some (.transmit buf _) => commands ++ [m.txBytes buf]
  | _ => commands

/-- The firmware and the bulk OUT endpoint of the device, whether the packet in the pipe has reached the endpoint, and
the commands that main() has handed over, oldest first -/
structure Post where
  sys : Sys
  endpoint : Receiver (List Byte)
  heard : Bool
  commands : List (List Byte)

/-- An iteration. The packet in the pipe may reach the endpoint before it and after it, any number of times. -/
structure Posting where
  schedule : Schedule
  before : Bool
  after : Bool

namespace Post

def outChannel (t : Post) : HostChannel := t.sys.usb.pdev.hc t.sys.usb.cdc.outPipe

/-- The packet in the pipe, read from `xfer_buff`: `USB_OTG_WritePacket()` copies whole words of it into the FIFO, of
which the core sends `xfer_len` bytes. -/
def packet (t : Post) : Packet (List Byte) where
  bit := t.outChannel.dataPid = .data1
  data := contents t.sys.main t.outChannel.xferBuff t.outChannel.xferLen

def Waits (t : Post) : Prop := t.sys.usb.cdc.dataTxState = .sendDataWait

/-- The controller has taken the last packet in the pipe for acknowledged. -/
def Acknowledged (t : Post) : Prop :=
  t.sys.usb.cdc.outPipe ≠ 0 ∧ t.outChannel.dataPid ≠ Hcd.togglePid t.outChannel.toggleOut

instance (t : Post) : Decidable t.Waits := inferInstanceAs (Decidable (_ = _))

instance (t : Post) : Decidable t.Acknowledged := inferInstanceAs (Decidable (_ ∧ _))

def hear (reaches : Bool) (t : Post) : Post :=
  if reaches ∧ t.Waits then { t with endpoint := t.endpoint.see t.packet, heard := true } else t

def Submits (t : Post) (sys : Sys) : Prop :=
  t.sys.usb.cdc.dataTxState = .sendData ∧ sys.usb.cdc.dataTxState = .sendDataWait

instance (t : Post) (sys : Sys) : Decidable (t.Submits sys) := inferInstanceAs (Decidable (_ ∧ _))

def next (t : Post) (sys : Sys) : Post where
  sys
  endpoint := t.endpoint
  heard := if t.Submits sys then false else t.heard
  commands := handed t.commands sys.main

def powerOn (latches : Gpio) : Post where
  sys := System.powerOn latches
  endpoint := ⟨false, []⟩
  heard := false
  commands := []

end Post

/-- An iteration beside a device. Only a packet that has reached the endpoint is acknowledged. -/
def post (x : Posting) (t : Post) : Except Ended Post :=
  match step x.schedule t.sys with
  | .error halt => .error (.halted halt)
  | .ok sys =>
    let t := ((t.hear x.before).next sys).hear x.after
    if t.Acknowledged ∧ ¬ t.heard then .error .forged else .ok t

/-- A transmission of main()'s last command, all of which but the last `tx.length` bytes is in the packets that have
been acknowledged -/
def Handing (m : Main) (commands : List (List Byte)) (tx : Transmission) (done : List (List Byte)) : Prop :=
  ∃ buf earlier, tx.data.object = .tx buf ∧ tx.data.offset + tx.length = (m.txBytes buf).length ∧
    commands = earlier ++ [m.txBytes buf] ∧ done.flatten = earlier.flatten ++ (m.txBytes buf).take tx.data.offset

inductive Delivering (t : Post) : Prop where
  | whole (quiet : ¬ Sending t.sys.usb) (idle : OutIdle t.endpoint.expects t.sys.usb.pdev)
    (same : t.endpoint.taken.flatten = t.commands.flatten)
  | asked (toggle : Bool) (done : List (List Byte)) (asked : t.sys.usb.cdc.dataTxState = .sendData)
    (idle : OutIdle toggle t.sys.usb.pdev) (handing : Handing t.sys.main t.commands t.sys.usb.cdc.transmission done)
    (sent : Sent done ⟨toggle, contents t.sys.main t.sys.usb.cdc.pTxData t.sys.usb.cdc.transmission.chunk⟩ t.endpoint)
  | waits (toggle : Bool) (done : List (List Byte)) (waits : t.Waits)
    (loaded : OutLoaded toggle t.sys.usb.cdc.pTxData t.sys.usb.cdc.transmission.chunk t.sys.usb.pdev)
    (handing : Handing t.sys.main t.commands t.sys.usb.cdc.transmission done)
    (sent : Sent done ⟨toggle, contents t.sys.main t.sys.usb.cdc.pTxData t.sys.usb.cdc.transmission.chunk⟩ t.endpoint)
    (heard : t.heard = true → Level
      (done ++ [contents t.sys.main t.sys.usb.cdc.pTxData t.sys.usb.cdc.transmission.chunk]) (!toggle) t.endpoint)

def Sized (m : Main) : Prop := m.tcmd.bytes.length = 32

structure Posted (t : Post) : Prop where
  linked : Linked t.sys
  laid : Laid t.sys.usb
  sized : Sized t.sys.main
  fresh : t.sys.main.state = 0 → OutFresh t.sys.usb.pdev ∧ t.commands = [] ∧ t.endpoint = ⟨false, []⟩
  delivering : 0 < t.sys.main.state → t.sys.usb.cdc.outPipe = 2 →
    Delivering t ∧ ∀ packet ∈ t.endpoint.taken, packet.length ≤ t.sys.usb.cdc.outEpSize

theorem Handing.chunk {m : Main} {buf : TxBuf} {earlier done : List (List Byte)} {tx : Transmission}
    (object : tx.data.object = .tx buf)
    (before : done.flatten = earlier.flatten ++ (m.txBytes buf).take tx.data.offset) :
    (done ++ [contents m tx.data tx.chunk]).flatten =
      earlier.flatten ++ (m.txBytes buf).take (tx.data.offset + tx.chunk) := by
  rw [List.flatten_append, List.flatten_singleton, before, contents, object, List.append_assoc, List.take_add]

theorem Handing.acknowledged {m : Main} {commands done : List (List Byte)} {tx : Transmission}
    (handing : Handing m commands tx done) :
    (tx.epSize < tx.length ∧
      Handing m commands tx.acknowledged (done ++ [contents m tx.data tx.chunk])) ∨
    (¬ tx.epSize < tx.length ∧ (done ++ [contents m tx.data tx.chunk]).flatten = commands.flatten) := by
  obtain ⟨buf, earlier, object, length, rfl, before⟩ := handing
  have chunk := Handing.chunk object before
  by_cases more : tx.epSize < tx.length
  · refine .inl ⟨more, buf, earlier, ?_⟩
    rw [Transmission.acknowledged, if_pos more, chunk, Transmission.chunk, Nat.min_eq_left (Nat.le_of_lt more)]
    refine ⟨object, ?_, rfl, rfl⟩
    dsimp only [Ptr.add]
    omega
  · refine .inr ⟨more, ?_⟩
    rw [chunk, Transmission.chunk, Nat.min_eq_right (Nat.le_of_not_lt more), length, List.take_length,
      List.flatten_append, List.flatten_singleton]

theorem contents_length (m : Main) (data : Ptr) (length : Nat) : (contents m data length).length ≤ length := by
  unfold contents
  split
  · exact List.length_take_le _ _
  · exact Nat.zero_le length

theorem loaded_packet {t : Post} {toggle : Bool} {data : Ptr} {length : Nat} (pipe : t.sys.usb.cdc.outPipe = 2)
    (loaded : OutLoaded toggle data length t.sys.usb.pdev) : t.packet = ⟨toggle, contents t.sys.main data length⟩ := by
  have bit : decide (Hcd.togglePid toggle = .data1) = toggle := by cases toggle <;> rfl
  rw [Post.packet, Post.outChannel, pipe, loaded.xferBuff, loaded.xferLen, loaded.dataPid, bit]

theorem hear_same (t : Post) (reaches : Bool) :
    (t.hear reaches).sys = t.sys ∧ (t.hear reaches).commands = t.commands := by
  unfold Post.hear
  split <;> exact ⟨rfl, rfl⟩

theorem hear_silent {t : Post} (reaches : Bool) (nothing : ¬ t.Waits) : t.hear reaches = t :=
  if_neg fun both => nothing both.2

theorem hear_delivering {t : Post} (reaches : Bool) (pipe : t.sys.usb.cdc.outPipe = 2)
    (delivering : Delivering t ∧ ∀ packet ∈ t.endpoint.taken, packet.length ≤ t.sys.usb.cdc.outEpSize) :
    Delivering (t.hear reaches) ∧
      ∀ packet ∈ (t.hear reaches).endpoint.taken, packet.length ≤ (t.hear reaches).sys.usb.cdc.outEpSize := by
  obtain ⟨delivering, fits⟩ := delivering
  by_cases hears : reaches ∧ t.Waits
  · cases delivering with
    | whole quiet => exact absurd (.inr hears.2) quiet
    | asked _ _ asked => exact absurd (asked.symm.trans hears.2) (by simp)
    | waits toggle done waits loaded handing sent heard =>
      have packet := loaded_packet pipe loaded
      have level := sent.see
      have heard' : t.hear reaches = { t with endpoint := t.endpoint.see t.packet, heard := true } := if_pos hears
      rw [heard', packet]
      refine ⟨.waits toggle done waits loaded handing (.inr level) fun _ => level, ?_⟩
      intro taken member
      have seen : taken ∈ t.endpoint.taken ∨
          taken = contents t.sys.main t.sys.usb.cdc.pTxData t.sys.usb.cdc.transmission.chunk := by
        simp only [Receiver.see] at member
        split at member
        · simpa using member
        · exact .inl member
      rcases seen with old | new
      · exact fits taken old
      · rw [new]
        exact Nat.le_trans (contents_length _ _ _) (Nat.min_le_left _ _)
  · have same : t.hear reaches = t := if_neg hears
    rw [same]
    exact ⟨delivering, fits⟩

theorem Posted.waits {t : Post} (posted : Posted t) (waits : t.Waits) : 0 < t.sys.main.state := by
  apply posted.linked.begun
  intro idle
  have phase := posted.linked.alternates.phase
  rw [idle] at phase
  exact phase.1 (.inr waits)

theorem Posted.hear {t : Post} (posted : Posted t) (reaches : Bool) : Posted (t.hear reaches) := by
  obtain ⟨sys, commands⟩ := hear_same t reaches
  refine ⟨?_, ?_, ?_, ?_, ?_⟩
  · rw [sys]; exact posted.linked
  · rw [sys]; exact posted.laid
  · rw [sys]; exact posted.sized
  · rw [sys, commands]
    intro initial
    have silent : ¬ t.Waits := fun waits => absurd initial (Nat.ne_of_gt (posted.waits waits))
    rw [hear_silent reaches silent]
    exact posted.fresh initial
  · intro started pipe
    rw [sys] at started pipe
    exact hear_delivering reaches pipe (posted.delivering started pipe)

theorem handed_same {m : Main} {commands : List (List Byte)} (call : ∀ buf len, m.call ≠ some (.transmit buf len)) :
    handed commands m = commands := by
  unfold handed
  split
  · rename_i buf len called
    exact absurd called (call buf len)
  · rfl

/-- With nothing under way, the next command begins where the last one has ended. -/
theorem served_quiet {m main : Main} {poll : Poll} {usb : Usbh} (commands : List (List Byte))
    {endpoint : Receiver (List Byte)} (heard : Bool) (served : Served m poll main) (uncalled : m.call = none)
    (ready : Ready usb) (quiet : ¬ Sending usb) (idle : OutIdle endpoint.expects usb.pdev)
    (whole : endpoint.taken.flatten = commands.flatten) :
    Delivering ⟨⟨main, usb.serve main.call⟩, endpoint, heard, handed commands main⟩ := by
  have silent (call : main.call = none) :
      Delivering ⟨⟨main, usb.serve main.call⟩, endpoint, heard, handed commands main⟩ := by
    rw [handed_same (by simp [call]), call]
    exact .whole quiet idle whole
  cases served with
  | unconnected => exact silent uncalled
  | txWait => exact silent uncalled
  | rxWait => exact silent uncalled
  | received => exact silent uncalled
  | transmitted =>
    rw [handed_same (by simp)]
    refine .whole ?_ ?_ whole
    · simp only [Usbh.serve, Usbh.cdcCall, Usbh.receive]
      split <;> exact quiet
    · simp only [Usbh.serve, Usbh.cdcCall, Usbh.receive]
      split <;> exact idle
  | test _ _ _ ran =>
    cases runState_issued ran with
    | quiet _ call => exact silent (call.trans uncalled)
    | command buf _ call =>
      have accepted : usb.cdc.state = .idleState ∨ usb.cdc.state = .transferData := ready
      have begun : usb.serve main.call = { usb with cdc := { usb.cdc with
          pTxData := ⟨.tx buf, 0⟩, txDataLength := (main.txBytes buf).length, state := .transferData
          dataTxState := .sendData } } := by
        rw [call]
        simp only [Usbh.serve, Usbh.cdcCall, Usbh.transmit, if_pos accepted]
      have more : handed commands main = commands ++ [main.txBytes buf] := by rw [handed, call]
      rw [begun, more]
      refine .asked endpoint.expects endpoint.taken rfl idle ⟨buf, commands, rfl, ?_, rfl, ?_⟩ (.inl ⟨rfl, rfl⟩)
      · exact Nat.zero_add _
      · rw [whole]
        exact (List.append_nil _).symm

theorem nextPin_sized {m next : Main} {pins : List Nat} {state : Nat} {assert : Main → Nat → Main} (sized : Sized m)
    (asserts : ∀ m pin, Sized m → Sized (assert m pin)) (taken : m.nextPin pins state assert = .ok next) :
    Sized next := by
  simp only [Main.nextPin] at taken
  split at taken
  · split at taken
    · cases taken
      exact sized
    · split at taken
      · cases taken
      · cases taken
        exact asserts _ _ sized
  · split at taken
    · cases taken
    · cases taken
      exact asserts _ _ sized

theorem setPin_length (pin : Option Nat) : (Cmd.setPin pin).bytes.length = 32 := by
  cases pin <;> simp [Cmd.setPin, Cmd.bytes]

theorem cmdSetPin_sized (m : Main) (now : Time.TimeT) (pin : Option Nat) : Sized (m.cmdSetPin now pin) :=
  setPin_length pin

theorem drive_sized {m : Main} (sized : Sized m) (mask : BitVec 64) : Sized (m.drive mask) := sized

theorem runState_sized {m next : Main} {poll : Poll} (sized : Sized m) (ran : m.runState poll = .ok next) :
    Sized next := by
  unfold Main.runState at ran
  split at ran
  case h_1 => cases ran; exact sized
  case h_2 => obtain ⟨_, _, rfl⟩ := checkInfo_ok ran; exact sized
  case h_3 => cases ran; exact sized
  case h_4 => exact nextPin_sized sized (fun m pin _ => cmdSetPin_sized m poll.now (some pin)) ran
  case h_5 => obtain ⟨_, _, _, rfl⟩ := checkPin_ok ran; exact sized
  case h_7 => obtain ⟨_, rfl⟩ := (checkPins_ok _ _ _ _).mp ran; exact sized
  case h_8 => exact nextPin_sized sized (fun _ pin sized => drive_sized sized (onlyLow pin)) ran
  case h_10 => obtain ⟨_, _, _, rfl⟩ := checkPin_ok ran; exact sized
  case h_12 => obtain ⟨_, rfl⟩ := (checkPinsLow_ok _ _ _).mp ran; exact sized
  case h_14 => obtain ⟨_, rfl⟩ := checkOptions_ok ran; exact sized
  case h_16 => obtain ⟨_, rfl⟩ := checkHeaders_ok ran; exact sized
  case h_18 =>
    split at ran
    · cases ran
    · rename_i middle tested
      obtain ⟨_, rfl⟩ := testWdatOsc_ok tested
      cases ran
      rfl
  case h_19 =>
    rcases checkCc_ok ran with ⟨_, _, _, rfl⟩ | ⟨_, rfl⟩
    · exact sized
    · exact sized
  case h_23 => cases ran; exact sized
  case h_6 | h_9 | h_20 => cases ran; exact setPin_length none
  all_goals (cases ran; rfl)

theorem served_sized {m next : Main} {poll : Poll} (sized : Sized m) (served : Served m poll next) : Sized next := by
  cases served with
  | test _ _ _ ran =>
    have advanced : Sized m.advance := sized
    exact runState_sized advanced ran
  | _ => exact sized

theorem Alternates.sending {s : Sys} (alternates : Alternates s) :
    Sending s.usb ↔ s.main.cmdrsp.state = .txBusy := by
  have phase := alternates.phase
  have settled := alternates.settled
  cases state : s.main.cmdrsp.state
  all_goals simp_all [InPhase, Passing]

/-- While a command is being sent, main() only waits. -/
theorem Parts.waiting {x : Schedule} {s next : Sys} {inner : Usbh} {state : CmdRspState}
    (parts : Parts x s next inner state) (sending : Sending (inner.irq x.turn.env .exit)) :
    next.usb = inner.irq x.turn.env .exit ∧ next.main.call = none ∧
      ∀ buf, next.main.txBytes buf = s.main.txBytes buf := by
  have busy : state = .txBusy := by
    have phase := parts.phase
    cases state with
    | txBusy => rfl
    | rxBusy => exact absurd sending phase.1
    | idle => exact absurd sending phase.1
    | txDone => exact absurd sending phase.1
    | rxDone => exact absurd sending phase.1
  subst busy
  have usb := parts.usb
  have served := parts.served
  generalize next.main = main at served usb
  cases served with
  | txWait => exact ⟨usb, rfl, fun buf => by cases buf <;> rfl⟩
  | unconnected _ _ idle => cases idle
  | rxWait _ busy => cases busy
  | transmitted _ done => cases done
  | received _ done => cases done
  | test _ _ idle => cases idle

theorem Delivering.underway {t : Post} (delivering : Delivering t) (sending : Sending t.sys.usb) :
    ∃ toggle done, Underway toggle t.sys.usb ∧ Handing t.sys.main t.commands t.sys.usb.cdc.transmission done ∧
      Sent done ⟨toggle, contents t.sys.main t.sys.usb.cdc.pTxData t.sys.usb.cdc.transmission.chunk⟩ t.endpoint ∧
      (t.Waits → t.heard = true → Level
        (done ++ [contents t.sys.main t.sys.usb.cdc.pTxData t.sys.usb.cdc.transmission.chunk]) (!toggle) t.endpoint) := by
  cases delivering with
  | whole quiet => exact absurd sending quiet
  | asked toggle done asked idle handing sent =>
    exact ⟨toggle, done, .asked asked idle, handing, sent, fun waits => absurd (asked.symm.trans waits) (by simp)⟩
  | waits toggle done waits loaded handing sent heard =>
    exact ⟨toggle, done, .waits waits loaded, handing, sent, fun _ => heard⟩

theorem Handing.short {m : Main} {commands done : List (List Byte)} {tx : Transmission} (sized : Sized m)
    (handing : Handing m commands tx done) : tx.length < 2 ^ 16 := by
  obtain ⟨buf, _, _, length, _⟩ := handing
  have small : (m.txBytes buf).length ≤ 32 := by
    cases buf with
    | info => exact Nat.le_of_ble_eq_true rfl
    | testmode => exact Nat.le_of_ble_eq_true rfl
    | tcmd => exact Nat.le_of_eq sized
  omega

theorem contents_same {m m' : Main} (same : ∀ buf, m'.txBytes buf = m.txBytes buf) (data : Ptr) (length : Nat) :
    contents m' data length = contents m data length := by
  unfold contents
  split
  · rw [same]
  · rfl

theorem Handing.same {m m' : Main} {commands done : List (List Byte)} {tx tx' : Transmission}
    (handing : Handing m commands tx done) (same : ∀ buf, m'.txBytes buf = m.txBytes buf) (data : tx'.data = tx.data)
    (length : tx'.length = tx.length) : Handing m' commands tx' done := by
  obtain ⟨buf, earlier, object, total, commands, before⟩ := handing
  refine ⟨buf, earlier, ?_, ?_, ?_, ?_⟩
  · rw [data]; exact object
  · rw [data, length, same]; exact total
  · rw [same]; exact commands
  · rw [data, same]; exact before

/-- An iteration in which main() is connected -/
theorem Parts.machine {x : Schedule} {s next : Sys} {inner : Usbh} {state : CmdRspState} (linked : Linked s)
    (parts : Parts x s next inner state) (was : 0 < s.main.state) :
    inner = (((Usbh.portEvents { s.usb with actions := [] } x.turn.env).irq x.turn.env .state).handle x.turn.env).1 ∧
      ((Usbh.portEvents { s.usb with actions := [] } x.turn.env).irq x.turn.env .state).phost.gState = .hostClass := by
  have on : (x.input.poll (inner.irq x.turn.env .exit)).connected = true := by
    rcases served_started parts.served fun busy => linked.begun (mt parts.advanced.idle.mp busy) with
      ⟨initial, _, _⟩ | ⟨_, on⟩
    · exact absurd initial (Nat.ne_of_gt was)
    · exact on
  obtain ⟨_, machine⟩ := process_flagged { s.usb with actions := [] } linked.flagged parts.ran
  obtain ⟨same, _, active⟩ := machine (linked.on was) (Bool.and_eq_true_iff.mp on).1
  exact ⟨same, active⟩

theorem serve_pipe (usb : Usbh) (call : Option CdcCall) :
    (usb.serve call).cdc.outPipe = usb.cdc.outPipe ∧ (usb.serve call).cdc.outEpSize = usb.cdc.outEpSize ∧
    ((usb.serve call).cdc.dataTxState = usb.cdc.dataTxState ∨ (usb.serve call).cdc.dataTxState = .sendData) := by
  rcases call with _ | ⟨buf, len⟩ | len
  · exact ⟨rfl, rfl, .inl rfl⟩
  · simp only [Usbh.serve, Usbh.cdcCall, Usbh.transmit]
    split
    · exact ⟨rfl, rfl, .inr rfl⟩
    · exact ⟨rfl, rfl, .inl rfl⟩
  · simp only [Usbh.serve, Usbh.cdcCall, Usbh.receive]
    split <;> exact ⟨rfl, rfl, .inl rfl⟩

theorem togglePid_ne (toggle : Bool) : Hcd.togglePid toggle ≠ Hcd.togglePid (!toggle) := by
  cases toggle <;> simp [Hcd.togglePid]

theorem acknowledged_state (tx : Transmission) : tx.acknowledged.state ≠ .sendDataWait := by
  unfold Transmission.acknowledged
  split <;> simp

theorem acknowledged_pipe (tx : Transmission) : tx.acknowledged.pipe = tx.pipe := by
  unfold Transmission.acknowledged
  split <;> rfl

variable {x : Schedule} {t : Post} {sys : Sys} {inner : Usbh} {state : CmdRspState}

/-- The controller acknowledges only what the endpoint has had. -/
theorem acknowledged_heard {toggle : Bool} {tx : Transmission} (parts : Parts x t.sys sys inner state)
    (pipe : tx.pipe = 2) (moved : (inner.irq x.turn.env .exit).cdc.transmission = tx.acknowledged)
    (taken : OutAcknowledged toggle (inner.irq x.turn.env .exit).pdev)
    (genuine : (t.next sys).Acknowledged → ¬ (t.next sys).Waits → (t.next sys).heard = true) :
    t.heard = true := by
  have pipe' : (inner.irq x.turn.env .exit).cdc.outPipe = 2 :=
    (congrArg Transmission.pipe moved).trans ((acknowledged_pipe tx).trans pipe)
  have dataTxState : (inner.irq x.turn.env .exit).cdc.dataTxState ≠ .sendDataWait := by
    rw [show (inner.irq x.turn.env .exit).cdc.dataTxState = tx.acknowledged.state from congrArg Transmission.state moved]
    exact acknowledged_state tx
  obtain ⟨outPipe, _, state⟩ := serve_pipe (inner.irq x.turn.env .exit) sys.main.call
  have stack := (serve_same (inner.irq x.turn.env .exit) sys.main.call).1
  rw [← parts.usb] at outPipe state stack
  have waits : sys.usb.cdc.dataTxState ≠ .sendDataWait := by
    rcases state with same | begun
    · rw [same]
      exact dataTxState
    · rw [begun]
      simp
  have heard : (t.next sys).heard = true := by
    refine genuine ⟨?_, ?_⟩ waits
    · rw [show (t.next sys).sys.usb.cdc.outPipe = 2 from outPipe.trans pipe']
      simp
    · have channel : (t.next sys).outChannel = (inner.irq x.turn.env .exit).pdev.hc 2 := by
        rw [Post.outChannel, show (t.next sys).sys.usb.cdc.outPipe = 2 from outPipe.trans pipe']
        exact congrArg (fun stack : Stack => stack.pdev.hc 2) stack
      rw [channel, taken.dataPid, taken.idle.toggleOut]
      exact togglePid_ne toggle
  have kept : (t.next sys).heard = t.heard := if_neg fun submits => waits submits.2
  rw [← kept]
  exact heard

/-- What is in the way of a packet stays in its way while the class driver and main() go on. -/
theorem sending_delivering (posted : Posted t) (parts : Parts x t.sys sys inner state) (sending : Sending t.sys.usb)
    (pipe : t.sys.usb.cdc.outPipe = 2) (delivering : Delivering t)
    (genuine : (t.next sys).Acknowledged → ¬ (t.next sys).Waits → (t.next sys).heard = true) :
    Delivering (t.next sys) := by
  have was : 0 < t.sys.main.state :=
    posted.linked.begun (by rw [posted.linked.alternates.sending.mp sending]; simp)
  obtain ⟨toggle, done, underway, handing, sent, heard⟩ := delivering.underway sending
  obtain ⟨same, active⟩ := parts.machine posted.linked was
  have laid := posted.laid.fresh
  have fresh : Underway toggle { t.sys.usb with actions := [] } := underway.keep rfl fun _ kept => kept
  have sendable := laid.sendable (posted.linked.flagged (posted.linked.on was)) pipe (handing.short posted.sized)
  have reached := irq_underway (portEvents_laid laid x.turn) (portEvents_underway laid fresh x.turn) x.turn .state
  have transmission : ((Usbh.portEvents { t.sys.usb with actions := [] } x.turn.env).irq x.turn.env .state).cdc.transmission =
      t.sys.usb.cdc.transmission := portEvents_transmission _ x.turn.env
  have handled := handle_transmits (irq_laid (portEvents_laid laid x.turn) x.turn .state) active
    (irq_sendable (portEvents_sendable sendable x.turn) x.turn .state) reached x.turn
  rw [← same, transmission] at handled
  have transmitted : Transmitted toggle t.sys.usb.cdc.transmission (inner.irq x.turn.env .exit) :=
    handled.keep rfl fun invariant kept => invariant.irq (parts.laid posted.laid).1 kept x.turn .exit
  cases transmitted with
  | unsent moved idle =>
    obtain ⟨usb, call, bytes⟩ := parts.waiting (.inl (congrArg Transmission.state moved))
    have commands : handed t.commands sys.main = t.commands := handed_same (by simp [call])
    have data : sys.usb.cdc.pTxData = t.sys.usb.cdc.pTxData := by
      rw [usb]
      exact congrArg Transmission.data moved
    have chunk : sys.usb.cdc.transmission.chunk = t.sys.usb.cdc.transmission.chunk := by
      rw [usb, moved]
      rfl
    refine .asked toggle done ?_ ?_ ?_ ?_
    · rw [← usb] at moved
      exact congrArg Transmission.state moved
    · rw [← usb] at idle
      exact idle
    · simp only [Post.next, commands]
      refine handing.same bytes ?_ ?_ <;> rw [usb, moved]
    · simp only [Post.next, data, chunk, contents_same bytes]
      exact sent
  | waits moved loaded =>
    obtain ⟨usb, call, bytes⟩ := parts.waiting (.inr (congrArg Transmission.state moved))
    have commands : handed t.commands sys.main = t.commands := handed_same (by simp [call])
    have data : sys.usb.cdc.pTxData = t.sys.usb.cdc.pTxData := by
      rw [usb]
      exact congrArg Transmission.data moved
    have chunk : sys.usb.cdc.transmission.chunk = t.sys.usb.cdc.transmission.chunk := by
      rw [usb, moved]
      rfl
    have waits : sys.usb.cdc.dataTxState = .sendDataWait := by
      rw [usb]
      exact congrArg Transmission.state moved
    refine .waits toggle done waits ?_ ?_ ?_ ?_
    · simp only [Post.next, data, chunk]
      rw [usb]
      exact loaded
    · simp only [Post.next, commands]
      refine handing.same bytes ?_ ?_ <;> rw [usb, moved]
    · simp only [Post.next, data, chunk, contents_same bytes]
      exact sent
    · simp only [Post.next, data, chunk, contents_same bytes]
      intro hears
      split at hears
      · cases hears
      · rename_i submits
        refine heard ?_ hears
        rcases sending with asked | waited
        · exact absurd ⟨asked, waits⟩ submits
        · exact waited
  | acknowledged waited moved taken =>
    have level := heard waited (acknowledged_heard parts pipe moved taken genuine)
    rcases handing.acknowledged with ⟨more, next⟩ | ⟨last, whole⟩
    · have advanced : t.sys.usb.cdc.transmission.acknowledged.state = .sendData := by
        rw [Transmission.acknowledged, if_pos more]
      obtain ⟨usb, call, bytes⟩ := parts.waiting (.inl ((congrArg Transmission.state moved).trans advanced))
      have commands : handed t.commands sys.main = t.commands := handed_same (by simp [call])
      have moved' : sys.usb.cdc.transmission = t.sys.usb.cdc.transmission.acknowledged := by rw [usb]; exact moved
      refine .asked (!toggle) (done ++ [contents t.sys.main t.sys.usb.cdc.pTxData t.sys.usb.cdc.transmission.chunk])
        ((congrArg Transmission.state moved').trans advanced) ?_ ?_ level.sent
      · simp only [Post.next, usb]
        exact taken.idle
      · simp only [Post.next, commands, moved']
        exact next.same bytes rfl rfl
    · have ended : t.sys.usb.cdc.transmission.acknowledged.state = .idle := by
        rw [Transmission.acknowledged, if_neg last]
      have idle : (inner.irq x.turn.env .exit).cdc.dataTxState = .idle :=
        (congrArg Transmission.state moved).trans ended
      have quiet : ¬ Sending (inner.irq x.turn.env .exit) := by
        rw [Sending, idle]
        simp
      have delivered := served_quiet t.commands (t.next sys).heard parts.served rfl parts.ready quiet
        (by rw [level.expects]; exact taken.idle) (by rw [level.taken]; exact whole)
      rw [← parts.usb] at delivered
      exact delivered

theorem quiet_delivering (posted : Posted t) (parts : Parts x t.sys sys inner state) (quiet : ¬ Sending t.sys.usb)
    (was : 0 < t.sys.main.state) (delivering : Delivering t) : Delivering (t.next sys) := by
  obtain ⟨same, active⟩ := parts.machine posted.linked was
  have laid := posted.laid.fresh
  have cdc : ((Usbh.portEvents { t.sys.usb with actions := [] } x.turn.env).irq x.turn.env .state).cdc = t.sys.usb.cdc :=
    (portEvents_same _ x.turn.env).1
  obtain ⟨idle, whole⟩ : OutIdle t.endpoint.expects t.sys.usb.pdev ∧
      t.endpoint.taken.flatten = t.commands.flatten := by
    cases delivering with
    | whole _ idle same => exact ⟨idle, same⟩
    | asked _ _ asked => exact absurd (.inl asked) quiet
    | waits _ _ waits => exact absurd (.inr waits) quiet
  obtain ⟨unsent, done⟩ := not_or.mp quiet
  rw [← cdc] at unsent done
  have reached := irq_laid (portEvents_laid laid x.turn) x.turn .state
  have before : OutIdle t.endpoint.expects
      ((Usbh.portEvents { t.sys.usb with actions := [] } x.turn.env).irq x.turn.env .state).pdev :=
    (idle_invariant _).irq (portEvents_laid laid x.turn) ((idle_invariant _).portEvents laid idle x.turn) x.turn .state
  obtain ⟨transmission, kept⟩ := handle_quiet reached active unsent done x.turn
  rw [← same] at transmission kept
  have after := (idle_invariant _).irq (parts.laid posted.laid).1 (kept (idle_invariant _) before) x.turn .exit
  have still : ¬ Sending (inner.irq x.turn.env .exit) := by
    have state : (inner.irq x.turn.env .exit).cdc.dataTxState = t.sys.usb.cdc.dataTxState := by
      rw [← cdc]
      exact congrArg Transmission.state transmission
    rw [Sending, state]
    exact quiet
  have delivered := served_quiet t.commands (t.next sys).heard parts.served rfl parts.ready still after whole
  rw [← parts.usb] at delivered
  exact delivered

/-- The first command that main() sends -/
theorem first_delivering (posted : Posted t) (parts : Parts x t.sys sys inner state) (initial : t.sys.main.state = 0) :
    Delivering (t.next sys) ∧ OutFresh sys.usb.pdev := by
  obtain ⟨fresh, commands, endpoint⟩ := posted.fresh initial
  have idle : t.sys.main.cmdrsp.state = .idle := by
    by_contra busy
    exact absurd initial (Nat.ne_of_gt (posted.linked.begun busy))
  have quiet : ¬ Sending t.sys.usb := by
    rw [posted.linked.alternates.sending, idle]
    simp
  obtain ⟨unsent, done⟩ := not_or.mp quiet
  have processed := process_fresh posted.laid.fresh fresh unsent done parts.ran
  have after := fresh_invariant.irq (parts.laid posted.laid).1 processed x.turn .exit
  have still : ¬ Sending (inner.irq x.turn.env .exit) := by
    have phase := parts.phase
    have same : state = .idle := parts.advanced.idle.mp idle
    rw [same] at phase
    exact phase.1
  have stack := (serve_same (inner.irq x.turn.env .exit) sys.main.call).1
  rw [← parts.usb] at stack
  have channel : sys.usb.pdev.hc 2 = (inner.irq x.turn.env .exit).pdev.hc 2 :=
    congrArg (fun stack : Stack => stack.pdev.hc 2) stack
  have expects : OutIdle t.endpoint.expects (inner.irq x.turn.env .exit).pdev := by
    rw [endpoint]
    exact after.idle
  have whole : t.endpoint.taken.flatten = t.commands.flatten := by
    rw [endpoint, commands]
  have delivered := served_quiet t.commands (t.next sys).heard parts.served rfl parts.ready still expects whole
  rw [← parts.usb] at delivered
  exact ⟨delivered, after.of_hc channel⟩

theorem step_pipe (posted : Posted t) (parts : Parts x t.sys sys inner state) (was : 0 < t.sys.main.state) :
    sys.usb.cdc.outPipe = t.sys.usb.cdc.outPipe ∧ sys.usb.cdc.outEpSize = t.sys.usb.cdc.outEpSize := by
  obtain ⟨same, _⟩ := parts.machine posted.linked was
  obtain ⟨outPipe, outEpSize, _⟩ := serve_pipe (inner.irq x.turn.env .exit) sys.main.call
  have entry : ((Usbh.portEvents { t.sys.usb with actions := [] } x.turn.env).irq x.turn.env .state).cdc = t.sys.usb.cdc :=
    (portEvents_same _ x.turn.env).1
  have handled := handle_pipe ((Usbh.portEvents { t.sys.usb with actions := [] } x.turn.env).irq x.turn.env .state)
    x.turn.env
  rw [← same, entry] at handled
  rw [← parts.usb] at outPipe outEpSize
  exact ⟨outPipe.trans handled.1, outEpSize.trans handled.2⟩

theorem next_posted (posted : Posted t) (stepped : step x t.sys = .ok sys)
    (genuine : (t.next sys).Acknowledged → ¬ (t.next sys).Waits → (t.next sys).heard = true) : Posted (t.next sys) := by
  obtain ⟨linked, _⟩ := step_linked x t.sys sys posted.linked stepped
  obtain ⟨inner, state, parts⟩ := step_parts posted.linked.alternates stepped
  have sized : Sized { (view t.sys.main (inner.irq x.turn.env .exit)).newIteration with cmdrsp.state := state } :=
    posted.sized
  refine ⟨linked, (parts.laid posted.laid).2, served_sized sized parts.served, fun initial => ?_,
    fun started pipe => ?_⟩
  · rcases served_started parts.served fun busy => posted.linked.begun (mt parts.advanced.idle.mp busy) with
      ⟨was, _, same⟩ | ⟨started, _⟩
    · obtain ⟨_, commands, endpoint⟩ := posted.fresh was
      have quiet : sys.main.call = none := congrArg Main.call same
      refine ⟨(first_delivering posted parts was).2, ?_, endpoint⟩
      exact (handed_same (by simp [quiet])).trans commands
    · exact absurd initial (Nat.ne_of_gt started)
  · rcases Nat.eq_zero_or_pos t.sys.main.state with initial | was
    · refine ⟨(first_delivering posted parts initial).1, ?_⟩
      have endpoint : (t.next sys).endpoint = ⟨false, []⟩ := (posted.fresh initial).2.2
      simp [endpoint]
    · obtain ⟨outPipe, outEpSize⟩ := step_pipe posted parts was
      have pipe' : t.sys.usb.cdc.outPipe = 2 := outPipe.symm.trans pipe
      obtain ⟨delivering, fits⟩ := posted.delivering was pipe'
      constructor
      · by_cases sending : Sending t.sys.usb
        · exact sending_delivering posted parts sending pipe' delivering genuine
        · exact quiet_delivering posted parts sending was delivering
      · rw [show (t.next sys).sys.usb.cdc.outEpSize = t.sys.usb.cdc.outEpSize from outEpSize]
        exact fits

theorem post_ok {x : Posting} {t t' : Post} (taken : post x t = .ok t') : ∃ sys,
    step x.schedule t.sys = .ok sys ∧ t' = ((t.hear x.before).next sys).hear x.after ∧
      (t'.Acknowledged → t'.heard = true) := by
  unfold post at taken
  split at taken
  · cases taken
  · rename_i sys stepped
    dsimp only at taken
    split at taken
    · cases taken
    · rename_i genuine
      cases taken
      refine ⟨sys, stepped, rfl, fun acknowledged => ?_⟩
      by_contra unheard
      exact genuine ⟨acknowledged, unheard⟩

theorem post_kept (x : Posting) (t t' : Post) (posted : Posted t) (taken : post x t = .ok t') : Posted t' := by
  obtain ⟨sys, stepped, rfl, genuine⟩ := post_ok taken
  rw [← (hear_same t x.before).1] at stepped
  refine (next_posted (posted.hear x.before) stepped fun acknowledged nothing => ?_).hear x.after
  rw [hear_silent x.after nothing] at genuine
  exact genuine acknowledged

theorem powerOn_posted (latches : Gpio) : Posted (Post.powerOn latches) where
  linked := powerOn_linked latches
  laid := usbhCdcInit_laid
  sized := rfl
  fresh _ := ⟨⟨⟨rfl, rfl, rfl⟩, rfl⟩, rfl, rfl⟩
  delivering started := absurd started (Nat.lt_irrefl 0)

theorem Handing.prefix {m : Main} {commands done : List (List Byte)} {tx : Transmission}
    (handing : Handing m commands tx done) :
    (commands.dropLast.flatten <+: done.flatten ∧ done.flatten <+: commands.flatten) ∧
    (commands.dropLast.flatten <+: (done ++ [contents m tx.data tx.chunk]).flatten ∧
      (done ++ [contents m tx.data tx.chunk]).flatten <+: commands.flatten) := by
  obtain ⟨buf, earlier, object, _, rfl, before⟩ := handing
  rw [Handing.chunk object before, before, List.dropLast_concat, List.flatten_append, List.flatten_singleton]
  have part (n : Nat) : earlier.flatten <+: earlier.flatten ++ (m.txBytes buf).take n ∧
      earlier.flatten ++ (m.txBytes buf).take n <+: earlier.flatten ++ m.txBytes buf :=
    ⟨List.prefix_append _ _, (List.prefix_append_right_inj _).mpr (List.take_prefix _ _)⟩
  exact ⟨part _, part _⟩

/-- In every run with a supported device, whatever interrupts come when and however often a packet is repeated, the bulk
OUT endpoint has had the bytes of main()'s commands in order, none of them twice: all of them when main() is not sending,
and else all but some at the end of the last command. -/
theorem commands_delivered (latches : Gpio) (postings : List Posting) (t : Post)
    (run : exec post postings (Post.powerOn latches) = .ok t) (supported : t.sys.usb.phost.deviceProp.Accepted) :
    t.commands.dropLast.flatten <+: t.endpoint.taken.flatten ∧ t.endpoint.taken.flatten <+: t.commands.flatten ∧
    (t.sys.main.cmdrsp.state ≠ .txBusy → t.endpoint.taken.flatten = t.commands.flatten) ∧
    ∀ packet ∈ t.endpoint.taken, packet.length ≤ t.sys.usb.cdc.outEpSize := by
  have posted := exec_invariant post_kept (powerOn_posted latches) run
  rcases Nat.eq_zero_or_pos t.sys.main.state with initial | started
  · obtain ⟨_, commands, endpoint⟩ := posted.fresh initial
    simp [commands, endpoint]
  have active := posted.linked.flagged (posted.linked.on started)
  have pipe : t.sys.usb.cdc.outPipe = 2 := by
    rcases posted.laid.allocated.classed (.inr active) with ⟨_, rejected⟩ | piped
    · exact absurd supported rejected
    · exact piped.outPipe
  obtain ⟨delivering, fits⟩ := posted.delivering started pipe
  by_cases sending : Sending t.sys.usb
  · obtain ⟨toggle, done, _, handing, sent, _⟩ := delivering.underway sending
    have busy := posted.linked.alternates.sending.mp sending
    obtain ⟨before, after⟩ := handing.prefix
    refine and_assoc.mp ⟨?_, fun still => absurd busy still, fits⟩
    rcases sent.taken with taken | taken
    · rw [taken]
      exact before
    · rw [taken]
      exact after
  · have same : t.endpoint.taken.flatten = t.commands.flatten := by
      cases delivering with
      | whole _ _ same => exact same
      | asked _ _ asked => exact absurd (.inl asked) sending
      | waits _ _ waits => exact absurd (.inr waits) sending
    obtain ⟨last, split⟩ := List.dropLast_prefix t.commands
    have earlier : t.commands.dropLast.flatten <+: t.commands.flatten :=
      ⟨last.flatten, by rw [← List.flatten_append, split]⟩
    rw [same]
    exact ⟨earlier, List.prefix_rfl, fun _ => rfl, fits⟩

instance (prop : DeviceProp) : Decidable prop.Accepted := inferInstanceAs (Decidable (_ ∧ _))

/-- The iterations in which a device is enumerated and gets the first command twice, with a repeated acknowledgement -/
def firstPosted : List Posting :=
  (firstCommand 2 64).map (fun schedule => ⟨schedule, false, false⟩) ++
    [⟨calm (turnAfter []), true, true⟩, ⟨calm (turnAfter (transferDone 2)), true, false⟩]

theorem commands_delivered_first : ∃ t, exec post firstPosted (Post.powerOn fun _ _ => false) = .ok t ∧
    t.sys.usb.phost.deviceProp.Accepted ∧ t.commands.length = 1 ∧ t.endpoint.taken.flatten = t.commands.flatten := by
  obtain ⟨t, run, checked⟩ := exists_of_succeedsWith
    (fun t : Post => t.sys.usb.phost.deviceProp.Accepted ∧ t.commands.length = 1 ∧
      t.sys.main.cmdrsp.state ≠ .txBusy)
    (exec post firstPosted (Post.powerOn fun _ _ => false)) (by decide +kernel)
  obtain ⟨supported, one, still⟩ := of_decide_eq_true checked
  exact ⟨t, run, supported, one, (commands_delivered _ _ t run supported).2.2.1 still⟩

end Testjig.System
