import Testjig.Sequence.Wiring

namespace Testjig.Sequence

open Machine Testjig.Board

/-- State 20 is reached only through the whole script, every event of it judged on its own reply. -/
theorem pass_sound (latches : Gpio) (polls : List Poll) (m : Main)
    (run : exec iterate polls (powerOn latches) = .ok m) (shown : m.success = true) :
    ∃ gwInfo before after, m.log = before ++ .pass :: after ∧
      before.map Event.step = passScript gwInfo ∧ Sound start before := by
  rcases exec_invariant iterate_kept (.inl (powerOn_sequenced latches)) run with before | after
  · rw [before.unshown] at shown
    cases shown
  · exact after.2

theorem WiredRun.polls {conn : Nat → Nat → Prop} {m last : Main} (run : WiredRun conn m last) :
    ∃ polls, exec iterate polls m = .ok last := by
  induction run with
  | refl m => exact ⟨[], rfl⟩
  | step poll _ _ taken _ ih =>
    obtain ⟨rest, ran⟩ := ih
    exact ⟨poll :: rest, (exec_cons_ok _ _ _ _ _).mpr ⟨_, taken, ran⟩⟩

theorem iterate_quiet {m next : Main} (idle : m.cmdrsp.state = .idle)
    (ran : m.newIteration.advance.runState (quietPoll []) = .ok next) : iterate (quietPoll []) m = .ok next := by
  have quiet : m.newIteration.cmdrsp.state = .idle := idle
  rw [← ran]
  simp [iterate, quietPoll, Main.usbhCdcProcess, Main.afterProcess, quiet]

theorem exec_exchange {m : Main} (sent : Main) (reply : List Byte) (idle : m.cmdrsp.state = .idle)
    (ran : m.newIteration.advance.runState (quietPoll []) = .ok sent) (busy : sent.cmdrsp.state = .txBusy)
    (any : sent.cmdrsp.rsp = none) :
    ∃ next, exec iterate (exchange reply) m = .ok next ∧ next.cmdrsp.state = .idle ∧ next.state = sent.state ∧
      next.gwInfo = sent.gwInfo ∧ next.rspbuf = bytes reply := by
  refine ⟨{ sent.newIteration with
    rspbuf := bytes reply, cmdrsp := { sent.cmdrsp with state := .idle, time := 0 }
    log := sent.log ++ [.reply (bytes reply)] }, ?_, rfl, rfl, rfl, rfl⟩
  rw [exchange, exec_cons_ok]
  refine ⟨sent, iterate_quiet idle ran, ?_⟩
  simp [exec, iterate, quietPoll, Main.usbhCdcProcess, Main.usbAction, Main.transmitCallback, Main.receiveCallback,
    Main.newIteration, Main.afterProcess, Main.commandResponseHandle, Main.record, busy, any]

def goodOptions (hwModel : Byte) : List Byte :=
  if hwModel = 7 then [0xff, 0xaa] else [0xa5, 0x5a] ++ List.replicate 14 0xff

def goodHeaders : List Byte := [100, 0, 0, 0]

theorem goodOptions_accepted (m : Main) (reply : m.rspbuf = bytes (goodOptions m.gwInfo.hwModel)) :
    m.checkOptions = .ok (m.loadTrsp.record (.options m.gwInfo.hwModel)) := by
  have good : Main.badOptions m.gwInfo.hwModel m.loadTrsp.trsp = false := by
    have same (i : Nat) (bound : i < 16) : m.loadTrsp.trsp i = bytes (goodOptions m.gwInfo.hwModel) i := by
      rw [loadTrsp_byte m (by omega), reply]
    by_cases seven : m.gwInfo.hwModel = 7
    · simp [Main.badOptions, seven, same, bytes, goodOptions]
    · simp only [BitVec.ofNat_eq_ofNat] at seven
      simp [Main.badOptions, seven, same, bytes, goodOptions]
  have kept : m.loadTrsp.gwInfo = m.gwInfo := rfl
  simp only [Main.checkOptions, kept, good]
  simp

theorem goodHeaders_accepted (m : Main) (reply : m.rspbuf = bytes goodHeaders) :
    m.checkHeaders = .ok (m.loadTrsp.record .headers) := by
  have good : word m.loadTrsp.trsp 0 = testHeaderSuccess := by
    rw [word, loadTrsp_byte m (by decide), loadTrsp_byte m (by decide), loadTrsp_byte m (by decide),
      loadTrsp_byte m (by decide), reply]
    decide
  simp [Main.checkHeaders, good]

theorem reached {m : Main} {state : Nat} (at0 : m.state = state) : m.newIteration.advance.state = state + 1 :=
  congrArg (· + 1) at0

def Leads (m next : Main) : Prop := ∃ polls, exec iterate polls m = .ok next

theorem Leads.trans {m middle next : Main} (first : Leads m middle) (second : Leads middle next) : Leads m next := by
  obtain ⟨before, left⟩ := first
  obtain ⟨after, right⟩ := second
  exact ⟨before ++ after, (exec_append_ok _ _ _ _ _).mpr ⟨middle, left, right⟩⟩

theorem Leads.quiet {m next : Main} (idle : m.cmdrsp.state = .idle)
    (ran : m.newIteration.advance.runState (quietPoll []) = .ok next) : Leads m next :=
  ⟨[quietPoll []], (exec_cons_ok _ _ _ _ _).mpr ⟨next, iterate_quiet idle ran, rfl⟩⟩

theorem options_pass {m : Main} (at12 : m.state = 12) (idle : m.cmdrsp.state = .idle) :
    ∃ next, Leads m next ∧ next.state = 14 ∧ next.cmdrsp.state = .idle := by
  obtain ⟨answered, exchanged, quiet, state, gwInfo, reply⟩ := exec_exchange
    (m.newIteration.advance.sendCmd 0 (.plain cmdOptionBytes)) (goodOptions m.gwInfo.hwModel) idle
    (by rw [Main.runState, reached at12]; rfl) rfl rfl
  have at13 : answered.state = 13 := state.trans (reached at12)
  have model : answered.newIteration.advance.gwInfo = m.gwInfo := gwInfo
  have checked := goodOptions_accepted answered.newIteration.advance (by rw [model]; exact reply)
  have ran : answered.newIteration.advance.runState (quietPoll []) = answered.newIteration.advance.checkOptions := by
    rw [Main.runState, reached at13]
    rfl
  exact ⟨_, .trans ⟨_, exchanged⟩ (.quiet quiet (ran.trans checked)), reached at13, quiet⟩

theorem headers_pass {m : Main} (at14 : m.state = 14) (idle : m.cmdrsp.state = .idle) :
    ∃ next, Leads m next ∧ next.state = 16 ∧ next.cmdrsp.state = .idle := by
  obtain ⟨answered, exchanged, quiet, state, _, reply⟩ := exec_exchange
    (m.newIteration.advance.sendCmd 0 (.plain cmdTestHeaders)) goodHeaders idle
    (by rw [Main.runState, reached at14]; rfl) rfl rfl
  have at15 : answered.state = 15 := state.trans (reached at14)
  have checked := goodHeaders_accepted answered.newIteration.advance reply
  have ran : answered.newIteration.advance.runState (quietPoll []) = answered.newIteration.advance.checkHeaders := by
    rw [Main.runState, reached at15]
    rfl
  exact ⟨_, .trans ⟨_, exchanged⟩ (.quiet quiet (ran.trans checked)), reached at15, quiet⟩

theorem oscillation_pass {m : Main} (at16 : m.state = 16) (idle : m.cmdrsp.state = .idle) :
    ∃ next, Leads m next ∧ next.state = 18 ∧ next.cmdrsp.state = .idle := by
  obtain ⟨on, switchedOn, quietOn, stateOn, _, _⟩ := exec_exchange
    (m.newIteration.advance.sendCmd 0 (.plain cmdWdatOscOn)) [] idle (by rw [Main.runState, reached at16]; rfl) rfl rfl
  have at17 : on.state = 17 := stateOn.trans (reached at16)
  have steady : Main.badInterval (quietPoll []).dmabuf = false := by decide
  obtain ⟨off, switchedOff, quietOff, stateOff, _, _⟩ := exec_exchange
    ((on.newIteration.advance.record (.oscillation (quietPoll []).dmabuf)).sendCmd 0 (.plain cmdWdatOscOff)) [] quietOn
    (by
      rw [Main.runState, reached at17]
      simp only [Main.testWdatOsc, steady]
      rfl) rfl rfl
  exact ⟨off, .trans ⟨_, switchedOn⟩ ⟨_, switchedOff⟩, stateOff.trans (reached at17), quietOff⟩

theorem pass_shown {m : Main} (at18 : m.state = 18) (idle : m.cmdrsp.state = .idle) :
    ∃ next, Leads m next ∧ next.success = true := by
  have half : Main.testUsbCc (quietPoll []).adc = true := by decide
  have checked : ∃ next, m.newIteration.advance.runState (quietPoll []) = .ok next ∧ next.state = 19 ∧
      next.cmdrsp.state = .idle := by
    have ran : m.newIteration.advance.runState (quietPoll []) =
        m.newIteration.advance.checkCc (quietPoll []).adc := by
      rw [Main.runState, reached at18]
      rfl
    rw [ran, Main.checkCc, if_pos half]
    split
    · exact ⟨_, rfl, reached at18, idle⟩
    · exact ⟨_, rfl, reached at18, idle⟩
  obtain ⟨accepted, ran, at19, quiet⟩ := checked
  have shown : accepted.newIteration.advance.runState (quietPoll []) =
      .ok (accepted.newIteration.advance.showPass 0) := by
    rw [Main.runState, reached at19]
    rfl
  exact ⟨_, .trans (.quiet idle ran) (.quiet quiet shown), rfl⟩

/-- A board without faults passes. -/
theorem pass_reachable (latches : Gpio) :
    ∃ polls m, exec iterate polls (powerOn latches) = .ok m ∧ m.success = true := by
  obtain ⟨m, booted, at3, idle, iter, outer⟩ : ∃ m, exec iterate bootPolls (powerOn latches) = .ok m ∧
      m.state = 3 ∧ m.cmdrsp.state = .idle ∧ m.pinIter = 0 ∧ m.outerIter = 0 := ⟨_, rfl, rfl, rfl, rfl, rfl⟩
  have reached := exec_invariant iterate_kept (.inl (powerOn_sequenced latches)) booted
  obtain ⟨tested, run, at12, quiet12⟩ := wired_finish (fun _ _ _ _ => Iff.rfl)
    (ready_wired (· = ·) reached at3 idle iter outer) idle
  obtain ⟨optioned, to14, at14, quiet14⟩ := options_pass at12 quiet12
  obtain ⟨headed, to16, at16, quiet16⟩ := headers_pass at14 quiet14
  obtain ⟨oscillated, to18, at18, quiet18⟩ := oscillation_pass at16 quiet16
  obtain ⟨passed, to20, shown⟩ := pass_shown at18 quiet18
  have whole : Leads (powerOn latches) passed :=
    .trans ⟨_, booted⟩ (.trans run.polls (.trans to14 (.trans to16 (.trans to18 to20))))
  obtain ⟨polls, ran⟩ := whole
  exact ⟨polls, passed, ran, shown⟩

theorem pass_sound_faultless :
    ∃ polls m, exec iterate polls (powerOn fun _ _ => false) = .ok m ∧ m.success = true ∧
      ∃ gwInfo before after, m.log = before ++ .pass :: after ∧
        before.map Event.step = passScript gwInfo ∧ Sound start before := by
  obtain ⟨polls, m, run, shown⟩ := pass_reachable fun _ _ => false
  exact ⟨polls, m, run, shown, pass_sound (fun _ _ => false) polls m run shown⟩

end Testjig.Sequence
