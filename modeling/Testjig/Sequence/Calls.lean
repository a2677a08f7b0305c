import Testjig.Sequence.Pass

namespace Testjig.Sequence

inductive Issued (m next : Main) : Prop where
  | quiet (cmdrsp : next.cmdrsp = m.cmdrsp) (call : next.call = m.call) (rspbuf : next.rspbuf = m.rspbuf)
      (begun : 0 < m.state → 0 < next.state)
  | command (buf : TxBuf) (busy : next.cmdrsp.state = .txBusy)
      (call : next.call = some (.transmit buf (next.txBytes buf).length)) (rspbuf : next.rspbuf = m.rspbuf)
      (begun : 0 < m.state → 0 < next.state)

theorem Issued.of_quiet {m middle next : Main} (issued : Issued middle next) (cmdrsp : middle.cmdrsp = m.cmdrsp)
    (call : middle.call = m.call) (rspbuf : middle.rspbuf = m.rspbuf) (begun : 0 < m.state → 0 < middle.state) :
    Issued m next := by
  cases issued with
  | quiet cmdrsp' call' rspbuf' begun' =>
    exact .quiet (cmdrsp'.trans cmdrsp) (call'.trans call) (rspbuf'.trans rspbuf) (begun' ∘ begun)
  | command buf busy call' rspbuf' begun' => exact .command buf busy call' (rspbuf'.trans rspbuf) (begun' ∘ begun)

theorem sendCmd_issued (m : Main) (now : Time.TimeT) (cmd : Cmd) : Issued m (m.sendCmd now cmd) :=
  .command .tcmd rfl rfl rfl id

theorem drive_issued (m : Main) (mask : BitVec 64) : Issued m (m.drive mask) := .quiet rfl rfl rfl id

theorem nextPin_issued {m next : Main} {pins : List Nat} {state : Nat} {assert : Main → Nat → Main}
    (high : 1 < state) (asserts : ∀ m pin, Issued m (assert m pin))
    (taken : m.nextPin pins state assert = .ok next) : Issued m next := by
  simp only [Main.nextPin] at taken
  split at taken
  · split at taken
    · cases taken
      exact .quiet rfl rfl rfl fun _ => Nat.sub_pos_of_lt high
    · split at taken
      · cases taken
      · cases taken
        exact (asserts _ _).of_quiet rfl rfl rfl id
  · split at taken
    · cases taken
    · cases taken
      exact asserts _ _

theorem runState_issued {m next : Main} {poll : Poll} (ran : m.runState poll = .ok next) : Issued m next := by
  unfold Main.runState at ran
  split at ran
  case h_1 => cases ran; exact .command .info rfl rfl rfl id
  case h_2 => obtain ⟨_, _, rfl⟩ := checkInfo_ok ran; exact .quiet rfl rfl rfl id
  case h_3 => cases ran; exact .command .testmode rfl rfl rfl id
  case h_4 => exact nextPin_issued (by decide) (fun m pin => sendCmd_issued m _ _) ran
  case h_5 => obtain ⟨_, _, _, rfl⟩ := checkPin_ok ran; exact .quiet rfl rfl rfl fun _ => by simp
  case h_7 => obtain ⟨_, rfl⟩ := (checkPins_ok _ _ _ _).mp ran; exact .quiet rfl rfl rfl id
  case h_8 => exact nextPin_issued (by decide) (fun m pin => drive_issued m _) ran
  case h_10 => obtain ⟨_, _, _, rfl⟩ := checkPin_ok ran; exact .quiet rfl rfl rfl fun _ => by simp
  case h_12 => obtain ⟨_, rfl⟩ := (checkPinsLow_ok _ _ _).mp ran; exact .quiet rfl rfl rfl id
  case h_14 => obtain ⟨_, rfl⟩ := checkOptions_ok ran; exact .quiet rfl rfl rfl id
  case h_16 => obtain ⟨_, rfl⟩ := checkHeaders_ok ran; exact .quiet rfl rfl rfl id
  case h_18 =>
    split at ran
    · cases ran
    · rename_i middle tested
      obtain ⟨_, rfl⟩ := testWdatOsc_ok tested
      cases ran
      exact .command .tcmd rfl rfl rfl id
  case h_19 =>
    rcases checkCc_ok ran with ⟨_, _, _, rfl⟩ | ⟨_, rfl⟩
    · exact .quiet rfl rfl rfl id
    · exact .quiet rfl rfl rfl id
  case h_23 => cases ran; exact .quiet rfl rfl rfl id
  case h_22 => cases ran; exact .command .tcmd rfl rfl rfl fun _ => by simp
  all_goals (cases ran; exact .command .tcmd rfl rfl rfl id)

inductive Served (m : Main) (poll : Poll) : Main → Prop where
  | unconnected (off : poll.connected = false) (initial : m.state = 0) (idle : m.cmdrsp.state = .idle) :
    Served m poll m
  | txWait (on : poll.connected = true) (busy : m.cmdrsp.state = .txBusy) : Served m poll m
  | rxWait (on : poll.connected = true) (busy : m.cmdrsp.state = .rxBusy) : Served m poll m
  | transmitted (on : poll.connected = true) (done : m.cmdrsp.state = .txDone) :
    Served m poll { m with
      cmdrsp.state := .rxBusy
      cmdrsp.time := poll.now
      call := some (.receive m.cmdrsp.rspLen) }
  | received (on : poll.connected = true) (done : m.cmdrsp.state = .rxDone) :
    Served m poll ({ m with cmdrsp.state := .idle }.record (.reply m.rspbuf))
  | test (next : Main) (on : poll.connected = true) (idle : m.cmdrsp.state = .idle)
      (ran : m.advance.runState poll = .ok next) : Served m poll next

theorem Served.connected {m next : Main} {poll : Poll} (served : Served m poll next) (busy : m.cmdrsp.state ≠ .idle) :
    poll.connected = true := by
  cases served with
  | unconnected _ _ idle => exact absurd idle busy
  | txWait on => exact on
  | rxWait on => exact on
  | transmitted on => exact on
  | received on => exact on
  | test _ on => exact on

theorem Served.waiting {m next : Main} {poll : Poll} (served : Served m poll next)
    (busy : m.cmdrsp.state = .rxBusy) : next = m := by
  cases served with
  | transmitted _ done => exact absurd (busy.symm.trans done) (by simp)
  | received _ done => exact absurd (busy.symm.trans done) (by simp)
  | test _ _ idle => exact absurd (busy.symm.trans idle) (by simp)
  | _ => rfl

theorem Served.completed {m next : Main} {poll : Poll} (served : Served m poll next)
    (done : m.cmdrsp.state = .rxDone) : next = { m with cmdrsp.state := .idle }.record (.reply m.rspbuf) := by
  cases served with
  | unconnected _ _ idle => exact absurd (done.symm.trans idle) (by simp)
  | txWait _ busy => exact absurd (done.symm.trans busy) (by simp)
  | rxWait _ busy => exact absurd (done.symm.trans busy) (by simp)
  | transmitted _ sent => exact absurd (done.symm.trans sent) (by simp)
  | received => rfl
  | test _ _ idle => exact absurd (done.symm.trans idle) (by simp)

theorem afterProcess_served {m next : Main} {poll : Poll} (taken : m.afterProcess poll = .ok next) :
    Served m poll next := by
  unfold Main.afterProcess at taken
  cases on : poll.connected with
  | false =>
    simp only [on] at taken
    by_cases initial : m.state = 0 ∧ m.cmdrsp.state = .idle
    · rw [if_pos (by simp), if_neg (by simp [initial])] at taken
      cases taken
      exact .unconnected on initial.1 initial.2
    · rw [if_pos (by simp), if_pos (Decidable.not_and_iff_or_not.mp initial)] at taken
      cases taken
  | true =>
    rw [if_neg (by simp [on])] at taken
    cases state : m.cmdrsp.state
    all_goals simp only [state, Main.commandResponseHandle] at taken
    case idle => exact .test next on state (by simpa using taken)
    all_goals simp only [ne_eq, reduceCtorEq, not_false_eq_true, if_true] at taken
    case txBusy =>
      split at taken
      · cases taken
      · cases taken
        exact .txWait on state
    case txDone =>
      cases taken
      exact .transmitted on state
    case rxBusy =>
      split at taken
      · cases taken
      · cases taken
        exact .rxWait on state
    case rxDone =>
      split at taken
      · split at taken
        · cases taken
        · cases taken
          exact .received on state
      · cases taken
        exact .received on state

theorem iterate_served {m next : Main} {poll : Poll} (taken : iterate poll m = .ok next) :
    ∃ processed, m.newIteration.usbhCdcProcess poll.actions = .ok processed ∧ Served processed poll next := by
  unfold iterate at taken
  split at taken
  · cases taken
  · rename_i processed called
    exact ⟨processed, called, afterProcess_served taken⟩

theorem checkPins_noError {m : Main} {idr : Board.Gpio} {asserted : Option Nat} {nr : Nat} :
    m.checkPins idr asserted ≠ .error (.error nr) := by
  simp only [Main.checkPins]
  split <;> simp

theorem nextPin_noError {m : Main} {pins : List Nat} {state nr : Nat} {assert : Main → Nat → Main} :
    m.nextPin pins state assert ≠ .error (.error nr) := by
  simp only [Main.nextPin]
  split
  · split
    · simp
    · split <;> simp
  · split <;> simp

theorem checkPin_noError {m : Main} {idr : Board.Gpio} {pins : List Nat} {state nr : Nat} :
    m.checkPin idr pins state ≠ .error (.error nr) := by
  simp only [Main.checkPin]
  split
  · simp
  · split
    · rename_i stopped
      rintro same
      cases same
      exact checkPins_noError stopped
    · simp

theorem runState_error {m : Main} {poll : Poll} {nr : Nat} (stopped : m.runState poll = .error (.error nr)) :
    nr = errBadResponse := by
  unfold Main.runState at stopped
  split at stopped
  case h_2 =>
    simp only [Main.checkInfo] at stopped
    split at stopped <;> cases stopped
    rfl
  case h_4 | h_8 => exact absurd stopped nextPin_noError
  case h_5 | h_10 => exact absurd stopped checkPin_noError
  case h_7 => exact absurd stopped checkPins_noError
  case h_12 =>
    simp only [Main.checkPinsLow] at stopped
    split at stopped <;> cases stopped
  case h_14 =>
    simp only [Main.checkOptions] at stopped
    split at stopped <;> cases stopped
  case h_16 =>
    simp only [Main.checkHeaders] at stopped
    split at stopped <;> cases stopped
  case h_18 =>
    simp only [Main.testWdatOsc] at stopped
    split at stopped
    · rename_i tested
      cases stopped
      split at tested
      · cases tested
      · split at tested <;> cases tested
    · cases stopped
  case h_19 =>
    simp only [Main.checkCc] at stopped
    split at stopped
    · split at stopped <;> cases stopped
    · cases stopped
  all_goals cases stopped

theorem afterProcess_error {m : Main} {poll : Poll} {nr : Nat} (stopped : m.afterProcess poll = .error (.error nr)) :
    nr = errTxTimeout ∨ nr = errRxTimeout ∨ nr = errBadResponse := by
  unfold Main.afterProcess at stopped
  split at stopped
  · split at stopped <;> cases stopped
  · split at stopped
    · unfold Main.commandResponseHandle at stopped
      split at stopped
      · cases stopped
      · split at stopped <;> cases stopped
        exact .inl rfl
      · cases stopped
      · split at stopped <;> cases stopped
        exact .inr (.inl rfl)
      · split at stopped
        · split at stopped <;> cases stopped
          exact .inr (.inr rfl)
        · cases stopped
    · exact .inr (.inr (runState_error stopped))

end Testjig.Sequence
