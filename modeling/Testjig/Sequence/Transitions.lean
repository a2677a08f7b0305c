import Testjig.Sequence.Calls

namespace Testjig.Sequence

open Machine Testjig.Board Testjig.Time

structure Makes (m : Main) (now : TimeT) (state iter outer : Nat) (odr : Gpio) (sends : Bool) (next : Main) : Prop where
  state : next.state = state
  pinIter : next.pinIter = iter
  outerIter : next.outerIter = outer
  odr : next.odr = odr
  success : next.success = m.success
  log : ∃ more, next.log = m.log ++ more ∧ ∀ event ∈ more, event.step ≠ .pass
  sent : if sends then next.cmdrsp.state = .txBusy ∧ next.cmdrsp.time = now else next.cmdrsp = m.cmdrsp

/-- The `pin_iter` and `outer_iter` of the next pin to be asserted -/
structure NextPin (m : Main) (pins : List Nat) (iter outer pin : Nat) : Prop where
  found : pins[iter]? = some pin
  inside : iter < pins.length
  last : outer ≤ 11
  moved : iter = m.pinIter ∧ outer = m.outerIter ∨ iter = 0 ∧ outer = m.outerIter + 1 ∧ m.pinIter = pins.length

inductive Tested (m : Main) (now : TimeT) (next : Main) : Prop where
  | asks (stage : m.state ∈ [0, 2, 5, 8, 12, 14, 16, 17])
      (makes : Makes m now (m.state + 1) m.pinIter m.outerIter m.odr true next)
  | judges (stage : m.state ∈ [1, 6, 11, 13, 15, 18])
      (makes : Makes m now (m.state + 1) m.pinIter m.outerIter m.odr false next)
  | assertIn (iter outer pin : Nat) (stage : m.state = 3) (moves : NextPin m inp iter outer pin)
      (makes : Makes m now 4 iter outer m.odr true next)
  | checkIn (stage : m.state = 4) (makes : Makes m now 3 (m.pinIter + 1) m.outerIter m.odr false next)
  | leaveIn (stage : m.state = 3) (whole : m.pinIter = inp.length) (last : m.outerIter = 11)
      (makes : Makes m now 5 0 0 m.odr false next)
  | assertOut (iter outer pin : Nat) (stage : m.state = 7) (moves : NextPin m outp iter outer pin)
      (makes : Makes m now 8 iter outer (setPinmask (onlyLow pin) m.odr) false next)
  | checkOut (stage : m.state = 9) (makes : Makes m now 7 (m.pinIter + 1) m.outerIter m.odr false next)
  | leaveOut (stage : m.state = 7) (whole : m.pinIter = outp.length) (last : m.outerIter = 11)
      (makes : Makes m now 10 0 0 m.odr false next)
  | assertAll (stage : m.state = 10)
      (makes : Makes m now 11 m.pinIter m.outerIter (setPinmask 0 m.odr) true next)
  | passes (stage : m.state = 19) (shown : next = { m with state := 20 }.showPass now)

theorem Makes.quiet {m next : Main} {now : TimeT} {state iter outer : Nat} {odr : Gpio} {events : List Event}
    (counters : next.state = state ∧ next.pinIter = iter ∧ next.outerIter = outer) (latched : next.odr = odr)
    (success : next.success = m.success) (log : next.log = m.log ++ events) (open_ : ∀ event ∈ events, event.step ≠ .pass)
    (cmdrsp : next.cmdrsp = m.cmdrsp) : Makes m now state iter outer odr false next :=
  ⟨counters.1, counters.2.1, counters.2.2, latched, success, ⟨events, log, open_⟩, cmdrsp⟩

theorem Makes.command {m middle : Main} {now : TimeT} {state iter outer : Nat} {odr : Gpio} {events : List Event}
    (buf : TxBuf) (rsp : Option (List Byte)) (rspLen : Nat)
    (counters : middle.state = state ∧ middle.pinIter = iter ∧ middle.outerIter = outer) (latched : middle.odr = odr)
    (success : middle.success = m.success) (log : middle.log = m.log ++ events)
    (open_ : ∀ event ∈ events, event.step ≠ .pass) :
    Makes m now state iter outer odr true (middle.commandResponse now buf rsp rspLen) := by
  refine ⟨counters.1, counters.2.1, counters.2.2, latched, success,
    ⟨events ++ [.command (middle.txBytes buf) rsp rspLen], ?_, ?_⟩, rfl, rfl⟩
  · rw [← List.append_assoc, ← log]
    rfl
  · intro event member
    rcases List.mem_append.mp member with inEvents | last
    · exact open_ event inEvents
    · rw [List.mem_singleton.mp last]
      simp [Event.step]

theorem Makes.send {m middle : Main} {now : TimeT} {state iter outer : Nat} {odr : Gpio} {events : List Event} (cmd : Cmd)
    (counters : middle.state = state ∧ middle.pinIter = iter ∧ middle.outerIter = outer) (latched : middle.odr = odr)
    (success : middle.success = m.success) (log : middle.log = m.log ++ events)
    (open_ : ∀ event ∈ events, event.step ≠ .pass) : Makes m now state iter outer odr true (middle.sendCmd now cmd) :=
  Makes.command .tcmd none sizeofRsp counters latched success log open_

theorem runState_tested {m next : Main} {poll : Poll} (early : m.state < 20) (within : Within m)
    (ran : m.advance.runState poll = .ok next) : Tested m poll.now next := by
  have states : m.state = 0 ∨ m.state = 1 ∨ m.state = 2 ∨ m.state = 3 ∨ m.state = 4 ∨ m.state = 5 ∨
      m.state = 6 ∨ m.state = 7 ∨ m.state = 8 ∨ m.state = 9 ∨ m.state = 10 ∨ m.state = 11 ∨ m.state = 12 ∨
      m.state = 13 ∨ m.state = 14 ∨ m.state = 15 ∨ m.state = 16 ∨ m.state = 17 ∨ m.state = 18 ∨ m.state = 19 := by omega
  unfold Within at within
  rcases states with state | state | state | state | state | state | state | state | state | state | state | state |
    state | state | state | state | state | state | state | state
  all_goals simp only [Main.advance, state, Main.runState] at ran within
  · cases ran
    exact .asks (by simp [state]) (.command .info none 34 ⟨by rw [state], rfl, rfl⟩ rfl rfl (List.append_nil _).symm (by simp))
  · obtain ⟨_, _, rfl⟩ := checkInfo_ok ran
    exact .judges (by simp [state]) (.quiet ⟨by rw [state]; rfl, rfl, rfl⟩ rfl rfl rfl (by simp [Event.step]) rfl)
  · cases ran
    exact .asks (by simp [state])
      (.command .testmode _ _ ⟨by rw [state], rfl, rfl⟩ rfl rfl (List.append_nil _).symm (by simp))
  · rcases nextPin_result { m with state := 4 } inp 6 _ (by decide) within.1 within.2 with
      ⟨whole, last, result⟩ | ⟨iter, outer, pin, found, bound, lastOuter, moved, result⟩
    · rw [result] at ran
      cases ran
      exact .leaveIn state whole last (.quiet ⟨rfl, rfl, rfl⟩ rfl rfl (List.append_nil _).symm (by simp) rfl)
    · rw [result] at ran
      cases ran
      exact .assertIn iter outer pin state ⟨found, bound, lastOuter, moved⟩
        (.send _ ⟨rfl, rfl, rfl⟩ rfl rfl (List.append_nil _).symm (by simp))
  · obtain ⟨pin, _, _, rfl⟩ := checkPin_ok ran
    exact .checkIn state (.quiet ⟨rfl, rfl, rfl⟩ rfl rfl rfl (by simp [Event.step]) rfl)
  · cases ran
    exact .asks (by simp [state]) (.send _ ⟨by rw [state], rfl, rfl⟩ rfl rfl (List.append_nil _).symm (by simp))
  · obtain ⟨_, rfl⟩ := (checkPins_ok _ _ _ _).mp ran
    exact .judges (by simp [state]) (.quiet ⟨by rw [state]; rfl, rfl, rfl⟩ rfl rfl rfl (by simp [Event.step]) rfl)
  · rcases nextPin_result { m with state := 8 } outp 11 _ (by decide) within.1 within.2 with
      ⟨whole, last, result⟩ | ⟨iter, outer, pin, found, bound, lastOuter, moved, result⟩
    · rw [result] at ran
      cases ran
      exact .leaveOut state whole last (.quiet ⟨rfl, rfl, rfl⟩ rfl rfl (List.append_nil _).symm (by simp) rfl)
    · rw [result] at ran
      cases ran
      exact .assertOut iter outer pin state ⟨found, bound, lastOuter, moved⟩
        (.quiet ⟨rfl, rfl, rfl⟩ rfl rfl rfl (by simp [Event.step]) rfl)
  · cases ran
    exact .asks (by simp [state]) (.send _ ⟨by rw [state], rfl, rfl⟩ rfl rfl (List.append_nil _).symm (by simp))
  · obtain ⟨pin, _, _, rfl⟩ := checkPin_ok ran
    exact .checkOut state (.quiet ⟨rfl, rfl, rfl⟩ rfl rfl rfl (by simp [Event.step]) rfl)
  · cases ran
    exact .assertAll state (.send _ ⟨rfl, rfl, rfl⟩ rfl rfl rfl (by simp [Event.step]))
  · obtain ⟨_, rfl⟩ := (checkPinsLow_ok _ _ _).mp ran
    exact .judges (by simp [state]) (.quiet ⟨by rw [state]; rfl, rfl, rfl⟩ rfl rfl rfl (by simp [Event.step]) rfl)
  · cases ran
    exact .asks (by simp [state]) (.send _ ⟨by rw [state], rfl, rfl⟩ rfl rfl (List.append_nil _).symm (by simp))
  · obtain ⟨_, rfl⟩ := checkOptions_ok ran
    exact .judges (by simp [state]) (.quiet ⟨by rw [state]; rfl, rfl, rfl⟩ rfl rfl rfl (by simp [Event.step]) rfl)
  · cases ran
    exact .asks (by simp [state]) (.send _ ⟨by rw [state], rfl, rfl⟩ rfl rfl (List.append_nil _).symm (by simp))
  · obtain ⟨_, rfl⟩ := checkHeaders_ok ran
    exact .judges (by simp [state]) (.quiet ⟨by rw [state]; rfl, rfl, rfl⟩ rfl rfl rfl (by simp [Event.step]) rfl)
  · cases ran
    exact .asks (by simp [state]) (.send _ ⟨by rw [state], rfl, rfl⟩ rfl rfl (List.append_nil _).symm (by simp))
  · split at ran
    · cases ran
    · rename_i middle tested
      obtain ⟨_, rfl⟩ := testWdatOsc_ok tested
      cases ran
      exact .asks (by simp [state]) (.send _ ⟨by rw [state]; rfl, rfl, rfl⟩ rfl rfl rfl (by simp [Event.step]))
  · rcases checkCc_ok ran with ⟨_, _, _, rfl⟩ | ⟨_, rfl⟩
    · exact .judges (by simp [state]) (.quiet ⟨by rw [state]; rfl, rfl, rfl⟩ rfl rfl rfl (by simp [Event.step]) rfl)
    · exact .judges (by simp [state])
        (.quiet ⟨by rw [state], rfl, rfl⟩ rfl rfl (List.append_nil _).symm (by simp) rfl)
  · cases ran
    exact .passes state rfl

theorem tested_within {m next : Main} {now : TimeT} (within : Within m) (tested : Tested m now next) :
    (next.state = 20 ∧ .pass ∈ next.log) ∨ (next.state < 20 ∧ Within next) := by
  cases tested with
  | asks stage makes =>
    right
    simp only [List.mem_cons, List.not_mem_nil, or_false] at stage
    rcases stage with state | state | state | state | state | state | state | state
    all_goals
      simp only [Within, state] at within
      simp [Within, makes.state, makes.pinIter, makes.outerIter, state, within]
  | judges stage makes =>
    right
    simp only [List.mem_cons, List.not_mem_nil, or_false] at stage
    rcases stage with state | state | state | state | state | state
    all_goals
      simp only [Within, state] at within
      simp [Within, makes.state, makes.pinIter, makes.outerIter, state, within]
  | assertIn iter outer pin stage moves makes =>
    right
    simpa [Within, makes.state, makes.pinIter, makes.outerIter] using ⟨moves.inside, moves.last⟩
  | assertOut iter outer pin stage moves makes =>
    right
    simpa [Within, makes.state, makes.pinIter, makes.outerIter] using ⟨moves.inside, moves.last⟩
  | checkIn stage makes =>
    right
    simp only [Within, stage] at within
    simpa [Within, makes.state, makes.pinIter, makes.outerIter] using ⟨within.1, within.2⟩
  | checkOut stage makes =>
    right
    simp only [Within, stage] at within
    simpa [Within, makes.state, makes.pinIter, makes.outerIter] using ⟨within.1, within.2⟩
  | leaveIn stage whole last makes | leaveOut stage whole last makes =>
    right
    simp [Within, makes.state, makes.pinIter, makes.outerIter]
  | assertAll stage makes =>
    right
    simp only [Within, stage] at within
    simp [Within, makes.state, makes.pinIter, makes.outerIter, within]
  | passes stage shown =>
    left
    rw [shown]
    exact ⟨rfl, by simp [Main.showPass, Main.cmdSetPin, Main.sendCmd, Main.commandResponse, Main.drive, Main.record]⟩

/-- How many pins are still to be asserted by a loop over `pins` that has come so far -/
def pinsLeft (pins : List Nat) (m : Main) : Nat := (11 - m.outerIter) * pins.length + (pins.length - m.pinIter)

/-- How many test states are still to be run, up to the one that shows PASS -/
def tests (m : Main) : Nat :=
  match m.state with
  | 0 => 509
  | 1 => 508
  | 2 => 507
  | 3 => 2 * pinsLeft inp m + 194
  | 4 => 2 * pinsLeft inp m + 193
  | 5 => 193
  | 6 => 192
  | 7 => 3 * pinsLeft outp m + 11
  | 8 => 3 * pinsLeft outp m + 10
  | 9 => 3 * pinsLeft outp m + 9
  | n => 20 - n

def commands (m : Main) : Nat :=
  match m.state with
  | 0 => 224
  | 1 | 2 => 223
  | 3 => pinsLeft inp m + 66
  | 4 => pinsLeft inp m + 65
  | 5 => 66
  | 6 => 65
  | 7 => pinsLeft outp m + 5
  | 8 => pinsLeft outp m + 5
  | 9 => pinsLeft outp m + 4
  | 10 => 5
  | 11 | 12 => 4
  | 13 | 14 => 3
  | 15 | 16 => 2
  | 17 => 1
  | _ => 0

theorem most_left {m : Main} (begun : m.state ≠ 0) : tests m ≤ 508 ∧ commands m ≤ 223 := by
  have ins : pinsLeft inp m ≤ 156 := by
    simp only [pinsLeft, inp, List.length_cons, List.length_nil]
    omega
  have outs : pinsLeft outp m ≤ 60 := by
    simp only [pinsLeft, outp, List.length_cons, List.length_nil]
    omega
  refine ⟨?_, ?_⟩
  · unfold tests
    split <;> omega
  · unfold commands
    split <;> omega

theorem nextPin_left {m : Main} {pins : List Nat} {iter outer pin : Nat} (moves : NextPin m pins iter outer pin) :
    pinsLeft pins { m with pinIter := iter, outerIter := outer } = pinsLeft pins m := by
  have last := moves.last
  simp only [pinsLeft]
  rcases moves.moved with ⟨rfl, rfl⟩ | ⟨rfl, rfl, whole⟩
  · rfl
  · have split : 11 - m.outerIter = 11 - (m.outerIter + 1) + 1 := by omega
    rw [split, Nat.succ_mul, whole]
    omega

theorem pinsLeft_step {m : Main} {pins : List Nat} (inside : m.pinIter < pins.length) :
    pinsLeft pins { m with pinIter := m.pinIter + 1 } + 1 = pinsLeft pins m := by
  simp only [pinsLeft]
  omega

/-- A test state that is done is not run again, and a command that is sent is not sent again. -/
structure Spends (m next : Main) (now : TimeT) : Prop where
  tests : tests next + 1 ≤ tests m
  commands : next.cmdrsp = m.cmdrsp ∧ commands next ≤ commands m ∨
    (next.cmdrsp.state = .txBusy ∧ next.cmdrsp.time = now) ∧ commands next + 1 ≤ commands m

theorem Makes.pinsLeft {m next : Main} {now : TimeT} {state iter outer : Nat} {odr : Gpio} {sends : Bool}
    (makes : Makes m now state iter outer odr sends next) (pins : List Nat) :
    pinsLeft pins next = pinsLeft pins { m with pinIter := iter, outerIter := outer } := by
  simp only [Sequence.pinsLeft, makes.pinIter, makes.outerIter]

theorem tested_spends {m next : Main} {now : TimeT} (within : Within m) (tested : Tested m now next)
    (early : next.state < 20) : Spends m next now := by
  cases tested with
  | asks stage makes =>
    simp only [List.mem_cons, List.not_mem_nil, or_false] at stage
    rcases stage with state | state | state | state | state | state | state | state
    all_goals
      simp only [Within, state] at within
      refine ⟨?_, .inr ⟨makes.sent, ?_⟩⟩
      · simp [tests, makes.state, makes.pinIter, makes.outerIter, state, pinsLeft, within, inp, outp]
      · simp [commands, makes.state, makes.pinIter, makes.outerIter, state, pinsLeft, within, inp, outp]
  | judges stage makes =>
    simp only [List.mem_cons, List.not_mem_nil, or_false] at stage
    rcases stage with state | state | state | state | state | state
    all_goals
      simp only [Within, state] at within
      refine ⟨?_, .inl ⟨makes.sent, ?_⟩⟩
      · simp [tests, makes.state, makes.pinIter, makes.outerIter, state, pinsLeft, within, outp]
      · simp [commands, makes.state, makes.pinIter, makes.outerIter, state, pinsLeft, within, outp]
  | assertIn iter outer pin stage moves makes =>
    have left := (makes.pinsLeft inp).trans (nextPin_left moves)
    refine ⟨?_, .inr ⟨makes.sent, ?_⟩⟩
    · simp [tests, makes.state, stage, left]
    · simp [commands, makes.state, stage, left]
  | assertOut iter outer pin stage moves makes =>
    have left := (makes.pinsLeft outp).trans (nextPin_left moves)
    refine ⟨?_, .inl ⟨makes.sent, ?_⟩⟩
    · simp [tests, makes.state, stage, left]
    · simp [commands, makes.state, stage, left]
  | checkIn stage makes =>
    simp only [Within, stage] at within
    have left : pinsLeft inp next + 1 = pinsLeft inp m := by
      rw [makes.pinsLeft]
      exact pinsLeft_step within.1
    refine ⟨?_, .inl ⟨makes.sent, ?_⟩⟩
    · simp only [tests, makes.state, stage]
      omega
    · simp only [commands, makes.state, stage]
      omega
  | checkOut stage makes =>
    simp only [Within, stage] at within
    have left : pinsLeft outp next + 1 = pinsLeft outp m := by
      rw [makes.pinsLeft]
      exact pinsLeft_step within.1
    refine ⟨?_, .inl ⟨makes.sent, ?_⟩⟩
    · simp only [tests, makes.state, stage]
      omega
    · simp only [commands, makes.state, stage]
      omega
  | leaveIn stage whole last makes | leaveOut stage whole last makes =>
    refine ⟨?_, .inl ⟨makes.sent, ?_⟩⟩
    · simp [tests, makes.state, stage, pinsLeft, whole, last]
    · simp [commands, makes.state, stage, pinsLeft, whole, last]
  | assertAll stage makes =>
    refine ⟨?_, .inr ⟨makes.sent, ?_⟩⟩
    · simp [tests, makes.state, stage]
    · simp [commands, makes.state, stage]
  | passes stage shown =>
    rw [shown] at early
    exact absurd early (Nat.lt_irrefl 20)

theorem nextPin_log {m next : Main} {pins : List Nat} {state : Nat} {assert : Main → Nat → Main}
    (asserts : ∀ m pin, m.log <+: (assert m pin).log) (taken : m.nextPin pins state assert = .ok next) :
    m.log <+: next.log := by
  simp only [Main.nextPin] at taken
  split at taken
  · split at taken
    · cases taken
      exact List.prefix_rfl
    · split at taken
      · cases taken
      · cases taken
        exact asserts { m with pinIter := 0, outerIter := m.outerIter + 1 } _
  · split at taken
    · cases taken
    · cases taken
      exact asserts _ _

theorem runState_log {m next : Main} {poll : Poll} (ran : m.runState poll = .ok next) : m.log <+: next.log := by
  unfold Main.runState at ran
  split at ran
  case h_2 => obtain ⟨_, _, rfl⟩ := checkInfo_ok ran; exact ⟨_, rfl⟩
  case h_4 | h_8 => exact nextPin_log (fun m pin => ⟨_, rfl⟩) ran
  case h_5 | h_10 => obtain ⟨_, _, _, rfl⟩ := checkPin_ok ran; exact ⟨_, rfl⟩
  case h_7 => obtain ⟨_, rfl⟩ := (checkPins_ok _ _ _ _).mp ran; exact ⟨_, rfl⟩
  case h_11 => cases ran; exact ⟨[.drive 0, _], by rw [List.append_cons]; rfl⟩
  case h_12 => obtain ⟨_, rfl⟩ := (checkPinsLow_ok _ _ _).mp ran; exact ⟨_, rfl⟩
  case h_14 => obtain ⟨_, rfl⟩ := checkOptions_ok ran; exact ⟨_, rfl⟩
  case h_16 => obtain ⟨_, rfl⟩ := checkHeaders_ok ran; exact ⟨_, rfl⟩
  case h_18 =>
    split at ran
    · cases ran
    · rename_i middle tested
      obtain ⟨_, rfl⟩ := testWdatOsc_ok tested
      cases ran
      exact ⟨[.oscillation poll.dmabuf, _], by rw [List.append_cons]; rfl⟩
  case h_19 =>
    rcases checkCc_ok ran with ⟨_, _, _, rfl⟩ | ⟨_, rfl⟩
    · exact ⟨_, rfl⟩
    · exact List.prefix_rfl
  case h_20 => cases ran; exact ⟨[.pass, .drive (-1), _], by rw [List.append_cons, List.append_cons]; rfl⟩
  case h_23 => cases ran; exact List.prefix_rfl
  all_goals (cases ran; exact ⟨_, rfl⟩)

theorem Served.log {m next : Main} {poll : Poll} (served : Served m poll next) : m.log <+: next.log := by
  cases served with
  | received => exact ⟨_, rfl⟩
  | test next _ _ ran =>
    have grown : m.advance.log <+: next.log := runState_log ran
    exact grown
  | _ => exact List.prefix_rfl

theorem usbhCdcProcess_same {m next : Main} {actions : List UsbAction} (called : m.usbhCdcProcess actions = .ok next) :
    ∃ rspbuf state, next = { m with rspbuf, cmdrsp.state := state } := by
  have acts (action : UsbAction) (middle next : Main)
      (same : ∃ rspbuf state, middle = { m with rspbuf, cmdrsp.state := state })
      (taken : middle.usbAction action = .ok next) : ∃ rspbuf state, next = { m with rspbuf, cmdrsp.state := state } := by
    obtain ⟨_, _, rfl⟩ := same
    obtain ⟨_, state, rspbuf, _, rfl⟩ := usbAction_cases taken
    exact ⟨rspbuf, state, rfl⟩
  rw [usbhCdcProcess_exec] at called
  exact exec_invariant acts ⟨m.rspbuf, m.cmdrsp.state, rfl⟩ called

/-- An iteration that main() survives waits for the exchange, or runs a test state. -/
inductive Turned (m : Main) (poll : Poll) (next : Main) : Prop where
  | waits (rspbuf : Buffer) (cmdrsp : CmdRsp) (call : Option CdcCall) (log : List Event)
      (same : next = { m with rspbuf, cmdrsp, call, log := m.log ++ log }) (events : ∀ event ∈ log, event.step = .reply)
  | tests (middle : Main) (on : poll.connected = true) (idle : middle.cmdrsp.state = .idle)
      (same : ∃ rspbuf cmdrsp, middle = { m with rspbuf, cmdrsp, call := none })
      (ran : middle.advance.runState poll = .ok next)

theorem iterate_turned {m next : Main} {poll : Poll} (taken : iterate poll m = .ok next) : Turned m poll next := by
  obtain ⟨middle, called, served⟩ := iterate_served taken
  obtain ⟨rspbuf, state, rfl⟩ := usbhCdcProcess_same called
  cases served with
  | test _ on idle ran => exact .tests _ on idle ⟨_, _, rfl⟩ ran
  | received => exact .waits _ _ _ [.reply rspbuf] rfl (by simp [Event.step])
  | transmitted => exact .waits _ _ _ [] (by rw [List.append_nil]; rfl) (by simp)
  | unconnected => exact .waits _ _ _ [] (by rw [List.append_nil]; rfl) (by simp)
  | txWait => exact .waits _ _ _ [] (by rw [List.append_nil]; rfl) (by simp)
  | rxWait => exact .waits _ _ _ [] (by rw [List.append_nil]; rfl) (by simp)

/-- The states after a PASS only switch the board's LED. -/
theorem runState_late {m next : Main} {poll : Poll} (late : m.state = 20 ∨ m.state = 21)
    (ran : m.advance.runState poll = .ok next) :
    (next.state = 20 ∨ next.state = 21) ∧ next.odr = m.odr ∧ next.success = m.success := by
  rcases late with state | state
  all_goals
    simp only [Main.advance, state, Main.runState] at ran
    cases ran
  · exact ⟨.inr rfl, rfl, rfl⟩
  · exact ⟨.inl rfl, rfl, rfl⟩

end Testjig.Sequence
