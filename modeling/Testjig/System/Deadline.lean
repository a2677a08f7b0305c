import Testjig.Sequence.Transitions
import Testjig.System.Connection

namespace Testjig.System

open Machine Testjig.Sequence Testjig.Usb Testjig.Board Testjig.Time

/-- An iteration, with the ticks since the one before, which are few -/
structure Timed (delta : Nat) where
  input : Input
  gap : Nat
  prompt : gap ≤ delta

structure Clocked where
  tick : Nat
  sys : Sys

/-- The input with what `time_now()` reads at the given time -/
def Input.dated (input : Input) (tick : Nat) : Input := { input with reading.now := BitVec.ofNat 32 tick }

/-- One iteration of the loop of main() at its time -/
def tock {delta : Nat} (x : Timed delta) (c : Clocked) : Except Halt Clocked :=
  match iterate (x.input.dated (c.tick + x.gap)) c.sys with
  | .error halt => .error halt
  | .ok sys => .ok { tick := c.tick + x.gap, sys }

def age (tick : Nat) (since : TimeT) : Nat := (BitVec.ofNat 32 tick - since).toNat

/-- What is left of the time that the command under way may take -/
def exchangeLeft (delta tick : Nat) (m : Main) : Nat :=
  match m.cmdrsp.state with
  | .txBusy => timeMs 500 - age tick m.cmdrsp.time + timeMs 5000 + 2 * delta
  | .rxBusy => timeMs 5000 - age tick m.cmdrsp.time + delta
  | _ => 0

def timeLeft (delta tick : Nat) (m : Main) : Nat :=
  tests m * delta + commands m * (timeMs 500 + timeMs 5000 + 2 * delta) + exchangeLeft delta tick m

def InTime (tick : Nat) (m : Main) : Prop :=
  match m.cmdrsp.state with
  | .txBusy => age tick m.cmdrsp.time ≤ timeMs 500
  | .rxBusy => age tick m.cmdrsp.time ≤ timeMs 5000
  | _ => True

structure Live (tick : Nat) (m : Main) : Prop where
  early : m.state < 20
  within : Within m
  begun : m.cmdrsp.state ≠ .idle → m.state ≠ 0
  inTime : InTime tick m

theorem age_later {since : TimeT} {tick gap : Nat} (short : age tick since + gap < 2^32) :
    age (tick + gap) since = age tick since + gap := by
  have moved : BitVec.ofNat 32 (tick + gap) - since = BitVec.ofNat 32 tick - since + BitVec.ofNat 32 gap := by
    rw [BitVec.ofNat_add]
    grind
  have small : gap % 2^32 = gap := Nat.mod_eq_of_lt (by omega)
  unfold age at short ⊢
  rw [moved, BitVec.toNat_add, BitVec.toNat_ofNat, small]
  exact Nat.mod_eq_of_lt short

theorem timeSince_age {since : TimeT} {tick : Nat} (short : age tick since < 2^31) :
    timeSince since (BitVec.ofNat 32 tick) = age tick since := by
  rw [timeSince, timeDiff, BitVec.toInt_eq_toNat_of_lt]
  · rfl
  · unfold age at short
    omega

theorem afterProcess_inTime {m next : Main} {poll : Poll} {tick : Nat} (now : poll.now = BitVec.ofNat 32 tick)
    (short : age tick m.cmdrsp.time < 2^31) (taken : m.afterProcess poll = .ok next) : InTime tick m := by
  have served := afterProcess_served taken
  unfold InTime
  cases busy : m.cmdrsp.state
  case txBusy | rxBusy =>
    have on := served.connected (by simp [busy])
    simp only [Main.afterProcess, on, not_true, if_false, Main.commandResponseHandle, busy, ne_eq, reduceCtorEq,
      not_false_eq_true, if_true] at taken
    split at taken
    · cases taken
    · rename_i prompt
      rw [now, timeSince_age short] at prompt
      omega
  all_goals trivial

theorem tock_ok {delta : Nat} {x : Timed delta} {c next : Clocked} (taken : tock x c = .ok next) :
    next.tick = c.tick + x.gap ∧ iterate (x.input.dated (c.tick + x.gap)) c.sys = .ok next.sys := by
  unfold tock at taken
  split at taken
  · cases taken
  · rename_i sys ran
    cases taken
    exact ⟨rfl, ran⟩

theorem tock_log {delta : Nat} (x : Timed delta) (c next : Clocked) (taken : tock x c = .ok next) :
    c.sys.main.log <+: next.sys.main.log := by
  obtain ⟨_, ran⟩ := tock_ok taken
  obtain ⟨usb, main, processed, ran, same⟩ := iterate_ok ran
  obtain ⟨middle, called, served⟩ := iterate_served ran
  obtain ⟨_, _, rfl⟩ := usbhCdcProcess_same called
  rw [same]
  exact served.log

theorem test_live {delta tick gap : Nat} {m next : Main} {now : TimeT} (prompt : gap ≤ delta) (live : Live tick m)
    (now_eq : now = BitVec.ofNat 32 (tick + gap)) (idle : m.cmdrsp.state = .idle) (tested : Tested m now next)
    (started : next.state ≠ 0) : .pass ∈ next.log ∨ Live (tick + gap) next ∧ next.state ≠ 0 ∧
      gap + timeLeft delta (tick + gap) next ≤ timeLeft delta tick m := by
  rcases tested_within live.within tested with passed | ⟨early, within⟩
  · exact .inl passed.2
  · right
    obtain ⟨fewer, sent⟩ := tested_spends live.within tested early
    have test : tests next * delta + delta ≤ tests m * delta := by
      rw [← Nat.succ_mul]
      exact Nat.mul_le_mul_right delta fewer
    have waits : exchangeLeft delta tick m = 0 := by simp [exchangeLeft, idle]
    rcases sent with ⟨quiet, same⟩ | ⟨⟨busy, time⟩, once⟩
    · have idle' : next.cmdrsp.state = .idle := by rw [quiet, idle]
      have waits' : exchangeLeft delta (tick + gap) next = 0 := by simp [exchangeLeft, idle']
      have none := Nat.mul_le_mul_right (timeMs 500 + timeMs 5000 + 2 * delta) same
      refine ⟨⟨early, within, fun busy => absurd idle' busy, by simp [InTime, idle']⟩, started, ?_⟩
      unfold timeLeft
      omega
    · have fresh : age (tick + gap) next.cmdrsp.time = 0 := by simp [age, time, now_eq]
      have whole : exchangeLeft delta (tick + gap) next = timeMs 500 + timeMs 5000 + 2 * delta := by
        simp [exchangeLeft, busy, fresh]
      have one : commands next * (timeMs 500 + timeMs 5000 + 2 * delta) + (timeMs 500 + timeMs 5000 + 2 * delta) ≤
          commands m * (timeMs 500 + timeMs 5000 + 2 * delta) := by
        rw [← Nat.succ_mul]
        exact Nat.mul_le_mul_right _ once
      refine ⟨⟨early, within, fun _ => started, by simp [InTime, busy, fresh]⟩, started, ?_⟩
      unfold timeLeft
      omega

theorem timeLeft_waits {delta tick later gap : Nat} {m next : Main} (state : next.state = m.state)
    (pinIter : next.pinIter = m.pinIter) (outerIter : next.outerIter = m.outerIter)
    (paid : gap + exchangeLeft delta later next ≤ exchangeLeft delta tick m) :
    gap + timeLeft delta later next ≤ timeLeft delta tick m := by
  have left (pins : List Nat) : pinsLeft pins next = pinsLeft pins m := by rw [pinsLeft, pinIter, outerIter, pinsLeft]
  have sameTests : tests next = tests m := by simp only [tests, state, left]
  have sameCommands : commands next = commands m := by simp only [commands, state, left]
  rw [timeLeft, timeLeft, sameTests, sameCommands]
  omega

theorem afterProcess_live {delta tick gap : Nat} {m next : Main} {poll : Poll} {state : CmdRspState}
    (slack : delta + timeMs 5000 < 2^31) (prompt : gap ≤ delta) (live : Live tick m)
    (now : poll.now = BitVec.ofNat 32 (tick + gap)) (advanced : Advanced m.cmdrsp.state state)
    (taken : Main.afterProcess { m with cmdrsp.state := state } poll = .ok next)
    (settled : ¬ Passing m.cmdrsp.state) :
    .pass ∈ next.log ∨ Live (tick + gap) next ∧ (m.state ≠ 0 → next.state ≠ 0 ∧
      gap + timeLeft delta (tick + gap) next ≤ timeLeft delta tick m) := by
  obtain ⟨early, within, begun, inTime⟩ := live
  have first : timeMs 500 = 4500000 := rfl
  have second : timeMs 5000 = 45000000 := rfl
  unfold InTime at inTime
  cases afterProcess_served taken with
  | unconnected off initial idle =>
    have idle' : state = .idle := idle
    have zero : m.state = 0 := initial
    exact .inr ⟨⟨early, within, fun busy => absurd idle' busy, by simp [InTime, idle']⟩, fun on => absurd zero on⟩
  | test next on idle ran =>
    have quiet : m.cmdrsp.state = .idle := advanced.idle.mpr idle
    obtain rfl : state = .idle := idle
    have live' : Live tick { m with cmdrsp.state := .idle } :=
      ⟨early, within, fun busy => absurd rfl busy, trivial⟩
    have started : next.state ≠ 0 := by
      cases runState_issued ran with
      | quiet _ _ _ begun => exact Nat.ne_of_gt (begun (Nat.succ_pos _))
      | command _ _ _ _ begun => exact Nat.ne_of_gt (begun (Nat.succ_pos _))
    have same : timeLeft delta tick { m with cmdrsp.state := .idle } = timeLeft delta tick m := by
      simp only [timeLeft, exchangeLeft, quiet]
      rfl
    rcases test_live prompt live' now rfl (runState_tested early within ran) started with passed | ⟨kept, on, paid⟩
    · exact .inl passed
    · exact .inr ⟨kept, fun _ => ⟨on, by rw [← same]; exact paid⟩⟩
  | txWait on busy =>
    obtain rfl : state = .txBusy := busy
    have waits : m.cmdrsp.state = .txBusy := by
      generalize found : CmdRspState.txBusy = after at advanced
      cases advanced with
      | same => rfl
      | transmitted => cases found
      | received => cases found
    rw [waits] at inTime
    have later : age (tick + gap) m.cmdrsp.time = age tick m.cmdrsp.time + gap := age_later (by omega)
    have short : age (tick + gap) m.cmdrsp.time < 2^31 := by omega
    have kept : age (tick + gap) m.cmdrsp.time ≤ timeMs 500 := afterProcess_inTime now (by exact short) taken
    refine .inr ⟨⟨early, within, fun _ => begun (by simp [waits]), ?_⟩, fun on => ⟨on, timeLeft_waits rfl rfl rfl ?_⟩⟩
    · exact kept
    · simp only [exchangeLeft, waits]
      omega
  | rxWait on busy =>
    obtain rfl : state = .rxBusy := busy
    have waits : m.cmdrsp.state = .rxBusy := by
      generalize found : CmdRspState.rxBusy = after at advanced
      cases advanced with
      | same => rfl
      | transmitted => cases found
      | received => cases found
    rw [waits] at inTime
    have later : age (tick + gap) m.cmdrsp.time = age tick m.cmdrsp.time + gap := age_later (by omega)
    have short : age (tick + gap) m.cmdrsp.time < 2^31 := by omega
    have kept : age (tick + gap) m.cmdrsp.time ≤ timeMs 5000 := afterProcess_inTime now (by exact short) taken
    refine .inr ⟨⟨early, within, fun _ => begun (by simp [waits]), ?_⟩, fun on => ⟨on, timeLeft_waits rfl rfl rfl ?_⟩⟩
    · exact kept
    · simp only [exchangeLeft, waits]
      omega
  | transmitted on done =>
    have waits : m.cmdrsp.state = .txBusy := by
      cases advanced with
      | same => exact absurd (.inl done) settled
      | transmitted was => exact was
      | received => cases done
    rw [waits] at inTime
    have fresh : age (tick + gap) poll.now = 0 := by simp [age, now]
    refine .inr ⟨⟨early, within, fun _ => begun (by simp [waits]), ?_⟩, fun on => ⟨on, timeLeft_waits rfl rfl rfl ?_⟩⟩
    · unfold InTime
      dsimp only
      rw [fresh]
      exact Nat.zero_le _
    · simp only [exchangeLeft, waits, fresh]
      omega
  | received on done =>
    have waits : m.cmdrsp.state = .rxBusy := by
      cases advanced with
      | same => exact absurd (.inr done) settled
      | transmitted => cases done
      | received was => exact was
    rw [waits] at inTime
    refine .inr ⟨⟨early, within, fun busy => absurd rfl busy, trivial⟩, fun on => ⟨on, timeLeft_waits rfl rfl rfl ?_⟩⟩
    simp only [exchangeLeft, waits, Main.record]
    omega

theorem iterate_live {delta tick gap : Nat} {input : Input} {s next : Sys} (slack : delta + timeMs 5000 < 2^31)
    (prompt : gap ≤ delta) (alternates : Alternates s) (live : Live tick s.main)
    (now : input.reading.now = BitVec.ofNat 32 (tick + gap)) (taken : iterate input s = .ok next) :
    .pass ∈ next.main.log ∨ Live (tick + gap) next.main ∧ (s.main.state ≠ 0 → next.main.state ≠ 0 ∧
      gap + timeLeft delta (tick + gap) next.main ≤ timeLeft delta tick s.main) := by
  obtain ⟨usb, main, processed, ran, rfl⟩ := iterate_ok taken
  obtain ⟨state, called, _, _, advanced⟩ := iterate_parts alternates processed
  have after : Main.afterProcess { (view s.main usb).newIteration with cmdrsp.state := state } (input.poll usb) =
      .ok main := by
    rw [← ran, Sequence.iterate, called]
  have seen : Live tick (view s.main usb).newIteration := ⟨live.early, live.within, live.begun, live.inTime⟩
  have kept : .pass ∈ main.log ∨ Live (tick + gap) main ∧ ((view s.main usb).newIteration.state ≠ 0 → main.state ≠ 0 ∧
      gap + timeLeft delta (tick + gap) main ≤ timeLeft delta tick (view s.main usb).newIteration) :=
    afterProcess_live slack prompt seen now advanced after alternates.settled
  exact kept

def OnCourse (c : Clocked) : Prop := .pass ∈ c.sys.main.log ∨ Live c.tick c.sys.main

theorem tock_onCourse {delta : Nat} (slack : delta + timeMs 5000 < 2^31) (x : Timed delta) (c next : Clocked)
    (kept : Alternates c.sys ∧ OnCourse c) (taken : tock x c = .ok next) : Alternates next.sys ∧ OnCourse next := by
  obtain ⟨tick, ran⟩ := tock_ok taken
  refine ⟨iterate_alternates _ _ _ kept.1 ran, ?_⟩
  rcases kept.2 with passed | live
  · exact .inl ((tock_log x c next taken).subset passed)
  · rcases iterate_live slack x.prompt kept.1 live rfl ran with passed | ⟨later, _⟩
    · exact .inl passed
    · rw [← tick] at later
      exact .inr later

structure Running (delta latest : Nat) (c : Clocked) : Prop where
  alternates : Alternates c.sys
  live : Live c.tick c.sys.main
  begun : c.sys.main.state ≠ 0
  left : c.tick + timeLeft delta c.tick c.sys.main ≤ latest

theorem tock_running {delta latest : Nat} (slack : delta + timeMs 5000 < 2^31) (x : Timed delta) (c next : Clocked)
    (kept : .pass ∈ c.sys.main.log ∨ Running delta latest c) (taken : tock x c = .ok next) :
    .pass ∈ next.sys.main.log ∨ Running delta latest next := by
  rcases kept with passed | running
  · exact .inl ((tock_log x c next taken).subset passed)
  · obtain ⟨tick, ran⟩ := tock_ok taken
    rcases iterate_live slack x.prompt running.alternates running.live rfl ran with passed | ⟨later, paid⟩
    · exact .inl passed
    · obtain ⟨begun, paid⟩ := paid running.begun
      have left := running.left
      rw [← tick] at later paid
      exact .inr ⟨iterate_alternates _ _ _ running.alternates ran, later, begun, by omega⟩

/-- A sequence that has begun comes to a PASS, or main() has left its loop, after 5.5 s for each command and the turns
of the loop in between. -/
theorem verdict_in_time (latches : Gpio) (delta start : Nat) (slack : delta + timeMs 5000 < 2^31)
    (before during : List (Timed delta)) (c final : Clocked)
    (begins : exec tock before ⟨start, powerOn latches⟩ = .ok c) (begun : c.sys.main.state ≠ 0)
    (run : exec tock during c = .ok final) :
    .pass ∈ final.sys.main.log ∨
      final.tick ≤ c.tick + 224 * (timeMs 500 + timeMs 5000 + 2 * delta) + 508 * delta := by
  have initial : Live start (powerOn latches).main :=
    ⟨Nat.succ_pos 19, ⟨rfl, rfl⟩, fun busy => absurd rfl busy, trivial⟩
  obtain ⟨alternates, course⟩ := exec_invariant (tock_onCourse slack) ⟨powerOn_alternates latches, .inr initial⟩ begins
  have kept : .pass ∈ c.sys.main.log ∨
      Running delta (c.tick + 224 * (timeMs 500 + timeMs 5000 + 2 * delta) + 508 * delta) c := by
    rcases course with passed | live
    · exact .inl passed
    · refine .inr ⟨alternates, live, begun, ?_⟩
      obtain ⟨fewTests, fewCommands⟩ := most_left begun
      have tested := Nat.mul_le_mul_right delta fewTests
      have commanded := Nat.mul_le_mul_right (timeMs 500 + timeMs 5000 + 2 * delta) fewCommands
      have underWay : exchangeLeft delta c.tick c.sys.main ≤ timeMs 500 + timeMs 5000 + 2 * delta := by
        unfold exchangeLeft
        split <;> omega
      unfold timeLeft
      omega
  rcases exec_invariant (tock_running slack) kept run with passed | running
  · exact .inl passed
  · exact .inr (Nat.le_trans (Nat.le_add_right _ _) running.left)

def everyMs (schedule : Schedule) : Timed (timeMs 400) := ⟨schedule.input, timeMs 1, by decide⟩

/-- After the first command, an iteration 400 ms later that meets no answer -/
theorem verdict_in_time_first : ∃ c final, exec tock ((firstCommand 2 64).map everyMs) ⟨0, powerOn fun _ _ => false⟩ = .ok c ∧
    exec tock [⟨(calm (turnAfter [])).input, timeMs 400, Nat.le_refl _⟩] c = .ok final ∧
    (.pass ∈ final.sys.main.log ∨
      final.tick ≤ c.tick + 224 * (timeMs 500 + timeMs 5000 + 2 * timeMs 400) + 508 * timeMs 400) := by
  obtain ⟨c, begins, checked⟩ := exists_of_succeedsWith
    (fun c : Clocked => c.sys.main.state ≠ 0 ∧
      succeedsWith (fun _ => true) (exec tock [⟨(calm (turnAfter [])).input, timeMs 400, Nat.le_refl _⟩] c) = true)
    (exec tock ((firstCommand 2 64).map everyMs) ⟨0, powerOn fun _ _ => false⟩) (by decide +kernel)
  obtain ⟨begun, goesOn⟩ := of_decide_eq_true checked
  obtain ⟨final, run, _⟩ := exists_of_succeedsWith (fun _ : Clocked => true) _ goesOn
  exact ⟨c, final, begins, run, verdict_in_time _ _ _ (by decide) _ _ c final begins begun run⟩

end Testjig.System
