import Testjig.Sequence.Pass

namespace Testjig.Sequence

open Machine Testjig.Board

def lines : List Nat := inp ++ outp

/-- The line is driven low: by the jig's latch, or by the board as its last CMD_pins asked. -/
def DrivenLow (m : Main) (line : Nat) : Prop :=
  (∃ opin ∈ outPins, opin.pinId = line ∧ m.odr opin.gpioBank opin.gpioPin = false) ∨
    (line ∈ inp ∧ pinLevel (fun i => m.tcmd.u.getD i 0) line = false)

/-- Wired AND: a reader sees low when some line that it is connected to is driven low. -/
def SeenLow (conn : Nat → Nat → Prop) (m : Main) (reader : Nat) : Prop :=
  ∃ line ∈ lines, conn reader line ∧ DrivenLow m line

/-- What the wiring and the board let an iteration read: the levels of the lines, and in a
finished CMD_pins reply those of `outp[]`. -/
structure Wired (conn : Nat → Nat → Prop) (m : Main) (poll : Poll) : Prop where
  inputs : ∀ ipin ∈ inPins, poll.idr ipin.gpioBank ipin.gpioPin = false ↔ SeenLow conn m ipin.pinId
  replies : ∀ answered, m.newIteration.usbhCdcProcess poll.actions = .ok answered →
    answered.cmdrsp.state = .rxDone → ∀ line ∈ outp, pinLevel answered.rspbuf line = false ↔ SeenLow conn m line

/-- A run over this wiring, up to the end of state 12 -/
inductive WiredRun (conn : Nat → Nat → Prop) : Main → Main → Prop where
  | refl (m : Main) : WiredRun conn m m
  | step {m next last : Main} (poll : Poll) (unfinished : m.state < 12) (wired : Wired conn m poll)
      (taken : iterate poll m = .ok next) (rest : WiredRun conn next last) : WiredRun conn m last

/-- Each line is connected to itself and to nothing else. -/
def Straight (conn : Nat → Nat → Prop) : Prop :=
  ∀ reader ∈ lines, ∀ line ∈ lines, conn reader line ↔ reader = line

/-- No reader but the line's own sees it. -/
def Alone (conn : Nat → Nat → Prop) (line : Nat) : Prop :=
  ∀ reader ∈ lines, conn reader line ↔ reader = line

/-- The lines driven low in a state of the pin tests, while its command is on the way and after. -/
def Driving (m : Main) : Prop :=
  match m.state with
  | 3 | 5 => ∀ opin ∈ outPins, m.odr opin.gpioBank opin.gpioPin = true
  | 4 => (∀ opin ∈ outPins, m.odr opin.gpioBank opin.gpioPin = true) ∧
      ∃ pin, inp[m.pinIter]? = some pin ∧ m.tcmd = .setPin (some pin)
  | 6 => (∀ opin ∈ outPins, m.odr opin.gpioBank opin.gpioPin = true) ∧ m.tcmd = .setPin none
  | 8 => ∃ pin, outp[m.pinIter]? = some pin ∧
      ∀ opin ∈ outPins, m.odr opin.gpioBank opin.gpioPin = decide (opin.pinId ≠ pin)
  | 9 => (∃ pin, outp[m.pinIter]? = some pin ∧
      ∀ opin ∈ outPins, m.odr opin.gpioBank opin.gpioPin = decide (opin.pinId ≠ pin)) ∧ m.tcmd = .setPin none
  | 11 => (∀ opin ∈ outPins, m.odr opin.gpioBank opin.gpioPin = false) ∧ m.tcmd = .plain cmdPins
  | _ => True

/-- The lines found alone so far: those of a finished loop, or of the pins that a loop has passed. -/
structure Found (conn : Nat → Nat → Prop) (state iter outer : Nat) : Prop where
  input : ∀ line ∈ inp, 5 ≤ state ∨ 1 ≤ outer ∨ line ∈ inp.take iter → Alone conn line
  output : ∀ line ∈ outp, 10 ≤ state ∨ (7 ≤ state ∧ (1 ≤ outer ∨ line ∈ outp.take iter)) → Alone conn line

def answering (state : Nat) : Bool := state = 4 ∨ state = 6 ∨ state = 9 ∨ state = 11

theorem unanswered {state : Nat} {p : Prop} (silent : answering state = false) (answers : answering state = true) : p := by
  rw [silent] at answers
  cases answers

def inTests (state : Nat) : Bool := 3 ≤ state ∧ state ≤ 12

structure WiredInvariant (conn : Nat → Nat → Prop) (m : Main) : Prop where
  range : inTests m.state = true
  within : Within m
  driving : Driving m
  found : Found conn m.state m.pinIter m.outerIter
  answered : answering m.state → m.cmdrsp.state = .idle → ∀ line ∈ outp, pinLevel m.rspbuf line = false ↔ SeenLow conn m line

theorem setPin_levels : ∀ pin ∈ inp, ∀ line ∈ inp,
    pinLevel (fun i => (Cmd.setPin (some pin)).u.getD i 0) line = false ↔ line = pin := by
  decide

theorem setPinNone_levels : ∀ line ∈ inp, pinLevel (fun i => (Cmd.setPin none).u.getD i 0) line = true := by
  decide

theorem plain_levels : ∀ line ∈ inp, pinLevel (fun i => (Cmd.plain cmdPins).u.getD i 0) line = false := by
  decide

theorem outp_pins : outp = outPins.map (·.pinId) := rfl

theorem inp_pins : inp = inPins.map (·.pinId) := rfl

theorem onlyLow_level : ∀ pin ∈ outp, ∀ line ∈ outp, (onlyLow pin).getLsbD line = decide (line ≠ pin) := by
  decide

theorem drivenLow_in {m : Main} {pin : Nat} (line : Nat) (listed : pin ∈ inp)
    (high : ∀ opin ∈ outPins, m.odr opin.gpioBank opin.gpioPin = true) (sent : m.tcmd = .setPin (some pin)) :
    DrivenLow m line ↔ line = pin := by
  constructor
  · rintro (⟨opin, member, _, low⟩ | ⟨member, low⟩)
    · rw [high opin member] at low
      cases low
    · rw [sent] at low
      exact (setPin_levels pin listed line member).mp low
  · rintro rfl
    refine .inr ⟨listed, ?_⟩
    rw [sent]
    exact (setPin_levels line listed line listed).mpr rfl

theorem drivenLow_none {m : Main} (line : Nat) (high : ∀ opin ∈ outPins, m.odr opin.gpioBank opin.gpioPin = true)
    (sent : m.tcmd = .setPin none) : ¬ DrivenLow m line := by
  rintro (⟨opin, member, _, low⟩ | ⟨member, low⟩)
  · rw [high opin member] at low
    cases low
  · rw [sent, setPinNone_levels line member] at low
    cases low

theorem drivenLow_out {m : Main} {pin : Nat} (line : Nat) (listed : pin ∈ outp)
    (only : ∀ opin ∈ outPins, m.odr opin.gpioBank opin.gpioPin = decide (opin.pinId ≠ pin))
    (sent : m.tcmd = .setPin none) : DrivenLow m line ↔ line = pin := by
  constructor
  · rintro (⟨opin, member, same, low⟩ | ⟨member, low⟩)
    · rw [only opin member] at low
      simpa [same] using low
    · rw [sent, setPinNone_levels line member] at low
      cases low
  · rintro rfl
    rw [outp_pins] at listed
    obtain ⟨opin, member, same⟩ := List.mem_map.mp listed
    exact .inl ⟨opin, member, same, by rw [only opin member]; simp [same]⟩

theorem drivenLow_all {m : Main} {line : Nat} (listed : line ∈ lines)
    (low : ∀ opin ∈ outPins, m.odr opin.gpioBank opin.gpioPin = false) (sent : m.tcmd = .plain cmdPins) :
    DrivenLow m line := by
  rcases List.mem_append.mp listed with input | output
  · refine .inr ⟨input, ?_⟩
    rw [sent]
    exact plain_levels line input
  · rw [outp_pins] at output
    obtain ⟨opin, member, same⟩ := List.mem_map.mp output
    exact .inl ⟨opin, member, same, low opin member⟩

structure SameTest (m next : Main) : Prop where
  state : next.state = m.state
  pinIter : next.pinIter = m.pinIter
  outerIter : next.outerIter = m.outerIter
  odr : next.odr = m.odr
  tcmd : next.tcmd = m.tcmd

theorem SameTest.trans {m middle next : Main} (first : SameTest m middle) (second : SameTest middle next) :
    SameTest m next :=
  ⟨second.state.trans first.state, second.pinIter.trans first.pinIter, second.outerIter.trans first.outerIter,
    second.odr.trans first.odr, second.tcmd.trans first.tcmd⟩

theorem usbAction_frame {m next : Main} {action : UsbAction} (taken : m.usbAction action = .ok next) :
    m.cmdrsp.state ≠ .idle ∧ next.cmdrsp.state ≠ .idle ∧ SameTest m next := by
  obtain ⟨was, state, rspbuf, busy, rfl⟩ := usbAction_cases taken
  exact ⟨was, busy, rfl, rfl, rfl, rfl, rfl⟩

theorem usbhCdcProcess_frame {m next : Main} {actions : List UsbAction}
    (taken : m.usbhCdcProcess actions = .ok next) (busy : m.cmdrsp.state ≠ .idle) :
    next.cmdrsp.state ≠ .idle ∧ SameTest m next := by
  have kept (action : UsbAction) (before after : Main) (holds : before.cmdrsp.state ≠ .idle ∧ SameTest m before)
      (acted : before.usbAction action = .ok after) : after.cmdrsp.state ≠ .idle ∧ SameTest m after := by
    obtain ⟨_, busyAfter, same⟩ := usbAction_frame acted
    exact ⟨busyAfter, holds.2.trans same⟩
  rw [usbhCdcProcess_exec] at taken
  exact exec_invariant kept ⟨busy, rfl, rfl, rfl, rfl, rfl⟩ taken

theorem SameTest.seenLow {conn : Nat → Nat → Prop} {m next : Main} (same : SameTest m next) (reader : Nat) :
    SeenLow conn next reader ↔ SeenLow conn m reader := by
  simp only [SeenLow, DrivenLow, same.odr, same.tcmd]

theorem WiredInvariant.moved {conn : Nat → Nat → Prop} {m next : Main} (holds : WiredInvariant conn m)
    (same : SameTest m next) (answered : next.cmdrsp.state = .idle →
      ∀ line ∈ outp, answering m.state → (pinLevel next.rspbuf line = false ↔ SeenLow conn m line)) :
    WiredInvariant conn next where
  range := by rw [same.state]; exact holds.range
  within := by
    have within := holds.within
    unfold Within at within ⊢
    rwa [same.state, same.pinIter, same.outerIter]
  driving := by
    have driving := holds.driving
    unfold Driving at driving ⊢
    rwa [same.state, same.pinIter, same.odr, same.tcmd]
  found := by rw [same.state, same.pinIter, same.outerIter]; exact holds.found
  answered := by
    intro answers idle line member
    rw [same.seenLow]
    exact answered idle line member (same.state ▸ answers)

theorem seenLow_single {conn : Nat → Nat → Prop} {m : Main} {pin : Nat} (listed : pin ∈ lines)
    (driven : ∀ line, DrivenLow m line ↔ line = pin) (reader : Nat) : SeenLow conn m reader ↔ conn reader pin := by
  constructor
  · rintro ⟨line, _, linked, low⟩
    rw [driven] at low
    exact low ▸ linked
  · intro linked
    exact ⟨pin, listed, linked, (driven pin).mpr rfl⟩

theorem onlyAsserted_alone {conn : Nat → Nat → Prop} {m : Main} {poll : Poll} {pin : Nat} (listed : pin ∈ lines)
    (driven : ∀ line, DrivenLow m line ↔ line = pin) (wired : Wired conn m poll)
    (answered : ∀ line ∈ outp, pinLevel m.rspbuf line = false ↔ SeenLow conn m line) :
    OnlyAsserted (some pin) m.rspbuf (readPinmask poll.idr) ↔ Alone conn pin := by
  have inputs : ∀ line ∈ inp, (readPinmask poll.idr).getLsbD line = false ↔ conn line pin := by
    intro line member
    rw [inp_pins] at member
    obtain ⟨ipin, pinMember, rfl⟩ := List.mem_map.mp member
    rw [readPinmask_input poll.idr pinMember, wired.inputs ipin pinMember, seenLow_single listed driven]
  have outputs : ∀ line ∈ outp, pinLevel m.rspbuf line = false ↔ conn line pin := by
    intro line member
    rw [answered line member, seenLow_single listed driven]
  constructor
  · rintro ⟨out, input⟩ reader member
    rcases List.mem_append.mp member with inside | outside
    · rw [← inputs reader inside, input reader inside, Option.some.injEq]
    · rw [← outputs reader outside, out reader outside, Option.some.injEq]
  · intro alone
    constructor
    · intro line member
      rw [outputs line member, alone line (List.mem_append_right _ member), Option.some.injEq]
    · intro line member
      rw [inputs line member, alone line (List.mem_append_left _ member), Option.some.injEq]

theorem onlyAsserted_none {conn : Nat → Nat → Prop} {m : Main} {poll : Poll}
    (driven : ∀ line, ¬ DrivenLow m line) (wired : Wired conn m poll)
    (answered : ∀ line ∈ outp, pinLevel m.rspbuf line = false ↔ SeenLow conn m line) :
    OnlyAsserted none m.rspbuf (readPinmask poll.idr) := by
  have unseen : ∀ reader, ¬ SeenLow conn m reader := by
    rintro reader ⟨line, _, _, low⟩
    exact driven line low
  constructor
  · intro line member
    simp [answered line member, unseen]
  · intro line member
    rw [inp_pins] at member
    obtain ⟨ipin, pinMember, rfl⟩ := List.mem_map.mp member
    simp [readPinmask_input poll.idr pinMember, wired.inputs ipin pinMember, unseen]

theorem allLow_straight {conn : Nat → Nat → Prop} {m : Main} {poll : Poll} (straight : Straight conn)
    (driven : ∀ line ∈ lines, DrivenLow m line) (wired : Wired conn m poll)
    (answered : ∀ line ∈ outp, pinLevel m.rspbuf line = false ↔ SeenLow conn m line) :
    AllLow m.rspbuf (readPinmask poll.idr) := by
  have seen : ∀ reader ∈ lines, SeenLow conn m reader := by
    intro reader member
    exact ⟨reader, member, (straight reader member reader member).mpr rfl, driven reader member⟩
  constructor
  · intro line member
    exact (answered line member).mpr (seen line (List.mem_append_right _ member))
  · intro line member
    have seenLine := seen line (List.mem_append_left _ member)
    rw [inp_pins] at member
    obtain ⟨ipin, pinMember, rfl⟩ := List.mem_map.mp member
    rw [readPinmask_input poll.idr pinMember]
    exact (wired.inputs ipin pinMember).mpr seenLine

/-- How far a run through states 3 to 12 is; every state that runs moves it on. -/
def done (state iter outer : Nat) : Nat :=
  match state with
  | 3 => 40 * outer + 3 * iter
  | 4 => 40 * outer + 3 * iter + 1
  | 5 => 1000
  | 6 => 1001
  | 7 => 2000 + 40 * outer + 4 * iter
  | 8 => 2000 + 40 * outer + 4 * iter + 1
  | 9 => 2000 + 40 * outer + 4 * iter + 2
  | 10 => 3000
  | 11 => 3001
  | _ => 3002

def progressOf (m : Main) : Nat := done m.state m.pinIter m.outerIter

/-- What a state does on a wired board: it goes on, or it stops at a pin, and then the wiring is not straight. -/
def StateResult (conn : Nat → Nat → Prop) (m : Main) (result : Except Halt Main) : Prop :=
  (∃ next, result = .ok next ∧ WiredInvariant conn next ∧ progressOf m < progressOf next ∧
    (next.cmdrsp.state = .idle ∨ (next.cmdrsp.state = .txBusy ∧ next.cmdrsp.rsp = none ∧ next.state < 12))) ∨
  (∃ pin, result = .error (.pinError pin) ∧ ¬ Straight conn)

theorem Found.wrapped {conn : Nat → Nat → Prop} {iter outer : Nat} (found : Found conn 3 iter outer)
    (whole : iter = inp.length) : ∀ line ∈ inp, Alone conn line := by
  intro line member
  exact found.input line member (.inr (.inr (by rw [whole, List.take_length]; exact member)))

theorem Found.phase {conn : Nat → Nat → Prop} {state next iter outer : Nat} (found : Found conn state iter outer)
    (inDone : 5 ≤ next → 5 ≤ state) (outStarted : 7 ≤ next → 7 ≤ state) (outDone : 10 ≤ next → 10 ≤ state) :
    Found conn next iter outer where
  input line member early := found.input line member (early.imp_left inDone)
  output line member early := found.output line member (early.imp outDone (And.imp_left outStarted))

theorem Found.asserted {conn : Nat → Nat → Prop} {iter outer iter0 outer0 : Nat} (found : Found conn 3 iter0 outer0)
    (moved : iter = iter0 ∧ outer = outer0 ∨ iter = 0 ∧ outer = outer0 + 1 ∧ iter0 = inp.length) :
    Found conn 4 iter outer := by
  rcases moved with ⟨rfl, rfl⟩ | ⟨rfl, rfl, whole⟩
  · exact found.phase (by omega) (by omega) (by omega)
  · exact ⟨fun line member _ => found.wrapped whole line member, fun line member early => by omega⟩

theorem mem_take_next {pins : List Nat} {iter pin line : Nat} (at0 : pins[iter]? = some pin) :
    line ∈ pins.take (iter + 1) ↔ line ∈ pins.take iter ∨ line = pin := by
  rw [List.take_add_one, at0]
  simp

theorem Found.checkedIn {conn : Nat → Nat → Prop} {iter outer pin : Nat} (found : Found conn 4 iter outer)
    (at0 : inp[iter]? = some pin) (alone : Alone conn pin) : Found conn 3 (iter + 1) outer where
  input := by
    intro line member early
    rcases early with late | again | passed
    · omega
    · exact found.input line member (.inr (.inl again))
    · rcases (mem_take_next at0).mp passed with before | rfl
      · exact found.input line member (.inr (.inr before))
      · exact alone
  output := fun line member early => by omega

theorem Found.checkedOut {conn : Nat → Nat → Prop} {iter outer pin : Nat} (found : Found conn 9 iter outer)
    (at0 : outp[iter]? = some pin) (alone : Alone conn pin) : Found conn 7 (iter + 1) outer where
  input := fun line member _ => found.input line member (.inl (by decide))
  output := by
    intro line member early
    rcases early with late | ⟨_, again | passed⟩
    · omega
    · exact found.output line member (.inr ⟨by decide, .inl again⟩)
    · rcases (mem_take_next at0).mp passed with before | rfl
      · exact found.output line member (.inr ⟨by decide, .inr before⟩)
      · exact alone

theorem Found.wrappedOut {conn : Nat → Nat → Prop} {iter outer : Nat} (found : Found conn 7 iter outer)
    (whole : iter = outp.length) : ∀ line ∈ outp, Alone conn line := by
  intro line member
  exact found.output line member (.inr ⟨by decide, .inr (by rw [whole, List.take_length]; exact member)⟩)

theorem Found.driven {conn : Nat → Nat → Prop} {iter outer iter0 outer0 : Nat} (found : Found conn 7 iter0 outer0)
    (moved : iter = iter0 ∧ outer = outer0 ∨ iter = 0 ∧ outer = outer0 + 1 ∧ iter0 = outp.length) :
    Found conn 8 iter outer := by
  rcases moved with ⟨rfl, rfl⟩ | ⟨rfl, rfl, whole⟩
  · exact found.phase (by omega) (by omega) (by omega)
  · exact ⟨fun line member _ => found.input line member (.inl (by decide)),
      fun line member _ => found.wrappedOut whole line member⟩

theorem checkPin_wired {conn : Nat → Nat → Prop} {m : Main} {poll : Poll} {pins : List Nat} {pin back : Nat}
    (at0 : pins[m.pinIter]? = some pin)
    (judged : OnlyAsserted (some pin) m.rspbuf (readPinmask poll.idr) ↔ Alone conn pin) (listed : pin ∈ lines) :
    (Alone conn pin ∧ m.checkPin poll.idr pins back =
      .ok { m.loadTrsp.record (.checked (some pin) (readPinmask poll.idr)) with
        pinIter := m.pinIter + 1, state := back - 1 }) ∨
    (∃ bad, m.checkPin poll.idr pins back = .error (.pinError bad) ∧ ¬ Straight conn) := by
  by_cases only : OnlyAsserted (some pin) m.rspbuf (readPinmask poll.idr)
  · left
    have checked := (checkPins_ok m _ poll.idr (some pin)).mpr ⟨only, rfl⟩
    refine ⟨judged.mp only, ?_⟩
    simp only [Main.checkPin, at0, checked]
    rfl
  · right
    obtain ⟨bad, checked⟩ := checkPins_error (m := m) only
    refine ⟨bad, by simp [Main.checkPin, at0, checked], ?_⟩
    intro straight
    exact only (judged.mpr fun reader member => straight reader member pin listed)

theorem assertIn_wired {conn : Nat → Nat → Prop} {m : Main} (poll : Poll) (holds : WiredInvariant conn m)
    (idle : m.cmdrsp.state = .idle) (at3 : m.state = 3) :
    StateResult conn m (m.advance.runState poll) := by
  have within := holds.within
  have driving := holds.driving
  have found := holds.found
  simp only [Within, Driving, at3] at within driving found
  simp only [Main.advance, at3, Main.runState]
  left
  rcases nextPin_result { m with state := 4 } inp 6 (fun m pin => m.cmdSetPin poll.now (some pin)) (by decide)
      within.1 within.2 with
    ⟨whole, last, result⟩ | ⟨iter, outer, pin, at0, bound, lastOuter, moved, result⟩
  · refine ⟨_, result, ⟨rfl, ⟨rfl, rfl⟩, driving, ?_, unanswered rfl⟩, ?_, .inl idle⟩
    · exact ⟨fun line member _ => found.wrapped whole line member, fun line member early => absurd early (by simp)⟩
    · show done m.state m.pinIter m.outerIter < 1000
      rw [at3, whole, last]
      decide
  · refine ⟨_, result, ⟨rfl, ⟨bound, lastOuter⟩, ⟨driving, pin, at0, rfl⟩,
      found.asserted moved, fun _ idle => (by cases idle)⟩, ?_, .inr ⟨rfl, rfl, Nat.le_of_ble_eq_true rfl⟩⟩
    show done m.state m.pinIter m.outerIter < done 4 iter outer
    have size : inp.length = 13 := rfl
    simp only at moved
    simp only [at3, done]
    omega

theorem checkIn_wired {conn : Nat → Nat → Prop} {m : Main} {poll : Poll} (holds : WiredInvariant conn m)
    (wired : Wired conn m poll) (idle : m.cmdrsp.state = .idle) (at4 : m.state = 4) :
    StateResult conn m (m.advance.runState poll) := by
  have within := holds.within
  have driving := holds.driving
  have found := holds.found
  have answered := holds.answered (by rw [at4]; rfl) idle
  simp only [Within, Driving, at4] at within driving found
  obtain ⟨high, pin, at0, sent⟩ := driving
  have listed := List.mem_of_getElem? at0
  have judged := onlyAsserted_alone (List.mem_append_left _ listed) (fun line => drivenLow_in line listed high sent)
    wired answered
  simp only [Main.advance, at4, Main.runState]
  rcases checkPin_wired (m := { m with state := 5 }) at0 judged (List.mem_append_left _ listed) with
    ⟨alone, result⟩ | stopped
  · left
    refine ⟨_, result, ⟨rfl, ⟨within.1, within.2⟩, high, found.checkedIn at0 alone, unanswered rfl⟩,
      ?_, .inl idle⟩
    show done m.state m.pinIter m.outerIter < done 3 (m.pinIter + 1) m.outerIter
    simp only [at4, done]
    omega
  · exact .inr stopped

theorem driveOut_wired {conn : Nat → Nat → Prop} {m : Main} (poll : Poll) (holds : WiredInvariant conn m)
    (idle : m.cmdrsp.state = .idle) (at7 : m.state = 7) :
    StateResult conn m (m.advance.runState poll) := by
  have within := holds.within
  have found := holds.found
  simp only [Within, at7] at within found
  simp only [Main.advance, at7, Main.runState]
  left
  rcases nextPin_result { m with state := 8 } outp 11 (fun m pin => m.drive (onlyLow pin)) (by decide)
      within.1 within.2 with
    ⟨whole, last, result⟩ | ⟨iter, outer, pin, at0, bound, lastOuter, moved, result⟩
  · refine ⟨_, result, ⟨rfl, ⟨rfl, rfl⟩, trivial, ?_, unanswered rfl⟩, ?_, .inl idle⟩
    · exact ⟨fun line member _ => found.input line member (.inl (by decide)),
        fun line member _ => found.wrappedOut whole line member⟩
    · show done m.state m.pinIter m.outerIter < 3000
      rw [at7, whole, last]
      decide
  · have only : ∀ opin ∈ outPins, setPinmask (onlyLow pin) m.odr opin.gpioBank opin.gpioPin =
        decide (opin.pinId ≠ pin) := by
      intro opin member
      rw [setPinmask_output _ _ member]
      exact onlyLow_level pin (List.mem_of_getElem? at0) opin.pinId (List.mem_map_of_mem member)
    refine ⟨_, result, ⟨rfl, ⟨bound, lastOuter⟩, ⟨pin, at0, only⟩, found.driven moved,
      unanswered rfl⟩, ?_, .inl idle⟩
    show done m.state m.pinIter m.outerIter < done 8 iter outer
    have size : outp.length = 5 := rfl
    simp only at moved
    simp only [at7, done]
    omega

theorem checkOut_wired {conn : Nat → Nat → Prop} {m : Main} {poll : Poll} (holds : WiredInvariant conn m)
    (wired : Wired conn m poll) (idle : m.cmdrsp.state = .idle) (at9 : m.state = 9) :
    StateResult conn m (m.advance.runState poll) := by
  have within := holds.within
  have driving := holds.driving
  have found := holds.found
  have answered := holds.answered (by rw [at9]; rfl) idle
  simp only [Within, Driving, at9] at within driving found
  obtain ⟨⟨pin, at0, only⟩, sent⟩ := driving
  have listed := List.mem_of_getElem? at0
  have judged := onlyAsserted_alone (List.mem_append_right _ listed) (fun line => drivenLow_out line listed only sent)
    wired answered
  simp only [Main.advance, at9, Main.runState]
  rcases checkPin_wired (m := { m with state := 10 }) at0 judged (List.mem_append_right _ listed) with
    ⟨alone, result⟩ | stopped
  · left
    refine ⟨_, result, ⟨rfl, ⟨within.1, within.2⟩, trivial, found.checkedOut at0 alone, unanswered rfl⟩,
      ?_, .inl idle⟩
    show done m.state m.pinIter m.outerIter < done 7 (m.pinIter + 1) m.outerIter
    simp only [at9, done]
    omega
  · exact .inr stopped

theorem runState_wired {conn : Nat → Nat → Prop} {m : Main} {poll : Poll} (holds : WiredInvariant conn m)
    (wired : Wired conn m poll) (idle : m.cmdrsp.state = .idle) (unfinished : m.state < 12) :
    StateResult conn m (m.advance.runState poll) := by
  have range : 3 ≤ m.state ∧ m.state ≤ 12 := by simpa [inTests] using holds.range
  have within := holds.within
  have driving := holds.driving
  have found := holds.found
  have answered := holds.answered
  have states : m.state = 3 ∨ m.state = 4 ∨ m.state = 5 ∨ m.state = 6 ∨ m.state = 7 ∨ m.state = 8 ∨ m.state = 9 ∨
      m.state = 10 ∨ m.state = 11 := by omega
  rcases states with at3 | at4 | at5 | at6 | at7 | at8 | at9 | at10 | at11
  · exact assertIn_wired poll holds idle at3
  · exact checkIn_wired holds wired idle at4
  · simp only [Within, Driving, at5] at within driving found
    left
    simp only [Main.advance, at5, Main.runState]
    refine ⟨_, rfl, ⟨rfl, within, ⟨driving, rfl⟩, ?_, fun _ idle => (by cases idle)⟩, ?_,
      .inr ⟨rfl, rfl, Nat.le_of_ble_eq_true rfl⟩⟩
    · show Found conn 6 m.pinIter m.outerIter
      exact found.phase (by omega) (by omega) (by omega)
    · show done m.state m.pinIter m.outerIter < 1001
      simp [done, at5]
  · simp only [Within, Driving, at6] at within driving found
    left
    have only := onlyAsserted_none (fun line => drivenLow_none line driving.1 driving.2) wired
      (answered (by rw [at6]; rfl) idle)
    simp only [Main.advance, at6, Main.runState]
    refine ⟨_, (checkPins_ok _ _ poll.idr none).mpr ⟨only, rfl⟩, ⟨rfl, ?_, trivial, ?_, unanswered rfl⟩, ?_,
      .inl idle⟩
    · show m.pinIter ≤ outp.length ∧ m.outerIter ≤ 11
      rw [within.1, within.2]
      decide
    · show Found conn 7 m.pinIter m.outerIter
      rw [within.1, within.2]
      exact ⟨fun line member _ => found.input line member (.inl (by decide)),
        fun line member early => absurd early (by simp)⟩
    · show done m.state m.pinIter m.outerIter < done 7 m.pinIter m.outerIter
      rw [at6, within.1, within.2]
      decide
  · exact driveOut_wired poll holds idle at7
  · simp only [Within, Driving, at8] at within driving found
    left
    simp only [Main.advance, at8, Main.runState]
    refine ⟨_, rfl, ⟨rfl, within, ⟨driving, rfl⟩, ?_, fun _ idle => (by cases idle)⟩, ?_,
      .inr ⟨rfl, rfl, Nat.le_of_ble_eq_true rfl⟩⟩
    · show Found conn 9 m.pinIter m.outerIter
      exact found.phase (by omega) (by omega) (by omega)
    · show done m.state m.pinIter m.outerIter < done 9 m.pinIter m.outerIter
      simp only [at8, done]
      omega
  · exact checkOut_wired holds wired idle at9
  · simp only [Within, Driving, at10] at within driving found
    left
    simp only [Main.advance, at10, Main.runState]
    have low : ∀ opin ∈ outPins, setPinmask 0 m.odr opin.gpioBank opin.gpioPin = false := by
      intro opin member
      rw [setPinmask_output _ _ member]
      exact BitVec.getLsbD_zero
    refine ⟨_, rfl, ⟨rfl, within, ⟨low, rfl⟩, ?_, fun _ idle => (by cases idle)⟩, ?_,
      .inr ⟨rfl, rfl, Nat.le_of_ble_eq_true rfl⟩⟩
    · exact found.phase (fun _ => by decide) (fun _ => by decide) (fun _ => by decide)
    · show done m.state m.pinIter m.outerIter < 3001
      simp [done, at10]
  · simp only [Within, Driving, at11] at within driving found
    simp only [Main.advance, at11, Main.runState]
    by_cases low : AllLow m.rspbuf (readPinmask poll.idr)
    · left
      refine ⟨_, (checkPinsLow_ok _ _ poll.idr).mpr ⟨low, rfl⟩, ⟨rfl, within, trivial, ?_, unanswered rfl⟩,
        ?_, .inl idle⟩
      · exact found.phase (fun _ => by decide) (fun _ => by decide) (fun _ => by decide)
      · show done m.state m.pinIter m.outerIter < 3002
        simp [done, at11]
    · right
      obtain ⟨bad, result⟩ := checkPinsLow_error (m := { m with state := 12 }) low
      refine ⟨bad, result, ?_⟩
      intro straight
      exact low (allLow_straight straight (fun line listed => drivenLow_all listed driving.1 driving.2) wired
        (answered (by rw [at11]; rfl) idle))

theorem iterate_idle {m : Main} (poll : Poll) (idle : m.cmdrsp.state = .idle) (started : m.state ≠ 0) :
    (∃ halt, iterate poll m = .error halt ∧ ∀ pin, halt ≠ .pinError pin) ∨
      iterate poll m = m.newIteration.advance.runState poll := by
  have quiet : m.newIteration.cmdrsp.state = .idle := idle
  have running : m.newIteration.state ≠ 0 := started
  rw [iterate]
  cases poll.actions with
  | nil =>
    simp only [Main.usbhCdcProcess, Main.afterProcess, quiet]
    by_cases connected : poll.connected
    · right
      simp [connected]
    · left
      exact ⟨.systemReset, by simp [connected, running], by simp⟩
  | cons action rest =>
    left
    cases action with
    | transmitted =>
      simp [Main.usbhCdcProcess, Main.usbAction, Main.transmitCallback, quiet]
    | stored rspbuf =>
      simp [Main.usbhCdcProcess, Main.usbAction, quiet]
    | received =>
      simp [Main.usbhCdcProcess, Main.usbAction, Main.receiveCallback, quiet]

theorem commandResponseHandle_frame {m next : Main} {now : Time.TimeT}
    (taken : m.commandResponseHandle now = .ok next) (busy : m.cmdrsp.state ≠ .idle) :
    (next.cmdrsp.state = .idle → m.cmdrsp.state = .rxDone) ∧ next.rspbuf = m.rspbuf ∧ SameTest m next := by
  unfold Main.commandResponseHandle at taken
  cases state : m.cmdrsp.state with
  | idle => exact absurd state busy
  | txBusy =>
    simp only [state] at taken
    split at taken
    · cases taken
    · cases taken
      exact ⟨fun idle => absurd idle busy, rfl, rfl, rfl, rfl, rfl, rfl⟩
  | txDone =>
    simp only [state] at taken
    cases taken
    exact ⟨by simp, rfl, rfl, rfl, rfl, rfl, rfl⟩
  | rxBusy =>
    simp only [state] at taken
    split at taken
    · cases taken
    · cases taken
      exact ⟨fun idle => absurd idle busy, rfl, rfl, rfl, rfl, rfl, rfl⟩
  | rxDone =>
    simp only [state] at taken
    split at taken
    · split at taken
      · cases taken
      · cases taken
        exact ⟨fun _ => rfl, rfl, rfl, rfl, rfl, rfl, rfl⟩
    · cases taken
      exact ⟨fun _ => rfl, rfl, rfl, rfl, rfl, rfl, rfl⟩

theorem commandResponseHandle_noPin (m : Main) (now : Time.TimeT) (pin : Nat) :
    m.commandResponseHandle now ≠ .error (.pinError pin) := by
  unfold Main.commandResponseHandle
  cases m.cmdrsp.state with
  | idle => simp
  | txBusy => dsimp only; split <;> simp
  | txDone => simp
  | rxBusy => dsimp only; split <;> simp
  | rxDone =>
    dsimp only
    split
    · split <;> simp
    · simp

theorem usbhCdcProcess_noPin {m : Main} (actions : List UsbAction) (pin : Nat) :
    m.usbhCdcProcess actions ≠ .error (.pinError pin) := by
  induction actions generalizing m with
  | nil => simp [Main.usbhCdcProcess]
  | cons action rest ih =>
    rw [Main.usbhCdcProcess]
    cases acted : m.usbAction action with
    | ok middle => exact ih
    | error halt =>
      intro stopped
      cases stopped
      cases action <;> simp only [Main.usbAction, Main.transmitCallback, Main.receiveCallback] at acted <;>
        split at acted <;> cases acted

theorem iterate_wired {conn : Nat → Nat → Prop} {m : Main} {poll : Poll} (holds : WiredInvariant conn m)
    (unfinished : m.state < 12) (wired : Wired conn m poll) :
    (∀ next, iterate poll m = .ok next → WiredInvariant conn next) ∧
      (Straight conn → ∀ pin, iterate poll m ≠ .error (.pinError pin)) := by
  have range : 3 ≤ m.state ∧ m.state ≤ 12 := by simpa [inTests] using holds.range
  have started : m.state ≠ 0 := by omega
  have same : SameTest m m.newIteration := ⟨rfl, rfl, rfl, rfl, rfl⟩
  by_cases idle : m.cmdrsp.state = .idle
  · rcases iterate_idle poll idle started with ⟨halt, stopped, notPin⟩ | ran
    · rw [stopped]
      exact ⟨fun _ equal => (by cases equal), fun _ pin equal => notPin pin (Except.error.inj equal)⟩
    · have cleared : WiredInvariant conn m.newIteration :=
        holds.moved same fun _ line member answers => holds.answered answers idle line member
      have sameWires : Wired conn m.newIteration poll := ⟨wired.inputs, wired.replies⟩
      rw [ran]
      rcases runState_wired cleared sameWires idle unfinished with
        ⟨after, result, kept, _, _⟩ | ⟨bad, result, crooked⟩
      · rw [result]
        exact ⟨fun next equal => Except.ok.inj equal ▸ kept, fun _ _ equal => (by cases equal)⟩
      · rw [result]
        exact ⟨fun _ equal => (by cases equal), fun straight => absurd straight crooked⟩
  · rw [iterate]
    cases processed : m.newIteration.usbhCdcProcess poll.actions with
    | error halt =>
      refine ⟨fun _ equal => (by cases equal), fun _ pin equal => ?_⟩
      cases equal
      exact usbhCdcProcess_noPin poll.actions pin processed
    | ok middle =>
      obtain ⟨busy, moved⟩ := usbhCdcProcess_frame processed idle
      simp only [Main.afterProcess, ne_eq, busy, not_false_eq_true, or_true, if_true]
      by_cases connected : poll.connected
      · simp only [connected, not_true, if_false]
        refine ⟨fun next taken => ?_, fun _ pin => commandResponseHandle_noPin middle poll.now pin⟩
        obtain ⟨finished, rspbuf, handled⟩ := commandResponseHandle_frame taken busy
        refine holds.moved ((same.trans moved).trans handled) fun isIdle line member _ => ?_
        rw [rspbuf]
        exact wired.replies middle processed (finished isIdle) line member
      · simp [connected]

theorem latch_undriven (odr : Gpio) (log : List Event) (undriven : ∀ event ∈ log, ∀ mask, event.step ≠ .drive mask) :
    log.foldl Event.latch odr = odr := by
  induction log with
  | nil => rfl
  | cons event rest ih =>
    have first : event.latch odr = odr := by
      cases event with
      | drive mask => exact absurd rfl (undriven (.drive mask) List.mem_cons_self mask)
      | _ => rfl
    rw [List.foldl_cons, first]
    exact ih fun event member => undriven event (List.mem_cons_of_mem _ member)

theorem ready_wired {latches : Gpio} {m : Main} (conn : Nat → Nat → Prop) (holds : SequenceInvariant latches m)
    (at3 : m.state = 3) (idle : m.cmdrsp.state = .idle) (iter : m.pinIter = 0) (outer : m.outerIter = 0) :
    WiredInvariant conn m := by
  rcases holds with before | ⟨late, _⟩
  · have steps := before.idleSteps idle
    simp only [at3, iter, outer, progress, loopSteps_zero, List.append_nil] at steps
    have undriven : ∀ event ∈ m.log, ∀ mask, event.step ≠ .drive mask := by
      intro event member mask drives
      have listed := List.mem_map_of_mem (f := Event.step) member
      rw [steps, drives] at listed
      simp [opening] at listed
    have odr : m.odr = pinsInit latches := by
      rw [before.logged.latched]
      exact latch_undriven _ _ undriven
    exact
      { range := by rw [at3]; rfl
        within := by simp [Within, at3, iter, outer]
        driving := by
          simp only [Driving, at3, odr]
          exact fun opin member => pinsInit_output latches member
        found := by
          rw [at3, iter, outer]
          exact ⟨fun _ _ early => by simp at early, fun _ _ early => by simp at early⟩
        answered := by
          rw [at3]
          exact unanswered rfl }
  · omega

open Classical in
noncomputable def seenIdr (conn : Nat → Nat → Prop) (m : Main) : Gpio := fun bank pin =>
  decide (¬ ∃ ipin ∈ inPins, ipin.gpioBank = bank ∧ ipin.gpioPin = pin ∧ SeenLow conn m ipin.pinId)

open Classical in
noncomputable def seenReply (conn : Nat → Nat → Prop) (m : Main) : Buffer := fun i =>
  (BitVec.ofBoolListLE ((List.range 8).map fun k => decide (¬ SeenLow conn m (8 * i + k)))).setWidth 8

noncomputable def wiredPoll (conn : Nat → Nat → Prop) (m : Main) (actions : List UsbAction) : Poll where
  actions := actions
  connected := true
  now := 0
  idr := seenIdr conn m
  tcif := false
  dmabuf := fun _ => 0
  adc := fun _ => 0

theorem seenIdr_input (conn : Nat → Nat → Prop) (m : Main) {ipin : PinMapping} (listed : ipin ∈ inPins) :
    seenIdr conn m ipin.gpioBank ipin.gpioPin = false ↔ SeenLow conn m ipin.pinId := by
  have alone : ∀ pin ∈ inPins, ∀ other ∈ inPins,
      other.gpioBank = pin.gpioBank ∧ other.gpioPin = pin.gpioPin → other = pin := by decide
  rw [seenIdr, decide_eq_false_iff_not, Classical.not_not]
  constructor
  · rintro ⟨other, member, bank, pin, low⟩
    exact alone ipin listed other member ⟨bank, pin⟩ ▸ low
  · intro low
    exact ⟨ipin, listed, rfl, rfl, low⟩

theorem seenReply_level (conn : Nat → Nat → Prop) (m : Main) (line : Nat) :
    pinLevel (seenReply conn m) line = false ↔ SeenLow conn m line := by
  have place : 8 * (line / 8) + line % 8 = line := Nat.div_add_mod line 8
  have small : line % 8 < 8 := Nat.mod_lt _ (by decide)
  rw [pinLevel, seenReply, BitVec.getLsbD_setWidth, BitVec.getLsbD_ofBoolListLE]
  simp [small, place]

theorem wiredPoll_wired {conn : Nat → Nat → Prop} {m : Main} {actions : List UsbAction}
    (replies : ∀ answered, m.newIteration.usbhCdcProcess actions = .ok answered →
      answered.cmdrsp.state = .rxDone → answered.rspbuf = seenReply conn m) :
    Wired conn m (wiredPoll conn m actions) where
  inputs _ listed := seenIdr_input conn m listed
  replies answered processed finished line _ := by
    rw [replies answered processed finished]
    exact seenReply_level conn m line

theorem WiredRun.trans {conn : Nat → Nat → Prop} {m middle last : Main} (first : WiredRun conn m middle)
    (second : WiredRun conn middle last) : WiredRun conn m last := by
  induction first with
  | refl m => exact second
  | step poll unfinished wired taken _ ih => exact .step poll unfinished wired taken (ih second)

theorem WiredRun.invariant {conn : Nat → Nat → Prop} {m last : Main} (run : WiredRun conn m last)
    (holds : WiredInvariant conn m) : WiredInvariant conn last := by
  induction run with
  | refl m => exact holds
  | step poll unfinished wired taken _ ih => exact ih ((iterate_wired holds unfinished wired).1 _ taken)

theorem wired_answer (conn : Nat → Nat → Prop) {m : Main} (unfinished : m.state < 12)
    (busy : m.cmdrsp.state = .txBusy) (any : m.cmdrsp.rsp = none) :
    ∃ next, WiredRun conn m next ∧ next.cmdrsp.state = .idle ∧ progressOf next = progressOf m := by
  let sent : Main := { m.newIteration with
    cmdrsp := { m.cmdrsp with state := .rxBusy, time := 0 }, call := some (.receive m.cmdrsp.rspLen) }
  have first : iterate (wiredPoll conn m [.transmitted]) m = .ok sent := by
    simp [iterate, Main.usbhCdcProcess, Main.usbAction, Main.transmitCallback, Main.newIteration, busy,
      Main.afterProcess, wiredPoll, Main.commandResponseHandle, sent]
  have firstWired : Wired conn m (wiredPoll conn m [.transmitted]) := by
    apply wiredPoll_wired
    intro answered processed finished
    simp only [Main.usbhCdcProcess, Main.usbAction, Main.transmitCallback, Main.newIteration, busy] at processed
    cases processed
    cases finished
  let answered : Main := { sent.newIteration with
    rspbuf := seenReply conn sent, cmdrsp := { sent.cmdrsp with state := .idle }
    log := sent.log ++ [.reply (seenReply conn sent)] }
  have second : iterate (wiredPoll conn sent [.stored (seenReply conn sent), .received]) sent = .ok answered := by
    simp [iterate, Main.usbhCdcProcess, Main.usbAction, Main.receiveCallback, Main.newIteration, any,
      Main.afterProcess, wiredPoll, Main.commandResponseHandle, sent, answered, Main.record]
  have secondWired : Wired conn sent (wiredPoll conn sent [.stored (seenReply conn sent), .received]) := by
    apply wiredPoll_wired
    intro answered processed _
    simp only [Main.usbhCdcProcess, Main.usbAction, Main.receiveCallback, Main.newIteration, sent] at processed
    cases processed
    rfl
  exact ⟨answered, .step _ unfinished firstWired first (.step _ unfinished secondWired second (.refl _)), rfl, rfl⟩

theorem wired_step {conn : Nat → Nat → Prop} {m : Main} (straight : Straight conn)
    (holds : WiredInvariant conn m) (idle : m.cmdrsp.state = .idle) (unfinished : m.state < 12) :
    ∃ next, WiredRun conn m next ∧ next.cmdrsp.state = .idle ∧ progressOf m < progressOf next := by
  have wired : Wired conn m (wiredPoll conn m []) := by
    apply wiredPoll_wired
    intro answered processed finished
    cases processed
    rw [show m.newIteration.cmdrsp.state = .idle from idle] at finished
    cases finished
  have cleared : WiredInvariant conn m.newIteration :=
    holds.moved ⟨rfl, rfl, rfl, rfl, rfl⟩ fun _ line member answers => holds.answered answers idle line member
  have sameWires : Wired conn m.newIteration (wiredPoll conn m []) := ⟨wired.inputs, wired.replies⟩
  have quiet : m.newIteration.cmdrsp.state = .idle := idle
  rcases runState_wired cleared sameWires idle unfinished with
    ⟨next, result, kept, further, state⟩ | ⟨_, _, crooked⟩
  · have taken : iterate (wiredPoll conn m []) m = .ok next := by
      rw [← result]
      simp [iterate, wiredPoll, Main.usbhCdcProcess, Main.afterProcess, quiet]
    have run : WiredRun conn m next := .step _ unfinished wired taken (.refl _)
    rcases state with done | ⟨busy, any, going⟩
    · exact ⟨next, run, done, further⟩
    · obtain ⟨last, answer, done, same⟩ := wired_answer conn going busy any
      exact ⟨last, run.trans answer, done, by rw [same]; exact further⟩
  · exact absurd straight crooked

theorem done_bound {m : Main} (within : Within m) : progressOf m ≤ 3002 := by
  have small : m.pinIter ≤ 13 ∧ m.outerIter ≤ 11 := by
    have sizes : inp.length = 13 ∧ outp.length = 5 := ⟨rfl, rfl⟩
    unfold Within at within
    split at within <;> omega
  unfold progressOf done
  split <;> omega

/-- On straight wiring the tests of states 4 to 12 can be run to their end. -/
theorem wired_finish {conn : Nat → Nat → Prop} {m : Main} (straight : Straight conn)
    (holds : WiredInvariant conn m) (idle : m.cmdrsp.state = .idle) :
    ∃ last, WiredRun conn m last ∧ last.state = 12 ∧ last.cmdrsp.state = .idle := by
  have bound := done_bound holds.within
  induction left : 3002 - progressOf m using Nat.strongRecOn generalizing m with
  | _ remaining ih =>
    have range : 3 ≤ m.state ∧ m.state ≤ 12 := by simpa [inTests] using holds.range
    rcases Nat.lt_or_eq_of_le range.2 with unfinished | finished
    · obtain ⟨next, run, quiet, further⟩ := wired_step straight holds idle unfinished
      have kept := run.invariant holds
      have nextBound := done_bound kept.within
      obtain ⟨last, rest, finished, done⟩ := ih (3002 - progressOf next) (by omega) kept quiet nextBound rfl
      exact ⟨last, run.trans rest, finished, done⟩
    · exact ⟨m, .refl m, finished, idle⟩

theorem finished_straight {conn : Nat → Nat → Prop} {m : Main} (holds : WiredInvariant conn m)
    (finished : m.state = 12) : Straight conn := by
  have found := holds.found
  rw [finished] at found
  intro reader member line listed
  rcases List.mem_append.mp listed with input | output
  · exact found.input line input (.inl (by decide)) reader member
  · exact found.output line output (.inl (by decide)) reader member

/-- The pin tests end without a pin error exactly on the wiring that connects each line to itself alone. -/
theorem wiring_faults_found (latches : Gpio) (polls : List Poll) (m : Main)
    (booted : exec iterate polls (powerOn latches) = .ok m) (at3 : m.state = 3) (idle : m.cmdrsp.state = .idle)
    (iter : m.pinIter = 0) (outer : m.outerIter = 0) (conn : Nat → Nat → Prop) :
    ((∃ last, WiredRun conn m last ∧ last.state = 12) ↔ Straight conn) ∧
      (Straight conn → ∀ last, WiredRun conn m last → last.state < 12 → ∀ poll, Wired conn last poll →
        ∀ pin, iterate poll last ≠ .error (.pinError pin)) := by
  have reached := exec_invariant iterate_kept (.inl (powerOn_sequenced latches)) booted
  have holds := ready_wired conn reached at3 idle iter outer
  refine ⟨⟨?_, ?_⟩, ?_⟩
  · rintro ⟨last, run, finished⟩
    exact finished_straight (run.invariant holds) finished
  · intro straight
    obtain ⟨last, run, finished, _⟩ := wired_finish straight holds idle
    exact ⟨last, run, finished⟩
  · intro straight last run unfinished poll wired
    exact (iterate_wired (run.invariant holds) unfinished wired).2 straight

def bytes (content : List Byte) : Buffer := fun i => content.getD i 0

def quietPoll (actions : List UsbAction) : Poll where
  actions := actions
  connected := true
  now := 0
  idr := fun _ _ => true
  tcif := true
  dmabuf := fun i => BitVec.ofNat 16 (144 * i)
  adc := fun _ => 0x800

def exchange (reply : List Byte) : List Poll :=
  [quietPoll [], quietPoll [.transmitted], quietPoll [.stored (bytes reply), .received]]

/-- GET_INFO, its check, and TEST_MODE, answered by a main firmware of model 1 -/
def bootPolls : List Poll :=
  exchange [0, 0, 1, 6, 1, 21, 0, 0, 0, 0, 1] ++ [quietPoll []] ++ exchange [21, 0]

theorem wiring_faults_found_straight :
    ∃ m, exec iterate bootPolls (powerOn fun _ _ => false) = .ok m ∧
      ((∃ last, WiredRun (· = ·) m last ∧ last.state = 12) ↔ Straight (· = ·)) ∧
      (Straight (· = ·) → ∀ last, WiredRun (· = ·) m last → last.state < 12 → ∀ poll, Wired (· = ·) last poll →
        ∀ pin, iterate poll last ≠ .error (.pinError pin)) := by
  exact ⟨_, rfl, wiring_faults_found (fun _ _ => false) bootPolls _ rfl rfl rfl rfl rfl (· = ·)⟩

end Testjig.Sequence
