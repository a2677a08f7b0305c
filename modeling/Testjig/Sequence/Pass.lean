import Testjig.Sequence.Checks

namespace Testjig.Sequence

open Machine Testjig.Board

inductive Step where
  | command (bytes : List Byte) (rsp : Option (List Byte)) (rspLen : Nat)
  | reply
  | info (gwInfo : GwInfo)
  | drive (mask : BitVec 64)
  | checked (asserted : Option Nat)
  | checkedLow
  | options (hwModel : Byte)
  | headers
  | oscillation
  | ccVoltage
  | pass
deriving DecidableEq

def Event.step : Event → Step
  | .command bytes rsp rspLen => .command bytes rsp rspLen
  | .reply _ => .reply
  | .info gwInfo => .info gwInfo
  | .drive mask => .drive mask
  | .checked asserted _ => .checked asserted
  | .checkedLow _ => .checkedLow
  | .options hwModel => .options hwModel
  | .headers => .headers
  | .oscillation _ => .oscillation
  | .ccVoltage _ => .ccVoltage
  | .pass => .pass

/-- The last command's demand on its reply, and the last reply. -/
structure Context where
  rsp : Option (List Byte)
  rspLen : Nat
  rspbuf : Buffer

def Event.next (context : Context) : Event → Context
  | .command _ rsp rspLen => { context with rsp, rspLen }
  | .reply rspbuf => { context with rspbuf }
  | _ => context

/-- An event is right, given the command and the reply before it. -/
def Event.Sound (context : Context) : Event → Prop
  | .reply rspbuf => ∀ rsp, context.rsp = some rsp → ∀ i < context.rspLen, rspbuf i = rsp.getD i 0
  | .info gwInfo => gwInfo = .load context.rspbuf 2 ∧ cmdMax ≤ gwInfo.maxCmd ∧ gwInfo.isMainFirmware ≠ 0
  | .checked asserted mask => OnlyAsserted asserted context.rspbuf mask
  | .checkedLow mask => AllLow context.rspbuf mask
  | .options hwModel => OptionsAccepted hwModel context.rspbuf
  | .headers => word context.rspbuf 0 = testHeaderSuccess
  | .oscillation dmabuf => Oscillates dmabuf
  | .ccVoltage adc => CcAccepted adc
  | .command .. | .drive _ | .pass => True

def Sound : Context → List Event → Prop
  | _, [] => True
  | context, event :: rest => event.Sound context ∧ Sound (event.next context) rest

def contextAfter (context : Context) (log : List Event) : Context := log.foldl Event.next context

theorem sound_snoc (context : Context) (log : List Event) (event : Event) :
    Sound context (log ++ [event]) ↔ Sound context log ∧ event.Sound (contextAfter context log) := by
  induction log generalizing context with
  | nil => simp [Sound, contextAfter]
  | cons first rest ih =>
    have later := ih (first.next context)
    simp only [List.cons_append, Sound, later, and_assoc]
    rfl

theorem contextAfter_snoc (context : Context) (log : List Event) (event : Event) :
    contextAfter context (log ++ [event]) = event.next (contextAfter context log) := by
  simp [contextAfter]

def command (cmd : Cmd) : Step := .command cmd.bytes none sizeofRsp

def opening (gwInfo : GwInfo) : List Step :=
  [.command info none 34, .reply, .info gwInfo, .command testmode (some testmodersp) 2, .reply]

def inStep (pin : Nat) : List Step := [command (.setPin (some pin)), .reply, .checked (some pin)]

def outStep (pin : Nat) : List Step :=
  [.drive (onlyLow pin), command (.setPin none), .reply, .checked (some pin)]

def rounds (n : Nat) (pins : List Nat) (step : Nat → List Step) : List Step :=
  (List.replicate n (pins.flatMap step)).flatten

def allHigh : List Step := [command (.setPin none), .reply, .checked none]

def allLow : List Step := [.drive 0, command (.plain cmdPins), .reply, .checkedLow]

def closing (gwInfo : GwInfo) : List Step :=
  [command (.plain cmdOptionBytes), .reply, .options gwInfo.hwModel,
    command (.plain cmdTestHeaders), .reply, .headers,
    command (.plain cmdWdatOscOn), .reply, .oscillation, command (.plain cmdWdatOscOff), .reply]

def ccCheck (gwInfo : GwInfo) : List Step :=
  if gwInfo.hwModel = 4 ∧ gwInfo.hwSubmodel = 2 then [.ccVoltage] else []

/-- Everything that has to come before a PASS, in this order. -/
def passScript (gwInfo : GwInfo) : List Step :=
  opening gwInfo ++ rounds 12 inp inStep ++ allHigh ++ rounds 12 outp outStep ++ allLow ++
    closing gwInfo ++ ccCheck gwInfo

/-- `outer` whole rounds over `pins`, then the steps of its first `iter` pins. -/
def loopSteps (pins : List Nat) (step : Nat → List Step) (outer iter : Nat) : List Step :=
  rounds outer pins step ++ (pins.take iter).flatMap step

theorem loopSteps_zero (pins : List Nat) (step : Nat → List Step) : loopSteps pins step 0 0 = [] := rfl

theorem loopSteps_next {pins : List Nat} {iter pin : Nat} (step : Nat → List Step) (outer : Nat)
    (found : pins[iter]? = some pin) :
    loopSteps pins step outer (iter + 1) = loopSteps pins step outer iter ++ step pin := by
  simp [loopSteps, List.take_add_one, found]

theorem rounds_succ (n : Nat) (pins : List Nat) (step : Nat → List Step) :
    rounds (n + 1) pins step = rounds n pins step ++ pins.flatMap step := by
  simp [rounds, List.replicate_succ']

theorem loopSteps_wrap (pins : List Nat) (step : Nat → List Step) (outer : Nat) :
    loopSteps pins step outer pins.length = loopSteps pins step (outer + 1) 0 := by
  simp [loopSteps, rounds_succ]

/-- The steps done once state `state` has run and its command, if any, is answered. -/
def progress (gwInfo : GwInfo) (state iter outer : Nat) : List Step :=
  let inDone := opening gwInfo ++ rounds 12 inp inStep
  let highDone := inDone ++ allHigh
  let outDone := highDone ++ rounds 12 outp outStep
  let lowDone := outDone ++ allLow
  match state with
  | 0 => []
  | 1 => (opening gwInfo).take 2
  | 2 => (opening gwInfo).take 3
  | 3 => opening gwInfo ++ loopSteps inp inStep outer iter
  | 4 => opening gwInfo ++ loopSteps inp inStep outer iter ++ (inStep (inp.getD iter 0)).take 2
  | 5 => inDone
  | 6 => inDone ++ allHigh.take 2
  | 7 => highDone ++ loopSteps outp outStep outer iter
  | 8 => highDone ++ loopSteps outp outStep outer iter ++ (outStep (outp.getD iter 0)).take 1
  | 9 => highDone ++ loopSteps outp outStep outer iter ++ (outStep (outp.getD iter 0)).take 3
  | 10 => outDone
  | 11 => outDone ++ allLow.take 3
  | 12 => lowDone
  | 13 => lowDone ++ (closing gwInfo).take 2
  | 14 => lowDone ++ (closing gwInfo).take 3
  | 15 => lowDone ++ (closing gwInfo).take 5
  | 16 => lowDone ++ (closing gwInfo).take 6
  | 17 => lowDone ++ (closing gwInfo).take 8
  | 18 => lowDone ++ closing gwInfo
  | _ => lowDone ++ closing gwInfo ++ ccCheck gwInfo

/-- The ranges of `pin_iter` and `outer_iter` between iterations. -/
def Within (m : Main) : Prop :=
  match m.state with
  | 3 => m.pinIter ≤ inp.length ∧ m.outerIter ≤ 11
  | 4 => m.pinIter < inp.length ∧ m.outerIter ≤ 11
  | 7 => m.pinIter ≤ outp.length ∧ m.outerIter ≤ 11
  | 8 | 9 => m.pinIter < outp.length ∧ m.outerIter ≤ 11
  | _ => m.pinIter = 0 ∧ m.outerIter = 0

def start : Context := { rsp := none, rspLen := 0, rspbuf := fun _ => 0 }

def Event.latch (odr : Gpio) : Event → Gpio
  | .drive mask => setPinmask mask odr
  | _ => odr

def latchesAfter (latches : Gpio) (log : List Event) : Gpio := log.foldl Event.latch (pinsInit latches)

theorem latchesAfter_snoc (latches : Gpio) (log : List Event) (event : Event) :
    latchesAfter latches (log ++ [event]) = event.latch (latchesAfter latches log) := by
  simp [latchesAfter]

variable {latches : Gpio}

/-- The record so far is sound, and says what command, reply and latches the globals now hold. -/
structure Logged (latches : Gpio) (m : Main) : Prop where
  sound : Sound start m.log
  latched : m.odr = latchesAfter latches m.log
  rsp : (contextAfter start m.log).rsp = m.cmdrsp.rsp
  rspLen : (contextAfter start m.log).rspLen = m.cmdrsp.rspLen
  reply : m.cmdrsp.state = .idle → (contextAfter start m.log).rspbuf = m.rspbuf

def pending (m : Main) : List Step := if m.cmdrsp.state = .idle then [] else [.reply]

structure Sequenced (latches : Gpio) (m : Main) : Prop where
  logged : Logged latches m
  early : m.state < 20
  within : Within m
  steps : m.log.map Event.step ++ pending m = progress m.gwInfo m.state m.pinIter m.outerIter
  unshown : m.success = false

def Passed (log : List Event) : Prop :=
  ∃ gwInfo before after, log = before ++ .pass :: after ∧
    before.map Event.step = passScript gwInfo ∧ Sound start before

def SequenceInvariant (latches : Gpio) (m : Main) : Prop := Sequenced latches m ∨ (20 ≤ m.state ∧ Passed m.log)

theorem Logged.commandResponse {m : Main} (logged : Logged latches m)
    (now : Time.TimeT) (cmd : TxBuf) (rsp : Option (List Byte)) (rspLen : Nat) :
    Logged latches (m.commandResponse now cmd rsp rspLen) where
  sound := (sound_snoc _ _ _).mpr ⟨logged.sound, trivial⟩
  latched := by
    show m.odr = latchesAfter latches (m.log ++ [_])
    rw [latchesAfter_snoc]
    exact logged.latched
  rsp := by
    show (contextAfter start (m.log ++ [_])).rsp = rsp
    rw [contextAfter_snoc]
    rfl
  rspLen := by
    show (contextAfter start (m.log ++ [_])).rspLen = rspLen
    rw [contextAfter_snoc]
    rfl
  reply := nofun

theorem Logged.record {m next : Main} (logged : Logged latches m) (event : Event) (idle : m.cmdrsp.state = .idle)
    (plain : ∀ context, event.next context = context)
    (judged : event.Sound { rsp := m.cmdrsp.rsp, rspLen := m.cmdrsp.rspLen, rspbuf := m.rspbuf })
    (log : next.log = m.log ++ [event]) (odr : next.odr = event.latch m.odr) (cmdrsp : next.cmdrsp = m.cmdrsp)
    (rspbuf : next.rspbuf = m.rspbuf) : Logged latches next := by
  have same : contextAfter start m.log =
      { rsp := m.cmdrsp.rsp, rspLen := m.cmdrsp.rspLen, rspbuf := m.rspbuf } := by
    rw [← logged.rsp, ← logged.rspLen, ← logged.reply idle]
  have kept : contextAfter start next.log = contextAfter start m.log := by
    rw [log, contextAfter_snoc, plain]
  exact
    { sound := by rw [log]; exact (sound_snoc _ _ _).mpr ⟨logged.sound, by rw [same]; exact judged⟩
      latched := by rw [odr, log, latchesAfter_snoc, ← logged.latched]
      rsp := by rw [kept, cmdrsp]; exact logged.rsp
      rspLen := by rw [kept, cmdrsp]; exact logged.rspLen
      reply := fun _ => by rw [kept, rspbuf]; exact logged.reply idle }

theorem Logged.busy {m : Main} (logged : Logged latches m) (state : CmdRspState) (busy : state ≠ .idle)
    (rspbuf : Buffer) (time : Time.TimeT) (call : Option CdcCall) :
    Logged latches { m with rspbuf, call, cmdrsp := { m.cmdrsp with state, time } } :=
  ⟨logged.sound, logged.latched, logged.rsp, logged.rspLen, fun idle => absurd idle busy⟩

theorem SequenceInvariant.busy {m : Main} (holds : SequenceInvariant latches m) (was : m.cmdrsp.state ≠ .idle)
    (state : CmdRspState) (busy : state ≠ .idle) (rspbuf : Buffer) (time : Time.TimeT) (call : Option CdcCall) :
    SequenceInvariant latches { m with rspbuf, call, cmdrsp := { m.cmdrsp with state, time } } := by
  rcases holds with before | after
  · refine .inl ⟨before.logged.busy state busy rspbuf time call, before.early, before.within, ?_, before.unshown⟩
    have steps := before.steps
    rw [pending, if_neg was] at steps
    rw [pending, if_neg busy]
    exact steps
  · exact .inr after

/-- An action is taken within a transfer, and touches only its state and the buffer. -/
theorem usbAction_cases {m next : Main} {action : UsbAction} (taken : m.usbAction action = .ok next) :
    m.cmdrsp.state ≠ .idle ∧ ∃ state rspbuf, state ≠ .idle ∧
      next = { m with rspbuf, cmdrsp := { m.cmdrsp with state } } := by
  cases action with
  | transmitted =>
    simp only [Main.usbAction, Main.transmitCallback] at taken
    split at taken
    · cases taken
    · rename_i busy
      rw [Decidable.not_not] at busy
      cases taken
      exact ⟨by simp [busy], .txDone, m.rspbuf, by simp, rfl⟩
  | received =>
    simp only [Main.usbAction, Main.receiveCallback] at taken
    split at taken
    · cases taken
    · rename_i busy
      rw [Decidable.not_not] at busy
      cases taken
      exact ⟨by simp [busy], .rxDone, m.rspbuf, by simp, rfl⟩
  | stored rspbuf =>
    simp only [Main.usbAction] at taken
    split at taken
    · rename_i busy
      cases taken
      have receiving : m.cmdrsp.state ≠ .idle := by simp [busy]
      exact ⟨receiving, m.cmdrsp.state, rspbuf, receiving, rfl⟩
    · cases taken

theorem usbhCdcProcess_exec (m : Main) (actions : List UsbAction) :
    m.usbhCdcProcess actions = exec (fun action m => m.usbAction action) actions m := by
  induction actions generalizing m with
  | nil => rfl
  | cons action rest ih =>
    rw [Main.usbhCdcProcess, exec]
    cases m.usbAction action with
    | error halt => rfl
    | ok middle => exact ih middle

theorem usbAction_kept {m next : Main} (action : UsbAction) (holds : SequenceInvariant latches m)
    (taken : m.usbAction action = .ok next) : SequenceInvariant latches next := by
  obtain ⟨was, state, rspbuf, busy, rfl⟩ := usbAction_cases taken
  exact holds.busy was state busy rspbuf m.cmdrsp.time m.call

theorem usbhCdcProcess_kept {m next : Main} (actions : List UsbAction) (holds : SequenceInvariant latches m)
    (taken : m.usbhCdcProcess actions = .ok next) : SequenceInvariant latches next := by
  rw [usbhCdcProcess_exec] at taken
  exact exec_invariant (fun action _ _ before acted => usbAction_kept action before acted) holds taken

theorem memcmp_false {b : Buffer} {bytes : List Byte} {n : Nat} (same : Main.memcmp b bytes n = false) :
    ∀ i < n, b i = bytes.getD i 0 := by
  intro i bound
  rw [Main.memcmp, List.any_eq_false] at same
  simpa using same i (List.mem_range.mpr bound)

theorem reply_kept {m : Main} (holds : SequenceInvariant latches m) (done : m.cmdrsp.state = .rxDone)
    (meets : ∀ rsp, m.cmdrsp.rsp = some rsp → ∀ i < m.cmdrsp.rspLen, m.rspbuf i = rsp.getD i 0) :
    SequenceInvariant latches ({ m with cmdrsp.state := .idle }.record (.reply m.rspbuf)) := by
  rcases holds with before | ⟨late, gwInfo, log, after, shown, script, sound⟩
  · have logged := before.logged
    have busy : m.cmdrsp.state ≠ .idle := by simp [done]
    have context : contextAfter start (m.log ++ [.reply m.rspbuf]) =
        { contextAfter start m.log with rspbuf := m.rspbuf } := contextAfter_snoc _ _ _
    have latched : m.odr = latchesAfter latches (m.log ++ [.reply m.rspbuf]) := by
      rw [latchesAfter_snoc]
      exact logged.latched
    refine .inl ⟨⟨(sound_snoc _ _ _).mpr ⟨logged.sound, ?_⟩, latched, ?_, ?_, ?_⟩, before.early, before.within, ?_,
      before.unshown⟩
    · intro rsp want i bound
      rw [logged.rsp] at want
      rw [logged.rspLen] at bound
      exact meets rsp want i bound
    · exact (congrArg Context.rsp context).trans logged.rsp
    · exact (congrArg Context.rspLen context).trans logged.rspLen
    · exact fun _ => congrArg Context.rspbuf context
    · have steps := before.steps
      rw [pending, if_neg busy] at steps
      simpa [Main.record, pending, Event.step] using steps
  · exact .inr ⟨late, gwInfo, log, after ++ [.reply m.rspbuf], by simp [Main.record, shown], script, sound⟩

theorem commandResponseHandle_kept {m next : Main} (now : Time.TimeT) (holds : SequenceInvariant latches m)
    (taken : m.commandResponseHandle now = .ok next) : SequenceInvariant latches next := by
  unfold Main.commandResponseHandle at taken
  cases state : m.cmdrsp.state with
  | idle =>
    simp only [state] at taken
    cases taken
    exact holds
  | txBusy =>
    simp only [state] at taken
    split at taken
    · cases taken
    · cases taken; exact holds
  | txDone =>
    simp only [state] at taken
    cases taken
    exact holds.busy (by simp [state]) .rxBusy nofun m.rspbuf now _
  | rxBusy =>
    simp only [state] at taken
    split at taken
    · cases taken
    · cases taken; exact holds
  | rxDone =>
    simp only [state] at taken
    cases want : m.cmdrsp.rsp with
    | none =>
      simp only [want] at taken
      cases taken
      simpa only [want] using reply_kept holds state (by simp [want])
    | some rsp =>
      simp only [want] at taken
      split at taken
      · cases taken
      · rename_i same
        cases taken
        have kept := reply_kept holds state (by
          intro other equal i bound
          rw [want] at equal
          cases equal
          exact memcmp_false (Bool.not_eq_true _ ▸ same) i bound)
        simpa only [want] using kept

structure Quiet (latches : Gpio) (m : Main) : Prop where
  logged : Logged latches m
  idle : m.cmdrsp.state = .idle
  unshown : m.success = false

theorem Quiet.same {m next : Main} (quiet : Quiet latches m) (log : next.log = m.log) (odr : next.odr = m.odr)
    (cmdrsp : next.cmdrsp = m.cmdrsp) (rspbuf : next.rspbuf = m.rspbuf) (success : next.success = m.success) :
    Quiet latches next where
  logged := by
    obtain ⟨sound, latched, rsp, rspLen, reply⟩ := quiet.logged
    exact ⟨log ▸ sound, log ▸ odr ▸ latched, log ▸ cmdrsp ▸ rsp, log ▸ cmdrsp ▸ rspLen,
      log ▸ cmdrsp ▸ rspbuf ▸ reply⟩
  idle := cmdrsp ▸ quiet.idle
  unshown := success ▸ quiet.unshown

theorem Quiet.context {m : Main} (quiet : Quiet latches m) : contextAfter start m.log =
    { rsp := m.cmdrsp.rsp, rspLen := m.cmdrsp.rspLen, rspbuf := m.rspbuf } := by
  rw [← quiet.logged.rsp, ← quiet.logged.rspLen, ← quiet.logged.reply quiet.idle]

theorem Quiet.record {m : Main} (quiet : Quiet latches m) (event : Event)
    (plain : ∀ context, event.next context = context) (latch : event.latch m.odr = m.odr)
    (judged : event.Sound (contextAfter start m.log)) : Quiet latches (m.record event) := by
  rw [quiet.context] at judged
  exact ⟨quiet.logged.record event quiet.idle plain judged rfl latch.symm rfl rfl, quiet.idle, quiet.unshown⟩

theorem Quiet.drive {m : Main} (quiet : Quiet latches m) (mask : BitVec 64) : Quiet latches (m.drive mask) :=
  ⟨quiet.logged.record (.drive mask) quiet.idle (fun _ => rfl) trivial rfl rfl rfl rfl, quiet.idle,
    quiet.unshown⟩

theorem Quiet.sequenced {m : Main} (quiet : Quiet latches m) (early : m.state < 20) (within : Within m)
    (steps : m.log.map Event.step = progress m.gwInfo m.state m.pinIter m.outerIter) : Sequenced latches m where
  logged := quiet.logged
  early := early
  within := within
  steps := by rw [pending, if_pos quiet.idle, List.append_nil]; exact steps
  unshown := quiet.unshown

theorem Quiet.commanded {m : Main} (quiet : Quiet latches m) (now : Time.TimeT) (cmd : TxBuf)
    (rsp : Option (List Byte)) (rspLen : Nat) (early : m.state < 20) (within : Within m)
    (steps : m.log.map Event.step ++ [.command (m.txBytes cmd) rsp rspLen, .reply] =
      progress m.gwInfo m.state m.pinIter m.outerIter) : Sequenced latches (m.commandResponse now cmd rsp rspLen) where
  logged := quiet.logged.commandResponse now cmd rsp rspLen
  early := early
  within := within
  steps := by simpa [Main.commandResponse, Main.record, pending, Event.step] using steps
  unshown := quiet.unshown

theorem Quiet.sent {m : Main} (quiet : Quiet latches m) (now : Time.TimeT) (cmd : Cmd) (early : m.state < 20)
    (within : Within m) (steps : m.log.map Event.step ++ [command cmd, .reply] =
      progress m.gwInfo m.state m.pinIter m.outerIter) : Sequenced latches (m.sendCmd now cmd) :=
  (quiet.same rfl rfl rfl rfl rfl : Quiet latches { m with tcmd := cmd }).commanded now .tcmd none sizeofRsp early within steps

theorem Sequenced.quiet {m : Main} (before : Sequenced latches m) (idle : m.cmdrsp.state = .idle) : Quiet latches m :=
  ⟨before.logged, idle, before.unshown⟩

theorem Sequenced.idleSteps {m : Main} (before : Sequenced latches m) (idle : m.cmdrsp.state = .idle) :
    m.log.map Event.step = progress m.gwInfo m.state m.pinIter m.outerIter := by
  have steps := before.steps
  rwa [pending, if_pos idle, List.append_nil] at steps

theorem nextPin_result (m : Main) (pins : List Nat) (state : Nat) (assert : Main → Nat → Main)
    (some0 : 0 < pins.length) (range : m.pinIter ≤ pins.length) (last : m.outerIter ≤ 11) :
    (m.pinIter = pins.length ∧ m.outerIter = 11 ∧
      m.nextPin pins state assert = .ok { m with pinIter := 0, outerIter := 0, state := state - 1 }) ∨
    (∃ iter outer pin, pins[iter]? = some pin ∧ iter < pins.length ∧ outer ≤ 11 ∧
      (iter = m.pinIter ∧ outer = m.outerIter ∨
        iter = 0 ∧ outer = m.outerIter + 1 ∧ m.pinIter = pins.length) ∧
      m.nextPin pins state assert = .ok (assert { m with pinIter := iter, outerIter := outer } pin)) := by
  by_cases wrapped : pins.length ≤ m.pinIter
  · have whole : m.pinIter = pins.length := Nat.le_antisymm range wrapped
    by_cases final : 10 < m.outerIter
    · left
      exact ⟨whole, by omega, by simp [Main.nextPin, wrapped, final]⟩
    · right
      have found : pins[0]? = some pins[0] := List.getElem?_eq_getElem some0
      refine ⟨0, m.outerIter + 1, pins[0], found, some0, by omega, .inr ⟨rfl, rfl, whole⟩, ?_⟩
      simp [Main.nextPin, wrapped, final, found]
  · right
    have bound : m.pinIter < pins.length := by omega
    have found : pins[m.pinIter]? = some pins[m.pinIter] := List.getElem?_eq_getElem bound
    exact ⟨m.pinIter, m.outerIter, pins[m.pinIter], found, bound, last, .inl ⟨rfl, rfl⟩,
      by simp [Main.nextPin, wrapped, found]⟩

theorem loopSteps_same {pins : List Nat} {m : Main} {iter outer : Nat} (step : Nat → List Step)
    (moved : iter = m.pinIter ∧ outer = m.outerIter ∨
      iter = 0 ∧ outer = m.outerIter + 1 ∧ m.pinIter = pins.length) :
    loopSteps pins step m.outerIter m.pinIter = loopSteps pins step outer iter := by
  rcases moved with ⟨rfl, rfl⟩ | ⟨rfl, rfl, whole⟩
  · rfl
  · rw [whole, loopSteps_wrap]

theorem checkPin_ok {m next : Main} {idr : Gpio} {pins : List Nat} {state : Nat}
    (taken : m.checkPin idr pins state = .ok next) :
    ∃ pin, pins[m.pinIter]? = some pin ∧ OnlyAsserted (some pin) m.rspbuf (readPinmask idr) ∧
      next = { m.loadTrsp.record (.checked (some pin) (readPinmask idr)) with
        pinIter := m.pinIter + 1, state := state - 1 } := by
  simp only [Main.checkPin] at taken
  cases found : pins[m.pinIter]? with
  | none => simp [found] at taken
  | some pin =>
    simp only [found] at taken
    cases checked : m.checkPins idr (some pin) with
    | error halt => simp [checked] at taken
    | ok middle =>
      obtain ⟨only, same⟩ := (checkPins_ok m middle idr (some pin)).mp checked
      subst same
      rw [checked] at taken
      cases taken
      exact ⟨pin, rfl, only, rfl⟩

theorem getD_of_getElem? {pins : List Nat} {iter pin : Nat} (found : pins[iter]? = some pin) :
    pins.getD iter 0 = pin := by
  rw [List.getD_eq_getElem?_getD, found, Option.getD_some]

theorem Quiet.loadTrsp {m : Main} (quiet : Quiet latches m) : Quiet latches m.loadTrsp := quiet.same rfl rfl rfl rfl rfl

theorem checkPin_quiet {m next : Main} {idr : Gpio} {pins : List Nat} {state : Nat} (quiet : Quiet latches m)
    (taken : m.checkPin idr pins state = .ok next) :
    ∃ pin, pins[m.pinIter]? = some pin ∧ Quiet latches next ∧ next.state = state - 1 ∧ next.pinIter = m.pinIter + 1 ∧
      next.outerIter = m.outerIter ∧ next.gwInfo = m.gwInfo ∧
      next.log.map Event.step = m.log.map Event.step ++ [.checked (some pin)] := by
  obtain ⟨pin, found, only, rfl⟩ := checkPin_ok taken
  refine ⟨pin, found, ?_, rfl, rfl, rfl, rfl, by simp [Main.record, Main.loadTrsp, Event.step]⟩
  have judged : (Event.checked (some pin) (readPinmask idr)).Sound (contextAfter start m.loadTrsp.log) := by
    rw [quiet.loadTrsp.context]
    exact only
  exact (quiet.loadTrsp.record _ (fun _ => rfl) rfl judged).same rfl rfl rfl rfl rfl

theorem inLoop_kept {m next : Main} (now : Time.TimeT) (before : Sequenced latches m) (idle : m.cmdrsp.state = .idle)
    (at3 : m.state = 3)
    (taken : { m with state := 4 }.nextPin inp 6 (fun m pin => m.cmdSetPin now (some pin)) = .ok next) :
    Sequenced latches next := by
  have quiet := before.quiet idle
  have within := before.within
  have steps := before.idleSteps idle
  simp only [Within, at3] at within
  simp only [at3, progress] at steps
  rcases nextPin_result { m with state := 4 } inp 6 _ (by decide) within.1 within.2 with
    ⟨whole, last, result⟩ | ⟨iter, outer, pin, found, bound, lastOuter, moved, result⟩ <;>
    rw [result] at taken <;> cases taken
  · have left : Quiet latches { m with state := 5, pinIter := 0, outerIter := 0 } := quiet.same rfl rfl rfl rfl rfl
    refine left.sequenced (by simp) ⟨rfl, rfl⟩ ?_
    simp only at whole last
    simp only [steps, progress, whole, last, loopSteps_wrap]
    simp [loopSteps]
  · refine (quiet.same rfl rfl rfl rfl rfl : Quiet latches { m with state := 4, pinIter := iter, outerIter := outer }).sent
      now _ (by simp) ⟨bound, lastOuter⟩ ?_
    have same := loopSteps_same (m := m) inStep moved
    simp only [steps, progress, same, getD_of_getElem? found]
    rfl

theorem outLoop_kept {m next : Main} (before : Sequenced latches m) (idle : m.cmdrsp.state = .idle) (at7 : m.state = 7)
    (taken : { m with state := 8 }.nextPin outp 11 (fun m pin => m.drive (onlyLow pin)) = .ok next) :
    Sequenced latches next := by
  have quiet := before.quiet idle
  have within := before.within
  have steps := before.idleSteps idle
  simp only [Within, at7] at within
  simp only [at7, progress] at steps
  rcases nextPin_result { m with state := 8 } outp 11 _ (by decide) within.1 within.2 with
    ⟨whole, last, result⟩ | ⟨iter, outer, pin, found, bound, lastOuter, moved, result⟩ <;>
    rw [result] at taken <;> cases taken
  · have left : Quiet latches { m with state := 10, pinIter := 0, outerIter := 0 } := quiet.same rfl rfl rfl rfl rfl
    refine left.sequenced (by simp) ⟨rfl, rfl⟩ ?_
    simp only at whole last
    simp only [steps, progress, whole, last, loopSteps_wrap]
    simp [loopSteps]
  · have asserted : Quiet latches { m with state := 8, pinIter := iter, outerIter := outer } :=
      quiet.same rfl rfl rfl rfl rfl
    refine (asserted.drive (onlyLow pin)).sequenced (by simp [Main.drive, Main.record]) ⟨bound, lastOuter⟩ ?_
    have same := loopSteps_same (m := m) outStep moved
    simp only [Main.drive, Main.record, List.map_append, steps, progress, same, getD_of_getElem? found]
    rfl

theorem runState_sequenced {m next : Main} (poll : Poll) (before : Sequenced latches m) (idle : m.cmdrsp.state = .idle)
    (below : m.state < 19) (taken : m.advance.runState poll = .ok next) :
    Sequenced latches next := by
  have quiet := before.quiet idle
  have within := before.within
  have steps := before.idleSteps idle
  unfold Within at within
  have advanced (state : Nat) : Quiet latches { m with state } := quiet.same rfl rfl rfl rfl rfl
  have states : m.state = 0 ∨ m.state = 1 ∨ m.state = 2 ∨ m.state = 3 ∨ m.state = 4 ∨ m.state = 5 ∨
      m.state = 6 ∨ m.state = 7 ∨ m.state = 8 ∨ m.state = 9 ∨ m.state = 10 ∨ m.state = 11 ∨ m.state = 12 ∨
      m.state = 13 ∨ m.state = 14 ∨ m.state = 15 ∨ m.state = 16 ∨ m.state = 17 ∨ m.state = 18 := by omega
  rcases states with at0 | at1 | at2 | at3 | at4 | at5 | at6 | at7 | at8 | at9 | at10 | at11 | at12 | at13 |
    at14 | at15 | at16 | at17 | at18
  · simp only [Main.advance, at0, Main.runState] at taken within steps
    cases taken
    exact (advanced 1).commanded poll.now .info none 34 (by simp) within (by simp only [steps]; rfl)
  · simp only [Main.advance, at1, Main.runState] at taken within steps
    obtain ⟨maxCmd, mainFirmware, rfl⟩ := checkInfo_ok taken
    have loaded : Quiet latches { m with state := 2, gwInfo := .load m.rspbuf 2 } := quiet.same rfl rfl rfl rfl rfl
    refine (loaded.record _ (fun _ => rfl) rfl ?_).sequenced (by simp [Main.record]) within ?_
    · rw [loaded.context]
      exact ⟨rfl, maxCmd, mainFirmware⟩
    · simp only [Main.record, List.map_append, steps]
      rfl
  · simp only [Main.advance, at2, Main.runState] at taken within steps
    cases taken
    refine (advanced 3).commanded poll.now .testmode (some testmodersp) testmodersp.length (by simp) ?_ ?_
    · exact ⟨by simp [within.1], by simp [within.2]⟩
    · simp only [steps, within.1, within.2, progress, loopSteps_zero, opening]
      simp [Main.txBytes, testmodersp]
  · simp only [Main.advance, at3, Main.runState] at taken
    exact inLoop_kept poll.now before idle at3 taken
  · simp only [Main.advance, at4, Main.runState] at taken within steps
    obtain ⟨pin, found, checked, state, iter, outer, gwInfo, log⟩ := checkPin_quiet (advanced 5) taken
    simp only at found iter outer gwInfo log
    refine checked.sequenced (by simp [state]) ?_ ?_
    · simp only [Within, state, iter, outer]
      exact ⟨within.1, within.2⟩
    · simp only [log, steps, state, iter, outer, gwInfo, progress, getD_of_getElem? found,
        loopSteps_next inStep m.outerIter found]
      simp [inStep]
  · simp only [Main.advance, at5, Main.runState] at taken within steps
    cases taken
    exact (advanced 6).sent poll.now _ (by simp) within (by simp only [steps]; rfl)
  · simp only [Main.advance, at6, Main.runState] at taken within steps
    obtain ⟨only, rfl⟩ := (checkPins_ok _ next poll.idr none).mp taken
    refine ((advanced 7).loadTrsp.record _ (fun _ => rfl) rfl ?_).sequenced (by simp [Main.record, Main.loadTrsp]) ?_ ?_
    · rw [(advanced 7).loadTrsp.context]
      exact only
    · exact ⟨by simp [Main.record, Main.loadTrsp, within.1], by simp [Main.record, Main.loadTrsp, within.2]⟩
    · simp only [Main.record, Main.loadTrsp, List.map_append, steps, within.1, within.2, progress, loopSteps_zero]
      simp [allHigh, Event.step]
  · simp only [Main.advance, at7, Main.runState] at taken
    exact outLoop_kept before idle at7 taken
  · simp only [Main.advance, at8, Main.runState] at taken within steps
    cases taken
    apply (advanced 9).sent poll.now _ (by simp) within
    simp only [steps, progress, outStep]
    simp
  · simp only [Main.advance, at9, Main.runState] at taken within steps
    obtain ⟨pin, found, checked, state, iter, outer, gwInfo, log⟩ := checkPin_quiet (advanced 10) taken
    simp only at found iter outer gwInfo log
    refine checked.sequenced (by simp [state]) ?_ ?_
    · simp only [Within, state, iter, outer]
      exact ⟨within.1, within.2⟩
    · simp only [log, steps, state, iter, outer, gwInfo, progress, getD_of_getElem? found,
        loopSteps_next outStep m.outerIter found]
      simp [outStep]
  · simp only [Main.advance, at10, Main.runState] at taken within steps
    cases taken
    apply ((advanced 11).drive 0).sent poll.now _ (by simp [Main.drive, Main.record]) within
    simp only [Main.drive, Main.record, List.map_append, steps, progress]
    simp [allLow, command, Event.step]
  · simp only [Main.advance, at11, Main.runState] at taken within steps
    obtain ⟨low, rfl⟩ := (checkPinsLow_ok _ next poll.idr).mp taken
    refine ((advanced 12).loadTrsp.record _ (fun _ => rfl) rfl ?_).sequenced (by simp [Main.record, Main.loadTrsp])
      within ?_
    · rw [(advanced 12).loadTrsp.context]
      exact low
    · simp only [Main.record, Main.loadTrsp, List.map_append, steps, progress]
      simp [allLow, Event.step]
  · simp only [Main.advance, at12, Main.runState] at taken within steps
    cases taken
    exact (advanced 13).sent poll.now _ (by simp) within (by simp only [steps]; rfl)
  · simp only [Main.advance, at13, Main.runState] at taken within steps
    obtain ⟨options, rfl⟩ := checkOptions_ok taken
    refine ((advanced 14).loadTrsp.record _ (fun _ => rfl) rfl ?_).sequenced (by simp [Main.record, Main.loadTrsp])
      within ?_
    · rw [(advanced 14).loadTrsp.context]
      exact options
    · simp only [Main.record, Main.loadTrsp, List.map_append, steps, progress]
      simp [closing, command, Event.step]
  · simp only [Main.advance, at14, Main.runState] at taken within steps
    cases taken
    apply (advanced 15).sent poll.now _ (by simp) within
    simp only [steps, progress]
    simp [closing, command]
  · simp only [Main.advance, at15, Main.runState] at taken within steps
    obtain ⟨success, rfl⟩ := checkHeaders_ok taken
    refine ((advanced 16).loadTrsp.record _ (fun _ => rfl) rfl ?_).sequenced (by simp [Main.record, Main.loadTrsp])
      within ?_
    · rw [(advanced 16).loadTrsp.context]
      exact success
    · simp only [Main.record, Main.loadTrsp, List.map_append, steps, progress]
      simp [closing, command, Event.step]
  · simp only [Main.advance, at16, Main.runState] at taken within steps
    cases taken
    apply (advanced 17).sent poll.now _ (by simp) within
    simp only [steps, progress]
    simp [closing, command]
  · simp only [Main.advance, at17, Main.runState] at taken within steps
    cases osc : { m with state := 18 }.testWdatOsc poll.tcif poll.dmabuf with
    | error halt => simp [osc] at taken
    | ok middle =>
      obtain ⟨oscillates, rfl⟩ := testWdatOsc_ok osc
      rw [osc] at taken
      cases taken
      apply ((advanced 18).record (.oscillation _) (fun _ => rfl) rfl oscillates).sent poll.now _ (by simp [Main.record]) within
      simp only [Main.record, List.map_append, steps, progress]
      simp [closing, command, Event.step]
  · simp only [Main.advance, at18, Main.runState] at taken within steps
    rcases checkCc_ok taken with ⟨model, submodel, accepted, rfl⟩ | ⟨other, rfl⟩
    · have present : ccCheck m.gwInfo = [.ccVoltage] := if_pos ⟨model, submodel⟩
      apply ((advanced 19).record (.ccVoltage _) (fun _ => rfl) rfl accepted).sequenced (by simp [Main.record]) within
      simp only [Main.record, List.map_append, steps, progress, present]
      rfl
    · have absent : ccCheck m.gwInfo = [] := if_neg other
      apply (advanced 19).sequenced (by simp) within
      simp only [steps, progress, absent, List.append_nil]

theorem Passed.append {log : List Event} (passed : Passed log) (more : List Event) : Passed (log ++ more) := by
  obtain ⟨gwInfo, before, after, shown, script, sound⟩ := passed
  exact ⟨gwInfo, before, after ++ more, by simp [shown], script, sound⟩

theorem showPass_passed {m : Main} (now : Time.TimeT) (before : Sequenced latches m) (idle : m.cmdrsp.state = .idle)
    (at19 : m.state = 19) : Passed ({ m with state := 20 }.showPass now).log := by
  have steps := before.idleSteps idle
  simp only [at19, progress] at steps
  have shown : Passed (m.log ++ [Event.pass]) := ⟨m.gwInfo, m.log, [], rfl, steps, before.logged.sound⟩
  have more := shown.append [.drive (-1), .command (Cmd.setPin none).bytes none sizeofRsp]
  rw [List.append_assoc] at more
  simpa [Main.showPass, Main.cmdSetPin, Main.sendCmd, Main.commandResponse, Main.drive, Main.record, Main.txBytes]
    using more

theorem runState_passed {m next : Main} (poll : Poll) (late : 20 ≤ m.state) (passed : Passed m.log)
    (taken : m.advance.runState poll = .ok next) : 20 ≤ next.state ∧ Passed next.log := by
  have states : m.state = 20 ∨ m.state = 21 ∨ 22 ≤ m.state := by omega
  rcases states with at20 | at21 | beyond
  · simp only [Main.advance, at20, Main.runState] at taken
    cases taken
    exact ⟨by simp [Main.cmdLed, Main.sendCmd, Main.commandResponse, Main.record], passed.append _⟩
  · simp only [Main.advance, at21, Main.runState] at taken
    cases taken
    exact ⟨by simp, passed.append _⟩
  · have other : m.advance.runState poll = .ok m.advance := by
      obtain ⟨n, at23⟩ : ∃ n, m.state = n + 22 := ⟨m.state - 22, by omega⟩
      simp [Main.runState, Main.advance, at23]
    rw [other] at taken
    cases taken
    exact ⟨Nat.le_succ_of_le late, passed⟩

theorem iterate_kept (poll : Poll) (m next : Main) (holds : SequenceInvariant latches m)
    (taken : iterate poll m = .ok next) : SequenceInvariant latches next := by
  rw [iterate] at taken
  have cleared : SequenceInvariant latches m.newIteration := by
    rcases holds with before | after
    · exact .inl ⟨⟨before.logged.sound, before.logged.latched, before.logged.rsp, before.logged.rspLen, before.logged.reply⟩,
        before.early, before.within, before.steps, before.unshown⟩
    · exact .inr after
  cases processed : m.newIteration.usbhCdcProcess poll.actions with
  | error halt => simp [processed] at taken
  | ok middle =>
    have kept := usbhCdcProcess_kept poll.actions cleared processed
    simp only [processed, Main.afterProcess] at taken
    split at taken
    · split at taken
      · cases taken
      · cases taken; exact kept
    · split at taken
      · exact commandResponseHandle_kept poll.now kept taken
      · rename_i idle
        rw [Decidable.not_not] at idle
        rcases kept with before | ⟨late, passed⟩
        · by_cases below : middle.state < 19
          · exact .inl (runState_sequenced poll before idle below taken)
          · have at19 : middle.state = 19 := by have early := before.early; omega
            simp only [Main.advance, at19, Main.runState] at taken
            cases taken
            exact .inr ⟨Nat.le_refl _, showPass_passed poll.now before idle at19⟩
        · exact .inr (runState_passed poll late passed taken)

theorem powerOn_sequenced (latches : Gpio) : Sequenced latches (powerOn latches) where
  logged := ⟨trivial, rfl, rfl, rfl, fun _ => rfl⟩
  early := Nat.zero_lt_succ _
  within := ⟨rfl, rfl⟩
  steps := rfl
  unshown := rfl

end Testjig.Sequence
