import Testjig.Usb.Cdc
import Testjig.Usb.Tracking

namespace Testjig.Usb

open Machine

/-- What the host controller driver knows of the port's doings. An interrupt can come between the parts of `HCD_Init()`:
where it clears `ConnSts`, turns the interrupts off, and turns them on again. -/
inductive PortOp where
  | irq (irq : Irq)
  | resetPort
  | initBegins
  | initDisablesInt
  | initEnds

def Hcd.operate (pdev : Hcd) : PortOp → Hcd
  | .irq irq => pdev.interrupt irq
  | .resetPort => pdev.resetPort
  | .initBegins =>
    { pdev with port.connSts := false, xferCnt := fun _ => 0, hcStatus := fun _ => .idle }.edit 0 fun c =>
      { c with maxPacket := 8 }
  | .initDisablesInt => { pdev with port.intEnabled := false }
  | .initEnds => { pdev with port := { pdev.port with intEnabled := true, resetIssued := true } }

theorem init_parts (pdev : Hcd) : [.initBegins, .initDisablesInt, .initEnds].foldl Hcd.operate pdev = pdev.init := rfl

def Port.operate (port : Port) : PortOp → Port
  | .irq irq => port.interrupt irq
  | .resetPort => { port with resetIssued := true }
  | .initBegins => { port with connSts := false }
  | .initDisablesInt => { port with intEnabled := false }
  | .initEnds => { port with intEnabled := true, resetIssued := true }

theorem operate_port (pdev : Hcd) (op : PortOp) : (pdev.operate op).port = pdev.port.operate op := by
  cases op with
  | irq irq => exact interrupt_port pdev irq
  | resetPort | initBegins | initDisablesInt | initEnds => rfl

theorem operations_port (pdev : Hcd) (ops : List PortOp) :
    (ops.foldl Hcd.operate pdev).port = ops.foldl Port.operate pdev.port := by
  induction ops generalizing pdev with
  | nil => rfl
  | cons op rest ih => rw [List.foldl_cons, ih, operate_port, List.foldl_cons]

namespace PortCore

variable {s next : PortCore} {input : PortInput} {port : Port}

/-- The conditions that `USB_OTG_USBH_handle_port_ISR()` finds in HPRT0 -/
def conditions (hprt0 : Hprt0) : List PortOp :=
  (if hprt0.prtconndet then [.irq .connect] else []) ++
    if hprt0.prtenchng then [.irq (if hprt0.prtena then .portEnabled else .portDisabled)] else []

/-- An access as the host controller driver sees it -/
def emits (s : PortCore) : PortInput → List PortOp
  | .isr =>
    match s.isr with
    | .second _ hprt0 _ => conditions hprt0
    | .disconnect => [.irq .disconnect]
    | _ => []
  | .main =>
    match s.call with
    | .resetClear false _ => [.resetPort]
    | .disableGlobalInt => [.initDisablesInt]
    | .enableGlobalInt => [.initEnds]
    | _ => []
  | .init => [.initBegins]
  | .port _ | .resetPort => []

def operations (s : PortCore) : List PortInput → List PortOp
  | [] => []
  | input :: rest =>
    s.emits input ++
      match step input s with
      | .ok next => next.operations rest
      | .error _ => []

/-- What the driver's functions return of the port -/
structure Shows (s : PortCore) (port : Port) : Prop where
  portEnabled : port.portEnabled = s.portEnabled
  connSts : port.connSts = s.connSts
  intEnabled : port.intEnabled = s.globalInt

/-- A handler that has read the change of a port knows it still, or knows that there has been no reset since. -/
def Seen (s : PortCore) (port : Port) (hprt0 : Hprt0) : Prop :=
  hprt0.prtenchng = true →
    (hprt0.prtena = true → port.resetIssued = true) ∧
      (hprt0.prtena = false → s.reset = false ∧ s.hprt0.prtena = false)

structure Refines (s : PortCore) (port : Port) : Prop extends s.Shows port where
  serving : s.isr ≠ .idle → s.isr ≠ .disconnected → s.globalInt = true
  fresh : s.globalInt = true ∨ s.call.restarting = true →
    s.hprt0.prtenchng = true → s.hprt0.prtena = false → s.reset = false
  resetIssued : s.globalInt = true → s.reset = true ∨ s.hprt0.prtena = true → port.resetIssued = true
  first : ∀ disconnect hprt0, s.isr = .first disconnect hprt0 → s.Seen port hprt0
  second : ∀ disconnect hprt0 dup, s.isr = .second disconnect hprt0 dup → s.Seen port hprt0
  unpowered : s.call.unpowered = true → s.hprt0.prtenchng = false

theorem Seen.evolve {hprt0 after : Hprt0} (seen : s.Seen port hprt0) (evolves : s.hprt0.Evolves s.reset after) :
    (s.evolve after).Seen port hprt0 := by
  intro changed
  obtain ⟨issued, idle⟩ := seen changed
  refine ⟨issued, fun disabled => ?_⟩
  obtain ⟨reset, prtena⟩ := idle disabled
  refine ⟨?_, ?_⟩
  · simp [PortCore.evolve, reset]
  · rw [← Bool.not_eq_true]
    intro enabled
    rcases evolves.enabled enabled with before | ⟨armed, -⟩
    · exact absurd (prtena.symm.trans before) (by simp)
    · exact absurd (reset.symm.trans armed) (by simp)

theorem Refines.evolve {after : Hprt0} (refines : s.Refines port) (sound : s.Sound)
    (evolves : s.hprt0.Evolves s.reset after) : (s.evolve after).Refines port := by
  refine ⟨⟨refines.portEnabled, refines.connSts, refines.intEnabled⟩, refines.serving, ?_, ?_, ?_, ?_, ?_⟩
  · intro live changed disabled
    have fresh := refines.fresh live
    have disabled : after.prtena = false := disabled
    have changed := evolves.prtenchng.symm.trans changed
    by_cases moved : after.prtena = s.hprt0.prtena
    · rw [moved] at disabled
      simp [PortCore.evolve, fresh (by simpa [moved] using changed) disabled]
    · simp [PortCore.evolve, moved]
  · rintro on (armed | enabled)
    · have armed : s.reset = true := by
        rw [PortCore.evolve] at armed
        exact (Bool.and_eq_true _ _ ▸ armed).1
      exact refines.resetIssued on (.inl armed)
    · rcases evolves.enabled enabled with before | ⟨armed, -⟩
      · exact refines.resetIssued on (.inr before)
      · exact refines.resetIssued on (.inl armed)
  · exact fun disconnect hprt0 state => (refines.first disconnect hprt0 state).evolve evolves
  · exact fun disconnect hprt0 dup state => (refines.second disconnect hprt0 dup state).evolve evolves
  · intro call
    have off := sound.unpowered call
    have before : s.hprt0.prtena = false := by
      rw [← Bool.not_eq_true]
      exact fun enabled => absurd (off.symm.trans (sound.wired.2 (sound.wired.1 enabled))) (by simp)
    have now : after.prtena = false := by
      rw [← Bool.not_eq_true]
      intro enabled
      have power := evolves.powered (evolves.attached enabled)
      rw [evolves.prtpwr, off] at power
      cases power
    have same : (s.evolve after).hprt0.prtenchng = _ := evolves.prtenchng
    rw [same, now, before, refines.unpowered call]
    rfl

/-- The conditions of one activation of the port's handler, as the driver takes them -/
theorem conditions_port (on : port.intEnabled = true) (hprt0 : Hprt0)
    (issued : hprt0.prtenchng = true → hprt0.prtena = true → port.resetIssued = true) :
    (conditions hprt0).foldl Port.operate port =
      { port with
        connSts := port.connSts || hprt0.prtconndet
        portEnabled := if hprt0.prtenchng then hprt0.prtena else port.portEnabled
        resetIssued := port.resetIssued && !(hprt0.prtenchng && !hprt0.prtena)
        drops := if hprt0.prtenchng && !hprt0.prtena then port.drops + 1 else port.drops } := by
  obtain ⟨connSts, portEnabled, intEnabled, resetIssued, drops⟩ := port
  simp only at on
  subst on
  rw [conditions]
  cases hprt0.prtconndet <;> cases changed : hprt0.prtenchng <;> cases enabled : hprt0.prtena <;>
    simp_all [Port.operate, Port.interrupt]

/-- The handler goes on without an access that changes anything. -/
theorem Refines.advance (refines : s.Refines port) (disconnect : Bool) (isr : Isr)
    (serving : isr ≠ .idle → isr ≠ .disconnected → s.globalInt = true)
    (first : ∀ disconnect hprt0, isr = .first disconnect hprt0 → s.Seen port hprt0)
    (second : ∀ disconnect hprt0 dup, isr = .second disconnect hprt0 dup → s.Seen port hprt0) :
    { s with disconnect, isr }.Refines port where
  portEnabled := refines.portEnabled
  connSts := refines.connSts
  intEnabled := refines.intEnabled
  serving := serving
  fresh := refines.fresh
  resetIssued := refines.resetIssued
  first := first
  second := second
  unpowered := refines.unpowered

theorem Refines.handled (refines : s.Refines port) (sound : s.Sound) {disconnect : Bool} {hprt0 dup : Hprt0}
    (state : s.isr = .second disconnect hprt0 dup) :
    s.isrAccess.Refines ((conditions hprt0).foldl Port.operate port) := by
  have on : s.globalInt = true := refines.serving (by simp [state]) (by simp [state])
  have seen := refines.second disconnect hprt0 dup state
  have handled := s.handlePort_handled hprt0 dup
  obtain ⟨prtena, prtenchng, -, portEnabled, connSts⟩ := isrAccess_handled state
  have intEnabled : port.intEnabled = true := refines.intEnabled.trans on
  have call := s.isrAccess_call
  have running := (sound.serving (.inl (by simp [state]))).1
  have reset : s.isrAccess.reset = s.reset := by
    rw [isrAccess, state]
    exact handled.reset.trans (by simp [(sound.isr disconnect hprt0 dup state).1])
  have globalInt : s.isrAccess.globalInt = s.globalInt := by
    rw [isrAccess, state]
    exact handled.globalInt
  have isr : s.isrAccess.isr = if disconnect then .disconnect else .idle := by rw [isrAccess, state]
  rw [conditions_port intEnabled hprt0 fun changed => (seen changed).1]
  refine ⟨⟨?_, ?_, ?_⟩, ?_, ?_, ?_, ?_, ?_, ?_⟩
  · rw [portEnabled, ← refines.portEnabled]
  · rw [connSts, ← refines.connSts]
  · rw [globalInt]
    exact refines.intEnabled
  · exact fun _ _ => globalInt.trans on
  · intro _ changed disabled
    rw [prtenchng, Bool.and_eq_true] at changed
    rw [prtena] at disabled
    rw [reset]
    exact refines.fresh (.inl on) changed.1 disabled
  · intro _ armed
    rw [reset, prtena] at armed
    have issued := refines.resetIssued on armed
    simp only [issued, Bool.true_and, Bool.not_eq_true', Bool.and_eq_false_iff, Bool.not_eq_false']
    by_contra lost
    simp only [not_or, Bool.not_eq_false, Bool.not_eq_true] at lost
    obtain ⟨noReset, disabled⟩ := (seen lost.1).2 lost.2
    rw [noReset, disabled] at armed
    simp at armed
  · intro disconnect' hprt0' state'
    rw [isr] at state'
    split at state' <;> cases state'
  · intro disconnect' hprt0' dup' state'
    rw [isr] at state'
    split at state' <;> cases state'
  · intro unpowered
    rw [call] at unpowered
    rw [Call.restarting, unpowered] at running
    cases running

theorem Refines.isr (refines : s.Refines port) (sound : s.Sound) (serving : s.isr ≠ .idle ∨ s.pending = true) :
    s.isrAccess.Refines ((s.emits .isr).foldl Port.operate port) := by
  cases state : s.isr with
  | idle =>
    have on : s.globalInt = true := pending_globalInt (by simpa [state] using serving)
    simp only [isrAccess, emits, state, List.foldl_nil]
    refine refines.advance s.disconnect _ (fun _ _ => on) ?_ ?_
    · intro disconnect hprt0 next
      split at next <;> cases next
    · intro disconnect hprt0 dup next
      split at next <;> cases next
  | port disconnect =>
    have on : s.globalInt = true := refines.serving (by simp [state]) (by simp [state])
    simp only [isrAccess, emits, state, List.foldl_nil]
    refine refines.advance s.disconnect _ (fun _ _ => on) ?_ (by simp)
    rintro _ _ ⟨⟩ changed
    refine ⟨fun enabled => refines.resetIssued on (.inr enabled), fun disabled => ?_⟩
    exact ⟨refines.fresh (.inl on) changed disabled, disabled⟩
  | first disconnect hprt0 =>
    have on : s.globalInt = true := refines.serving (by simp [state]) (by simp [state])
    simp only [isrAccess, emits, state, List.foldl_nil]
    refine refines.advance s.disconnect _ (fun _ _ => on) (by simp) ?_
    rintro _ _ _ ⟨⟩
    exact refines.first disconnect hprt0 state
  | second disconnect hprt0 dup =>
    have handled := refines.handled sound state
    rw [emits, state]
    exact handled
  | disconnect =>
    have on : s.globalInt = true := refines.serving (by simp [state]) (by simp [state])
    have intEnabled : port.intEnabled = true := refines.intEnabled.trans on
    have running := (sound.serving (.inl (by simp [state]))).1
    simp only [isrAccess, emits, state, List.foldl_cons, List.foldl_nil, Port.operate, Port.interrupt, intEnabled,
      if_true, disconnected]
    refine ⟨⟨refines.portEnabled, rfl, rfl⟩, by simp, ?_, by simp, by simp, by simp, ?_⟩
    · rintro (off | restarting)
      · cases off
      · exact absurd (running.symm.trans restarting) (by simp)
    · intro unpowered
      rw [Call.restarting, unpowered] at running
      cases running
  | disconnected =>
    simp only [isrAccess, emits, state, List.foldl_nil]
    exact refines.advance false .idle (by simp) (by simp) (by simp)

/-- The main program goes on without an access that the driver is told of. -/
theorem Refines.proceed (refines : s.Refines port) (unmoved : s.hprt0.Unmoved next.hprt0) (idle : next.isr = .idle)
    (reset : next.reset = s.reset) (globalInt : next.globalInt = s.globalInt)
    (flags : next.portEnabled = s.portEnabled ∧ next.connSts = s.connSts)
    (restarting : next.call.restarting = true → s.call.restarting = true)
    (unpowered : next.call.unpowered = true → s.call.unpowered = true) : next.Refines port := by
  refine ⟨⟨?_, ?_, ?_⟩, by simp [idle], ?_, ?_, by simp [idle], by simp [idle], ?_⟩
  · rw [flags.1, refines.portEnabled]
  · rw [flags.2, refines.connSts]
  · rw [globalInt, refines.intEnabled]
  · rw [globalInt, reset, unmoved.prtenchng, unmoved.prtena]
    exact fun live => refines.fresh (live.imp_right restarting)
  · rw [globalInt, reset, unmoved.prtena]
    exact refines.resetIssued
  · rw [unmoved.prtenchng]
    exact fun off => refines.unpowered (unpowered off)

theorem Refines.resetCleared (refines : s.Refines port) (sound : s.Sound) (noticed : s.Noticed)
    (runs : s.mainRuns = true) {init : Bool} {hprt0 : Hprt0} (call : s.call = .resetClear init hprt0) :
    s.mainAccess.Refines ((s.emits .main).foldl Port.operate port) := by
  obtain ⟨idle, quiet⟩ := mainRuns_idle runs
  have unmoved := sound.mainAccess_unmoved (by simp [call])
  have idle' : s.mainAccess.isr = .idle := by rw [mainAccess_isr, idle]
  have flags := s.mainAccess_flags
  have globalInt : s.mainAccess.globalInt = s.globalInt := by
    rw [mainAccess, call]
    rfl
  -- Nothing waits to be handled when the reset ends: the interrupt would have been taken.
  have nothing : s.globalInt = true ∨ init = true → s.hprt0.prtenchng = false := by
    rintro (on | restarts)
    · rw [pending, on, noticed.portMask (.inl on)] at quiet
      simp only [Hprt0.changed, Bool.true_and, Bool.and_true, Bool.or_eq_false_iff] at quiet
      exact quiet.1.1.2
    · exact refines.unpowered (by rw [call, restarts]; rfl)
  cases init with
  | true =>
    have off := (sound.quiet (.inl (by rw [call]; rfl))).1
    have call' : s.mainAccess.call = .driveVbusRead := by simp [mainAccess, call]
    rw [emits, call]
    refine ⟨⟨?_, ?_, ?_⟩, by simp [idle'], ?_, ?_, by simp [idle'], by simp [idle'], ?_⟩
    · exact refines.portEnabled.trans flags.1.symm
    · exact refines.connSts.trans flags.2.symm
    · exact refines.intEnabled.trans globalInt.symm
    · simp [unmoved.prtenchng, nothing (.inr rfl)]
    · simp [globalInt, off]
    · simp [unmoved.prtenchng, nothing (.inr rfl)]
  | false =>
    have call' : s.mainAccess.call = .none := by simp [mainAccess, call]
    rw [emits, call]
    refine ⟨⟨?_, ?_, ?_⟩, by simp [idle'], ?_, ?_, by simp [idle'], by simp [idle'], ?_⟩
    · exact refines.portEnabled.trans flags.1.symm
    · exact refines.connSts.trans flags.2.symm
    · exact refines.intEnabled.trans globalInt.symm
    · rw [globalInt, call', unmoved.prtenchng]
      rintro (on | restarting) changed
      · exact absurd (changed.symm.trans (nothing (.inl on))) (by simp)
      · cases restarting
    · exact fun _ _ => rfl
    · simp [call', Call.unpowered]

theorem Refines.enabled (refines : s.Refines port) (runs : s.mainRuns = true) (call : s.call = .enableGlobalInt) :
    s.mainAccess.Refines ((s.emits .main).foldl Port.operate port) := by
  obtain ⟨idle, -⟩ := mainRuns_idle runs
  have fresh := refines.fresh (.inr (by rw [call]; rfl))
  rw [emits, mainAccess, call]
  refine ⟨⟨refines.portEnabled, refines.connSts, rfl⟩, fun _ _ => rfl, fun _ => fresh, fun _ _ => rfl, ?_, ?_, ?_⟩
  · simp [idle]
  · simp [idle]
  · simp [Call.unpowered]

theorem Refines.main (refines : s.Refines port) (sound : s.Sound) (noticed : s.Noticed) (runs : s.mainRuns = true) :
    s.mainAccess.Refines ((s.emits .main).foldl Port.operate port) := by
  obtain ⟨idle, -⟩ := mainRuns_idle runs
  have idle' : s.mainAccess.isr = .idle := by rw [mainAccess_isr, idle]
  have unmoved := sound.mainAccess_unmoved
  have flags := s.mainAccess_flags
  have held := sound.held
  have pulse := sound.pulse
  have quiet := sound.quiet
  cases call : s.call
  case resetClear init hprt0 => exact refines.resetCleared sound noticed runs call
  case enableGlobalInt => exact refines.enabled runs call
  case coreInit =>
    have off := (quiet (.inr call)).1
    simp only [emits, mainAccess, call, List.foldl_nil]
    refine ⟨⟨refines.portEnabled, refines.connSts, refines.intEnabled⟩, by simp [idle], fun _ _ _ => rfl, by simp [off],
      ?_, ?_, fun _ => rfl⟩
    · simp [idle]
    · simp [idle]
  case disableGlobalInt =>
    rw [emits, mainAccess, call]
    refine ⟨⟨refines.portEnabled, refines.connSts, rfl⟩, by simp [idle], ?_, by simp, by simp [idle], by simp [idle], ?_⟩
    all_goals simp [Call.restarting, Call.unpowered]
  all_goals
    have none : s.emits .main = [] := by rw [emits, call]
    rw [none, List.foldl_nil]
    rw [call] at held pulse
    refine refines.proceed (unmoved (by simp [call])) idle' ?_ ?_ flags ?_ ?_
  case resetSet.refine_1 init hprt0 =>
    simp [mainAccess, call, writeHprt0, (held hprt0 rfl).prtena]
  case driveVbusWrite.refine_1 hprt0 =>
    have idle : s.hprt0.prtrst = false := pulse
    simp only [mainAccess, call]
    split <;> simp [writeHprt0, (held hprt0 rfl).prtena, idle]
  case driveVbusWrite.refine_2 hprt0 =>
    simp only [mainAccess, call]
    split <;> rfl
  all_goals simp [mainAccess, call, writeHprt0, Call.restarting, Call.unpowered]

theorem Refines.step (refines : s.Refines port) (sound : s.Sound) (noticed : s.Noticed) (taken : s.Taken input next) :
    next.Refines ((s.emits input).foldl Port.operate port) := by
  cases taken with
  | port after evolves => exact refines.evolve sound evolves
  | isr serving => exact refines.isr sound serving
  | main runs busy => exact refines.main sound noticed runs
  | resetPort runs free =>
    obtain ⟨idle, -⟩ := mainRuns_idle runs
    refine refines.proceed (.refl _) idle rfl rfl ⟨rfl, rfl⟩ ?_ ?_
    all_goals simp [Call.restarting, Call.unpowered]
  | init runs free =>
    refine ⟨⟨refines.portEnabled, rfl, refines.intEnabled⟩, refines.serving, ?_, refines.resetIssued, refines.first,
      refines.second, ?_⟩
    · rintro (on | restarting)
      · exact refines.fresh (.inl on)
      · cases restarting
    · simp [Call.unpowered]

theorem Refines.run {inputs : List PortInput} {final : PortCore} (refines : s.Refines port) (sound : s.Sound)
    (noticed : s.Noticed) (run : exec PortCore.step inputs s = .ok final) :
    final.Refines ((s.operations inputs).foldl Port.operate port) := by
  induction inputs generalizing s port with
  | nil =>
    cases run
    exact refines
  | cons input rest ih =>
    obtain ⟨next, taken, tail⟩ := (exec_cons_ok PortCore.step input rest s final).mp run
    have move := step_taken.mp taken
    rw [operations, taken, List.foldl_append]
    exact ih (refines.step sound noticed move) (sound.step move) (noticed.step sound move) tail

theorem boot_refines : boot.Refines zeroed.pdev.port := by
  refine ⟨⟨rfl, rfl, rfl⟩, ?_, ?_, ?_, ?_, ?_, ?_⟩ <;> simp [boot, Hprt0.zero]

/-- The accesses show of the port what the driver's functions do, taken in the order in which their conditions are read
and their parts are done. -/
theorem port_refines {inputs : List PortInput} {final : PortCore} (run : exec PortCore.step inputs boot = .ok final) :
    final.Shows ((boot.operations inputs).foldl Hcd.operate zeroed.pdev).port ∧
      ∀ pdev : Hcd, [.initBegins, .initDisablesInt, .initEnds].foldl Hcd.operate pdev = pdev.init := by
  refine ⟨?_, init_parts⟩
  rw [operations_port]
  exact (boot_refines.run boot_sound boot_noticed run).toShows

theorem port_refines_attached :
    ∃ final, exec PortCore.step attached boot = .ok final ∧ final.portEnabled = true ∧
      final.Shows ((boot.operations attached).foldl Hcd.operate zeroed.pdev).port := by
  obtain ⟨final, run, enabled⟩ := exists_of_succeedsWith (fun s => s.portEnabled)
    (exec PortCore.step attached boot) (by decide)
  exact ⟨final, run, enabled, (port_refines run).1⟩

end PortCore

end Testjig.Usb
