import Testjig.System.Alternation

namespace Testjig.System

open Machine Testjig.Sequence Testjig.Usb Testjig.Board

/-- main() has left its first state, or has a command under way. -/
def Active (m : Main) : Prop := 0 < m.state ∨ m.cmdrsp.state ≠ .idle

theorem process_disconnected {usb : Usbh} {fault : Bool} {env : Env}
    (gone : (usb.portEvents env).phost.gState = .devDisconnected) :
    ∃ next, usb.process (classCb fault) env = .ok next ∧ next.cdcDeviceConnected = false := by
  refine ⟨((usb.portEvents env).irq env .state).devDisconnected (classCb fault), ?_, ?_⟩
  · simp only [Usbh.process]
    rw [show ((usb.portEvents env).irq env .state).phost.gState = .devDisconnected from gone]
  · cases fault <;> exact interfaceDeInit_flag _

theorem process_failed {usb : Usbh} {env : Env} (active : (usb.portEvents env).phost.gState = .hostClass) :
    ∃ next, usb.process (classCb true) env = .ok next ∧ next.cdcDeviceConnected = false := by
  refine ⟨(((usb.portEvents env).irq env .state).handle env).1.usrUnrecoveredError.setState .errorState, ?_, rfl⟩
  simp only [Usbh.process]
  rw [show ((usb.portEvents env).irq env .state).phost.gState = .hostClass from active]
  rfl

theorem portEvents_dropped {usb : Usbh} {turn : Turn} (busy : usb.phost.gState ≠ .idle)
    (dropped : (usb.irq turn.env .connSts).pdev.port.Gone ∨ (usb.irq turn.env .connSts).pdev.port.Disabled) :
    (usb.portEvents turn.env).phost.gState = .devDisconnected := by
  simp only [Usbh.portEvents]
  rw [if_pos]
  · rfl
  · refine ⟨?_, busy⟩
    rcases dropped with gone | disabled
    · exact .inl (by simp [gone.1])
    · have off : ((usb.irq turn.env .connSts).irq turn.env .portEnabled).pdev.port.Disabled :=
        interrupts_keep interrupt_disabled (turn.irqs .portEnabled) disabled
      exact .inr (by simp [off.1])

theorem handle_keeps {keeps : Port → Prop} (kept : ∀ port irq, keeps port → keeps (port.interrupt irq))
    {usb : Usbh} (turn : Turn) (holds : keeps usb.pdev.port) : keeps (usb.handle turn.env).1.pdev.port := by
  have irq {usb : Usbh} (point : Point) (holds : keeps usb.pdev.port) : keeps (usb.irq turn.env point).pdev.port :=
    interrupts_keep kept (turn.irqs point) holds
  have transmission {usb : Usbh} (holds : keeps usb.pdev.port) :
      keeps (usb.processTransmission turn.env).pdev.port := by
    simp only [Usbh.processTransmission]
    split
    · exact holds
    · split
      · split <;> exact irq .transmission holds
      · exact irq .transmission holds
      · exact irq .transmission holds
    · exact holds
  have reception {usb : Usbh} (holds : keeps usb.pdev.port) : keeps (usb.processReception turn.env).pdev.port := by
    simp only [Usbh.processReception]
    split
    · exact holds
    · split
      · split <;> exact irq .xferCnt (irq .reception holds)
      · exact irq .reception holds
    · exact holds
  simp only [Usbh.handle]
  split
  · split
    · exact irq .handle holds
    · exact reception (transmission (irq .handle holds))
    · exact irq .handle holds
  · exact irq .handle holds

/-- The connection that main.c relies on, at the boundary between two iterations -/
structure Linked (s : Sys) : Prop where
  alternates : Alternates s
  flagged : Flagged s.usb
  begun : s.main.cmdrsp.state ≠ .idle → 0 < s.main.state
  on : 0 < s.main.state → s.usb.cdcDeviceConnected = true
  fresh : s.main.state = 0 → s.main.log = []

theorem Linked.active {s : Sys} (linked : Linked s) (active : Active s.main) : 0 < s.main.state := by
  rcases active with begun | busy
  · exact begun
  · exact linked.begun busy

theorem served_started {m next : Main} {poll : Poll} (served : Served m poll next)
    (begun : m.cmdrsp.state ≠ .idle → 0 < m.state) :
    (m.state = 0 ∧ m.cmdrsp.state = .idle ∧ next = m) ∨ (0 < next.state ∧ poll.connected = true) := by
  cases served with
  | unconnected _ initial idle => exact .inl ⟨initial, idle, rfl⟩
  | txWait on busy => exact .inr ⟨begun (by simp [busy]), on⟩
  | rxWait on busy => exact .inr ⟨begun (by simp [busy]), on⟩
  | transmitted on done => exact .inr ⟨begun (by simp [done]), on⟩
  | received on done => exact .inr ⟨begun (by simp [done]), on⟩
  | test _ on _ ran =>
    refine .inr ⟨?_, on⟩
    cases runState_issued ran with
    | quiet _ _ _ begun => exact begun (Nat.succ_pos _)
    | command _ _ _ _ begun => exact begun (Nat.succ_pos _)

/-- The parts of an iteration that main() survives: the stack returns as `inner`, and the callbacks leave main() with
`cmdrsp` in `state`. -/
structure Parts (x : Schedule) (s next : Sys) (inner : Usbh) (state : CmdRspState) : Prop where
  ran : Usbh.process { s.usb with actions := [] } (classCb x.fault) x.turn.env = .ok inner
  ready : Ready (inner.irq x.turn.env .exit)
  phase : InPhase (inner.irq x.turn.env .exit) state
  advanced : Advanced s.main.cmdrsp.state state
  served : Served { (view s.main (inner.irq x.turn.env .exit)).newIteration with cmdrsp.state := state }
    (x.input.poll (inner.irq x.turn.env .exit)) next.main
  usb : next.usb = (inner.irq x.turn.env .exit).serve next.main.call

theorem step_parts {x : Schedule} {s next : Sys} (alternates : Alternates s) (taken : step x s = .ok next) :
    ∃ inner state, Parts x s next inner state := by
  obtain ⟨usb, main, processed, ran, rfl⟩ := iterate_ok taken
  obtain ⟨state, called, ready, phase, advanced⟩ := iterate_parts alternates processed
  obtain ⟨middle, called', served⟩ := iterate_served ran
  cases called.symm.trans called'
  unfold Input.process at processed
  split at processed
  · cases processed
  · rename_i inner innerRan
    cases processed
    exact ⟨inner, state, innerRan, ready, phase, advanced, served, rfl⟩

theorem step_linked (x : Schedule) (s next : Sys) (linked : Linked s) (taken : step x s = .ok next) :
    Linked next ∧ (0 < s.main.state → 0 < next.main.state ∧ next.usb.enumerations = s.usb.enumerations ∧
      ∀ drops, s.usb.pdev.port.Shows drops → next.usb.pdev.port.Shows drops) := by
  have alternates := iterate_alternates x.input s next linked.alternates taken
  obtain ⟨inner, state, ran, _, _, advanced, served, usb⟩ := step_parts linked.alternates taken
  obtain ⟨flagged, machine⟩ := process_flagged { s.usb with actions := [] } linked.flagged ran
  obtain ⟨sameStack, sameFlag, sameCount, _⟩ := serve_same (inner.irq x.turn.env .exit) next.main.call
  rw [← usb] at sameStack sameFlag sameCount
  have flagged' : Flagged next.usb := by
    rw [Flagged, sameFlag, sameStack]
    exact flagged
  rcases served_started served fun busy => linked.begun (mt advanced.idle.mp busy) with ⟨initial, quiet, same⟩ | ⟨started, on⟩
  · have waits : s.main.state = 0 := initial
    have initial' : next.main.state = 0 := by rw [same]; exact initial
    have quiet' : next.main.cmdrsp.state = .idle := by rw [same]; exact quiet
    have fresh' : next.main.log = [] := by rw [same]; exact linked.fresh waits
    exact ⟨⟨alternates, flagged', fun busy => absurd quiet' busy,
      fun started => absurd initial' (Nat.ne_of_gt started), fun _ => fresh'⟩,
      fun started => absurd waits (Nat.ne_of_gt started)⟩
  · have connected : inner.cdcDeviceConnected = true := (Bool.and_eq_true_iff.mp on).1
    refine ⟨⟨alternates, flagged', fun _ => started, fun _ => by rw [sameFlag]; exact connected,
      fun initial => absurd initial (Nat.ne_of_gt started)⟩, fun was => ⟨started, ?_, fun drops shows => ?_⟩⟩
    · rw [sameCount, (machine (linked.on was) connected).1]
      exact (handle_same _ _).2.2.trans (portEvents_state _ _).2.1
    · have irq {usb : Usbh} (point : Point) (shows : usb.pdev.port.Shows drops) :
          (usb.irq x.turn.env point).pdev.port.Shows drops :=
        interrupts_keep (interrupt_shows drops) (x.turn.irqs point) shows
      have events : (Usbh.portEvents { s.usb with actions := [] } x.turn.env).pdev.port.Shows drops := by
        simp only [Usbh.portEvents]
        split <;> exact irq .portEnabled (irq .connSts shows)
      rw [sameStack, (machine (linked.on was) connected).1]
      exact irq .exit (handle_keeps (interrupt_shows drops) x.turn (irq .state events))

theorem step_reset {x : Schedule} {s : Sys} (linked : Linked s) (started : 0 < s.main.state)
    (gone : ∃ next, Usbh.process { s.usb with actions := [] } (classCb x.fault) x.turn.env = .ok next ∧
      next.cdcDeviceConnected = false) : step x s = .error .systemReset := by
  obtain ⟨next, ran, unflagged⟩ := gone
  have processed : x.input.process s.usb = .ok (next.irq x.turn.env .exit) := by
    unfold Input.process
    rw [show Usbh.process { s.usb with actions := [] } (classCb x.input.fault) x.input.env = .ok next from ran]
    rfl
  obtain ⟨state, called, _⟩ := iterate_parts linked.alternates processed
  have off : (x.input.poll (next.irq x.turn.env .exit)).connected = false := by
    change (next.cdcDeviceConnected && _) = false
    rw [unflagged]
    rfl
  unfold step iterate
  rw [processed]
  simp only [Sequence.iterate, called, Main.afterProcess, off]
  rw [if_pos (by simp), if_pos (.inl (by simpa [view, Main.newIteration] using Nat.pos_iff_ne_zero.mp started))]

structure Stays (s later : Sys) : Prop where
  linked : Linked later
  started : 0 < later.main.state
  enumeration : later.usb.enumerations = s.usb.enumerations
  shows : later.usb.pdev.port.Shows s.usb.pdev.port.drops

theorem step_stays {s : Sys} (x : Schedule) (middle next : Sys) (stays : Stays s middle)
    (taken : step x middle = .ok next) : Stays s next := by
  obtain ⟨linked, kept⟩ := step_linked x middle next stays.linked taken
  obtain ⟨started, count, shows⟩ := kept stays.started
  exact ⟨linked, started, count.trans stays.enumeration, shows _ stays.shows⟩

theorem powerOn_linked (latches : Gpio) : Linked (powerOn latches) where
  alternates := powerOn_alternates latches
  flagged := by simp [Flagged, powerOn, usbhCdcInit, zeroed]
  begun := by simp [powerOn, Sequence.powerOn]
  on := by simp [powerOn, Sequence.powerOn]
  fresh _ := rfl

/-- How often the link has dropped when the next call of `usbh_cdc_process()` begins -/
def dropsAtCall (x : Schedule) (s : Sys) : Nat := (s.usb.pdev.interrupts (x.turn.irqs .connSts)).port.drops

/-- Until main() is active it has sent and consumed nothing. From then on every drop of the link and every
unrecovered error makes it reset at the next call of `usbh_cdc_process()`, and the enumeration stays the same. -/
theorem one_connection (latches : Gpio) (before : List Schedule) (s : Sys)
    (run : exec step before (powerOn latches) = .ok s) :
    (¬ Active s.main → s.main.log = []) ∧ (Active s.main →
      (∀ x : Schedule, x.fault = true → step x s = .error .systemReset) ∧
      ∀ middle later, exec step middle s = .ok later →
        Active later.main ∧ later.usb.enumerations = s.usb.enumerations ∧
        ∀ x : Schedule, s.usb.pdev.port.drops < dropsAtCall x later → step x later = .error .systemReset) := by
  have linked : Linked s :=
    exec_invariant (fun x s next linked taken => (step_linked x s next linked taken).1) (powerOn_linked latches) run
  have classState {s : Sys} (linked : Linked s) (started : 0 < s.main.state) : s.usb.phost.gState = .hostClass :=
    linked.flagged (linked.on started)
  refine ⟨fun inactive => ?_, fun active => ⟨fun x fault => ?_, fun middle later run' => ?_⟩⟩
  · exact linked.fresh (Nat.eq_zero_of_not_pos fun started => inactive (.inl started))
  · have started := linked.active active
    apply step_reset linked started
    rw [fault]
    rcases (portEvents_state { s.usb with actions := [] } x.turn.env).2.2 with same | gone
    · exact process_failed (same.trans (classState linked started))
    · exact process_disconnected gone
  · obtain ⟨linked', started', count, shows⟩ : Stays s later :=
      exec_invariant step_stays ⟨linked, linked.active active, rfl, .inl rfl⟩ run'
    refine ⟨.inl started', count, fun x dropped => step_reset linked' started' ?_⟩
    have shown := interrupts_keep (interrupt_shows s.usb.pdev.port.drops) (x.turn.irqs .connSts) shows
    refine process_disconnected (portEvents_dropped ?_ ?_)
    · rw [show ({ later.usb with actions := [] } : Usbh).phost.gState = .hostClass from classState linked' started']
      simp
    · rcases shown with same | dead
      · exact absurd dropped (by rw [dropsAtCall, same]; exact Nat.lt_irrefl _)
      · exact dead

theorem one_connection_first : ∃ s, exec step (firstCommand 2 64) (powerOn fun _ _ => false) = .ok s ∧ Active s.main ∧
    ∀ x : Schedule, x.fault = true → step x s = .error .systemReset := by
  obtain ⟨s, run, checked⟩ := exists_of_succeedsWith (fun s : Sys => s.main.cmdrsp.state ≠ .idle)
    (exec step (firstCommand 2 64) (powerOn fun _ _ => false)) (by decide +kernel)
  have active : Active s.main := .inr (of_decide_eq_true checked)
  exact ⟨s, run, active, ((one_connection _ _ s run).2 active).1⟩

end Testjig.System
