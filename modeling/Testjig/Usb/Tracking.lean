import Testjig.Usb.Port

namespace Testjig.Usb

open Machine

namespace PortCore

variable {s next : PortCore} {input : PortInput}

/-- `PortEnabled` tells whether the port is enabled, unless a change has yet to be handled. -/
def Tracked (s : PortCore) : Prop := s.hprt0.prtenchng = true ∨ s.portEnabled = s.hprt0.prtena

/-- The next access loses a change of the port for good. -/
inductive Loses (s : PortCore) : PortInput → Prop where
  /-- The port has been enabled or disabled again since the handler read that it was. -/
  | overtaken (disconnect : Bool) (hprt0 dup : Hprt0) (state : s.isr = .second disconnect hprt0 dup)
    (seen : hprt0.prtenchng = true) (moved : hprt0.prtena ≠ s.hprt0.prtena) : Loses s .isr
  /-- `HCD_Init()` resets the core, but not `PortEnabled`. -/
  | restarted (call : s.call = .coreInit) (stale : s.portEnabled = true) : Loses s .main

theorem isrAccess_unhandled (s : PortCore)
    (unhandled : ∀ disconnect hprt0 dup, s.isr ≠ .second disconnect hprt0 dup) :
    s.isrAccess.hprt0 = s.hprt0 ∧ s.isrAccess.portEnabled = s.portEnabled ∧
      s.isrAccess.connSts = (s.connSts && s.isr ≠ .disconnect) := by
  rw [isrAccess]
  split
  case h_4 disconnect hprt0 dup state => exact absurd state (unhandled disconnect hprt0 dup)
  all_goals simp_all [disconnected]

theorem mainAccess_flags (s : PortCore) :
    s.mainAccess.portEnabled = s.portEnabled ∧ s.mainAccess.connSts = s.connSts := by
  rw [mainAccess]
  split
  case h_9 => split <;> exact ⟨rfl, rfl⟩
  all_goals exact ⟨rfl, rfl⟩

theorem Sound.mainAccess_unmoved (sound : s.Sound) (notReset : s.call ≠ .coreInit) :
    s.hprt0.Unmoved s.mainAccess.hprt0 := by
  by_cases power : ∃ hprt0, s.call = .driveVbusWrite hprt0
  · obtain ⟨hprt0, call⟩ := power
    have keeps := sound.held hprt0 (by rw [call]; rfl)
    have changed := keeps.changed
    simp only [Hprt0.changed, Bool.or_eq_false_iff] at changed
    rw [PortCore.mainAccess, call]
    dsimp only
    split
    · exact .refl _
    · constructor <;> simp [writeHprt0, Hprt0.write, keeps.prtena, changed]
  · exact (sound.mainAccess_controlled notReset fun hprt0 call => power ⟨hprt0, call⟩).toUnmoved

/-- The acknowledging access of `USB_OTG_USBH_handle_port_ISR()` -/
theorem isrAccess_handled {disconnect : Bool} {hprt0 dup : Hprt0}
    (state : s.isr = .second disconnect hprt0 dup) :
    s.isrAccess.hprt0.prtena = s.hprt0.prtena ∧
      s.isrAccess.hprt0.prtenchng = (s.hprt0.prtenchng && !hprt0.prtenchng) ∧
      s.isrAccess.hprt0.prtconndet = (s.hprt0.prtconndet && !hprt0.prtconndet) ∧
      s.isrAccess.portEnabled = (if hprt0.prtenchng then hprt0.prtena else s.portEnabled) ∧
      s.isrAccess.connSts = (s.connSts || hprt0.prtconndet) := by
  have handled := s.handlePort_handled hprt0 dup
  rw [isrAccess, state]
  refine ⟨?_, ?_, ?_, handled.portEnabled, handled.connSts⟩ <;>
    simp [handled.write, Hprt0.write, Hprt0.acknowledge]

theorem Sound.step_tracked (sound : s.Sound) (taken : s.Taken input next) (tracked : s.Tracked)
    (kept : ¬ s.Loses input) : next.Tracked := by
  cases taken with
  | port after evolves =>
    rw [Tracked, PortCore.evolve]
    dsimp only
    rw [evolves.prtenchng]
    rcases tracked with waiting | same
    · simp [waiting]
    · by_cases moved : after.prtena = s.hprt0.prtena
      · exact .inr (same.trans moved.symm)
      · simp [moved]
  | isr serving =>
    by_cases handles : ∃ disconnect hprt0 dup, s.isr = .second disconnect hprt0 dup
    · obtain ⟨disconnect, hprt0, dup, state⟩ := handles
      obtain ⟨prtena, prtenchng, -, portEnabled, -⟩ := isrAccess_handled state
      rw [Tracked, prtena, prtenchng, portEnabled]
      cases seen : hprt0.prtenchng with
      | false => simpa [Tracked] using tracked
      | true =>
        by_cases moved : hprt0.prtena = s.hprt0.prtena
        · exact .inr moved
        · exact absurd (.overtaken disconnect hprt0 dup state seen moved) kept
    · obtain ⟨same, portEnabled, -⟩ := s.isrAccess_unhandled fun disconnect hprt0 dup state =>
        handles ⟨disconnect, hprt0, dup, state⟩
      rw [Tracked, same, portEnabled]
      exact tracked
  | main runs busy =>
    rw [Tracked, s.mainAccess_flags.1]
    by_cases reset : s.call = .coreInit
    · have off : s.portEnabled = false := by
        rw [← Bool.not_eq_true]
        exact fun stale => kept (.restarted reset stale)
      rw [off, PortCore.mainAccess, reset]
      exact .inr rfl
    · have unmoved := sound.mainAccess_unmoved reset
      rw [unmoved.prtenchng, unmoved.prtena]
      exact tracked
  | resetPort runs free => exact tracked
  | init runs free => exact tracked

theorem step_lost (taken : s.Taken input next) (loses : s.Loses input) : ¬ next.Tracked := by
  cases loses with
  | overtaken disconnect hprt0 dup state seen moved =>
    cases taken
    obtain ⟨prtena, prtenchng, -, portEnabled, -⟩ := isrAccess_handled state
    rw [Tracked, prtena, prtenchng, portEnabled]
    simp [seen, moved]
  | restarted call stale =>
    cases taken
    rw [Tracked, s.mainAccess_flags.1, stale, mainAccess, call]
    simp [Hprt0.zero]

/-- The interrupts are on, none is due, and `HCD_Init()` is not about to turn them off. -/
def Settled (s : PortCore) : Prop := s.globalInt = true ∧ s.call ≠ .disableGlobalInt ∧ s.pending = false

structure Noticed (s : PortCore) : Prop where
  portMask : s.globalInt = true ∨ s.call = .enableGlobalInt → s.portMask = true
  connSts : s.globalInt = true ∧ s.call ≠ .disableGlobalInt ∨ s.call.restarting = true →
    s.hprt0.prtconnsts = true → s.hprt0.prtconndet = true ∨ s.connSts = true

theorem boot_noticed : boot.Noticed := by
  constructor <;> simp [boot, Hprt0.zero]

theorem isrAccess_masks (s : PortCore) (on : s.isrAccess.globalInt = true) :
    s.globalInt = true ∧ s.isrAccess.portMask = s.portMask ∧ s.isr ≠ .disconnect := by
  rw [isrAccess] at on ⊢
  split at on
  case h_4 disconnect hprt0 dup state =>
    have handled := s.handlePort_handled hprt0 dup
    exact ⟨handled.globalInt.symm.trans on, handled.portMask, by simp [state]⟩
  case h_5 => cases on
  all_goals exact ⟨on, rfl, by simp [*]⟩

theorem Sound.mainAccess_portMask (sound : s.Sound)
    (before : s.globalInt = true ∨ s.call = .enableGlobalInt → s.portMask = true)
    (on : s.mainAccess.globalInt = true ∨ s.mainAccess.call = .enableGlobalInt) : s.mainAccess.portMask = true := by
  have quiet := sound.quiet
  rw [PortCore.mainAccess] at on ⊢
  cases call : s.call <;> simp_all [writeHprt0]
  case resetClear init hprt0 =>
    cases init <;> simp_all
  case driveVbusWrite hprt0 =>
    split at on <;> simp_all

theorem mainAccess_listens (s : PortCore) (notReset : s.call ≠ .coreInit)
    (listens : s.mainAccess.globalInt = true ∧ s.mainAccess.call ≠ .disableGlobalInt ∨
      s.mainAccess.call.restarting = true) :
    s.globalInt = true ∧ s.call ≠ .disableGlobalInt ∨ s.call.restarting = true := by
  rw [mainAccess] at listens
  cases call : s.call <;> simp_all [Call.restarting, Call.unpowered, writeHprt0]
  case resetClear init hprt0 =>
    cases init <;> simp_all

theorem Noticed.step (noticed : s.Noticed) (sound : s.Sound) (taken : s.Taken input next) : next.Noticed := by
  cases taken with
  | port after evolves =>
    refine ⟨noticed.portMask, fun listens attached => ?_⟩
    have attached : after.prtconnsts = true := attached
    rw [PortCore.evolve]
    dsimp only
    rw [evolves.prtconndet]
    cases before : s.hprt0.prtconnsts with
    | false => simp [attached]
    | true => rcases noticed.connSts listens before with detected | known <;> simp [*]
  | isr serving =>
    obtain ⟨running, -⟩ := sound.serving serving
    have call := s.isrAccess_call
    constructor
    · rintro (on | enabling)
      · obtain ⟨before, portMask, -⟩ := s.isrAccess_masks on
        rw [portMask]
        exact noticed.portMask (.inl before)
      · rw [← call, enabling] at running
        cases running
    · rintro (⟨on, notInit⟩ | restarting) attached
      · obtain ⟨before, -, notGone⟩ := s.isrAccess_masks on
        have told := noticed.connSts (.inl ⟨before, call ▸ notInit⟩)
        rw [sound.isrAccess_same.1.prtconnsts] at attached
        by_cases handles : ∃ disconnect hprt0 dup, s.isr = .second disconnect hprt0 dup
        · obtain ⟨disconnect, hprt0, dup, state⟩ := handles
          obtain ⟨-, -, prtconndet, -, connSts⟩ := isrAccess_handled state
          rw [prtconndet, connSts]
          cases hprt0.prtconndet with
          | false => simpa using told attached
          | true => simp
        · obtain ⟨same, -, connSts⟩ := s.isrAccess_unhandled fun disconnect hprt0 dup state =>
            handles ⟨disconnect, hprt0, dup, state⟩
          rw [same, connSts]
          simpa [notGone] using told attached
      · rw [call, running] at restarting
        cases restarting
  | main runs busy =>
    refine ⟨sound.mainAccess_portMask noticed.portMask, fun listens attached => ?_⟩
    rw [s.mainAccess_flags.2]
    by_cases reset : s.call = .coreInit
    · rw [PortCore.mainAccess, reset] at attached
      cases attached
    · have unmoved := sound.mainAccess_unmoved reset
      rw [unmoved.prtconndet]
      rw [unmoved.prtconnsts] at attached
      exact noticed.connSts (s.mainAccess_listens reset listens) attached
  | resetPort runs free =>
    refine ⟨fun on => noticed.portMask (.inl (by simpa using on)), fun listens => noticed.connSts ?_⟩
    · simpa [free, Call.restarting, Call.unpowered] using listens
  | init runs free =>
    refine ⟨fun on => noticed.portMask (.inl (by simpa using on)), fun listens => ?_⟩
    simp [Call.restarting, Call.unpowered] at listens

/-- What an access of the firmware leaves alone, and what it acknowledges only after it has taken note -/
structure Harmless (s next : PortCore) : Prop where
  prtconnsts : next.hprt0.prtconnsts = s.hprt0.prtconnsts
  prtena : next.hprt0.prtena = s.hprt0.prtena
  prtovrcurract : next.hprt0.prtovrcurract = s.hprt0.prtovrcurract
  prtconndet : next.hprt0.prtconndet = s.hprt0.prtconndet ∨ next.connSts = true
  prtenchng : next.hprt0.prtenchng = s.hprt0.prtenchng ∨ ∃ disconnect hprt0 dup,
    s.isr = .second disconnect hprt0 dup ∧ hprt0.prtenchng = true ∧ next.portEnabled = hprt0.prtena
  prtpwr : next.hprt0.prtpwr = s.hprt0.prtpwr ∨ ∃ hprt0, s.call = .driveVbusWrite hprt0

theorem Sound.isrAccess_harmless (sound : s.Sound) : s.Harmless s.isrAccess := by
  obtain ⟨same, -⟩ := sound.isrAccess_same
  refine ⟨same.prtconnsts, same.prtena, same.prtovrcurract, ?_, ?_, .inl same.prtpwr⟩
  all_goals
    by_cases handles : ∃ disconnect hprt0 dup, s.isr = .second disconnect hprt0 dup
  · obtain ⟨disconnect, hprt0, dup, state⟩ := handles
    obtain ⟨-, -, prtconndet, -, connSts⟩ := isrAccess_handled state
    rw [prtconndet, connSts]
    cases hprt0.prtconndet <;> simp
  · left
    rw [(s.isrAccess_unhandled fun disconnect hprt0 dup state => handles ⟨disconnect, hprt0, dup, state⟩).1]
  · obtain ⟨disconnect, hprt0, dup, state⟩ := handles
    obtain ⟨-, prtenchng, -, portEnabled, -⟩ := isrAccess_handled state
    cases seen : hprt0.prtenchng with
    | false =>
      left
      simp [prtenchng, seen]
    | true => exact .inr ⟨disconnect, hprt0, dup, state, seen, by rw [portEnabled, seen, if_pos rfl]⟩
  · left
    rw [(s.isrAccess_unhandled fun disconnect hprt0 dup state => handles ⟨disconnect, hprt0, dup, state⟩).1]

theorem Sound.mainAccess_harmless (sound : s.Sound) (notReset : s.call ≠ .coreInit) : s.Harmless s.mainAccess := by
  have unmoved := sound.mainAccess_unmoved notReset
  refine ⟨unmoved.prtconnsts, unmoved.prtena, unmoved.prtovrcurract, .inl unmoved.prtconndet,
    .inl unmoved.prtenchng, ?_⟩
  by_cases power : ∃ hprt0, s.call = .driveVbusWrite hprt0
  · exact .inr power
  · exact .inl (sound.mainAccess_controlled notReset fun hprt0 call => power ⟨hprt0, call⟩).prtpwr

theorem port_status_tracked {inputs : List PortInput} {final : PortCore} (run : exec step inputs boot = .ok final) :
    ((∀ s, Visits step inputs boot s → s.Tracked) ↔ ∀ input s, Takes step inputs boot input s → ¬ s.Loses input) ∧
      ∀ s, Visits step inputs boot s → s.Settled →
        (s.Tracked → s.portEnabled = s.hprt0.prtena) ∧ (s.hprt0.prtconnsts = true → s.connSts = true) := by
  constructor
  · constructor
    · intro tracked input s takes loses
      obtain ⟨next, taken⟩ := takes.taken run
      exact step_lost (step_taken.mp taken) loses (tracked next (takes.visits taken))
    · intro kept s visits
      have both : s.Sound ∧ s.Tracked := by
        apply visits_invariant _ ⟨boot_sound, .inr rfl⟩ visits
        rintro input before after takes ⟨sound, tracked⟩ taken
        have taken := step_taken.mp taken
        exact ⟨sound.step taken, sound.step_tracked taken tracked (kept input before takes)⟩
      exact both.2
  · rintro s visits ⟨on, notInit, quiet⟩
    have both : s.Sound ∧ s.Noticed := by
      apply visits_invariant _ ⟨boot_sound, boot_noticed⟩ visits
      rintro input before after - ⟨sound, noticed⟩ taken
      have taken := step_taken.mp taken
      exact ⟨sound.step taken, noticed.step sound taken⟩
    obtain ⟨-, noticed⟩ := both
    have unchanged : s.hprt0.changed = false := by
      rw [pending, on, noticed.portMask (.inl on)] at quiet
      simp at quiet
      exact quiet.1
    simp only [Hprt0.changed, Bool.or_eq_false_iff] at unchanged
    constructor
    · simp [Tracked, unchanged]
    · intro attached
      simpa [unchanged] using noticed.connSts (.inl ⟨on, notInit⟩) attached

/-- The stack starts, and a device is attached, reset and enabled. -/
def attached : List PortInput :=
  let connected := { Hprt0.zero with prtconnsts := true, prtconndet := true, prtpwr := true }
  let enabled := { connected with prtconndet := false, prtena := true, prtenchng := true, prtspd := prtspdFull }
  .init :: List.replicate 10 .main ++ .port connected :: List.replicate 4 .isr ++
    .resetPort :: List.replicate 3 .main ++ .port enabled :: List.replicate 4 .isr

theorem port_status_tracked_attached : ∃ final, exec step attached boot = .ok final ∧ final.connSts = true := by
  obtain ⟨final, run, check⟩ := exists_of_succeedsWith
    (fun s => s.globalInt && s.call ≠ .disableGlobalInt && !s.pending && s.hprt0.prtconnsts)
    (exec step attached boot) (by decide)
  simp only [Bool.and_eq_true, decide_eq_true_eq, Bool.not_eq_true'] at check
  obtain ⟨⟨⟨on, notInit⟩, quiet⟩, present⟩ := check
  have visits : Visits step attached boot final := ⟨attached, [], by simp, run⟩
  exact ⟨final, run, ((port_status_tracked run).2 final visits ⟨on, notInit, quiet⟩).2 present⟩

theorem port_writes_harmless {inputs : List PortInput} {final : PortCore} (run : exec step inputs boot = .ok final) :
    (∀ s, Visits step inputs boot s → s.hprt0.prtrst = s.call.resetting) ∧
      ∀ input s, Takes step inputs boot input s → input = .isr ∨ input = .main ∧ s.call ≠ .coreInit →
        ∃ next, step input s = .ok next ∧ s.Harmless next := by
  refine ⟨fun s visits => (visits_sound visits).pulse, fun input s takes firmware => ?_⟩
  obtain ⟨next, taken⟩ := takes.taken run
  have sound := visits_sound takes.visits_before
  refine ⟨next, taken, ?_⟩
  have taken := step_taken.mp taken
  rcases firmware with rfl | ⟨rfl, notReset⟩ <;> cases taken
  · exact sound.isrAccess_harmless
  · exact sound.mainAccess_harmless notReset

theorem port_writes_harmless_attached :
    ∃ final, exec step attached boot = .ok final ∧ final.hprt0.prtrst = final.call.resetting := by
  obtain ⟨final, run, -⟩ := exists_of_succeedsWith (fun _ => true) (exec step attached boot) (by decide)
  exact ⟨final, run, (port_writes_harmless run).1 final ⟨attached, [], by simp, run⟩⟩

end PortCore

end Testjig.Usb
