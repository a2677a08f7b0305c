import Testjig.Machine.Run
import Testjig.Usb.Interrupts

namespace Testjig.Usb

open Machine

structure Hprt0 where
  prtconnsts : Bool
  prtconndet : Bool
  prtena : Bool
  prtenchng : Bool
  prtovrcurract : Bool
  prtovrcurrchng : Bool
  prtres : Bool
  prtsusp : Bool
  prtrst : Bool
  prtlnsts : Fin 4
  prtpwr : Bool
  prttstctl : Fin 16
  prtspd : Fin 4
deriving DecidableEq, Repr

namespace Hprt0

def zero : Hprt0 :=
  { prtconnsts := false, prtconndet := false, prtena := false, prtenchng := false, prtovrcurract := false
    prtovrcurrchng := false, prtres := false, prtsusp := false, prtrst := false, prtlnsts := 0, prtpwr := false
    prttstctl := 0, prtspd := 0 }

/-- Writing a one clears a change bit, and disables the port. -/
def write (port value : Hprt0) : Hprt0 :=
  { port with
    prtconndet := port.prtconndet && !value.prtconndet
    prtena := port.prtena && !value.prtena
    prtenchng := port.prtenchng && !value.prtenchng || port.prtena && value.prtena
    prtovrcurrchng := port.prtovrcurrchng && !value.prtovrcurrchng
    prtres := value.prtres
    prtsusp := port.prtsusp || value.prtsusp
    prtrst := value.prtrst
    prtpwr := value.prtpwr
    prttstctl := value.prttstctl }

/-- `GINTSTS.portintr` -/
def changed (port : Hprt0) : Bool := port.prtconndet || port.prtenchng || port.prtovrcurrchng

def readHPRT0 (port : Hprt0) : Hprt0 :=
  { port with prtena := false, prtconndet := false, prtenchng := false, prtovrcurrchng := false }

/-- What `hprt0_dup` holds when `USB_OTG_USBH_handle_port_ISR()` writes it back -/
def acknowledge (hprt0 dup : Hprt0) : Hprt0 :=
  { dup with
    prtena := false
    prtconndet := hprt0.prtconndet
    prtenchng := hprt0.prtenchng
    prtovrcurrchng := hprt0.prtovrcurrchng }

/-- What the core makes of the register by itself: the change bits are sticky, the control bits are the
software's, and a port is enabled only after a reset and with a device on it. That an overcurrent makes a core cut
`prtpwr` is left out. -/
structure Evolves (reset : Bool) (before after : Hprt0) : Prop where
  prtconndet : after.prtconndet = (before.prtconndet || after.prtconnsts && !before.prtconnsts)
  prtenchng : after.prtenchng = (before.prtenchng || after.prtena != before.prtena)
  prtovrcurrchng : after.prtovrcurrchng = (before.prtovrcurrchng || after.prtovrcurract != before.prtovrcurract)
  prtrst : after.prtrst = before.prtrst
  prtpwr : after.prtpwr = before.prtpwr
  prttstctl : after.prttstctl = before.prttstctl
  powered : after.prtconnsts = true → after.prtpwr = true
  attached : after.prtena = true → after.prtconnsts = true
  enabled : after.prtena = true → before.prtena = true ∨ reset = true ∧ after.prtrst = false

instance (reset : Bool) (before after : Hprt0) : Decidable (Evolves reset before after) :=
  decidable_of_iff
    ((after.prtconndet = (before.prtconndet || after.prtconnsts && !before.prtconnsts) ∧
      after.prtenchng = (before.prtenchng || after.prtena != before.prtena) ∧
      after.prtovrcurrchng = (before.prtovrcurrchng || after.prtovrcurract != before.prtovrcurract)) ∧
      (after.prtrst = before.prtrst ∧ after.prtpwr = before.prtpwr ∧ after.prttstctl = before.prttstctl) ∧
      (after.prtconnsts = true → after.prtpwr = true) ∧ (after.prtena = true → after.prtconnsts = true) ∧
      (after.prtena = true → before.prtena = true ∨ reset = true ∧ after.prtrst = false))
    ⟨fun ⟨⟨a, b, c⟩, ⟨d, e, f⟩, g, h, i⟩ => ⟨a, b, c, d, e, f, g, h, i⟩,
      fun h => ⟨⟨h.1, h.2, h.3⟩, ⟨h.4, h.5, h.6⟩, h.7, h.8, h.9⟩⟩

end Hprt0

/-- How far `USBH_OTG_ISR_Handler()` has come; `disconnect` is that bit of its `gintsts`. -/
inductive Isr where
  | idle
  | port (disconnect : Bool)
  /-- `hprt0` has been read. -/
  | first (disconnect : Bool) (hprt0 : Hprt0)
  /-- `hprt0_dup` has been read. -/
  | second (disconnect : Bool) (hprt0 dup : Hprt0)
  | disconnect
  /-- `USBH_Disconnected()` has returned. -/
  | disconnected
deriving DecidableEq, Repr

/-- How far the main program has come in `USB_OTG_ResetPort()`, called by `HCD_ResetPort()` or, where `init` is set,
by `HCD_Init()`, or in `HCD_Init()` itself: the access that it makes next -/
inductive Call where
  | none
  | resetRead (init : Bool)
  | resetSet (init : Bool) (hprt0 : Hprt0)
  | resetClear (init : Bool) (hprt0 : Hprt0)
  | disableGlobalInt
  | coreInit
  | initFSLSPClkSel
  | driveVbusRead
  | driveVbusWrite (hprt0 : Hprt0)
  | enableHostInt
  | enableGlobalInt
deriving DecidableEq, Repr

/-- The registers of the port and its interrupts, and what the stack keeps of them -/
structure PortCore where
  hprt0 : Hprt0
  /-- `GINTSTS.disconnect` -/
  disconnect : Bool
  /-- `GINTMSK.portintr` and `GINTMSK.disconnect` -/
  portMask : Bool
  disconnectMask : Bool
  /-- `GAHBCFG.glblintrmsk` -/
  globalInt : Bool
  fslspclksel : Fin 4
  hfir : BitVec 16
  /-- The core has finished a port reset since the port was last enabled or disabled. -/
  reset : Bool
  connSts : Bool
  portEnabled : Bool
  isr : Isr
  call : Call
deriving DecidableEq, Repr

def hcfg48MHz : Fin 4 := 1

def hcfg6MHz : Fin 4 := 2

def prtspdFull : Fin 4 := 1

def prtspdLow : Fin 4 := 2

namespace PortCore

def boot : PortCore :=
  { hprt0 := .zero, disconnect := false, portMask := false, disconnectMask := false, globalInt := false
    fslspclksel := 0, hfir := 60000, reset := false, connSts := false, portEnabled := false
    isr := .idle, call := .none }

/-- A condition in `USB_OTG_ReadCoreItr()` that concerns the port -/
def pending (s : PortCore) : Bool :=
  s.globalInt && (s.hprt0.changed && s.portMask || s.disconnect && s.disconnectMask)

def writeHprt0 (s : PortCore) (value : Hprt0) : PortCore :=
  { s with
    hprt0 := s.hprt0.write value
    reset := s.reset && !(s.hprt0.prtena && value.prtena) || s.hprt0.prtrst && !value.prtrst }

/-- The port enabled with a low-speed device, on the embedded PHY -/
def lowSpeedClock (s : PortCore) : PortCore :=
  { s with hfir := 6000, fslspclksel := if s.fslspclksel ≠ hcfg6MHz then hcfg6MHz else s.fslspclksel }

/-- `USB_OTG_USBH_handle_port_ISR()` after its two reads. What it does before it writes is not seen by the port. -/
def handlePort (s : PortCore) (hprt0 dup : Hprt0) : PortCore :=
  let s := if hprt0.prtconndet then { s with connSts := true } else s
  let s :=
    if hprt0.prtenchng then
      if hprt0.prtena then
        { if hprt0.prtspd = prtspdLow then s.lowSpeedClock else s with portEnabled := true, disconnectMask := true }
      else { s with portEnabled := false }
    else s
  s.writeHprt0 (hprt0.acknowledge dup)

def disconnected (s : PortCore) : PortCore :=
  { s with portMask := false, disconnectMask := false, disconnect := false, globalInt := false, connSts := false }

/-- The next access of `USBH_OTG_ISR_Handler()` -/
def isrAccess (s : PortCore) : PortCore :=
  match s.isr with
  | .idle =>
    { s with
      isr := if s.hprt0.changed && s.portMask then .port (s.disconnect && s.disconnectMask) else .disconnect }
  | .port disconnect => { s with isr := .first disconnect s.hprt0 }
  | .first disconnect hprt0 => { s with isr := .second disconnect hprt0 s.hprt0 }
  | .second disconnect hprt0 dup => { s.handlePort hprt0 dup with isr := if disconnect then .disconnect else .idle }
  | .disconnect => { s.disconnected with isr := .disconnected }
  | .disconnected => { s with disconnect := false, isr := .idle }

/-- The next access of the main program. The interrupts are off from `USB_OTG_DisableGlobalInt()` to
`USB_OTG_EnableGlobalInt()`, so that what the code does in between to their masks is one access here. -/
def mainAccess (s : PortCore) : PortCore :=
  match s.call with
  | .none => s
  | .resetRead init => { s with call := .resetSet init s.hprt0.readHPRT0 }
  | .resetSet init hprt0 => { s.writeHprt0 { hprt0 with prtrst := true } with call := .resetClear init hprt0 }
  | .resetClear init hprt0 =>
    { s.writeHprt0 { hprt0 with prtrst := false } with call := if init then .driveVbusRead else .none }
  | .disableGlobalInt => { s with globalInt := false, call := .coreInit }
  | .coreInit =>
    -- `USB_OTG_CoreReset()` leaves HCFG.FSLSPCS alone.
    { s with
      hprt0 := .zero, reset := false, disconnect := false, portMask := false, disconnectMask := false, hfir := 60000
      call := .initFSLSPClkSel }
  | .initFSLSPClkSel => { s with fslspclksel := hcfg48MHz, call := .resetRead true }
  | .driveVbusRead => { s with call := .driveVbusWrite s.hprt0.readHPRT0 }
  | .driveVbusWrite hprt0 =>
    { if hprt0.prtpwr then s else s.writeHprt0 { hprt0 with prtpwr := true } with call := .enableHostInt }
  | .enableHostInt =>
    { s with portMask := true, disconnectMask := false, disconnect := false, call := .enableGlobalInt }
  | .enableGlobalInt => { s with globalInt := true, call := .none }

/-- The main program runs where no interrupt is served or about to be. -/
def mainRuns (s : PortCore) : Bool := s.isr = .idle && !s.pending

end PortCore

inductive PortInput where
  /-- The core changes the port register. -/
  | port (hprt0 : Hprt0)
  | isr
  | main
  /-- The main program calls `HCD_ResetPort()`. -/
  | resetPort
  /-- The main program calls `HCD_Init()`. -/
  | init
deriving DecidableEq, Repr

namespace PortCore

def evolve (s : PortCore) (hprt0 : Hprt0) : PortCore :=
  { s with
    hprt0
    disconnect := s.disconnect || s.hprt0.prtconnsts && !hprt0.prtconnsts
    reset := s.reset && hprt0.prtena == s.hprt0.prtena }

/-- One access, by the core, the interrupt handler or the main program -/
def step (input : PortInput) (s : PortCore) : Except Unit PortCore :=
  match input with
  | .port hprt0 => if s.hprt0.Evolves s.reset hprt0 then .ok (s.evolve hprt0) else .error ()
  | .isr => if s.isr ≠ .idle ∨ s.pending then .ok s.isrAccess else .error ()
  | .main => if s.mainRuns ∧ s.call ≠ .none then .ok s.mainAccess else .error ()
  | .resetPort => if s.mainRuns ∧ s.call = .none then .ok { s with call := .resetRead false } else .error ()
  | .init =>
    if s.mainRuns ∧ s.call = .none then .ok { s with connSts := false, call := .disableGlobalInt } else .error ()

end PortCore

namespace Call

/-- Between the two writes of `USB_OTG_ResetPort()` -/
def resetting : Call → Bool
  | .resetClear .. => true
  | _ => false

def held : Call → Option Hprt0
  | .resetSet _ hprt0 | .resetClear _ hprt0 | .driveVbusWrite hprt0 => some hprt0
  | _ => Option.none

/-- In `HCD_Init()`, the core reset and its port not powered up again -/
def unpowered : Call → Bool
  | .resetRead init | .resetSet init _ | .resetClear init _ => init
  | .initFSLSPClkSel | .driveVbusRead | .driveVbusWrite _ => true
  | .none | .disableGlobalInt | .coreInit | .enableHostInt | .enableGlobalInt => false

/-- In `HCD_Init()`, the core reset and the interrupts still off -/
def restarting (call : Call) : Bool := call.unpowered || call = .enableHostInt || call = .enableGlobalInt

end Call

structure Hprt0.Keeps (value port : Hprt0) : Prop where
  prtena : value.prtena = false
  changed : value.changed = false
  prtrst : value.prtrst = false
  prtpwr : value.prtpwr = port.prtpwr
  prttstctl : value.prttstctl = port.prttstctl

structure Hprt0.Same (before after : Hprt0) : Prop where
  prtconnsts : after.prtconnsts = before.prtconnsts
  prtena : after.prtena = before.prtena
  prtovrcurract : after.prtovrcurract = before.prtovrcurract
  prtpwr : after.prtpwr = before.prtpwr
  prttstctl : after.prttstctl = before.prttstctl

theorem Hprt0.Same.refl (port : Hprt0) : port.Same port := ⟨rfl, rfl, rfl, rfl, rfl⟩

structure Hprt0.Unmoved (before after : Hprt0) : Prop where
  prtconnsts : after.prtconnsts = before.prtconnsts
  prtena : after.prtena = before.prtena
  prtovrcurract : after.prtovrcurract = before.prtovrcurract
  prtconndet : after.prtconndet = before.prtconndet
  prtenchng : after.prtenchng = before.prtenchng
  prtovrcurrchng : after.prtovrcurrchng = before.prtovrcurrchng

theorem Hprt0.Unmoved.refl (port : Hprt0) : port.Unmoved port := ⟨rfl, rfl, rfl, rfl, rfl, rfl⟩

/-- A write of control bits alone, the port's power and test mode left as they are -/
structure Hprt0.Controlled (before after : Hprt0) : Prop extends before.Unmoved after where
  prtpwr : after.prtpwr = before.prtpwr
  prttstctl : after.prttstctl = before.prttstctl

theorem Hprt0.Keeps.write {value port : Hprt0} (keeps : value.Keeps port) (prtrst : Bool) :
    port.Controlled (port.write { value with prtrst }) := by
  obtain ⟨prtena, changed, -, prtpwr, prttstctl⟩ := keeps
  simp only [Hprt0.changed, Bool.or_eq_false_iff] at changed
  obtain ⟨⟨prtconndet, prtenchng⟩, prtovrcurrchng⟩ := changed
  constructor <;> (try constructor) <;>
    simp [Hprt0.write, prtena, prtconndet, prtenchng, prtovrcurrchng, prtpwr, prttstctl]

theorem Hprt0.acknowledge_write {port dup : Hprt0} (hprt0 : Hprt0) (prtpwr : dup.prtpwr = port.prtpwr)
    (prttstctl : dup.prttstctl = port.prttstctl) : port.Same (port.write (hprt0.acknowledge dup)) := by
  constructor <;> simp [Hprt0.write, Hprt0.acknowledge, prtpwr, prttstctl]

theorem Hprt0.readHPRT0_keeps {port : Hprt0} (idle : port.prtrst = false) : port.readHPRT0.Keeps port :=
  ⟨rfl, rfl, idle, rfl, rfl⟩

theorem Hprt0.Keeps.of_same {value before after : Hprt0} (keeps : value.Keeps before)
    (prtpwr : after.prtpwr = before.prtpwr) (prttstctl : after.prttstctl = before.prttstctl) : value.Keeps after :=
  ⟨keeps.prtena, keeps.changed, keeps.prtrst, keeps.prtpwr.trans prtpwr.symm, keeps.prttstctl.trans prttstctl.symm⟩

namespace PortCore

variable {s next : PortCore} {hprt0 : Hprt0} {input : PortInput}

structure Sound (s : PortCore) : Prop where
  pulse : s.hprt0.prtrst = s.call.resetting
  held : ∀ value, s.call.held = some value → value.Keeps s.hprt0
  isr : ∀ disconnect hprt0 dup, s.isr = .second disconnect hprt0 dup →
    dup.prtrst = s.hprt0.prtrst ∧ dup.prtpwr = s.hprt0.prtpwr ∧ dup.prttstctl = s.hprt0.prttstctl
  wired : (s.hprt0.prtena = true → s.hprt0.prtconnsts = true) ∧ (s.hprt0.prtconnsts = true → s.hprt0.prtpwr = true)
  unpowered : s.call.unpowered = true → s.hprt0.prtpwr = false
  quiet : s.call.restarting = true ∨ s.call = .coreInit → s.globalInt = false ∧ s.isr = .idle

theorem boot_sound : boot.Sound := by
  refine ⟨rfl, ?_, ?_, ?_, ?_, ?_⟩ <;> simp [boot, Hprt0.zero, Call.held, Call.unpowered, Call.restarting]

/-- What `USB_OTG_USBH_handle_port_ISR()` does, its clock settings apart -/
structure Handled (s : PortCore) (hprt0 dup : Hprt0) (next : PortCore) : Prop where
  write : next.hprt0 = s.hprt0.write (hprt0.acknowledge dup)
  reset : next.reset = (s.reset || s.hprt0.prtrst && !dup.prtrst)
  connSts : next.connSts = (s.connSts || hprt0.prtconndet)
  portEnabled : next.portEnabled = if hprt0.prtenchng then hprt0.prtena else s.portEnabled
  disconnect : next.disconnect = s.disconnect
  portMask : next.portMask = s.portMask
  globalInt : next.globalInt = s.globalInt
  call : next.call = s.call

theorem handlePort_handled (s : PortCore) (hprt0 dup : Hprt0) : s.Handled hprt0 dup (s.handlePort hprt0 dup) := by
  have ack : (hprt0.acknowledge dup).prtena = false := rfl
  have pulse : (hprt0.acknowledge dup).prtrst = dup.prtrst := rfl
  cases detected : hprt0.prtconndet <;> cases changed : hprt0.prtenchng <;> cases enabled : hprt0.prtena <;>
    by_cases low : hprt0.prtspd = prtspdLow <;>
    constructor <;>
    simp [handlePort, writeHprt0, lowSpeedClock, ack, pulse, detected, changed, enabled, low]

theorem pending_globalInt (pending : s.pending = true) : s.globalInt = true := by
  rw [PortCore.pending, Bool.and_eq_true] at pending
  exact pending.1

theorem Sound.serving (sound : s.Sound) (serving : s.isr ≠ .idle ∨ s.pending = true) :
    s.call.restarting = false ∧ s.call ≠ .coreInit := by
  have busy : ¬ (s.globalInt = false ∧ s.isr = .idle) := by
    rintro ⟨off, idle⟩
    rcases serving with serving | pending
    · exact serving idle
    · exact absurd (off.symm.trans (pending_globalInt pending)) (by simp)
  refine ⟨?_, fun call => busy (sound.quiet (.inr call))⟩
  rw [← Bool.not_eq_true]
  exact fun restarting => busy (sound.quiet (.inl restarting))

theorem isrAccess_call (s : PortCore) : s.isrAccess.call = s.call := by
  rw [isrAccess]
  split
  case h_4 disconnect hprt0 dup state => exact (s.handlePort_handled hprt0 dup).call
  all_goals rfl

theorem Sound.isrAccess_same (sound : s.Sound) :
    s.hprt0.Same s.isrAccess.hprt0 ∧ s.isrAccess.hprt0.prtrst = s.hprt0.prtrst := by
  rw [isrAccess]
  split
  case h_4 disconnect hprt0 dup state =>
    obtain ⟨prtrst, prtpwr, prttstctl⟩ := sound.isr disconnect hprt0 dup state
    have write := (s.handlePort_handled hprt0 dup).write
    refine ⟨?_, ?_⟩
    · exact write ▸ Hprt0.acknowledge_write hprt0 prtpwr prttstctl
    · exact (congrArg Hprt0.prtrst write).trans prtrst
  all_goals exact ⟨.refl _, rfl⟩

theorem isrAccess_second {disconnect : Bool} {dup : Hprt0} (state : s.isrAccess.isr = .second disconnect hprt0 dup) :
    s.isrAccess.hprt0 = s.hprt0 ∧ dup = s.hprt0 := by
  rw [isrAccess] at state ⊢
  split at state
  case h_3 earlier hprt0 =>
    cases state
    exact ⟨rfl, rfl⟩
  all_goals simp only [reduceCtorEq] at state
  all_goals split at state <;> cases state

theorem Sound.isrAccess (sound : s.Sound) (serving : s.isr ≠ .idle ∨ s.pending = true) : s.isrAccess.Sound := by
  obtain ⟨same, prtrst⟩ := sound.isrAccess_same
  obtain ⟨running, notReset⟩ := sound.serving serving
  have call := s.isrAccess_call
  refine ⟨?_, ?_, ?_, ?_, ?_, ?_⟩
  · rw [prtrst, call]
    exact sound.pulse
  · intro value held
    rw [call] at held
    exact (sound.held value held).of_same same.prtpwr same.prttstctl
  · intro disconnect hprt0 dup state
    obtain ⟨unchanged, rfl⟩ := isrAccess_second state
    rw [unchanged]
    exact ⟨rfl, rfl, rfl⟩
  · rw [same.prtena, same.prtconnsts, same.prtpwr]
    exact sound.wired
  · rw [call, same.prtpwr]
    exact sound.unpowered
  · rw [call]
    rintro (restarting | coreInit)
    · exact absurd (running.symm.trans restarting) (by simp)
    · exact absurd coreInit notReset

theorem mainRuns_idle (runs : s.mainRuns = true) : s.isr = .idle ∧ s.pending = false := by
  simpa [mainRuns] using runs

inductive MainWrites (s : PortCore) : Prop where
  | set (init : Bool) (hprt0 : Hprt0) (call : s.call = .resetSet init hprt0)
  | clear (init : Bool) (hprt0 : Hprt0) (call : s.call = .resetClear init hprt0)
  | coreInit (call : s.call = .coreInit)
  | power (hprt0 : Hprt0) (call : s.call = .driveVbusWrite hprt0)

theorem mainAccess_cases (s : PortCore) : s.mainAccess.hprt0 = s.hprt0 ∨ s.MainWrites := by
  cases call : s.call with
  | resetSet init hprt0 => exact .inr (.set init hprt0 call)
  | resetClear init hprt0 => exact .inr (.clear init hprt0 call)
  | coreInit => exact .inr (.coreInit call)
  | driveVbusWrite hprt0 => exact .inr (.power hprt0 call)
  | _ =>
    left
    rw [mainAccess, call]

theorem mainAccess_isr (s : PortCore) : s.mainAccess.isr = s.isr := by
  rw [mainAccess]
  split
  case h_9 => split <;> rfl
  all_goals rfl

theorem Sound.mainAccess_controlled (sound : s.Sound) (notReset : s.call ≠ .coreInit)
    (notPower : ∀ hprt0, s.call ≠ .driveVbusWrite hprt0) :
    s.hprt0.Controlled s.mainAccess.hprt0 := by
  rcases s.mainAccess_cases with same | writes
  · rw [same]
    exact ⟨.refl _, rfl, rfl⟩
  · cases writes with
    | set init hprt0 call =>
      rw [mainAccess, call]
      exact (sound.held hprt0 (by rw [call]; rfl)).write true
    | clear init hprt0 call =>
      rw [mainAccess, call]
      exact (sound.held hprt0 (by rw [call]; rfl)).write false
    | coreInit call => exact absurd call notReset
    | power hprt0 call => exact absurd call (notPower hprt0)

/-- An access of the main program that writes no more than control bits -/
theorem Sound.of_controlled (sound : s.Sound) (controlled : s.hprt0.Controlled next.hprt0)
    (idle : next.isr = .idle) (pulse : next.hprt0.prtrst = next.call.resetting)
    (held : ∀ value, next.call.held = some value → value.Keeps next.hprt0)
    (unpowered : next.call.unpowered = true → s.hprt0.prtpwr = false)
    (quiet : next.call.restarting = true ∨ next.call = .coreInit → next.globalInt = false) : next.Sound := by
  refine ⟨pulse, held, ?_, ?_, ?_, fun call => ⟨quiet call, idle⟩⟩
  · simp [idle]
  · rw [controlled.prtena, controlled.prtconnsts, controlled.prtpwr]
    exact sound.wired
  · rw [controlled.prtpwr]
    exact unpowered

theorem Sound.mainAccess (sound : s.Sound) (runs : s.mainRuns = true) : s.mainAccess.Sound := by
  obtain ⟨idle, -⟩ := mainRuns_idle runs
  have controlled := sound.mainAccess_controlled
  have pulse := sound.pulse
  have held := sound.held
  have unpowered := sound.unpowered
  have quiet := sound.quiet
  cases call : s.call <;> rw [call] at controlled pulse held unpowered quiet <;>
    simp only [PortCore.mainAccess, call] at controlled ⊢
  case none => exact sound
  case coreInit =>
    refine ⟨rfl, ?_, by simp [idle], ?_, ?_, fun _ => ⟨(quiet (.inr rfl)).1, idle⟩⟩
    · simp [Call.held]
    · simp [Hprt0.zero]
    · simp [Hprt0.zero]
  case driveVbusWrite hprt0 =>
    have keeps := held hprt0 rfl
    have off := keeps.prtpwr.trans (unpowered rfl)
    simp only [off, Bool.false_eq_true, if_false]
    refine ⟨?_, by simp [Call.held], by simp [writeHprt0, idle], ?_, by simp [Call.unpowered], fun _ => ?_⟩
    · simp [writeHprt0, Hprt0.write, Call.resetting, keeps.prtrst]
    · simpa [writeHprt0, Hprt0.write, keeps.prtena] using sound.wired.1
    · exact ⟨(quiet (.inl rfl)).1, idle⟩
  case resetRead init =>
    refine sound.of_controlled (controlled (by simp) (by simp)) idle pulse ?_ unpowered fun restarting => ?_
    · rintro value ⟨⟩
      exact Hprt0.readHPRT0_keeps pulse
    · exact (quiet (by simpa [Call.restarting, Call.unpowered] using restarting)).1
  case resetSet init hprt0 =>
    have same := controlled (by simp) (by simp)
    refine sound.of_controlled same idle rfl ?_ unpowered fun restarting => ?_
    · rintro value ⟨⟩
      exact (held hprt0 rfl).of_same same.prtpwr same.prttstctl
    · exact (quiet (by simpa [Call.restarting, Call.unpowered] using restarting)).1
  case resetClear init hprt0 =>
    refine sound.of_controlled (controlled (by simp) (by simp)) idle ?_ ?_ ?_ fun restarting => ?_
    all_goals cases init
    all_goals simp_all [Call.restarting, Call.unpowered, Call.held, Call.resetting, writeHprt0, Hprt0.write]
  case disableGlobalInt =>
    refine sound.of_controlled (controlled (by simp) (by simp)) idle pulse ?_ unpowered fun restarting => rfl
    simp [Call.held]
  case initFSLSPClkSel =>
    refine sound.of_controlled (controlled (by simp) (by simp)) idle pulse ?_ unpowered fun restarting => ?_
    · simp [Call.held]
    · exact (quiet (.inl rfl)).1
  case driveVbusRead =>
    refine sound.of_controlled (controlled (by simp) (by simp)) idle pulse ?_ unpowered fun restarting => ?_
    · rintro value ⟨⟩
      exact Hprt0.readHPRT0_keeps pulse
    · exact (quiet (.inl rfl)).1
  case enableHostInt =>
    refine sound.of_controlled (controlled (by simp) (by simp)) idle pulse ?_ unpowered fun restarting => ?_
    · simp [Call.held]
    · exact (quiet (.inl rfl)).1
  case enableGlobalInt =>
    refine sound.of_controlled (controlled (by simp) (by simp)) idle pulse ?_ unpowered fun restarting => ?_
    · simp [Call.held]
    · simp [Call.restarting, Call.unpowered] at restarting

theorem Sound.evolve (sound : s.Sound) (evolves : s.hprt0.Evolves s.reset hprt0) : (s.evolve hprt0).Sound where
  pulse := evolves.prtrst.trans sound.pulse
  held value held := (sound.held value held).of_same evolves.prtpwr evolves.prttstctl
  isr disconnect first dup state := by
    obtain ⟨prtrst, prtpwr, prttstctl⟩ := sound.isr disconnect first dup state
    exact ⟨prtrst.trans evolves.prtrst.symm, prtpwr.trans evolves.prtpwr.symm, prttstctl.trans evolves.prttstctl.symm⟩
  wired := ⟨evolves.attached, evolves.powered⟩
  unpowered call := evolves.prtpwr.trans (sound.unpowered call)
  quiet := sound.quiet

/-- A call starts. -/
theorem Sound.called (sound : s.Sound) (none : s.call = .none) {call : Call} (connSts : Bool)
    (starts : call = .resetRead false ∨ call = .disableGlobalInt) : { s with connSts, call }.Sound := by
  have pulse := sound.pulse
  rw [none] at pulse
  refine ⟨?_, ?_, sound.isr, sound.wired, ?_, ?_⟩ <;> rcases starts with rfl | rfl
  · exact pulse
  · exact pulse
  all_goals simp [Call.held, Call.unpowered, Call.restarting]

inductive Taken (s : PortCore) : PortInput → PortCore → Prop where
  | port (after : Hprt0) (evolves : s.hprt0.Evolves s.reset after) : Taken s (.port after) (s.evolve after)
  | isr (serving : s.isr ≠ .idle ∨ s.pending = true) : Taken s .isr s.isrAccess
  | main (runs : s.mainRuns = true) (busy : s.call ≠ .none) : Taken s .main s.mainAccess
  | resetPort (runs : s.mainRuns = true) (free : s.call = .none) :
    Taken s .resetPort { s with call := .resetRead false }
  | init (runs : s.mainRuns = true) (free : s.call = .none) :
    Taken s .init { s with connSts := false, call := .disableGlobalInt }

theorem step_taken : step input s = .ok next ↔ s.Taken input next := by
  constructor
  · intro taken
    cases input <;> simp only [step] at taken <;> split at taken <;> cases taken
    · exact .port _ ‹_›
    · exact .isr ‹_›
    · exact .main (And.left ‹_›) (And.right ‹_›)
    · exact .resetPort (And.left ‹_›) (And.right ‹_›)
    · exact .init (And.left ‹_›) (And.right ‹_›)
  · rintro (⟨after, evolves⟩ | serving | ⟨runs, busy⟩ | ⟨runs, free⟩ | ⟨runs, free⟩)
    · simp [step, evolves]
    · simp [step, serving]
    · simp [step, runs, busy]
    · simp [step, runs, free]
    · simp [step, runs, free]

theorem Sound.step (sound : s.Sound) (taken : s.Taken input next) : next.Sound := by
  cases taken with
  | port after evolves => exact sound.evolve evolves
  | isr serving => exact sound.isrAccess serving
  | main runs busy => exact sound.mainAccess runs
  | resetPort runs free => exact sound.called free s.connSts (.inl rfl)
  | init runs free => exact sound.called free false (.inr rfl)

theorem visits_sound {inputs : List PortInput} (visits : Visits step inputs boot s) : s.Sound :=
  visits_invariant (fun _ _ _ _ sound taken => sound.step (step_taken.mp taken)) boot_sound visits

end PortCore

end Testjig.Usb
