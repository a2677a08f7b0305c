import Testjig.Machine.Run
import Testjig.Usb.Layout

namespace Testjig.Usb

open Machine Testjig.Sequence

def Flagged (usb : Usbh) : Prop := usb.cdcDeviceConnected = true → usb.phost.gState = .hostClass

theorem interfaceInit_flag (usb : Usbh) :
    usb.interfaceInit.1.cdcDeviceConnected = usb.cdcDeviceConnected := by
  simp only [Usbh.interfaceInit]
  split <;> rfl

theorem interfaceDeInit_flag (usb : Usbh) : usb.interfaceDeInit.cdcDeviceConnected = usb.cdcDeviceConnected := by
  simp only [Usbh.interfaceDeInit]
  split <;> split <;> rfl

theorem portEvents_state (usb : Usbh) (env : Env) :
    (usb.portEvents env).cdcDeviceConnected = usb.cdcDeviceConnected ∧
    (usb.portEvents env).enumerations = usb.enumerations ∧
    ((usb.portEvents env).phost.gState = usb.phost.gState ∨ (usb.portEvents env).phost.gState = .devDisconnected) := by
  simp only [Usbh.portEvents]
  split
  · exact ⟨rfl, rfl, .inr rfl⟩
  · exact ⟨rfl, rfl, .inl rfl⟩

theorem process_flagged (usb : Usbh) {next : Usbh} {fault : Bool} {env : Env} (kept : Flagged usb)
    (ran : usb.process (classCb fault) env = .ok next) :
    Flagged next ∧ (usb.cdcDeviceConnected = true → next.cdcDeviceConnected = true →
      next = (((usb.portEvents env).irq env .state).handle env).1 ∧ fault = false ∧
        ((usb.portEvents env).irq env .state).phost.gState = .hostClass) := by
  obtain ⟨flag, _, state⟩ := portEvents_state usb env
  have stepped := process_stepped ran
  have found : ((usb.portEvents env).irq env .state).cdcDeviceConnected = usb.cdcDeviceConnected := flag
  have open_state (on : usb.cdcDeviceConnected = true) :
      ((usb.portEvents env).irq env .state).phost.gState = .hostClass ∨
        ((usb.portEvents env).irq env .state).phost.gState = .devDisconnected := by
    rw [← kept on]
    exact state
  generalize (usb.portEvents env).irq env .state = mid at *
  have closed (state : HostState) (at_state : mid.phost.gState = state) (other : state ≠ .hostClass)
      (present : state ≠ .devDisconnected) : usb.cdcDeviceConnected = false := by
    cases flagged : usb.cdcDeviceConnected with
    | false => rfl
    | true => rcases open_state flagged with same | same <;> simp_all
  cases stepped with
  | noDevice idle => simp [Flagged, found, closed _ idle]
  | device idle => simp [Flagged, Usbh.irq, Usbh.setState, found, closed _ idle]
  | portDisabled waiting => simp [Flagged, found, closed _ waiting]
  | portEnabled waiting => simp [Flagged, Usbh.setState, found, closed _ waiting]
  | attached attached => simp [Flagged, Usbh.devAttached, Usbh.irq, found, closed _ attached]
  | enumerating _ enumeration => simp [Flagged, found, closed _ enumeration]
  | enumerated _ enumeration => simp [Flagged, Usbh.setState, found, closed _ enumeration]
  | init input => simp [Flagged, Usbh.setState, interfaceInit_flag, found, closed _ input]
  | request request => simp [Flagged, Usbh.setState, closed _ request]
  | machine active sane =>
    obtain ⟨flag, phost, _⟩ := handle_same mid env
    exact ⟨fun _ => by rw [phost]; exact active, fun _ _ => ⟨rfl, sane, active⟩⟩
  | failed => simp [Flagged, Usbh.setState, Usbh.usrUnrecoveredError]
  | control transfer => simp [Flagged, found, closed _ transfer]
  | reinit => simp [Flagged, Usbh.deInit, usbhCdcCb, interfaceDeInit_flag, Usbh.usrDeInit]
  | disconnected =>
    simp [Flagged, Usbh.devDisconnected, Usbh.setState, Usbh.deInit, usbhCdcCb, interfaceDeInit_flag, Usbh.usrDeInit]

/-- The state in which a call of `usbh_cdc_process()` enters the switch of `USBH_Process()` -/
def Pass.mid (x : Pass) (usb : Usbh) : Usbh := ({ usb with actions := [] }.portEvents x.env).irq x.env .state

theorem mid_phost (x : Pass) (usb : Usbh) : (x.mid usb).phost = usb.phost ∨
    (x.mid usb).phost = { usb.phost with gState := .devDisconnected } :=
  portEvents_phost { usb with actions := [] } x.env

theorem mid_laid (x : Pass) {usb : Usbh} (laid : Laid usb) : Laid (x.mid usb) :=
  irq_laid (portEvents_laid laid.fresh x.toTurn) x.toTurn .state

theorem serve_same (usb : Usbh) (call : Option CdcCall) :
    (usb.serve call).toStack = usb.toStack ∧ (usb.serve call).cdcDeviceConnected = usb.cdcDeviceConnected ∧
    (usb.serve call).enumerations = usb.enumerations ∧ (usb.serve call).cdc.inEpSize = usb.cdc.inEpSize := by
  rcases call with _ | ⟨buf, len⟩ | len
  · exact ⟨rfl, rfl, rfl, rfl⟩
  · simp only [Usbh.serve, Usbh.cdcCall, Usbh.transmit]
    split <;> exact ⟨rfl, rfl, rfl, rfl⟩
  · simp only [Usbh.serve, Usbh.cdcCall, Usbh.receive]
    split <;> exact ⟨rfl, rfl, rfl, rfl⟩

theorem pass_ok {x : Pass} {usb next : Usbh} (ran : usb.pass x = .ok next) :
    ∃ processed, { usb with actions := [] }.process (classCb false) x.env = .ok processed ∧
      Stepped false x.env (x.mid usb) processed ∧ next = (processed.irq x.env .exit).serve x.call := by
  unfold Usbh.pass at ran
  split at ran
  · cases ran
  · rename_i processed called
    cases ran
    have called' : { usb with actions := [] }.process (classCb false) x.env = .ok processed := called
    exact ⟨processed, called', process_stepped called', rfl⟩

theorem pass_flagged (x : Pass) (usb next : Usbh) (flagged : Flagged usb) (ran : usb.pass x = .ok next) :
    Flagged next := by
  obtain ⟨processed, called, _, rfl⟩ := pass_ok ran
  obtain ⟨stack, flag, _⟩ := serve_same (processed.irq x.env .exit) x.call
  rw [Flagged, flag, stack]
  exact (process_flagged { usb with actions := [] } flagged called).1

def bytesOf (packet : List Nat) : Nat → Byte := fun i => BitVec.ofNat 8 (packet.getD i 0)

def noHcInt : HcInt :=
  { xfercompl := false, stall := false, nak := false, xacterr := false, nyet := false, datatglerr := false
    chhltd := false }

def transferDone (num : Nat) : List Irq :=
  [.hc num { noHcInt with xfercompl := true }, .hc num { noHcInt with chhltd := true }]

def lastPacket (num : Nat) (packet : List Nat) : List Irq := .rx num (bytesOf packet) packet.length :: transferDone num

/-- A call of `usbh_cdc_process()` that the given interrupts precede -/
def turnAfter (irqs : List Irq) : Turn where
  irqs point := if point = .connSts then irqs else []
  stk := 0
  prtspd := 1

def descriptorTurns (descriptor : List Nat) : List Turn :=
  [[], [], transferDone 0, [], lastPacket 1 descriptor, [], transferDone 0, []].map turnAfter

/-- The calls in which a request without data is made and acknowledged -/
def noDataTurns : List Turn := [[], [], transferDone 0, [], lastPacket 1 [], []].map turnAfter

/-- The calls in which a device without strings is attached and enumerated, up to the class state -/
def enumerationTurns (devDesc cfgDesc : List Nat) : List Turn :=
  [[.connect], [.portEnabled], []].map turnAfter ++
  descriptorTurns (devDesc.take 8) ++ descriptorTurns devDesc ++ noDataTurns ++
  descriptorTurns (cfgDesc.take 9) ++ descriptorTurns cfgDesc ++ [[], [], []].map turnAfter ++
  noDataTurns ++ [[], [], []].map turnAfter

def deviceDescriptor (manufacturer product serial : Nat) : List Nat :=
  [18, 1, 0, 2, 2, 0, 0, 64, 0x09, 0x12, 0x69, 0x4d, 0, 1, manufacturer, product, serial, 1]

/-- A configuration descriptor with the given class of interface 0 and packet size of the bulk IN endpoint -/
def configurationDescriptor (interfaceClass inSize : Nat) : List Nat :=
  [9, 2, 48, 0, 2, 1, 0, 0x80, 50, 9, 4, 0, 0, 1, interfaceClass, 2, 1, 0, 7, 5, 0x81, 3, 8, 0, 10,
    9, 4, 1, 0, 2, 10, 0, 0, 0, 7, 5, 2, 2, 64, 0, 0, 7, 5, 0x83, 2, inSize % 256, inSize / 256, 0]

def enumerationPasses (devDesc cfgDesc : List Nat) : List Pass :=
  (enumerationTurns devDesc cfgDesc).map fun turn => ⟨turn, none⟩

end Testjig.Usb
