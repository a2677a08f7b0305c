import Testjig.Usb.Connected

namespace Testjig.Usb

open Machine Testjig.Sequence

inductive Outcome where
  | complete
  | stalled
  | failed
deriving DecidableEq, Repr

/-- What can be seen of the control pipe: a SETUP packet to the given address, and the end of a transfer -/
inductive ControlEvent where
  | setup (address : Nat) (setup : Setup)
  | ended (setup : Setup) (outcome : Outcome)

def CtrlState.outcome : CtrlState → Outcome
  | .complete => .complete
  | .stalled => .stalled
  | _ => .failed

/-- The stack and what the control pipe has shown since the device was attached -/
structure Watched where
  usb : Usbh
  log : List ControlEvent

def completed (log : List ControlEvent) : List Setup :=
  log.filterMap fun
    | .ended setup .complete => some setup
    | _ => none

def descriptorRequest (valueIdx : BitVec 16) (length : Nat) : Setup where
  bmRequestType := usbD2h
  bRequest := usbReqGetDescriptor
  wValue := valueIdx
  wIndex := if valueIdx &&& 0xff00 = usbDescString then 0x0409 else 0
  wLength := length

def deviceRequest (length : Nat) : Setup := descriptorRequest usbDescDevice length

def configurationRequest (length : Nat) : Setup := descriptorRequest usbDescConfiguration length

def stringSetup (index : Nat) : Setup := descriptorRequest (usbDescString ||| BitVec.ofNat 16 index) 512

def addressRequest : Setup where
  bmRequestType := usbH2d
  bRequest := usbReqSetAddress
  wValue := 1
  wIndex := 0
  wLength := 0

def configureRequest (value : Nat) : Setup where
  bmRequestType := usbH2d
  bRequest := usbReqSetConfiguration
  wValue := BitVec.ofNat 16 value
  wIndex := 0
  wLength := 0

/-- What a device is asked before it is configured: how often for the head of its configuration descriptor, with which
lengths for the whole of it, and for which strings -/
structure Inquiry where
  heads : Nat
  wholes : List Nat
  strings : List Nat

namespace Inquiry

def requests (q : Inquiry) : List Setup :=
  [deviceRequest 8, deviceRequest usbDeviceDescSize, addressRequest] ++
    List.replicate q.heads (configurationRequest usbConfigurationDescSize) ++
    q.wholes.map configurationRequest ++ q.strings.map stringSetup

structure Whole (q : Inquiry) : Prop where
  heads : 0 < q.heads
  wholes : q.wholes ≠ []
  strings : q.strings.length ≤ 3

/-- Every prefix of such requests can have been made before the device is configured. -/
structure InOrder (q : Inquiry) : Prop where
  wholes : q.wholes ≠ [] → 0 < q.heads
  strings : q.strings ≠ [] → q.wholes ≠ []
  few : q.strings.length ≤ 3

theorem Whole.inOrder {q : Inquiry} (whole : q.Whole) : q.InOrder :=
  ⟨fun _ => whole.heads, fun _ => whole.wholes, whole.strings⟩

end Inquiry

namespace EnumState

def next : EnumState → EnumState
  | .idle => .getFullDevDesc
  | .getFullDevDesc => .setAddr
  | .setAddr => .getCfgDesc
  | .getCfgDesc => .getFullCfgDesc
  | .getFullCfgDesc => .getMfcStringDesc
  | .getMfcStringDesc => .getProductStringDesc
  | .getProductStringDesc => .getSerialnumStringDesc
  | .getSerialnumStringDesc => .setConfiguration
  | .setConfiguration | .devConfigured => .devConfigured

def address : EnumState → Nat
  | .idle | .getFullDevDesc | .setAddr => 0
  | _ => usbhDeviceAddress

def Asks (value : Nat) (setup : Setup) : EnumState → Prop
  | .idle => setup = deviceRequest 8
  | .getFullDevDesc => setup = deviceRequest usbDeviceDescSize
  | .setAddr => setup = addressRequest
  | .getCfgDesc => setup = configurationRequest usbConfigurationDescSize
  | .getFullCfgDesc => ∃ length, setup = configurationRequest length
  | .getMfcStringDesc | .getProductStringDesc | .getSerialnumStringDesc => ∃ index, setup = stringSetup index
  | .setConfiguration => setup = configureRequest value
  | .devConfigured => False

def Reached (value : Nat) (done : List Setup) : EnumState → Prop
  | .idle => done = []
  | .getFullDevDesc => done = [deviceRequest 8]
  | .setAddr => done = [deviceRequest 8, deviceRequest usbDeviceDescSize]
  | .getCfgDesc => ∃ heads, done = Inquiry.requests ⟨heads, [], []⟩
  | .getFullCfgDesc => ∃ heads wholes, 0 < heads ∧ done = Inquiry.requests ⟨heads, wholes, []⟩
  | .getMfcStringDesc => ∃ q : Inquiry, q.Whole ∧ q.strings.length ≤ 0 ∧ done = q.requests
  | .getProductStringDesc => ∃ q : Inquiry, q.Whole ∧ q.strings.length ≤ 1 ∧ done = q.requests
  | .getSerialnumStringDesc => ∃ q : Inquiry, q.Whole ∧ q.strings.length ≤ 2 ∧ done = q.requests
  | .setConfiguration => ∃ q : Inquiry, q.Whole ∧ done = q.requests
  | .devConfigured => ∃ q : Inquiry, q.Whole ∧ done = q.requests ++ [configureRequest value]

end EnumState

namespace Inquiry

variable (q : Inquiry)

end Inquiry

section

variable {value : Nat} {done : List Setup} {setup : Setup} {stage : EnumState}

end

def Host.value (phost : Host) : Nat := phost.deviceProp.cfgDesc.bConfigurationValue

structure Submitted (s next : Stack) : Prop where
  pdev : next.pdev = s.pdev
  gState : next.phost.gState = .ctrlXfer
  enumState : next.phost.enumState = s.phost.enumState
  requestState : next.phost.requestState = .wait
  state : next.phost.control.state = .setup
  deviceProp : next.phost.deviceProp = s.phost.deviceProp
  asks : s.phost.enumState.Asks s.phost.value next.phost.control.setup
  request : s.phost.request ≠ none

theorem handleEnum_sends {s next : Stack} {status : UsbhStatus} (ready : s.phost.requestState = .send)
    (handled : s.handleEnum = .ok (next, status)) :
    (s.phost.enumState = .devConfigured ∧ next = s ∧ status = .ok) ∨
    ((s.phost.enumState = .getMfcStringDesc ∨ s.phost.enumState = .getProductStringDesc ∨
        s.phost.enumState = .getSerialnumStringDesc) ∧ status = .busy ∧
      next = { s with phost.enumState := s.phost.enumState.next }) ∨
    (status = .busy ∧ Submitted s next) := by
  have string (index : Nat) (after : EnumState) (some : index ≠ 0) : s.phost.stringStage index after =
      { ({ s.phost with control.setup := stringSetup index }).submitSetupRequest cfgRxBuffer 512 with
        requestState := .wait } := by
    rw [Host.stringStage, if_pos some]
    simp only [Host.getStringDesc, Host.getDescriptor, Host.ctlReq, ready]
    rfl
  unfold Stack.handleEnum at handled
  cases enum : s.phost.enumState
  all_goals simp only [enum] at handled
  case devConfigured =>
    cases handled
    exact .inl ⟨rfl, rfl, rfl⟩
  case getMfcStringDesc =>
    cases handled
    by_cases some : s.phost.deviceProp.devDesc.iManufacturer ≠ 0
    · rw [string _ _ some]
      refine .inr (.inr ⟨rfl, rfl, rfl, rfl, rfl, rfl, rfl, ?_, ?_⟩)
      · rw [enum]
        exact ⟨_, rfl⟩
      · simp [Host.request, enum, Host.stringRequest, some]
    · rw [Host.stringStage, if_neg some]
      exact .inr (.inl ⟨.inl rfl, rfl, rfl⟩)
  case getProductStringDesc =>
    cases handled
    by_cases some : s.phost.deviceProp.devDesc.iProduct ≠ 0
    · rw [string _ _ some]
      refine .inr (.inr ⟨rfl, rfl, rfl, rfl, rfl, rfl, rfl, ?_, ?_⟩)
      · rw [enum]
        exact ⟨_, rfl⟩
      · simp [Host.request, enum, Host.stringRequest, some]
    · rw [Host.stringStage, if_neg some]
      exact .inr (.inl ⟨.inr (.inl rfl), rfl, rfl⟩)
  case getSerialnumStringDesc =>
    cases handled
    by_cases some : s.phost.deviceProp.devDesc.iSerialNumber ≠ 0
    · rw [string _ _ some]
      refine .inr (.inr ⟨rfl, rfl, rfl, rfl, rfl, rfl, rfl, ?_, ?_⟩)
      · rw [enum]
        exact ⟨_, rfl⟩
      · simp [Host.request, enum, Host.stringRequest, some]
    · rw [Host.stringStage, if_neg some]
      exact .inr (.inl ⟨.inr (.inr rfl), rfl, rfl⟩)
  case getFullCfgDesc =>
    simp only [Host.getCfgDesc, Host.getDescriptor, Host.ctlReq, ready] at handled
    cases handled
    refine .inr (.inr ⟨rfl, rfl, rfl, rfl, rfl, rfl, rfl, ?_, ?_⟩)
    · rw [enum]
      exact ⟨_, rfl⟩
    · simp [Host.request, enum]
  all_goals
    simp only [Host.getDevDesc, Host.getCfgDesc, Host.getDescriptor, Host.setAddress, Host.setCfg, Host.ctlReq,
      ready] at handled
    cases handled
    refine .inr (.inr ⟨rfl, rfl, rfl, rfl, rfl, rfl, rfl, ?_, ?_⟩)
    · rw [enum]
      rfl
    · simp [Host.request, enum]

structure Advanced (s next : Stack) : Prop where
  gState : next.phost.gState = s.phost.gState
  requestState : next.phost.requestState = .send
  stage : next.phost.enumState = s.phost.enumState.next ∨ next.phost.enumState = s.phost.enumState ∧
    (s.phost.enumState = .getCfgDesc ∨ s.phost.enumState = .getFullCfgDesc)
  address : next.phost.deviceProp.address =
    if s.phost.enumState = .setAddr then usbhDeviceAddress else s.phost.deviceProp.address
  devAddr : (next.pdev.hc 0).devAddr =
    if s.phost.enumState = .setAddr then usbhDeviceAddress else (s.pdev.hc 0).devAddr
  value : next.phost.value = s.phost.value ∨ next.phost.enumState ≠ .devConfigured

def CtrlState.Runs (state : CtrlState) : Prop := state ≠ .idle ∧ state ≠ .stalled ∧ state ≠ .complete

/-- Every SETUP packet is the next request of an enumeration, or the same again, sent to where the device is. -/
def Orderly (log : List ControlEvent) : Prop := ∀ before address setup after,
  log = before ++ .setup address setup :: after → ∃ (stage : EnumState) (value : Nat),
    stage.Reached value (completed before) ∧ stage.Asks value setup ∧ address = stage.address

structure Fresh (s : Stack) : Prop where
  enumState : s.phost.enumState = .idle
  requestState : s.phost.requestState = .send
  address : s.phost.deviceProp.address = 0

structure Addressed (s : Stack) : Prop where
  address : s.phost.deviceProp.address = s.phost.enumState.address
  devAddr : (s.pdev.hc 0).devAddr = s.phost.enumState.address

structure Asking (s : Stack) (done : List Setup) : Prop where
  requestState : s.phost.requestState = .wait
  request : s.phost.request ≠ none
  reached : s.phost.enumState.Reached s.phost.value done
  asks : s.phost.enumState.Asks s.phost.value s.phost.control.setup

inductive Handles (s : Stack) (done : List Setup) : Prop where
  | ready (requestState : s.phost.requestState = .send) (reached : s.phost.enumState.Reached s.phost.value done)
  | complete (before : List Setup) (asking : Asking s before) (state : s.phost.control.state = .complete)
      (same : done = before ++ [s.phost.control.setup])
  | failed (asking : Asking s done) (state : s.phost.control.state = .error ∨ s.phost.control.state = .stalled)

def Follows (s : Stack) (done : List Setup) : Prop :=
  match s.phost.gState with
  | .idle | .waitPrtEnabled | .devAttached => Fresh s
  | .enumeration => Addressed s ∧ Handles s done
  | .ctrlXfer => Addressed s ∧ Asking s done ∧ s.phost.control.state.Runs
  | .usrInput | .classRequest | .hostClass => EnumState.Reached s.phost.value done .devConfigured
  | .errorState | .devDisconnected => True

structure Ordered (w : Watched) : Prop where
  laid : Laid w.usb
  flagged : Flagged w.usb
  follows : Follows w.usb.toStack (completed w.log)
  orderly : Orderly w.log

end Testjig.Usb
