import Testjig.Usb.Cdc

namespace Testjig.Usb

open Testjig.Sequence

/-- What the switch of `USBH_Process()` does, one case for each outcome of each host state -/
inductive Stepped (fault : Bool) (env : Env) (usb : Usbh) : Usbh → Prop where
  | noDevice (idle : usb.phost.gState = .idle) (absent : usb.pdev.port.connSts = false) : Stepped fault env usb usb
  | device (idle : usb.phost.gState = .idle) (present : usb.pdev.port.connSts = true) :
    Stepped fault env usb
      { (usb.setState .waitPrtEnabled).irq env .reset with
        pdev := ((usb.setState .waitPrtEnabled).irq env .reset).pdev.resetPort }
  | portDisabled (waiting : usb.phost.gState = .waitPrtEnabled) : Stepped fault env usb usb
  | portEnabled (waiting : usb.phost.gState = .waitPrtEnabled) : Stepped fault env usb (usb.setState .devAttached)
  | attached (attached : usb.phost.gState = .devAttached) : Stepped fault env usb (usb.devAttached env)
  | enumerating (stack : Stack) (enumeration : usb.phost.gState = .enumeration)
      (handled : usb.toStack.handleEnum = .ok (stack, .busy)) : Stepped fault env usb { usb with toStack := stack }
  | enumerated (stack : Stack) (enumeration : usb.phost.gState = .enumeration)
      (handled : usb.toStack.handleEnum = .ok (stack, .ok)) :
    Stepped fault env usb ({ usb with toStack := stack }.setState .usrInput)
  | init (input : usb.phost.gState = .usrInput) :
    Stepped fault env usb (usb.interfaceInit.1.setState .classRequest)
  | request (request : usb.phost.gState = .classRequest) :
    Stepped fault env usb (usb.classRequest.1.setState .hostClass)
  | machine (active : usb.phost.gState = .hostClass) (sane : fault = false) : Stepped fault env usb (usb.handle env).1
  | failed (active : usb.phost.gState = .hostClass) (failing : fault = true) :
    Stepped fault env usb ((usb.handle env).1.usrUnrecoveredError.setState .errorState)
  | control (transfer : usb.phost.gState = .ctrlXfer) :
    Stepped fault env usb { usb with toStack := usb.toStack.handleControl env.stk }
  | reinit (error : usb.phost.gState = .errorState) : Stepped fault env usb (usb.deInit usbhCdcCb)
  | disconnected (gone : usb.phost.gState = .devDisconnected) : Stepped fault env usb (usb.devDisconnected usbhCdcCb)

theorem interfaceInit_ok (usb : Usbh) : usb.interfaceInit.2 = .ok := by
  simp only [Usbh.interfaceInit]
  split <;> rfl

theorem handle_status (env : Env) (usb : Usbh) : (usb.handle env).2 = .ok ∨ (usb.handle env).2 = .busy := by
  simp only [Usbh.handle]
  split
  · split <;> simp
  · simp

theorem handleEnum_status {s stack : Stack} {status : UsbhStatus} (handled : s.handleEnum = .ok (stack, status)) :
    status = .ok ∨ status = .busy := by
  unfold Stack.handleEnum at handled
  cases enum : s.phost.enumState
  all_goals simp only [enum] at handled
  case getMfcStringDesc | getProductStringDesc | getSerialnumStringDesc | devConfigured => cases handled; simp
  case getCfgDesc =>
    split at handled
    · cases handled
    · split at handled <;> (cases handled; simp)
    · cases handled; simp
  case getFullCfgDesc =>
    split at handled
    · cases handled
    · cases handled; simp
    · cases handled; simp
  all_goals split at handled <;> (cases handled; simp)

theorem process_stepped {usb next : Usbh} {fault : Bool} {env : Env}
    (ran : usb.process (classCb fault) env = .ok next) :
    Stepped fault env ((usb.portEvents env).irq env .state) next := by
  simp only [Usbh.process] at ran
  generalize (usb.portEvents env).irq env .state = mid at ran
  have init : (classCb fault).init mid = mid.interfaceInit := by cases fault <;> rfl
  have requests : (classCb fault).requests mid = mid.classRequest := by cases fault <;> rfl
  have deInit : mid.deInit (classCb fault) = mid.deInit usbhCdcCb := by cases fault <;> rfl
  have devDisconnected : mid.devDisconnected (classCb fault) = mid.devDisconnected usbhCdcCb := by
    cases fault <;> rfl
  cases state : mid.phost.gState
  all_goals simp only [state] at ran
  case idle =>
    split at ran
    · rename_i present
      cases ran
      exact .device state present
    · rename_i absent
      cases ran
      exact .noDevice state (by simpa using absent)
  case waitPrtEnabled =>
    cases ran
    split
    · exact .portEnabled state
    · exact .portDisabled state
  case devAttached =>
    cases ran
    exact .attached state
  case devDisconnected =>
    cases ran
    rw [devDisconnected]
    exact .disconnected state
  case enumeration =>
    split at ran
    · cases ran
    · rename_i stack handled
      cases ran
      exact .enumerated stack state handled
    · rename_i stack status unfinished handled
      cases ran
      rcases handleEnum_status handled with rfl | rfl
      · exact absurd rfl unfinished
      · exact .enumerating stack state handled
  case classRequest =>
    rw [requests] at ran
    cases ran
    exact .request state
  case hostClass =>
    cases fault with
    | true =>
      cases ran
      exact .failed state rfl
    | false =>
      have same : next = (mid.handle env).1 := by
        cases ran
        change (mid.handle env).1.errorHandle (mid.handle env).2 = _
        rcases handle_status env mid with status | status <;> rw [status] <;> rfl
      rw [same]
      exact .machine state rfl
  case ctrlXfer =>
    cases ran
    exact .control state
  case usrInput =>
    rw [init] at ran
    have done := interfaceInit_ok mid
    split at ran
    · rename_i initialized equal
      cases ran
      rw [show initialized = mid.interfaceInit.1 by rw [equal]]
      exact .init state
    · rename_i initialized status failed equal
      rw [equal] at done
      exact absurd done failed
  case errorState =>
    cases ran
    rw [deInit]
    exact .reinit state

theorem portEvents_same (usb : Usbh) (env : Env) :
    (usb.portEvents env).cdc = usb.cdc ∧ (usb.portEvents env).actions = usb.actions := by
  simp only [Usbh.portEvents]
  split <;> exact ⟨rfl, rfl⟩

theorem portEvents_phost (usb : Usbh) (env : Env) : (usb.portEvents env).phost = usb.phost ∨
    (usb.portEvents env).phost = { usb.phost with gState := .devDisconnected } := by
  simp only [Usbh.portEvents]
  split
  · exact .inr rfl
  · exact .inl rfl

theorem processTransmission_same (usb : Usbh) (env : Env) :
    (usb.processTransmission env).cdcDeviceConnected = usb.cdcDeviceConnected ∧
    (usb.processTransmission env).phost = usb.phost ∧
    (usb.processTransmission env).enumerations = usb.enumerations := by
  simp only [Usbh.processTransmission]
  repeat' split
  all_goals exact ⟨rfl, rfl, rfl⟩

theorem processReception_same (usb : Usbh) (env : Env) :
    (usb.processReception env).cdcDeviceConnected = usb.cdcDeviceConnected ∧
    (usb.processReception env).phost = usb.phost ∧
    (usb.processReception env).enumerations = usb.enumerations := by
  simp only [Usbh.processReception]
  repeat' split
  all_goals exact ⟨rfl, rfl, rfl⟩

theorem handle_same (usb : Usbh) (env : Env) :
    (usb.handle env).1.cdcDeviceConnected = usb.cdcDeviceConnected ∧ (usb.handle env).1.phost = usb.phost ∧
    (usb.handle env).1.enumerations = usb.enumerations := by
  simp only [Usbh.handle]
  split
  · split
    · exact ⟨rfl, rfl, rfl⟩
    · obtain ⟨flag, phost, count⟩ := processTransmission_same (usb.irq env .handle) env
      obtain ⟨flag', phost', count'⟩ := processReception_same ((usb.irq env .handle).processTransmission env) env
      exact ⟨flag'.trans flag, phost'.trans phost, count'.trans count⟩
    · exact ⟨rfl, rfl, rfl⟩
  · exact ⟨rfl, rfl, rfl⟩

def Stuck (halt : Halt) : Prop := halt = .outOfArray ∨ halt = .endless

theorem parseEndpoints_stuck {buf : Buffer} {ifIx fuel epIx : Nat} {pif : InterfaceDesc} {p : DescPtr}
    {prop : DeviceProp} {halt : Halt} (stopped : parseEndpoints buf ifIx pif fuel epIx p prop = .error halt) :
    Stuck halt := by
  induction fuel generalizing epIx p prop with
  | zero => cases stopped; exact .inr rfl
  | succ fuel ih =>
    simp only [parseEndpoints] at stopped
    split at stopped
    · split at stopped
      · split at stopped
        · cases stopped
        · split at stopped
          · exact ih stopped
          · cases stopped; exact .inl rfl
      · exact ih stopped
    · cases stopped

theorem parseInterfaces_stuck {buf : Buffer} {fuel : Nat} {p : DescPtr} {prop : DeviceProp} {halt : Halt}
    (stopped : parseInterfaces buf fuel p prop = .error halt) : Stuck halt := by
  induction fuel generalizing p prop with
  | zero => cases stopped; exact .inr rfl
  | succ fuel ih =>
    simp only [parseInterfaces] at stopped
    split at stopped
    · split at stopped
      · split at stopped
        · split at stopped
          · rename_i parsed
            cases stopped
            exact parseEndpoints_stuck parsed
          · exact ih stopped
        · cases stopped
      · exact ih stopped
    · cases stopped

theorem parseCfgDesc_stuck {prop : DeviceProp} {buf : Buffer} {length : Nat} {halt : Halt}
    (stopped : parseCfgDesc prop buf length = .error halt) : Stuck halt := by
  simp only [parseCfgDesc] at stopped
  split at stopped
  · split at stopped
    · exact parseInterfaces_stuck stopped
    · cases stopped
  · cases stopped

theorem getCfgDesc_stuck {phost : Host} {ram : Buffer} {length : Nat} {halt : Halt}
    (stopped : phost.getCfgDesc ram length = .error halt) : Stuck halt := by
  unfold Host.getCfgDesc at stopped
  split at stopped
  · split at stopped
    · rename_i parsed
      cases stopped
      exact parseCfgDesc_stuck parsed
    · cases stopped
  · cases stopped

theorem handleEnum_stuck {s : Stack} {halt : Halt} (stopped : s.handleEnum = .error halt) : Stuck halt := by
  unfold Stack.handleEnum at stopped
  cases enum : s.phost.enumState
  all_goals simp only [enum] at stopped
  case getCfgDesc =>
    split at stopped
    · rename_i got
      cases stopped
      exact getCfgDesc_stuck got
    · split at stopped <;> cases stopped
    · cases stopped
  case getFullCfgDesc =>
    split at stopped
    · rename_i got
      cases stopped
      exact getCfgDesc_stuck got
    · cases stopped
    · cases stopped
  case getMfcStringDesc | getProductStringDesc | getSerialnumStringDesc | devConfigured => cases stopped
  all_goals split at stopped <;> cases stopped

theorem process_stuck {usb : Usbh} {classCb : ClassCb} {env : Env} {halt : Halt}
    (stopped : usb.process classCb env = .error halt) : Stuck halt := by
  simp only [Usbh.process] at stopped
  split at stopped
  case h_1 => split at stopped <;> cases stopped
  case h_4 =>
    split at stopped
    · rename_i handled
      cases stopped
      exact handleEnum_stuck handled
    · cases stopped
    · cases stopped
  case h_5 => split at stopped <;> cases stopped
  case h_6 => split at stopped <;> cases stopped
  all_goals cases stopped

end Testjig.Usb
