import Testjig.Usb.Transfers

namespace Testjig.Usb

open Testjig.Sequence

structure Line where
  gState : HostState
  gStateBkp : HostState
  hcNumIn : Nat
  hcNumOut : Nat
  buff : Ptr
  length : Nat

namespace Host

def line (phost : Host) : Line :=
  ⟨phost.gState, phost.gStateBkp, phost.control.hcNumIn, phost.control.hcNumOut, phost.control.buff,
    phost.control.length⟩

def stringRequest (index : Nat) : Option (Ptr × Nat) := if index ≠ 0 then some (cfgRxBuffer, 512) else none

def request (phost : Host) : Option (Ptr × Nat) :=
  match phost.enumState with
  | .idle => some (cfgRxBuffer, 8)
  | .getFullDevDesc => some (cfgRxBuffer, usbDeviceDescSize)
  | .setAddr | .setConfiguration => some (.null, 0)
  | .getCfgDesc => some (cfgRxBuffer, usbConfigurationDescSize)
  | .getFullCfgDesc => some (cfgRxBuffer, phost.deviceProp.cfgDesc.wTotalLength)
  | .getMfcStringDesc => stringRequest phost.deviceProp.devDesc.iManufacturer
  | .getProductStringDesc => stringRequest phost.deviceProp.devDesc.iProduct
  | .getSerialnumStringDesc => stringRequest phost.deviceProp.devDesc.iSerialNumber
  | .devConfigured => none

def asked (phost : Host) : Option (Ptr × Nat) → Line
  | some (buff, length) =>
    if phost.requestState = .send then { phost.line with gState := .ctrlXfer, gStateBkp := phost.gState, buff, length }
    else phost.line
  | none => phost.line

theorem ctlReq_line (phost : Host) (buff : Ptr) (length : Nat) :
    (phost.ctlReq buff length).1.line = phost.asked (some (buff, length)) := by
  unfold ctlReq asked
  cases phost.requestState with
  | wait => cases phost.control.state <;> rfl
  | _ => rfl

theorem getDescriptor_line (phost : Host) (reqType : Byte) (valueIdx : BitVec 16) (buff : Ptr) (length : Nat) :
    (phost.getDescriptor reqType valueIdx buff length).1.line = phost.asked (some (buff, length)) :=
  ctlReq_line _ buff length

theorem getDevDesc_line (phost : Host) (ram : Buffer) (length : Nat) :
    (phost.getDevDesc ram length).1.line = phost.asked (some (cfgRxBuffer, length)) := by
  rw [← getDescriptor_line]
  unfold getDevDesc
  split
  · rename_i equal
    rw [equal]
    rfl
  · rename_i equal
    rw [equal]

theorem getCfgDesc_line {phost next : Host} {ram : Buffer} {length : Nat} {status : UsbhStatus}
    (got : phost.getCfgDesc ram length = .ok (next, status)) :
    next.line = phost.asked (some (cfgRxBuffer, length)) := by
  rw [← getDescriptor_line]
  unfold getCfgDesc at got
  split at got
  · rename_i equal
    split at got
    · cases got
    · cases got
      rw [equal]
      rfl
  · rename_i equal
    cases got
    rw [equal]

theorem setAddress_line (phost : Host) (deviceAddress : Nat) :
    (phost.setAddress deviceAddress).1.line = phost.asked (some (.null, 0)) :=
  ctlReq_line _ .null 0

theorem setCfg_line (phost : Host) (cfgIdx : Nat) : (phost.setCfg cfgIdx).1.line = phost.asked (some (.null, 0)) :=
  ctlReq_line _ .null 0

theorem stringStage_line (phost : Host) (index : Nat) (enumState : EnumState) :
    (phost.stringStage index enumState).line = phost.asked (stringRequest index) := by
  unfold stringStage stringRequest
  split
  · rw [← getDescriptor_line phost (usbReqRecipientDevice ||| usbReqTypeStandard)
      (usbDescString ||| BitVec.ofNat 16 index)]
    split
    · rename_i equal
      rw [getStringDesc] at equal
      rw [equal]
      rfl
    · rename_i equal
      rw [getStringDesc] at equal
      rw [equal]
  · rfl

end Host

theorem handleEnum_line {s next : Stack} {status : UsbhStatus} (handled : s.handleEnum = .ok (next, status)) :
    next.phost.line = s.phost.asked s.phost.request := by
  unfold Stack.handleEnum at handled
  unfold Host.request
  cases enum : s.phost.enumState
  all_goals simp only [enum] at handled
  all_goals simp only
  case idle =>
    rw [← Host.getDevDesc_line s.phost (s.pdev.ram cfgRxBuffer.object)]
    split at handled <;> rename_i equal <;> (cases handled; simp only [equal, Host.line])
  case getFullDevDesc =>
    rw [← Host.getDevDesc_line s.phost (s.pdev.ram cfgRxBuffer.object)]
    split at handled <;> rename_i equal <;> (cases handled; simp only [equal, Host.line])
  case setAddr =>
    rw [← Host.setAddress_line s.phost usbhDeviceAddress]
    split at handled <;> rename_i equal <;> (cases handled; simp only [equal, Host.line])
  case getCfgDesc =>
    split at handled
    · cases handled
    · rename_i got
      rw [← Host.getCfgDesc_line got]
      split at handled <;> (cases handled; rfl)
    · rename_i got
      rw [← Host.getCfgDesc_line got]
      cases handled
      rfl
  case getFullCfgDesc =>
    split at handled
    · cases handled
    · rename_i got
      rw [← Host.getCfgDesc_line got]
      cases handled
      rfl
    · rename_i got
      rw [← Host.getCfgDesc_line got]
      cases handled
      rfl
  case setConfiguration =>
    rw [← Host.setCfg_line s.phost s.phost.deviceProp.cfgDesc.bConfigurationValue]
    split at handled <;> rename_i equal <;> (cases handled; simp only [equal, Host.line])
  case devConfigured =>
    cases handled
    rfl
  all_goals
    cases handled
    exact Host.stringStage_line ..

theorem handleEnum_pdev {s next : Stack} {status : UsbhStatus} (handled : s.handleEnum = .ok (next, status)) :
    next.pdev = s.pdev ∨ ∃ nums, (∀ n ∈ nums, n = s.phost.control.hcNumIn ∨ n = s.phost.control.hcNumOut) ∧
      Modified nums s.pdev next.pdev := by
  have keeps_in : s.phost.line.hcNumIn = (s.phost.asked s.phost.request).hcNumIn := by
    unfold Host.asked
    split
    · split <;> rfl
    · rfl
  have keeps_out : s.phost.line.hcNumOut = (s.phost.asked s.phost.request).hcNumOut := by
    unfold Host.asked
    split
    · split <;> rfl
    · rfl
  have line := handleEnum_line handled
  have in_num : next.phost.control.hcNumIn = s.phost.control.hcNumIn :=
    (congrArg Line.hcNumIn line).trans keeps_in.symm
  have out_num : next.phost.control.hcNumOut = s.phost.control.hcNumOut :=
    (congrArg Line.hcNumOut line).trans keeps_out.symm
  unfold Stack.handleEnum at handled
  cases enum : s.phost.enumState
  all_goals simp only [enum] at handled
  case idle =>
    split at handled
    · cases handled
      rw [← in_num, ← out_num]
      exact .inr ⟨_, by simp, (modifyChannel_modified ..).trans (modifyChannel_modified ..)⟩
    · cases handled
      exact .inl rfl
  case setAddr =>
    split at handled
    · cases handled
      rw [← in_num, ← out_num]
      exact .inr ⟨_, by simp, (modifyChannel_modified ..).trans (modifyChannel_modified ..)⟩
    · cases handled
      exact .inl rfl
  case getCfgDesc =>
    split at handled
    · cases handled
    · split at handled <;> (cases handled; exact .inl rfl)
    · cases handled
      exact .inl rfl
  case getFullCfgDesc =>
    split at handled
    · cases handled
    · cases handled
      exact .inl rfl
    · cases handled
      exact .inl rfl
  case getFullDevDesc | setConfiguration => split at handled <;> (cases handled; exact .inl rfl)
  all_goals
    cases handled
    exact .inl rfl

/-- The transfer that a call of `USBH_HandleControl()` starts, if any -/
inductive Transferred (s : Stack) : Hcd → Prop where
  | none : Transferred s s.pdev
  | sent (toggled next : Hcd) (buff : Ptr) (length : Nat) (quiet : Quiet s.pdev toggled)
      (others : ∀ n, n ≠ s.phost.control.hcNumOut → toggled.hc n = s.pdev.hc n)
      (started : Started toggled s.phost.control.hcNumOut false buff length next) : Transferred s next
  | asked (next : Hcd) (buff : Ptr) (length : Nat)
      (request : buff = s.phost.control.buff ∧ length = s.phost.control.length ∨ buff = .null ∧ length = 0)
      (started : Started s.pdev s.phost.control.hcNumIn true buff length next) : Transferred s next

/-- A call of `USBH_HandleControl()` goes on with the request, or returns to the state that made it. -/
structure ControlStep (s next : Stack) : Prop where
  transferred : Transferred s next.pdev
  line : next.phost.line = s.phost.line ∨ next.phost.line = { s.phost.line with gState := s.phost.gStateBkp }
  deviceProp : next.phost.deviceProp = s.phost.deviceProp
  enumState : next.phost.enumState = s.phost.enumState

theorem setCtrl_step {s : Stack} (state : CtrlState) : ControlStep s (s.setCtrl state) := ⟨.none, .inl rfl, rfl, rfl⟩

theorem endCtrl_step {s : Stack} (state : CtrlState) : ControlStep s (s.endCtrl state) := ⟨.none, .inr rfl, rfl, rfl⟩

theorem checkTimer_step {s : Stack} (stk : BitVec 32) : ControlStep s (s.checkTimer stk) := by
  simp only [Stack.checkTimer]
  split <;> exact ⟨.none, .inl rfl, rfl, rfl⟩

theorem handleControl_step (s : Stack) (stk : BitVec 32) : ControlStep s (s.handleControl stk) := by
  unfold Stack.handleControl
  cases state : s.phost.control.state
  all_goals simp only [state]
  case setup =>
    exact ⟨.sent s.pdev _ ⟨.setup, 0⟩ 8 (.refl _) (fun _ _ => rfl) (ctlSendSetup_started ..), .inl rfl, rfl, rfl⟩
  case dataIn => exact ⟨.asked _ _ _ (.inl ⟨rfl, rfl⟩) (ctlReceiveData_started ..), .inl rfl, rfl, rfl⟩
  case statusIn => exact ⟨.asked _ _ _ (.inr ⟨rfl, rfl⟩) (ctlReceiveData_started ..), .inl rfl, rfl, rfl⟩
  case dataOut =>
    refine ⟨.sent _ _ s.phost.control.buff s.phost.control.length ?_ (fun n other => ?_) (ctlSendData_started ..),
      .inl rfl, rfl, rfl⟩
    · exact edit_quiet _ _ (fun c => { c with toggleOut := true }) fun _ => rfl
    · rw [edit_hc, if_neg other]
  case statusOut =>
    refine ⟨.sent _ _ .null 0 ?_ (fun n other => ?_) (ctlSendData_started ..), .inl rfl, rfl, rfl⟩
    · exact edit_quiet _ _ (fun c => { c with toggleOut := !c.toggleOut }) fun _ => rfl
    · rw [edit_hc, if_neg other]
  case setupWait =>
    split
    · split <;> exact ⟨.none, .inl rfl, rfl, rfl⟩
    · exact setCtrl_step .error
    · exact ⟨.none, .inl rfl, rfl, rfl⟩
  case dataInWait =>
    split
    · simp only [Stack.checkTimer]
      split <;> exact ⟨.none, .inl rfl, rfl, rfl⟩
    · exact endCtrl_step .stalled
    · exact setCtrl_step .error
    · exact checkTimer_step stk
  case dataOutWait =>
    split
    · exact setCtrl_step .statusIn
    · exact endCtrl_step .stalled
    · exact setCtrl_step .dataOut
    · exact setCtrl_step .error
    · exact ⟨.none, .inl rfl, rfl, rfl⟩
  case statusInWait =>
    split
    · exact endCtrl_step .complete
    · exact setCtrl_step .error
    · split
      · exact ⟨.none, .inl rfl, rfl, rfl⟩
      · split
        · exact ⟨.none, .inr rfl, rfl, rfl⟩
        · exact ⟨.none, .inl rfl, rfl, rfl⟩
  case statusOutWait =>
    split
    · exact endCtrl_step .complete
    · exact setCtrl_step .statusOut
    · exact setCtrl_step .error
    · exact ⟨.none, .inl rfl, rfl, rfl⟩
  case error =>
    split
    · exact ⟨.none, .inl rfl, rfl, rfl⟩
    · exact ⟨.none, .inr rfl, rfl, rfl⟩
  all_goals exact ⟨.none, .inl rfl, rfl, rfl⟩

end Testjig.Usb
