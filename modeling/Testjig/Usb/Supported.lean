import Testjig.Usb.Configuration
import Testjig.Usb.Connected

namespace Testjig.Usb

open Machine Testjig.Sequence

def Stems {α : Type} (stored : α → Prop) (old old' new new' : α) : Prop :=
  stored new ∧ new' = new ∨ new = old ∧ new' = old'

theorem Stems.trans {α : Type} {stored : α → Prop} {a a' b b' c c' : α} (first : Stems stored a a' b b')
    (second : Stems stored b b' c c') : Stems stored a a' c c' := by
  rcases second with listed | ⟨same, same'⟩
  · exact .inl listed
  · rw [same, same']
    exact first

def HasInterface (ds : List Descriptor) (n : Nat) (itf : InterfaceDesc) : Prop :=
  ∃ e ∈ ds, e.kind = usbDescTypeInterface ∧ (e.buffer 2).toNat = n ∧ e.interfaceDesc = itf

def HasEndpoint (ds : List Descriptor) (ep : EpDesc) : Prop := ∃ e ∈ ds, e.kind = usbDescTypeEndpoint ∧ e.epDesc = ep

structure Traced (ds : List Descriptor) (prop prop' after after' : DeviceProp) : Prop where
  interface : ∀ n, Stems (HasInterface ds n) (prop.itfDesc n) (prop'.itfDesc n) (after.itfDesc n) (after'.itfDesc n)
  endpoint : ∀ n k, Stems (HasEndpoint ds) (prop.epDesc n k) (prop'.epDesc n k) (after.epDesc n k) (after'.epDesc n k)

theorem Traced.refl (ds : List Descriptor) (prop prop' : DeviceProp) : Traced ds prop prop' prop prop' :=
  ⟨fun _ => .inr ⟨rfl, rfl⟩, fun _ _ => .inr ⟨rfl, rfl⟩⟩

theorem Traced.trans {ds : List Descriptor} {a a' b b' c c' : DeviceProp} (first : Traced ds a a' b b')
    (second : Traced ds b b' c c') : Traced ds a a' c c' where
  interface n := (first.interface n).trans (second.interface n)
  endpoint n k := (first.endpoint n k).trans (second.endpoint n k)

theorem store_traced {ds : List Descriptor} {ifIx : Nat} {pif : InterfaceDesc} {ep : EpDesc} (prop prop' : DeviceProp)
    (epIx : Nat) (interface : HasInterface ds ifIx pif) (endpoint : HasEndpoint ds ep) :
    Traced ds prop prop' (prop.storeEndpoint ifIx pif epIx ep) (prop'.storeEndpoint ifIx pif epIx ep) := by
  refine ⟨fun n => ?_, fun n k => ?_⟩
  · simp only [DeviceProp.storeEndpoint, Function.update_apply]
    split
    · rename_i same
      rw [same]
      exact .inl ⟨interface, rfl⟩
    · exact .inr ⟨rfl, rfl⟩
  · simp only [DeviceProp.storeEndpoint, Function.update_apply]
    split
    · rename_i same
      subst same
      simp only [Function.update_apply]
      split
      · exact .inl ⟨endpoint, rfl⟩
      · exact .inr ⟨rfl, rfl⟩
    · exact .inr ⟨rfl, rfl⟩

def Seeking.Known (ds : List Descriptor) : Seeking → Prop
  | .interface => True
  | .endpoint ifIx pif _ => HasInterface ds ifIx pif

theorem seekEndpoint_known {ds : List Descriptor} {ifIx : Nat} {pif : InterfaceDesc} (epIx : Nat)
    (interface : HasInterface ds ifIx pif) : (seekEndpoint ifIx pif epIx).Known ds := by
  unfold seekEndpoint
  split
  · exact interface
  · trivial

/-- The walk goes the same way whatever is in the tables, and all it stores comes from the descriptors. -/
theorem walk_traced {all ds : List Descriptor} (listed : ∀ e ∈ ds, e ∈ all) {seek : Seeking} (known : seek.Known all)
    {prop prop' after : DeviceProp} {status : UsbhStatus} (size : prop'.prevEpSize = prop.prevEpSize)
    (itf : prop'.prevItf = prop.prevItf) (walked : walk seek ds prop = some (.ok (after, status))) :
    ∃ after', walk seek ds prop' = some (.ok (after', status)) ∧ Traced all prop prop' after after' := by
  induction ds generalizing seek prop prop' with
  | nil =>
    cases seek with
    | interface =>
      cases walked
      exact ⟨prop'.settled, rfl, fun _ => .inr ⟨rfl, rfl⟩, fun _ _ => .inr ⟨rfl, rfl⟩⟩
    | endpoint => cases walked
  | cons d rest ih =>
    rw [List.forall_mem_cons] at listed
    cases seek with
    | interface =>
      rw [walk] at walked ⊢
      by_cases found : d.kind = usbDescTypeInterface ∧ d.buffer 3 < 3
      · rw [if_pos found] at walked ⊢
        by_cases few : d.interfaceDesc.bNumEndpoints ≤ usbhMaxNumEndpoints
        · rw [if_pos few] at walked ⊢
          exact ih listed.2 (seekEndpoint_known 0 ⟨d, listed.1, found.1, rfl, rfl⟩) size itf walked
        · rw [if_neg few] at walked ⊢
          cases walked
          exact ⟨prop', rfl, .refl all _ prop'⟩
      · rw [if_neg found] at walked ⊢
        exact ih listed.2 known size itf walked
    | endpoint ifIx pif epIx =>
      rw [walk] at walked ⊢
      by_cases endpoint : d.kind = usbDescTypeEndpoint
      · have floor : prop'.floor ifIx = prop.floor ifIx := by rw [DeviceProp.floor, DeviceProp.floor, size, itf]
        rw [if_pos endpoint] at walked ⊢
        rw [floor]
        by_cases small : d.epDesc.wMaxPacketSize < prop.floor ifIx
        · rw [if_pos small] at walked ⊢
          have outside : Seeking.Known all .interface := trivial
          exact ih listed.2 outside size itf walked
        · rw [if_neg small] at walked ⊢
          by_cases inside : ifIx < usbhMaxNumInterfaces
          · rw [if_pos inside] at walked ⊢
            have stored := store_traced prop prop' epIx known ⟨d, listed.1, endpoint, rfl⟩
            have size' : (prop'.storeEndpoint ifIx pif epIx d.epDesc).prevEpSize =
                (prop.storeEndpoint ifIx pif epIx d.epDesc).prevEpSize := rfl
            have itf' : (prop'.storeEndpoint ifIx pif epIx d.epDesc).prevItf =
                (prop.storeEndpoint ifIx pif epIx d.epDesc).prevItf := rfl
            obtain ⟨after', walked', traced⟩ := ih listed.2 (seekEndpoint_known (epIx + 1) known) size' itf' walked
            exact ⟨after', walked', stored.trans traced⟩
          · rw [if_neg inside] at walked
            cases walked
      · rw [if_neg endpoint] at walked ⊢
        exact ih listed.2 known size itf walked

/-- The configuration has the descriptor among those after its header. -/
def Lists (answer : List Byte) (e : Descriptor) : Prop :=
  ∃ head ds, head.length = usbLenCfgDesc ∧ answer = head ++ bytesAll ds ∧ e ∈ ds

/-- The configuration has an interface 0 of the class and protocol that the class driver is for. -/
def ListsCdc (answer : List Byte) : Prop := ∃ e, Lists answer e ∧ e.kind = usbDescTypeInterface ∧ e.buffer 2 = 0 ∧
  e.buffer 5 = usbCdcClass ∧ e.buffer 7 = commonAtCommand

/-- An open bulk channel of the given direction, for an endpoint that the device has -/
structure OpenedFor (usb : Usbh) (answer : List Byte) (pipe : Nat) (inward : Bool) : Prop where
  used : Used usb.pdev.channel pipe
  eptype : (usb.pdev.hc pipe).eptype = .bulk
  epdir : (usb.pdev.hc pipe).epdir = inward
  devAddr : (usb.pdev.hc pipe).devAddr = usb.phost.deviceProp.address
  endpoint : ∃ e, Lists answer e ∧ e.kind = usbDescTypeEndpoint ∧ (e.buffer 2 &&& 0x80 ≠ 0 ↔ inward = true) ∧
    (usb.pdev.hc pipe).epNum = (e.buffer 2 &&& 0x7F).toNat

/-- The class driver has accepted the device for what it is, and has a pipe to it in each direction. -/
structure Supported (usb : Usbh) (answer : List Byte) : Prop where
  accepted : usb.phost.deviceProp.Accepted
  interface : ListsCdc answer
  out : OpenedFor usb answer usb.cdc.outPipe false
  inn : OpenedFor usb answer usb.cdc.inPipe true

/-- The two endpoints that the class driver takes are of opposite directions. -/
def DeviceProp.Paired (prop : DeviceProp) : Prop :=
  (prop.epDesc 1 0).bEndpointAddress &&& 0x80 = 0 ↔ (prop.epDesc 1 1).bEndpointAddress &&& 0x80 ≠ 0

/-- The answer to a request for the full configuration, and what it is read with -/
structure Reading where
  answer : List Byte
  length : Nat
  prevEpSize : Nat
  prevItf : Nat
deriving DecidableEq

/-- Whatever is in the tables, the configuration puts an interface into them that the class driver accepts, and an
endpoint for each direction. -/
structure Suitable (reading : Reading) : Prop where
  whole : usbConfigurationDescSize < reading.length
  loads : ∃ ds, Chained reading.answer ds ∧
    ∀ prop : DeviceProp, prop.prevEpSize = reading.prevEpSize → prop.prevItf = reading.prevItf →
      ∃ after, walk .interface ds (prop.headed reading.answer) = some (.ok (after, .ok)) ∧ after.Accepted ∧ after.Paired

structure Reflects (prop : DeviceProp) (answer : List Byte) : Prop where
  accepted : prop.Accepted
  paired : prop.Paired
  interface : ListsCdc answer
  endpoints : ∀ k < 2, ∃ e, Lists answer e ∧ e.kind = usbDescTypeEndpoint ∧
    e.buffer 2 = (prop.epDesc 1 k).bEndpointAddress

theorem suitable_reflects {reading : Reading} (suitable : Suitable reading) {prop after : DeviceProp} {buf : Buffer}
    (holds : Holds buf 0 reading.answer) (size : prop.prevEpSize = reading.prevEpSize)
    (itf : prop.prevItf = reading.prevItf) (parsed : parseCfgDesc prop buf reading.length = .ok (after, .ok)) :
    Reflects after reading.answer := by
  obtain ⟨ds, chained, loads⟩ := suitable.loads
  obtain ⟨head, nine, split⟩ := chained.split
  have lists {e : Descriptor} (member : e ∈ ds) : Lists reading.answer e := ⟨head, ds, nine, split, member⟩
  obtain ⟨same, walked, accepted, paired⟩ := loads prop size itf
  rw [chained_parsed chained prop holds suitable.whole walked] at parsed
  have equal : same = after := by
    split at parsed
    · cases parsed
      rfl
    · cases parsed
  subst equal
  -- the same configuration, read into other tables
  have again (prop' : DeviceProp) (size' : prop'.prevEpSize = prop.prevEpSize) (itf' : prop'.prevItf = prop.prevItf) :
      ∃ after', after'.Accepted ∧ after'.Paired ∧
        Traced ds (prop.headed reading.answer) (prop'.headed reading.answer) same after' := by
    obtain ⟨after', walked', accepted', paired'⟩ := loads prop' (size'.trans size) (itf'.trans itf)
    have outside : Seeking.Known ds .interface := trivial
    obtain ⟨other, otherWalked, traced⟩ := walk_traced (fun e member => member) outside
      (show (prop'.headed reading.answer).prevEpSize = (prop.headed reading.answer).prevEpSize from size')
      (show (prop'.headed reading.answer).prevItf = (prop.headed reading.answer).prevItf from itf') walked
    rw [walked'] at otherWalked
    cases otherWalked
    exact ⟨after', accepted', paired', traced⟩
  refine ⟨accepted, paired, ?_, fun k bound => ?_⟩
  · obtain ⟨after', accepted', _, traced⟩ := again { prop with itfDesc := fun _ => ⟨0, 0, 0⟩ } rfl rfl
    rcases traced.interface 0 with ⟨⟨e, member, kind, number, desc⟩, _⟩ | ⟨_, empty⟩
    · refine ⟨e, lists member, kind, BitVec.eq_of_toNat_eq number, ?_, ?_⟩
      · exact (congrArg InterfaceDesc.bInterfaceClass desc).trans accepted.1
      · exact (congrArg InterfaceDesc.bInterfaceProtocol desc).trans accepted.2
    · have itfClass := accepted'.1
      rw [empty] at itfClass
      change (0 : Byte) = usbCdcClass at itfClass
      exact absurd itfClass (by decide)
  · obtain ⟨after', _, paired', traced⟩ := again { prop with epDesc := fun _ _ => same.epDesc 1 (1 - k) } rfl rfl
    rcases traced.endpoint 1 k with ⟨⟨e, member, kind, desc⟩, _⟩ | ⟨_, other⟩
    · exact ⟨e, lists member, kind, congrArg EpDesc.bEndpointAddress desc⟩
    · -- with nothing stored here, both entries would be the other one
      have opposite : after'.epDesc 1 (1 - k) = same.epDesc 1 (1 - k) := by
        rcases traced.endpoint 1 (1 - k) with ⟨_, stored⟩ | ⟨_, kept⟩
        · exact stored
        · exact kept
      have equal : after'.epDesc 1 0 = after'.epDesc 1 1 := by
        rcases Nat.lt_succ_iff_lt_or_eq.mp bound with zero | one
        · rw [Nat.lt_one_iff.mp zero] at other opposite
          exact other.trans opposite.symm
        · rw [one] at other opposite
          exact opposite.trans other.symm
      rw [DeviceProp.Paired, equal] at paired'
      by_cases outward : (after'.epDesc 1 1).bEndpointAddress &&& 0x80 = 0
      · exact absurd outward (paired'.mp outward)
      · exact absurd (paired'.mpr outward) outward

def EnumState.Read : EnumState → Prop
  | .idle | .getFullDevDesc | .setAddr | .getCfgDesc | .getFullCfgDesc => False
  | _ => True

structure Host.Asked (phost : Host) (result : Host × UsbhStatus) : Prop where
  enumState : result.1.enumState = phost.enumState
  deviceProp : result.1.deviceProp = phost.deviceProp
  done : result.2 = .ok → phost.requestState = .wait ∧ phost.control.state = .complete

namespace Host

theorem ctlReq_asked (phost : Host) (buff : Ptr) (length : Nat) : phost.Asked (phost.ctlReq buff length) := by
  unfold ctlReq
  split
  · exact ⟨rfl, rfl, fun done => by cases done⟩
  · rename_i waits
    split
    · rename_i complete
      exact ⟨rfl, rfl, fun _ => ⟨waits, complete⟩⟩
    all_goals exact ⟨rfl, rfl, fun done => by cases done⟩
  · exact ⟨rfl, rfl, fun done => by cases done⟩

theorem getDescriptor_asked (phost : Host) (reqType : Byte) (valueIdx : BitVec 16) (buff : Ptr) (length : Nat) :
    phost.Asked (phost.getDescriptor reqType valueIdx buff length) := by
  obtain ⟨enumState, deviceProp, done⟩ := ctlReq_asked { phost with control.setup := _ } buff length
  exact ⟨enumState, deviceProp, done⟩

theorem setAddress_asked (phost : Host) (deviceAddress : Nat) : phost.Asked (phost.setAddress deviceAddress) := by
  obtain ⟨enumState, deviceProp, done⟩ := ctlReq_asked { phost with control.setup := _ } .null 0
  exact ⟨enumState, deviceProp, done⟩

theorem setCfg_asked (phost : Host) (cfgIdx : Nat) : phost.Asked (phost.setCfg cfgIdx) := by
  obtain ⟨enumState, deviceProp, done⟩ := ctlReq_asked { phost with control.setup := _ } .null 0
  exact ⟨enumState, deviceProp, done⟩

theorem getDevDesc_enumState (phost : Host) (ram : Buffer) (length : Nat) :
    (phost.getDevDesc ram length).1.enumState = phost.enumState := by
  have asked := getDescriptor_asked phost (usbReqRecipientDevice ||| usbReqTypeStandard) usbDescDevice cfgRxBuffer length
  unfold getDevDesc
  split
  · rename_i equal
    rw [equal] at asked
    exact asked.enumState
  · rename_i equal
    rw [equal] at asked
    exact asked.enumState

theorem getCfgDesc_read {phost next : Host} {ram : Buffer} {length : Nat} {status : UsbhStatus}
    (got : phost.getCfgDesc ram length = .ok (next, status)) : next.enumState = phost.enumState ∧
      (status = .ok → phost.requestState = .wait ∧ phost.control.state = .complete ∧
        parseCfgDesc phost.deviceProp ram length = .ok (next.deviceProp, .ok)) := by
  have asked := getDescriptor_asked phost (usbReqRecipientDevice ||| usbReqTypeStandard) usbDescConfiguration
    cfgRxBuffer length
  unfold getCfgDesc at got
  split at got
  · rename_i equal
    rw [equal] at asked
    obtain ⟨waits, complete⟩ := asked.done rfl
    split at got
    · cases got
    · rename_i parsed
      cases got
      refine ⟨asked.enumState, fun ok => ⟨waits, complete, ?_⟩⟩
      have deviceProp := asked.deviceProp
      dsimp only at deviceProp
      rw [deviceProp, ok] at parsed
      exact parsed
  · rename_i unfinished equal
    cases got
    rw [equal] at asked
    exact ⟨asked.enumState, fun ok => absurd ok unfinished⟩

theorem stringStage_read (phost : Host) (index : Nat) {next : EnumState} (read : phost.enumState.Read)
    (next_read : next.Read) : (phost.stringStage index next).enumState.Read ∧
      (phost.stringStage index next).deviceProp = phost.deviceProp := by
  have asked := getDescriptor_asked phost (usbReqRecipientDevice ||| usbReqTypeStandard)
    (usbDescString ||| BitVec.ofNat 16 index) cfgRxBuffer 512
  unfold stringStage
  split
  · split
    · rename_i equal
      rw [getStringDesc] at equal
      rw [equal] at asked
      exact ⟨next_read, asked.deviceProp⟩
    · rename_i equal
      rw [getStringDesc] at equal
      rw [equal] at asked
      have same := asked.enumState
      dsimp only at same
      rw [same]
      exact ⟨read, asked.deviceProp⟩
  · exact ⟨next_read, rfl⟩

end Host

inductive Enumerates (s next : Stack) : Prop where
  | before (unread : ¬ next.phost.enumState.Read)
  | read (stage : s.phost.enumState = .getFullCfgDesc) (waits : s.phost.requestState = .wait)
      (complete : s.phost.control.state = .complete)
      (parsed : parseCfgDesc s.phost.deviceProp (s.pdev.ram .usbhBuf) s.phost.deviceProp.cfgDesc.wTotalLength =
        .ok (next.phost.deviceProp, .ok))
  | after (read : s.phost.enumState.Read) (still : next.phost.enumState.Read)
      (deviceProp : next.phost.deviceProp = s.phost.deviceProp)

theorem Enumerates.unread {s next : Stack} {stage : EnumState} (enum : s.phost.enumState = stage) (unread : ¬ stage.Read)
    (same : next.phost.enumState = s.phost.enumState) : Enumerates s next := by
  refine .before fun read => unread ?_
  rw [← enum, ← same]
  exact read

theorem handleEnum_enumerates {s next : Stack} {status : UsbhStatus} (handled : s.handleEnum = .ok (next, status)) :
    Enumerates s next ∧ (status = .ok → next.phost.enumState.Read) := by
  unfold Stack.handleEnum at handled
  cases enum : s.phost.enumState
  all_goals simp only [enum] at handled
  case idle =>
    have same := Host.getDevDesc_enumState s.phost (s.pdev.ram cfgRxBuffer.object) 8
    split at handled
    · cases handled
      exact ⟨.before id, fun ok => by cases ok⟩
    · rename_i equal
      cases handled
      rw [equal] at same
      exact ⟨.unread enum id same, fun ok => by cases ok⟩
  case getFullDevDesc =>
    have same := Host.getDevDesc_enumState s.phost (s.pdev.ram cfgRxBuffer.object) usbDeviceDescSize
    split at handled
    · cases handled
      exact ⟨.before id, fun ok => by cases ok⟩
    · rename_i equal
      cases handled
      rw [equal] at same
      exact ⟨.unread enum id same, fun ok => by cases ok⟩
  case setAddr =>
    have same := (Host.setAddress_asked s.phost usbhDeviceAddress).enumState
    split at handled
    · cases handled
      exact ⟨.before id, fun ok => by cases ok⟩
    · rename_i equal
      cases handled
      rw [equal] at same
      exact ⟨.unread enum id same, fun ok => by cases ok⟩
  case getCfgDesc =>
    split at handled
    · cases handled
    · rename_i got
      have same := (Host.getCfgDesc_read got).1
      split at handled
      · cases handled
        exact ⟨.before id, fun ok => by cases ok⟩
      · cases handled
        exact ⟨.unread enum id same, fun ok => by cases ok⟩
    · rename_i got
      have same := (Host.getCfgDesc_read got).1
      cases handled
      exact ⟨.unread enum id same, fun ok => by cases ok⟩
  case getFullCfgDesc =>
    split at handled
    · cases handled
    · rename_i got
      obtain ⟨waits, complete, parsed⟩ := (Host.getCfgDesc_read got).2 rfl
      cases handled
      exact ⟨.read enum waits complete parsed, fun ok => by cases ok⟩
    · rename_i got
      have same := (Host.getCfgDesc_read got).1
      cases handled
      exact ⟨.unread enum id same, fun ok => by cases ok⟩
  -- from here on the configuration has been read
  all_goals have read : s.phost.enumState.Read := enum ▸ trivial
  case setConfiguration =>
    have asked := Host.setCfg_asked s.phost s.phost.deviceProp.cfgDesc.bConfigurationValue
    split at handled
    · rename_i equal
      cases handled
      rw [equal] at asked
      exact ⟨.after read trivial asked.deviceProp, fun ok => by cases ok⟩
    · rename_i equal
      cases handled
      rw [equal] at asked
      have same := asked.enumState
      exact ⟨.after read (Eq.mpr (congrArg EnumState.Read same) read) asked.deviceProp, fun ok => by cases ok⟩
  case devConfigured =>
    cases handled
    exact ⟨.after read read rfl, fun _ => read⟩
  case getMfcStringDesc =>
    cases handled
    have next : EnumState.getProductStringDesc.Read := trivial
    obtain ⟨still, deviceProp⟩ := Host.stringStage_read s.phost s.phost.deviceProp.devDesc.iManufacturer read next
    exact ⟨.after read still deviceProp, fun ok => by cases ok⟩
  case getProductStringDesc =>
    cases handled
    have next : EnumState.getSerialnumStringDesc.Read := trivial
    obtain ⟨still, deviceProp⟩ := Host.stringStage_read s.phost s.phost.deviceProp.devDesc.iProduct read next
    exact ⟨.after read still deviceProp, fun ok => by cases ok⟩
  case getSerialnumStringDesc =>
    cases handled
    have next : EnumState.setConfiguration.Read := trivial
    obtain ⟨still, deviceProp⟩ := Host.stringStage_read s.phost s.phost.deviceProp.devDesc.iSerialNumber read next
    exact ⟨.after read still deviceProp, fun ok => by cases ok⟩

namespace Usbh

/-- `USBH_HandleEnum()` is to read the full configuration. -/
def Reads (usb : Usbh) : Prop :=
  usb.phost.enumState = .getFullCfgDesc ∧ usb.phost.requestState = .wait ∧ usb.phost.control.state = .complete

instance (usb : Usbh) : Decidable usb.Reads := inferInstanceAs (Decidable (_ ∧ _ ∧ _))

/-- What the device has answered, and what an earlier call of the parser has left -/
def found (usb : Usbh) : Reading where
  answer := (List.range (usb.pdev.hc usb.phost.control.hcNumIn).xferCount).map (usb.pdev.ram .usbhBuf)
  length := usb.phost.deviceProp.cfgDesc.wTotalLength
  prevEpSize := usb.phost.deviceProp.prevEpSize
  prevItf := usb.phost.deviceProp.prevItf

/-- What is known of the device that is attached, after a call that finds the host in the given state -/
def learned (mid : Usbh) (known : Option Reading) : Option Reading :=
  match mid.phost.gState with
  | .devAttached => none
  | .enumeration => if mid.Reads then some mid.found else known
  | _ => known

end Usbh

/-- The stack, and the configuration that the device that is attached has last sent -/
structure Attended where
  usb : Usbh
  reading : Option Reading

def attend (x : Pass) (s : Attended) : Except Halt Attended :=
  match s.usb.pass x with
  | .error halt => .error halt
  | .ok usb => .ok { usb, reading := (x.mid s.usb).learned s.reading }

/-- The tables that the class driver finds have been read from the device that is attached. -/
structure Informed (phost : Host) (reading : Option Reading) : Prop where
  unread : phost.gState = .idle ∨ phost.gState = .waitPrtEnabled ∨ phost.gState = .devAttached →
    ¬ phost.enumState.Read
  read : phost.gState = .usrInput ∨ phost.gState = .classRequest ∨ phost.gState = .hostClass → phost.enumState.Read
  known : phost.enumState.Read → ∃ r, reading = some r ∧ (Suitable r → Reflects phost.deviceProp r.answer)

theorem found_holds (usb : Usbh) : Holds (usb.pdev.ram .usbhBuf) 0 usb.found.answer := by
  intro i inside
  simp [Usbh.found]

theorem learned_other {mid : Usbh} {state : HostState} (at_state : mid.phost.gState = state) (known : Option Reading)
    (attached : state ≠ .devAttached) (enumeration : state ≠ .enumeration) : mid.learned known = known := by
  unfold Usbh.learned
  rw [at_state]
  cases state with
  | devAttached => exact absurd rfl attached
  | enumeration => exact absurd rfl enumeration
  | _ => rfl

theorem enumerates_informed {mid : Usbh} {stack : Stack} {known : Option Reading}
    (enumeration : mid.phost.gState = .enumeration) (informed : Informed mid.phost known)
    (enumerates : Enumerates mid.toStack stack) (read : stack.phost.enumState.Read) :
    ∃ r, mid.learned known = some r ∧ (Suitable r → Reflects stack.phost.deviceProp r.answer) := by
  have learned : mid.learned known = if mid.Reads then some mid.found else known := by
    rw [Usbh.learned, enumeration]
  rw [learned]
  cases enumerates with
  | before unread => exact absurd read unread
  | read stage waits complete parsed =>
    rw [if_pos ⟨stage, waits, complete⟩]
    exact ⟨_, rfl, fun suitable => suitable_reflects suitable (found_holds mid) rfl rfl parsed⟩
  | after earlier _ deviceProp =>
    have later : ¬ mid.Reads := by
      rintro ⟨stage, _⟩
      rw [stage] at earlier
      exact earlier
    rw [if_neg later, deviceProp]
    exact informed.known earlier

theorem deInit_enumState (usb : Usbh) : (usb.deInit usbhCdcCb).phost.enumState = .idle := by
  simp only [Usbh.deInit, usbhCdcCb, Usbh.interfaceDeInit, Usbh.usrDeInit, Stack.deInit]
  split <;> split <;> rfl

theorem interfaceInit_phost (usb : Usbh) : usb.interfaceInit.1.phost = usb.phost := by
  simp only [Usbh.interfaceInit]
  split <;> rfl

/-- Before an enumeration nothing is known. -/
theorem informed_before {phost : Host} (unread : ¬ phost.enumState.Read) (known : Option Reading)
    (early : phost.gState ≠ .usrInput ∧ phost.gState ≠ .classRequest ∧ phost.gState ≠ .hostClass) :
    Informed phost known where
  unread _ := unread
  read := by
    rintro (input | request | active)
    · exact absurd input early.1
    · exact absurd request early.2.1
    · exact absurd active early.2.2
  known read := absurd read unread

theorem enumerating_informed {mid : Usbh} {stack : Stack} {status : UsbhStatus} {known : Option Reading}
    (enumeration : mid.phost.gState = .enumeration) (informed : Informed mid.phost known)
    (handled : mid.toStack.handleEnum = .ok (stack, status)) : Informed stack.phost (mid.learned known) := by
  obtain ⟨enumerates, _⟩ := handleEnum_enumerates handled
  have state : stack.phost.gState = .enumeration ∨ stack.phost.gState = .ctrlXfer := by
    have line := handleEnum_line handled
    rcases asked_line mid.phost mid.phost.request with same | ⟨_, buff, length, _, asked⟩
    · rw [same] at line
      have gState : stack.phost.gState = mid.phost.gState := congrArg Line.gState line
      exact .inl (gState.trans enumeration)
    · rw [asked] at line
      exact .inr (congrArg Line.gState line)
  refine ⟨?_, ?_, enumerates_informed enumeration informed enumerates⟩
  · rcases state with same | same <;> simp [same]
  · rcases state with same | same <;> simp [same]

theorem stepped_informed {env : Env} {mid next : Usbh} {known : Option Reading} (laid : Laid mid)
    (informed : Informed mid.phost known) (stepped : Stepped false env mid next) :
    Informed next.phost (mid.learned known) := by
  cases stepped with
  | noDevice idle =>
    rw [learned_other idle known (by simp) (by simp)]
    exact informed
  | portDisabled waiting =>
    rw [learned_other waiting known (by simp) (by simp)]
    exact informed
  | device idle =>
    refine informed_before ?_ _ (by simp [Usbh.irq, Usbh.setState])
    exact informed.unread (.inl idle)
  | portEnabled waiting =>
    refine informed_before ?_ _ (by simp [Usbh.setState])
    exact informed.unread (.inr (.inl waiting))
  | attached attached =>
    rw [devAttached_eq (laid.allocated.unallocated (.inr (.inr attached)))]
    refine informed_before ?_ _ (by simp)
    exact informed.unread (.inr (.inr attached))
  | enumerating stack enumeration handled => exact enumerating_informed enumeration informed handled
  | enumerated stack enumeration handled =>
    have read := (handleEnum_enumerates handled).2 rfl
    have known' := (enumerating_informed enumeration informed handled).known read
    refine ⟨?_, fun _ => read, fun _ => known'⟩
    simp [Usbh.setState]
  | init input =>
    rw [learned_other input known (by simp) (by simp)]
    have read := informed.read (.inl input)
    refine ⟨by simp [Usbh.setState], fun _ => ?_, fun _ => ?_⟩
    · simp only [Usbh.setState, interfaceInit_phost]
      exact read
    · simp only [Usbh.setState, interfaceInit_phost]
      exact informed.known read
  | request request =>
    rw [learned_other request known (by simp) (by simp)]
    have read := informed.read (.inr (.inl request))
    exact ⟨by simp [Usbh.setState], fun _ => read, fun _ => informed.known read⟩
  | machine active =>
    rw [learned_other active known (by simp) (by simp), (handle_same mid env).2.1]
    exact informed
  | failed _ failing => cases failing
  | control transfer =>
    rw [learned_other transfer known (by simp) (by simp)]
    obtain ⟨_, line, deviceProp, enumState⟩ := handleControl_step mid.toStack env.stk
    have bkp : mid.phost.gStateBkp = .enumeration := (laid.allocated.transfer transfer).2
    generalize mid.toStack.handleControl env.stk = stack at line deviceProp enumState ⊢
    have state : stack.phost.gState = .ctrlXfer ∨ stack.phost.gState = .enumeration := by
      rcases line with same | ended
      · have gState : stack.phost.gState = mid.phost.gState := congrArg Line.gState same
        exact .inl (gState.trans transfer)
      · have gState : stack.phost.gState = mid.phost.gStateBkp := congrArg Line.gState ended
        exact .inr (gState.trans bkp)
    refine ⟨?_, ?_, ?_⟩
    · rcases state with same | same <;> simp [same]
    · rcases state with same | same <;> simp [same]
    · rw [enumState, deviceProp]
      exact informed.known
  | reinit error =>
    refine informed_before ?_ _ (by simp [deInit_idle])
    rw [deInit_enumState]
    exact id
  | disconnected gone =>
    refine informed_before ?_ _ (by simp [Usbh.devDisconnected, Usbh.setState])
    have idle : (mid.devDisconnected usbhCdcCb).phost.enumState = .idle := deInit_enumState mid.usrDeviceDisconnected
    rw [idle]
    exact id

structure Attentive (s : Attended) : Prop where
  laid : Laid s.usb
  flagged : Flagged s.usb
  informed : Informed s.usb.phost s.reading

theorem attend_attentive (x : Pass) (s next : Attended) (attentive : Attentive s) (attended : attend x s = .ok next) :
    Attentive next := by
  unfold attend at attended
  split at attended
  · cases attended
  · rename_i usb ran
    cases attended
    obtain ⟨processed, _, stepped, same⟩ := pass_ok ran
    have mid : Informed (x.mid s.usb).phost s.reading := by
      rcases mid_phost x s.usb with same | gone
      · rw [same]
        exact attentive.informed
      · rw [gone]
        exact ⟨by simp, by simp, attentive.informed.known⟩
    have informed := stepped_informed (mid_laid x attentive.laid) mid stepped
    refine ⟨pass_laid x s.usb usb attentive.laid ran, pass_flagged x s.usb usb attentive.flagged ran, ?_⟩
    rw [same, (serve_same (processed.irq x.env .exit) x.call).1]
    exact informed

theorem init_attentive : Attentive ⟨usbhCdcInit, none⟩ where
  laid := usbhCdcInit_laid
  flagged := by simp [Flagged, usbhCdcInit, zeroed]
  informed := informed_before id none (by simp [usbhCdcInit, zeroed, Stack.deInit])

theorem useEndpoints_out {prop : DeviceProp} (cdc : Cdc) (paired : prop.Paired) :
    ∃ k < 2, (prop.epDesc 1 k).bEndpointAddress &&& 0x80 = 0 ∧
      (cdc.useEndpoints prop).outEp = (prop.epDesc 1 k).bEndpointAddress := by
  by_cases second : (prop.epDesc 1 1).bEndpointAddress &&& 0x80 = 0
  · refine ⟨1, by simp, second, ?_⟩
    rw [Cdc.useEndpoints, Cdc.useEndpoint, if_neg (not_not_intro second)]
  · have first := paired.mpr second
    refine ⟨0, by simp, first, ?_⟩
    rw [Cdc.useEndpoints, Cdc.useEndpoint, if_pos second, Cdc.useEndpoint, if_neg (not_not_intro first)]

theorem useEndpoints_in {prop : DeviceProp} (cdc : Cdc) (paired : prop.Paired) :
    ∃ k < 2, (prop.epDesc 1 k).bEndpointAddress &&& 0x80 ≠ 0 ∧
      (cdc.useEndpoints prop).inEp = (prop.epDesc 1 k).bEndpointAddress := by
  by_cases second : (prop.epDesc 1 1).bEndpointAddress &&& 0x80 = 0
  · have first := mt paired.mp (not_not_intro second)
    refine ⟨0, by simp, first, ?_⟩
    rw [Cdc.useEndpoints, Cdc.useEndpoint, if_neg (not_not_intro second), Cdc.useEndpoint, if_pos first]
  · refine ⟨1, by simp, second, ?_⟩
    rw [Cdc.useEndpoints, Cdc.useEndpoint, if_pos second]

theorem piped_supported {usb : Usbh} {answer : List Byte} (piped : usb.layout.Piped)
    (wired : Wired usb.pdev usb.cdc.outEp usb.cdc.inEp) (reflects : Reflects usb.phost.deviceProp answer) :
    Supported usb answer := by
  have outPipe : usb.cdc.outPipe = 2 := piped.outPipe
  have inPipe : usb.cdc.inPipe = 3 := piped.inPipe
  obtain ⟨cdc, outEp, inEp⟩ := piped.endpoints
  rw [show usb.layout.prop = usb.phost.deviceProp from rfl] at outEp inEp
  obtain ⟨k, bound, outward, outIs⟩ := useEndpoints_out cdc reflects.paired
  obtain ⟨k', bound', inward, inIs⟩ := useEndpoints_in cdc reflects.paired
  obtain ⟨e, listed, kind, address⟩ := reflects.endpoints k bound
  obtain ⟨e', listed', kind', address'⟩ := reflects.endpoints k' bound'
  have outAddress : usb.layout.outEp = e.buffer 2 := (outEp.trans outIs).trans address.symm
  have inAddress : usb.layout.inEp = e'.buffer 2 := (inEp.trans inIs).trans address'.symm
  refine ⟨reflects.accepted, reflects.interface, ⟨?_, ?_, ?_, ?_, e, listed, kind, ?_, ?_⟩,
    ⟨?_, ?_, ?_, ?_, e', listed', kind', ?_, ?_⟩⟩
  · rw [outPipe]
    exact (piped.taken 2 (by decide)).mpr (by simp)
  · rw [outPipe]
    exact piped.outOpen.eptype
  · rw [outPipe]
    exact (wired.outward 2 (by simp) (by simp)).1
  · rw [outPipe]
    exact piped.outOpen.devAddr
  · rw [address]
    simpa using outward
  · rw [outPipe, ← outAddress]
    exact piped.outOpen.epNum
  · rw [inPipe]
    exact (piped.taken 3 (by decide)).mpr (by simp)
  · rw [inPipe]
    exact piped.inOpen.eptype
  · rw [inPipe]
    apply piped.inOpen.epdir.mpr
    rw [inAddress, address']
    exact inward
  · rw [inPipe]
    exact piped.inOpen.devAddr
  · rw [address']
    simpa using inward
  · rw [inPipe, ← inAddress]
    exact piped.inOpen.epNum

/-- Of a device that is reported as connected the full configuration has been read, and the device is supported when
its configuration is suitable, whatever devices were attached before it. -/
theorem connected_supported (inputs : List Pass) (s : Attended) (run : exec attend inputs ⟨usbhCdcInit, none⟩ = .ok s)
    (connected : s.usb.connected = true) :
    ∃ reading, s.reading = some reading ∧ (Suitable reading → Supported s.usb reading.answer) := by
  have attentive : Attentive s := exec_invariant attend_attentive init_attentive run
  have flag : s.usb.cdcDeviceConnected = true := (Bool.and_eq_true _ _ ▸ connected).1
  have active := attentive.flagged flag
  obtain ⟨reading, known, reflects⟩ := attentive.informed.known (attentive.informed.read (.inr (.inr active)))
  refine ⟨reading, known, fun suitable => ?_⟩
  rcases attentive.laid.allocated.classed (.inr active) with ⟨_, rejected⟩ | piped
  · exact absurd (reflects suitable).accepted rejected
  · exact piped_supported piped attentive.laid.wired (reflects suitable)

/-- The configuration of an ordinary device, with each interface once, is suitable when the first two endpoints of
interface 1 are of opposite directions and do not get smaller, and interface 0 has an endpoint. -/
theorem suitable_of_interfaces {c : Configuration} (proper : c.Proper) (storable : ∀ i ∈ c.interfaces, Storable i)
    (distinct : (c.interfaces.map Interface.number).Nodup) {control data : Interface}
    (control_mem : control ∈ c.interfaces) (control_number : control.number = 0)
    (itfClass : control.bInterfaceClass = usbCdcClass) (protocol : control.bInterfaceProtocol = commonAtCommand)
    (notified : control.endpoints ≠ []) (data_mem : data ∈ c.interfaces) (data_number : data.number = 1)
    {first second : EpDesc} {others : List EpDesc} (endpoints : data.epDescs = first :: second :: others)
    (grows : first.wMaxPacketSize ≤ second.wMaxPacketSize)
    (opposite : first.bEndpointAddress &&& 0x80 = 0 ↔ second.bEndpointAddress &&& 0x80 ≠ 0) {reading : Reading}
    (answer : reading.answer = c.bytes) (whole : usbConfigurationDescSize < reading.length)
    (fresh : reading.prevEpSize = 0) : Suitable reading := by
  refine ⟨whole, c.descriptors, ?_, fun prop size _ => ?_⟩
  · rw [answer]
    exact configuration_chained c proper
  · have settled : ∀ i ∈ c.interfaces, (c.header prop).floor i.number = 0 := by
      intro i _
      unfold DeviceProp.floor
      split
      · exact size.trans fresh
      · rfl
    obtain ⟨after, loaded, _, _, recovers, _⟩ := loadInterfaces_recovers storable distinct settled
    have itf := (recovers control control_mem).interface notified
    have ep := (recovers data data_mem).endpoints
    rw [endpoints, data_number] at ep
    rw [control_number] at itf
    have zero : after.epDesc 1 0 = first := (ep 0 first rfl).trans (if_pos (by simp [sizes]))
    have one : after.epDesc 1 1 = second := (ep 1 second rfl).trans (if_pos (by simp [sizes, grows]))
    refine ⟨after, ?_, ⟨?_, ?_⟩, ?_⟩
    · rw [answer, configuration_walk, configuration_headed, loaded]
    · rw [itf]
      exact itfClass
    · rw [itf]
      exact protocol
    · rw [DeviceProp.Paired, zero, one]
      exact opposite

def attendedPasses (cfgDesc : List Nat) : List Pass := enumerationPasses (deviceDescriptor 0 0 0) cfgDesc

theorem connected_supported_cdc : ∃ s,
    exec attend (attendedPasses (cdcConfiguration.bytes.map BitVec.toNat)) ⟨usbhCdcInit, none⟩ = .ok s ∧
      Supported s.usb cdcConfiguration.bytes := by
  obtain ⟨s, run, checked⟩ := exists_of_succeedsWith
    (fun s : Attended => s.usb.connected = true ∧
      s.reading = some ⟨cdcConfiguration.bytes, cdcConfiguration.wTotalLength, 0, 0⟩)
    (exec attend (attendedPasses (cdcConfiguration.bytes.map BitVec.toNat)) ⟨usbhCdcInit, none⟩) (by decide +kernel)
  obtain ⟨connected, known⟩ := of_decide_eq_true checked
  refine ⟨s, run, ?_⟩
  obtain ⟨reading, same, supported⟩ := connected_supported _ s run connected
  have equal : reading = ⟨cdcConfiguration.bytes, cdcConfiguration.wTotalLength, 0, 0⟩ :=
    Option.some.inj (same.symm.trans known)
  subst equal
  have storable : ∀ i ∈ cdcConfiguration.interfaces, Storable i := by
    change ∀ i ∈ [cdcControl, cdcData], Storable i
    rw [List.forall_mem_cons, List.forall_mem_singleton]
    exact ⟨⟨by decide, by decide, by decide⟩, ⟨by decide, by decide, by decide⟩⟩
  have control : cdcControl ∈ cdcConfiguration.interfaces := List.mem_cons_self
  have data : cdcData ∈ cdcConfiguration.interfaces := List.mem_cons_of_mem _ List.mem_cons_self
  exact supported (suitable_of_interfaces ⟨by decide, by decide⟩ storable (by decide) control rfl rfl rfl
    (List.cons_ne_nil _ _) data rfl rfl (Nat.le_refl _) (by decide) rfl (by decide) rfl)

/-- A device whose interface 0 is of class 3 is rejected and reported as connected, with both pipes 0. -/
theorem rejected_connected : ∃ s reading,
    exec attend (attendedPasses (configurationDescriptor 3 64)) ⟨usbhCdcInit, none⟩ = .ok s ∧
      s.usb.connected = true ∧ s.reading = some reading ∧ s.usb.cdc.outPipe = 0 ∧ s.usb.cdc.inPipe = 0 ∧
      ¬ Supported s.usb reading.answer := by
  obtain ⟨s, run, checked⟩ := exists_of_succeedsWith
    (fun s : Attended => s.usb.connected = true ∧ s.reading.isSome ∧ s.usb.cdc.outPipe = 0 ∧ s.usb.cdc.inPipe = 0 ∧
      (s.usb.phost.deviceProp.itfDesc 0).bInterfaceClass = 3)
    (exec attend (attendedPasses (configurationDescriptor 3 64)) ⟨usbhCdcInit, none⟩) (by decide +kernel)
  obtain ⟨connected, some, outPipe, inPipe, other⟩ := of_decide_eq_true checked
  obtain ⟨reading, known⟩ := Option.isSome_iff_exists.mp some
  refine ⟨s, reading, run, connected, known, outPipe, inPipe, fun supported => ?_⟩
  have accepted := supported.accepted.1
  rw [other] at accepted
  exact absurd accepted (by decide)

end Testjig.Usb
