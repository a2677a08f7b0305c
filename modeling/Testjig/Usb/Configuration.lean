import Testjig.Usb.Descriptors

namespace Testjig.Usb

open Testjig.Sequence

def Holds (buf : Buffer) (pos : Nat) (bytes : List Byte) : Prop := ∀ i (inside : i < bytes.length), buf (pos + i) = bytes[i]

theorem holds_append {buf : Buffer} {pos : Nat} {first rest : List Byte} :
    Holds buf pos (first ++ rest) ↔ Holds buf pos first ∧ Holds buf (pos + first.length) rest := by
  constructor
  · intro holds
    refine ⟨fun i inside => ?_, fun i inside => ?_⟩
    · rw [holds i (by rw [List.length_append]; omega), List.getElem_append_left inside]
    · have read := holds (first.length + i) (by rw [List.length_append]; omega)
      rw [List.getElem_append_right (by omega)] at read
      simpa [Nat.add_assoc] using read
  · rintro ⟨left, right⟩ i inside
    rw [List.length_append] at inside
    by_cases early : i < first.length
    · rw [left i early, List.getElem_append_left early]
    · have read := right (i - first.length) (by omega)
      rw [show pos + first.length + (i - first.length) = pos + i by omega] at read
      rw [read, List.getElem_append_right (by omega)]

/-- A descriptor whose length byte tells its own length, and which is long enough for its kind -/
structure Descriptor where
  kind : Byte
  body : List Byte
  short : body.length + 2 < 256
  interface : kind = usbDescTypeInterface → 7 ≤ body.length
  endpoint : kind = usbDescTypeEndpoint → 5 ≤ body.length

namespace Descriptor

def length (d : Descriptor) : Nat := d.body.length + 2

def bytes (d : Descriptor) : List Byte := BitVec.ofNat 8 d.length :: d.kind :: d.body

def buffer (d : Descriptor) : Buffer := fun i => d.bytes.getD i 0

@[simp] theorem bytes_length (d : Descriptor) : d.bytes.length = d.length := rfl

theorem holds_read {d : Descriptor} {buf : Buffer} {pos i : Nat} (holds : Holds buf pos d.bytes) (inside : i < d.length) :
    buf (pos + i) = d.buffer i := by
  rw [holds i inside, buffer]
  exact List.getElem_eq_getD 0

theorem holds_length {d : Descriptor} {buf : Buffer} {pos : Nat} (holds : Holds buf pos d.bytes) :
    (buf pos).toNat = d.length := by
  have first := holds 0 (Nat.succ_pos _)
  rw [Nat.add_zero] at first
  rw [first]
  exact Nat.mod_eq_of_lt d.short

theorem holds_kind {d : Descriptor} {buf : Buffer} {pos : Nat} (holds : Holds buf pos d.bytes) :
    buf (pos + 1) = d.kind :=
  holds 1 (Nat.succ_lt_succ (Nat.succ_pos _))

def interfaceDesc (d : Descriptor) : InterfaceDesc := parseInterfaceDesc d.buffer 0

def epDesc (d : Descriptor) : EpDesc := parseEpDesc d.buffer 0

theorem holds_interface {d : Descriptor} {buf : Buffer} {pos : Nat} (holds : Holds buf pos d.bytes)
    (kind : d.kind = usbDescTypeInterface) :
    parseInterfaceDesc buf pos = d.interfaceDesc ∧ buf (pos + 2) = d.buffer 2 ∧ buf (pos + 3) = d.buffer 3 := by
  have long := d.interface kind
  have read (i : Nat) (early : i < 9) : buf (pos + i) = d.buffer i :=
    holds_read holds (by rw [length]; omega)
  refine ⟨?_, read 2 (by omega), read 3 (by omega)⟩
  simp only [interfaceDesc, parseInterfaceDesc, Nat.zero_add]
  rw [read 4 (by omega), read 5 (by omega), read 7 (by omega)]

theorem holds_endpoint {d : Descriptor} {buf : Buffer} {pos : Nat} (holds : Holds buf pos d.bytes)
    (kind : d.kind = usbDescTypeEndpoint) :
    parseEpDesc buf pos = d.epDesc ∧ le16 buf (pos + 4) = d.epDesc.wMaxPacketSize := by
  have long := d.endpoint kind
  have read (i : Nat) (early : i < 7) : buf (pos + i) = d.buffer i :=
    holds_read holds (by rw [length]; omega)
  have size : le16 buf (pos + 4) = d.epDesc.wMaxPacketSize := by
    simp only [epDesc, parseEpDesc, le16, Nat.zero_add]
    rw [read 4 (by omega), show pos + 4 + 1 = pos + 5 from rfl, read 5 (by omega)]
  refine ⟨?_, size⟩
  simp only [parseEpDesc, size, epDesc, Nat.zero_add]
  rw [read 2 (by omega)]

end Descriptor

def bytesAll (ds : List Descriptor) : List Byte := ds.flatMap Descriptor.bytes

namespace DeviceProp

def storeEndpoint (prop : DeviceProp) (ifIx : Nat) (pif : InterfaceDesc) (epIx : Nat) (ep : EpDesc) : DeviceProp :=
  { prop with
    itfDesc := Function.update prop.itfDesc ifIx pif
    epDesc := Function.update prop.epDesc ifIx (Function.update (prop.epDesc ifIx) epIx ep)
    prevItf := ifIx
    prevEpSize := ep.wMaxPacketSize }

def settled (prop : DeviceProp) : DeviceProp := { prop with prevEpSize := 0, prevItf := 0 }

/-- The size below which an endpoint of the interface is turned down -/
def floor (prop : DeviceProp) (ifIx : Nat) : Nat := if prop.prevItf = ifIx then prop.prevEpSize else 0

end DeviceProp

/-- What the parser looks for: an interface, or the next endpoint of one -/
inductive Seeking where
  | interface
  | endpoint (ifIx : Nat) (pif : InterfaceDesc) (epIx : Nat)

def seekEndpoint (ifIx : Nat) (pif : InterfaceDesc) (epIx : Nat) : Seeking :=
  if epIx < pif.bNumEndpoints then .endpoint ifIx pif epIx else .interface

/-- The parser over a list of descriptors; it runs over the end when it still seeks an endpoint there. -/
def walk : Seeking → List Descriptor → DeviceProp → Option (Except Halt (DeviceProp × UsbhStatus))
  | .interface, [], prop => some (.ok (prop.settled, .ok))
  | .endpoint .., [], _ => none
  | .interface, d :: rest, prop =>
    if d.kind = usbDescTypeInterface ∧ d.buffer 3 < 3 then
      if d.interfaceDesc.bNumEndpoints ≤ usbhMaxNumEndpoints then
        walk (seekEndpoint (d.buffer 2).toNat d.interfaceDesc 0) rest prop
      else some (.ok (prop, .notSupported))
    else walk .interface rest prop
  | .endpoint ifIx pif epIx, d :: rest, prop =>
    if d.kind = usbDescTypeEndpoint then
      if d.epDesc.wMaxPacketSize < prop.floor ifIx then walk .interface rest prop
      else if ifIx < usbhMaxNumInterfaces then
        walk (seekEndpoint ifIx pif (epIx + 1)) rest (prop.storeEndpoint ifIx pif epIx d.epDesc)
      else some (.error .outOfArray)
    else walk (.endpoint ifIx pif epIx) rest prop

structure Stands (buf : Buffer) (prop : DeviceProp) (p : DescPtr) (ds : List Descriptor) : Prop where
  ahead : Holds buf (p.pdesc + (buf p.pdesc).toNat) (bytesAll ds)
  count : p.ptr = p.pdesc + 9
  total : p.pdesc + (buf p.pdesc).toNat + (bytesAll ds).length = prop.cfgDesc.wTotalLength
  moves : 0 < (buf p.pdesc).toNat
  bounded : prop.cfgDesc.wTotalLength + 9 < 2 ^ 16
  ends : ds = [] → (buf p.pdesc).toNat ≤ 9
  last : ∀ d ∈ ds.getLast?, d.length ≤ 9

variable {buf : Buffer} {prop : DeviceProp} {p : DescPtr} {d : Descriptor} {ds rest : List Descriptor}

theorem Stands.next (stands : Stands buf prop p (d :: rest)) :
    Holds buf (getNextDesc buf p).pdesc d.bytes ∧ Stands buf prop (getNextDesc buf p) rest := by
  have split : bytesAll (d :: rest) = d.bytes ++ bytesAll rest := List.flatMap_cons
  obtain ⟨here, ahead⟩ := holds_append.mp (split ▸ stands.ahead)
  have total := stands.total
  have bounded := stands.bounded
  rw [split, List.length_append, Descriptor.bytes_length] at total
  have length : (buf (p.pdesc + (buf p.pdesc).toNat)).toNat = d.length := Descriptor.holds_length here
  have some : 0 < d.length := Nat.succ_pos _
  refine ⟨here, ?_, ?_, ?_, ?_, bounded, ?_, ?_⟩
  · dsimp only [getNextDesc]
    rw [length]
    exact ahead
  · dsimp only [getNextDesc]
    rw [stands.count, Nat.mod_eq_of_lt (by omega)]
    omega
  · dsimp only [getNextDesc]
    omega
  · dsimp only [getNextDesc]
    omega
  · rintro rfl
    dsimp only [getNextDesc]
    rw [length]
    exact stands.last d (by simp)
  · intro final member
    apply stands.last final
    cases rest with
    | nil => cases member
    | cons => simpa using member

theorem Stands.store (stands : Stands buf prop p ds) (ifIx : Nat) (pif : InterfaceDesc) (epIx : Nat) (ep : EpDesc) :
    Stands buf (prop.storeEndpoint ifIx pif epIx ep) p ds :=
  ⟨stands.ahead, stands.count, stands.total, stands.moves, stands.bounded, stands.ends, stands.last⟩

theorem Stands.loops (stands : Stands buf prop p ds) : ds.length < descLoops := by
  have many : ds.length ≤ (bytesAll ds).length := by
    clear stands
    induction ds with
    | nil => exact Nat.zero_le _
    | cons d rest ih =>
      have split : (bytesAll (d :: rest)).length = d.length + (bytesAll rest).length := by
        rw [bytesAll, List.flatMap_cons, List.length_append, Descriptor.bytes_length]
        rfl
      have some : 0 < d.length := Nat.succ_pos _
      rw [List.length_cons, split]
      omega
  have total := stands.total
  have bounded := stands.bounded
  have enough : descLoops = 65536 := rfl
  omega

/-- Nothing but an interface makes a difference when an interface is sought. -/
theorem walk_skips (others : ∀ d ∈ ds, d.kind ≠ usbDescTypeInterface) (prop : DeviceProp) :
    walk .interface (ds ++ rest) prop = walk .interface rest prop := by
  induction ds with
  | nil => rfl
  | cons d ds ih =>
    rw [List.forall_mem_cons] at others
    rw [List.cons_append, walk, if_neg (fun both => others.1 both.1)]
    exact ih others.2

/-- What is left when the loop ends is too short for an interface. -/
theorem Stands.leaves (stands : Stands buf prop p ds) (ended : ¬ p.ptr < prop.cfgDesc.wTotalLength) :
    walk .interface ds prop = some (.ok (prop.settled, .ok)) := by
  have few : (bytesAll ds).length < 9 := by
    have total := stands.total
    have count := stands.count
    have moves := stands.moves
    omega
  have others : ∀ d ∈ ds, d.kind ≠ usbDescTypeInterface := by
    intro d member kind
    obtain ⟨before, after, rfl⟩ := List.append_of_mem member
    have long := d.interface kind
    simp only [bytesAll, List.flatMap_append, List.flatMap_cons, List.length_append, Descriptor.bytes_length,
      Descriptor.length] at few
    omega
  have skipped : walk .interface (ds ++ []) prop = walk .interface [] prop := walk_skips others prop
  rw [List.append_nil] at skipped
  exact skipped

def Resumes (buf : Buffer) (fuel : Nat) (result : Except Halt (DeviceProp × UsbhStatus)) :
    Except Halt (DescPtr × DeviceProp) → Prop
  | .error halt => result = .error halt
  | .ok (p, prop) => parseInterfaces buf fuel p prop = result

/-- The two loops of `USBH_ParseCfgDesc()` do what the walk does. -/
theorem loops_walk {result : Except Halt (DeviceProp × UsbhStatus)} (stands : Stands buf prop p ds) :
    (∀ fuel, ds.length < fuel → walk .interface ds prop = some result → parseInterfaces buf fuel p prop = result) ∧
    ∀ fuel ifIx pif epIx more, ds.length < fuel → ds.length < more →
      walk (seekEndpoint ifIx pif epIx) ds prop = some result →
      Resumes buf more result (parseEndpoints buf ifIx pif fuel epIx p prop) := by
  induction ds generalizing p prop with
  | nil =>
    have outer (fuel : Nat) (enough : 0 < fuel) (walked : walk .interface [] prop = some result) :
        parseInterfaces buf fuel p prop = result := by
      obtain ⟨fuel, rfl⟩ := Nat.exists_eq_succ_of_ne_zero (Nat.ne_of_gt enough)
      have total := stands.total
      have count := stands.count
      have ends := stands.ends rfl
      have ended : ¬ p.ptr < prop.cfgDesc.wTotalLength := by
        simp only [bytesAll, List.flatMap_nil, List.length_nil] at total
        omega
      rw [parseInterfaces, if_neg ended]
      exact Option.some.inj walked
    refine ⟨outer, fun fuel ifIx pif epIx more enough enough' walked => ?_⟩
    obtain ⟨fuel, rfl⟩ := Nat.exists_eq_succ_of_ne_zero (Nat.ne_of_gt enough)
    by_cases wanted : epIx < pif.bNumEndpoints
    · rw [seekEndpoint, if_pos wanted, walk] at walked
      cases walked
    · rw [seekEndpoint, if_neg wanted] at walked
      rw [parseEndpoints, if_neg wanted]
      exact outer more enough' walked
  | cons d rest ih =>
    obtain ⟨here, next⟩ := stands.next
    have kind : buf ((getNextDesc buf p).pdesc + 1) = d.kind := Descriptor.holds_kind here
    have outer (fuel : Nat) (enough : (d :: rest).length < fuel) (walked : walk .interface (d :: rest) prop = some result) :
        parseInterfaces buf fuel p prop = result := by
      obtain ⟨fuel, rfl⟩ := Nat.exists_eq_succ_of_ne_zero (Nat.ne_of_gt (Nat.zero_lt_of_lt enough))
      have enough' : rest.length < fuel := Nat.lt_of_succ_lt_succ enough
      by_cases goesOn : p.ptr < prop.cfgDesc.wTotalLength
      · rw [parseInterfaces, if_pos goesOn]
        simp only [kind]
        by_cases found : d.kind = usbDescTypeInterface ∧ d.buffer 3 < 3
        · obtain ⟨desc, number, alternate⟩ := Descriptor.holds_interface here found.1
          rw [alternate, if_pos found, number, desc]
          rw [walk, if_pos found] at walked
          by_cases few : d.interfaceDesc.bNumEndpoints ≤ usbhMaxNumEndpoints
          · rw [if_pos few] at walked ⊢
            have inner := (ih next).2 descLoops _ _ 0 fuel next.loops enough' walked
            split
            · rename_i halt stopped
              rw [stopped] at inner
              exact Eq.symm inner
            · rename_i p' prop' done
              rw [done] at inner
              exact inner
          · rw [if_neg few] at walked ⊢
            exact Option.some.inj walked
        · have missed : ¬ (d.kind = usbDescTypeInterface ∧ buf ((getNextDesc buf p).pdesc + 3) < 3) := by
            rintro ⟨itf, alternate⟩
            rw [(Descriptor.holds_interface here itf).2.2] at alternate
            exact found ⟨itf, alternate⟩
          rw [if_neg missed]
          rw [walk, if_neg found] at walked
          exact (ih next).1 fuel enough' walked
      · rw [parseInterfaces, if_neg goesOn]
        exact Option.some.inj ((stands.leaves goesOn).symm.trans walked)
    refine ⟨outer, fun fuel ifIx pif epIx more enough enough' walked => ?_⟩
    obtain ⟨fuel, rfl⟩ := Nat.exists_eq_succ_of_ne_zero (Nat.ne_of_gt (Nat.zero_lt_of_lt enough))
    have enough'' : rest.length < fuel := Nat.lt_of_succ_lt_succ enough
    have more' : rest.length < more := Nat.lt_of_succ_lt enough'
    by_cases wanted : epIx < pif.bNumEndpoints
    · rw [seekEndpoint, if_pos wanted, walk] at walked
      rw [parseEndpoints, if_pos wanted]
      simp only [kind]
      by_cases endpoint : d.kind = usbDescTypeEndpoint
      · obtain ⟨desc, size⟩ := Descriptor.holds_endpoint here endpoint
        rw [if_pos endpoint] at walked ⊢
        rw [size, desc]
        by_cases small : d.epDesc.wMaxPacketSize < prop.floor ifIx
        · have turned : prop.prevItf = ifIx ∧ prop.prevEpSize > d.epDesc.wMaxPacketSize := by
            unfold DeviceProp.floor at small
            split at small
            · exact ⟨‹_›, small⟩
            · exact absurd small (Nat.not_lt_zero _)
          rw [if_pos small] at walked
          rw [if_pos turned]
          exact (ih next).1 more more' walked
        · have kept : ¬ (prop.prevItf = ifIx ∧ prop.prevEpSize > d.epDesc.wMaxPacketSize) := by
            rintro ⟨same, smaller⟩
            rw [DeviceProp.floor, if_pos same] at small
            exact small smaller
          rw [if_neg small] at walked
          rw [if_neg kept]
          by_cases inside : ifIx < usbhMaxNumInterfaces
          · rw [if_pos inside] at walked ⊢
            exact (ih (next.store ifIx pif epIx d.epDesc)).2 fuel ifIx pif (epIx + 1) more enough'' more' walked
          · rw [if_neg inside] at walked ⊢
            exact (Option.some.inj walked).symm
      · rw [if_neg endpoint] at walked ⊢
        have again : walk (seekEndpoint ifIx pif epIx) rest prop = some result := by
          rw [seekEndpoint, if_pos wanted]
          exact walked
        exact (ih next).2 fuel ifIx pif epIx more enough'' more' again
    · rw [seekEndpoint, if_neg wanted] at walked
      rw [parseEndpoints, if_neg wanted]
      exact outer more enough' walked

/-- A configuration as a device sends it: a header of 9 bytes that tells the whole length, and descriptors that tell
their own. `ptr` does not wrap, and the last descriptor is no longer than `ptr` is ahead of `pdesc`. -/
structure Chained (d : List Byte) (ds : List Descriptor) : Prop where
  split : ∃ head, head.length = usbLenCfgDesc ∧ d = head ++ bytesAll ds
  first : (d.getD 0 0).toNat = usbLenCfgDesc
  total : le16 (d.getD · 0) 2 = d.length
  bounded : d.length + 9 < 2 ^ 16
  last : ∀ e ∈ ds.getLast?, e.length ≤ 9

/-- What the header of a configuration leaves in the device's properties -/
def DeviceProp.headed (prop : DeviceProp) (d : List Byte) : DeviceProp :=
  { prop with
    cfgDesc.wTotalLength := d.length
    cfgDesc.bNumInterfaces := (d.getD 4 0).toNat
    cfgDesc.bConfigurationValue := (d.getD 5 0).toNat }

/-- `USBH_ParseCfgDesc()` reads a configuration as it walks over its descriptors, whatever follows it in the buffer. -/
theorem chained_parsed {bytes : List Byte} (chained : Chained bytes ds) (prop : DeviceProp) {length : Nat}
    (holds : Holds buf 0 bytes) (whole : usbConfigurationDescSize < length)
    {result : Except Halt (DeviceProp × UsbhStatus)}
    (walked : walk .interface ds (prop.headed bytes) = some result) : parseCfgDesc prop buf length =
      if (bytes.getD 4 0).toNat ≤ usbhMaxNumInterfaces then result else .ok (prop.headed bytes, .notSupported) := by
  obtain ⟨head, nine, split⟩ := chained.split
  have long : bytes.length = 9 + (bytesAll ds).length := by
    rw [split, List.length_append, nine]
    rfl
  have read (i : Nat) (inside : i < 9) : buf i = bytes.getD i 0 := by
    have here := holds i (by omega)
    rw [Nat.zero_add] at here
    rw [here]
    exact List.getElem_eq_getD 0
  have total : le16 buf 2 = bytes.length := by
    rw [← chained.total, le16, le16, read 2 (by omega), read 3 (by omega)]
  have first : (buf 0).toNat = 9 := by
    rw [read 0 (by omega)]
    exact chained.first
  have header : { prop with
      cfgDesc.wTotalLength := le16 buf 2
      cfgDesc.bNumInterfaces := (buf 4).toNat
      cfgDesc.bConfigurationValue := (buf 5).toNat } = prop.headed bytes := by
    rw [total, read 4 (by omega), read 5 (by omega)]
    rfl
  have stands : Stands buf (prop.headed bytes) ⟨0, usbLenCfgDesc⟩ ds := by
    refine ⟨?_, rfl, ?_, ?_, chained.bounded, ?_, chained.last⟩
    · rw [split] at holds
      have rest := (holds_append.mp holds).2
      rw [nine] at rest
      dsimp only
      rw [first]
      exact rest
    · dsimp only [DeviceProp.headed]
      rw [first, long]
    · rw [first]
      exact Nat.succ_pos 8
    · intro _
      exact Nat.le_of_eq first
  simp only [parseCfgDesc]
  rw [header, if_pos whole, read 4 (by omega)]
  split
  · exact (loops_walk stands).1 descLoops stands.loops walked
  · rfl

/-- A descriptor that the parser passes over -/
structure Other where
  descriptor : Descriptor
  other : descriptor.kind ≠ usbDescTypeInterface ∧ descriptor.kind ≠ usbDescTypeEndpoint

/-- An endpoint descriptor, and the descriptors between it and the one before -/
structure Endpoint where
  before : List Other
  bEndpointAddress : Byte
  bmAttributes : Byte
  wMaxPacketSize : BitVec 16
  bInterval : Byte

/-- An interface descriptor, its endpoints, and the descriptors after them -/
structure Interface where
  bInterfaceNumber : Byte
  bAlternateSetting : Byte
  bInterfaceClass : Byte
  bInterfaceSubClass : Byte
  bInterfaceProtocol : Byte
  iInterface : Byte
  endpoints : List Endpoint
  after : List Other
  few : endpoints.length < 256

def Endpoint.desc (e : Endpoint) : EpDesc := ⟨e.bEndpointAddress, e.wMaxPacketSize.toNat⟩

def Endpoint.descriptor (e : Endpoint) : Descriptor where
  kind := usbDescTypeEndpoint
  body := [e.bEndpointAddress, e.bmAttributes, e.wMaxPacketSize.setWidth 8, (e.wMaxPacketSize >>> 8).setWidth 8,
    e.bInterval]
  short := Nat.le_of_ble_eq_true rfl
  interface equal := absurd equal (by decide)
  endpoint _ := Nat.le_refl 5

def Endpoint.descriptors (e : Endpoint) : List Descriptor := e.before.map Other.descriptor ++ [e.descriptor]

namespace Interface

def desc (i : Interface) : InterfaceDesc := ⟨i.endpoints.length, i.bInterfaceClass, i.bInterfaceProtocol⟩

def number (i : Interface) : Nat := i.bInterfaceNumber.toNat

def epDescs (i : Interface) : List EpDesc := i.endpoints.map Endpoint.desc

def descriptor (i : Interface) : Descriptor where
  kind := usbDescTypeInterface
  body := [i.bInterfaceNumber, i.bAlternateSetting, BitVec.ofNat 8 i.endpoints.length, i.bInterfaceClass,
    i.bInterfaceSubClass, i.bInterfaceProtocol, i.iInterface]
  short := Nat.le_of_ble_eq_true rfl
  interface _ := Nat.le_refl 7
  endpoint equal := absurd equal (by decide)

def descriptors (i : Interface) : List Descriptor :=
  i.descriptor :: (i.endpoints.flatMap Endpoint.descriptors ++ i.after.map Other.descriptor)

end Interface

/-- What a configuration descriptor is sent with -/
structure Configuration where
  bNumInterfaces : Byte
  bConfigurationValue : Byte
  iConfiguration : Byte
  bmAttributes : Byte
  bMaxPower : Byte
  before : List Other
  interfaces : List Interface

namespace Configuration

def descriptors (c : Configuration) : List Descriptor :=
  c.before.map Other.descriptor ++ c.interfaces.flatMap Interface.descriptors

def wTotalLength (c : Configuration) : Nat := 9 + (bytesAll c.descriptors).length

def bytes (c : Configuration) : List Byte :=
  [9, 2, BitVec.ofNat 8 c.wTotalLength, BitVec.ofNat 8 (c.wTotalLength / 256), c.bNumInterfaces, c.bConfigurationValue,
    c.iConfiguration, c.bmAttributes, c.bMaxPower] ++ bytesAll c.descriptors

/-- `ptr` does not wrap, and the last descriptor is no longer than `ptr` is ahead of `pdesc`. -/
structure Proper (c : Configuration) : Prop where
  bounded : c.wTotalLength + 9 < 2 ^ 16
  last : ∀ d ∈ c.descriptors.getLast?, d.length ≤ 9

def header (c : Configuration) (prop : DeviceProp) : DeviceProp :=
  { prop with
    cfgDesc.wTotalLength := c.wTotalLength
    cfgDesc.bNumInterfaces := c.bNumInterfaces.toNat
    cfgDesc.bConfigurationValue := c.bConfigurationValue.toNat }

end Configuration

def ascending (floor : Nat) : List EpDesc → List EpDesc
  | [] => []
  | ep :: rest => if ep.wMaxPacketSize < floor then [] else ep :: ascending ep.wMaxPacketSize rest

def DeviceProp.storeEndpoints (prop : DeviceProp) (ifIx : Nat) (pif : InterfaceDesc) : Nat → List EpDesc → DeviceProp
  | _, [] => prop
  | epIx, ep :: rest => (prop.storeEndpoint ifIx pif epIx ep).storeEndpoints ifIx pif (epIx + 1) rest

def Interface.stored (i : Interface) (prop : DeviceProp) : List EpDesc := ascending (prop.floor i.number) i.epDescs

/-- What a configuration's interfaces make of the device's properties -/
def loadInterfaces : List Interface → DeviceProp → Except Halt (DeviceProp × UsbhStatus)
  | [], prop => .ok (prop.settled, .ok)
  | i :: rest, prop =>
    if i.bAlternateSetting < 3 then
      if i.endpoints.length ≤ usbhMaxNumEndpoints then
        if i.number < usbhMaxNumInterfaces ∨ i.stored prop = [] then
          loadInterfaces rest (prop.storeEndpoints i.number i.desc 0 (i.stored prop))
        else .error .outOfArray
      else .ok (prop, .notSupported)
    else loadInterfaces rest prop

theorem Endpoint.read (e : Endpoint) : e.descriptor.epDesc = e.desc := by
  have size : (e.wMaxPacketSize.setWidth 8).toNat + 256 * ((e.wMaxPacketSize >>> 8).setWidth 8).toNat =
      e.wMaxPacketSize.toNat := by
    have bound := e.wMaxPacketSize.isLt
    simp only [BitVec.toNat_setWidth, BitVec.toNat_ushiftRight, Nat.shiftRight_eq_div_pow]
    omega
  have read : e.descriptor.epDesc = ⟨e.bEndpointAddress, (e.wMaxPacketSize.setWidth 8).toNat +
      256 * ((e.wMaxPacketSize >>> 8).setWidth 8).toNat⟩ := rfl
  rw [read, size]
  rfl

theorem Interface.read (i : Interface) : i.descriptor.interfaceDesc = i.desc := by
  have count : (BitVec.ofNat 8 i.endpoints.length).toNat = i.endpoints.length := Nat.mod_eq_of_lt i.few
  have read : i.descriptor.interfaceDesc = ⟨(BitVec.ofNat 8 i.endpoints.length).toNat, i.bInterfaceClass,
      i.bInterfaceProtocol⟩ := rfl
  rw [read, count]
  rfl

theorem others_skipped (others : List Other) (after : List Descriptor) (prop : DeviceProp) :
    walk .interface (others.map Other.descriptor ++ after) prop = walk .interface after prop := by
  apply walk_skips
  intro d member
  obtain ⟨other, _, rfl⟩ := List.mem_map.mp member
  exact other.other.1

theorem endpoints_skipped (es : List Endpoint) (after : List Descriptor) (prop : DeviceProp) :
    walk .interface (es.flatMap Endpoint.descriptors ++ after) prop = walk .interface after prop := by
  apply walk_skips
  intro d member
  obtain ⟨e, _, listed⟩ := List.mem_flatMap.mp member
  rcases List.mem_append.mp listed with passed | own
  · obtain ⟨other, _, rfl⟩ := List.mem_map.mp passed
    exact other.other.1
  · have kind : e.descriptor.kind = usbDescTypeEndpoint := rfl
    rw [List.mem_singleton.mp own, kind]
    decide

theorem others_sought (others : List Other) (ifIx : Nat) (pif : InterfaceDesc) (epIx : Nat) (after : List Descriptor)
    (prop : DeviceProp) : walk (.endpoint ifIx pif epIx) (others.map Other.descriptor ++ after) prop =
      walk (.endpoint ifIx pif epIx) after prop := by
  induction others with
  | nil => rfl
  | cons other rest ih =>
    rw [List.map_cons, List.cons_append, walk, if_neg other.other.2]
    exact ih

/-- The endpoints of an interface, from the given one on -/
theorem endpoints_walk {es : List Endpoint} {ifIx : Nat} {pif : InterfaceDesc} {epIx : Nat}
    (all : epIx + es.length = pif.bNumEndpoints) (after : List Descriptor) (prop : DeviceProp) :
    walk (seekEndpoint ifIx pif epIx) (es.flatMap Endpoint.descriptors ++ after) prop =
      if ifIx < usbhMaxNumInterfaces ∨ ascending (prop.floor ifIx) (es.map Endpoint.desc) = [] then
        walk .interface after (prop.storeEndpoints ifIx pif epIx (ascending (prop.floor ifIx) (es.map Endpoint.desc)))
      else some (.error .outOfArray) := by
  induction es generalizing epIx prop with
  | nil =>
    have ended : ¬ epIx < pif.bNumEndpoints := by
      rw [← all]
      exact Nat.lt_irrefl _
    rw [seekEndpoint, if_neg ended, if_pos (.inr rfl)]
    rfl
  | cons e es ih =>
    have wanted : epIx < pif.bNumEndpoints := by
      rw [← all, List.length_cons]
      omega
    have kind : e.descriptor.kind = usbDescTypeEndpoint := rfl
    rw [seekEndpoint, if_pos wanted, List.flatMap_cons, Endpoint.descriptors, List.append_assoc, List.append_assoc,
      others_sought, List.singleton_append, walk, if_pos kind, Endpoint.read, List.map_cons, ascending]
    by_cases small : e.desc.wMaxPacketSize < prop.floor ifIx
    · rw [if_pos small, if_pos small, if_pos (.inr rfl), endpoints_skipped]
      rfl
    · rw [if_neg small, if_neg small]
      by_cases inside : ifIx < usbhMaxNumInterfaces
      · have floor : (prop.storeEndpoint ifIx pif epIx e.desc).floor ifIx = e.desc.wMaxPacketSize := if_pos rfl
        rw [if_pos inside, if_pos (.inl inside), ih (by rw [← all, List.length_cons]; omega), if_pos (.inl inside), floor]
        rfl
      · rw [if_neg inside, if_neg (by simp [inside])]

theorem interfaces_walk (is : List Interface) (prop : DeviceProp) :
    walk .interface (is.flatMap Interface.descriptors) prop = some (loadInterfaces is prop) := by
  induction is generalizing prop with
  | nil => rfl
  | cons i is ih =>
    have kind : i.descriptor.kind = usbDescTypeInterface := rfl
    have alternate : i.descriptor.buffer 3 = i.bAlternateSetting := rfl
    have number : (i.descriptor.buffer 2).toNat = i.number := rfl
    have count : i.desc.bNumEndpoints = i.endpoints.length := rfl
    have passed (prop : DeviceProp) : walk .interface (i.after.map Other.descriptor ++ is.flatMap Interface.descriptors)
        prop = some (loadInterfaces is prop) := by
      rw [others_skipped]
      exact ih prop
    rw [List.flatMap_cons, Interface.descriptors, List.cons_append, List.append_assoc, walk, alternate, number,
      Interface.read, count, loadInterfaces]
    by_cases current : i.bAlternateSetting < 3
    · rw [if_pos ⟨kind, current⟩, if_pos current]
      by_cases few : i.endpoints.length ≤ usbhMaxNumEndpoints
      · rw [if_pos few, if_pos few, endpoints_walk (by rw [count, Nat.zero_add])]
        change (if i.number < usbhMaxNumInterfaces ∨ i.stored prop = [] then _ else _) = _
        by_cases inside : i.number < usbhMaxNumInterfaces ∨ i.stored prop = []
        · rw [if_pos inside, if_pos inside]
          exact passed _
        · rw [if_neg inside, if_neg inside]
      · rw [if_neg few, if_neg few]
    · rw [if_neg (fun both => current both.2), if_neg current, endpoints_skipped]
      exact passed prop

theorem configuration_chained (c : Configuration) (proper : c.Proper) : Chained c.bytes c.descriptors where
  split := ⟨_, rfl, rfl⟩
  first := rfl
  total := by
    have bounded := proper.bounded
    have length : c.bytes.length = c.wTotalLength := by
      rw [Configuration.bytes, List.length_append]
      rfl
    rw [length]
    change (BitVec.ofNat 8 c.wTotalLength).toNat + 256 * (BitVec.ofNat 8 (c.wTotalLength / 256)).toNat = _
    simp only [BitVec.toNat_ofNat]
    omega
  bounded := by
    rw [Configuration.bytes, List.length_append]
    exact proper.bounded
  last := proper.last

theorem configuration_walk (c : Configuration) (prop : DeviceProp) :
    walk .interface c.descriptors prop = some (loadInterfaces c.interfaces prop) := by
  rw [Configuration.descriptors, others_skipped]
  exact interfaces_walk c.interfaces prop

theorem configuration_headed (c : Configuration) (prop : DeviceProp) : prop.headed c.bytes = c.header prop := by
  rw [DeviceProp.headed, Configuration.bytes, List.length_append]
  rfl

/-- A configuration descriptor is read as its interfaces are loaded one after the other, whatever follows it in the
buffer and whatever an earlier call left in the statics. -/
theorem configuration_parsed (c : Configuration) (proper : c.Proper) (prop : DeviceProp) (buf : Buffer) (length : Nat)
    (holds : Holds buf 0 c.bytes) (whole : usbConfigurationDescSize < length) :
    parseCfgDesc prop buf length =
      if c.bNumInterfaces.toNat ≤ usbhMaxNumInterfaces then loadInterfaces c.interfaces (c.header prop)
      else .ok (c.header prop, .notSupported) := by
  rw [← configuration_headed]
  exact chained_parsed (configuration_chained c proper) prop holds whole (configuration_walk c _)

def sizes (eps : List EpDesc) : List Nat := eps.map EpDesc.wMaxPacketSize

theorem ascending_getElem? (floor : Nat) (eps : List EpDesc) (j : Nat) :
    (ascending floor eps)[j]? = if (floor :: (sizes eps).take (j + 1)).Pairwise (· ≤ ·) then eps[j]? else none := by
  induction eps generalizing floor j with
  | nil => simp [ascending]
  | cons ep rest ih =>
    have sizes_cons : sizes (ep :: rest) = ep.wMaxPacketSize :: sizes rest := rfl
    rw [ascending, sizes_cons, List.take_succ_cons]
    by_cases small : ep.wMaxPacketSize < floor
    · have broken : ¬ (floor :: ep.wMaxPacketSize :: (sizes rest).take j).Pairwise (· ≤ ·) := by
        intro sorted
        have first := (List.pairwise_cons.mp sorted).1 ep.wMaxPacketSize List.mem_cons_self
        omega
      rw [if_pos small, if_neg broken]
      rfl
    · have le : floor ≤ ep.wMaxPacketSize := Nat.le_of_not_lt small
      have above : (floor :: ep.wMaxPacketSize :: (sizes rest).take j).Pairwise (· ≤ ·) ↔
          (ep.wMaxPacketSize :: (sizes rest).take j).Pairwise (· ≤ ·) := by
        rw [List.pairwise_cons]
        refine and_iff_right_of_imp fun sorted size member => ?_
        rcases List.mem_cons.mp member with rfl | later
        · exact le
        · exact Nat.le_trans le ((List.pairwise_cons.mp sorted).1 size later)
      rw [if_neg small, if_congr above rfl rfl]
      cases j with
      | zero => simp
      | succ j => simpa using ih ep.wMaxPacketSize j

theorem storeEndpoints_epDesc (prop : DeviceProp) (ifIx : Nat) (pif : InterfaceDesc) (epIx : Nat) (eps : List EpDesc)
    (n j : Nat) : (prop.storeEndpoints ifIx pif epIx eps).epDesc n j =
      if n = ifIx ∧ epIx ≤ j then eps[j - epIx]?.getD (prop.epDesc n j) else prop.epDesc n j := by
  induction eps generalizing prop epIx with
  | nil => simp [DeviceProp.storeEndpoints]
  | cons ep rest ih =>
    rw [DeviceProp.storeEndpoints, ih]
    by_cases same : n = ifIx
    · subst same
      rcases Nat.lt_trichotomy j epIx with early | rfl | later
      · rw [if_neg (by omega), if_neg (by omega)]
        simp [DeviceProp.storeEndpoint, Nat.ne_of_lt early]
      · rw [if_neg (by omega), if_pos (by omega)]
        simp [DeviceProp.storeEndpoint]
      · rw [if_pos (by omega), if_pos (by omega), show j - epIx = (j - (epIx + 1)) + 1 by omega, List.getElem?_cons_succ]
        simp [DeviceProp.storeEndpoint, Nat.ne_of_gt later]
    · rw [if_neg (by simp [same]), if_neg (by simp [same])]
      simp [DeviceProp.storeEndpoint, same]

theorem storeEndpoints_itfDesc (prop : DeviceProp) (ifIx : Nat) (pif : InterfaceDesc) (epIx : Nat) (eps : List EpDesc)
    (n : Nat) : (prop.storeEndpoints ifIx pif epIx eps).itfDesc n =
      if n = ifIx ∧ eps ≠ [] then pif else prop.itfDesc n := by
  induction eps generalizing prop epIx with
  | nil => simp [DeviceProp.storeEndpoints]
  | cons ep rest ih =>
    rw [DeviceProp.storeEndpoints, ih]
    by_cases same : n = ifIx
    · subst same
      simp [DeviceProp.storeEndpoint]
    · simp [DeviceProp.storeEndpoint, same]

theorem storeEndpoints_cfgDesc (prop : DeviceProp) (ifIx : Nat) (pif : InterfaceDesc) (epIx : Nat) (eps : List EpDesc) :
    (prop.storeEndpoints ifIx pif epIx eps).cfgDesc = prop.cfgDesc := by
  induction eps generalizing prop epIx with
  | nil => rfl
  | cons ep rest ih =>
    rw [DeviceProp.storeEndpoints, ih]
    rfl

theorem storeEndpoints_floor {prop : DeviceProp} {ifIx n : Nat} (other : n ≠ ifIx) (settled : prop.floor n = 0)
    (pif : InterfaceDesc) (epIx : Nat) (eps : List EpDesc) : (prop.storeEndpoints ifIx pif epIx eps).floor n = 0 := by
  induction eps generalizing prop epIx with
  | nil => exact settled
  | cons ep rest ih =>
    apply ih
    have moved : ifIx ≠ n := Ne.symm other
    simp [DeviceProp.floor, DeviceProp.storeEndpoint, moved]

/-- What the device's properties hold of an interface that has been loaded -/
structure Recovers (before : DeviceProp) (i : Interface) (after : DeviceProp) : Prop where
  interface : i.endpoints ≠ [] → after.itfDesc i.number = i.desc
  endpoints : ∀ j ep, i.epDescs[j]? = some ep → after.epDesc i.number j =
    if ((sizes i.epDescs).take (j + 1)).Pairwise (· ≤ ·) then ep else before.epDesc i.number j

/-- An interface that the parser can store: of a current setting, with a number and a number of endpoints in its arrays -/
structure Storable (i : Interface) : Prop where
  current : i.bAlternateSetting < 3
  number : i.number < usbhMaxNumInterfaces
  few : i.endpoints.length ≤ usbhMaxNumEndpoints

theorem stored_recovers {i : Interface} {prop : DeviceProp} (settled : prop.floor i.number = 0) :
    Recovers prop i (prop.storeEndpoints i.number i.desc 0 (i.stored prop)) where
  interface some := by
    obtain ⟨e, es, equal⟩ := List.exists_cons_of_ne_nil some
    have kept : i.stored prop ≠ [] := by
      rw [Interface.stored, settled, Interface.epDescs, equal, List.map_cons, ascending,
        if_neg (Nat.not_lt_zero _)]
      exact List.cons_ne_nil _ _
    rw [storeEndpoints_itfDesc, if_pos ⟨rfl, kept⟩]
  endpoints j ep found := by
    have above : (0 :: (sizes i.epDescs).take (j + 1)).Pairwise (· ≤ ·) ↔
        ((sizes i.epDescs).take (j + 1)).Pairwise (· ≤ ·) := by
      rw [List.pairwise_cons]
      exact and_iff_right fun size _ => Nat.zero_le size
    rw [storeEndpoints_epDesc, if_pos ⟨rfl, Nat.zero_le j⟩, Interface.stored, settled, Nat.sub_zero,
      ascending_getElem?, if_congr above rfl rfl, found]
    split <;> rfl

theorem loadInterfaces_recovers {is : List Interface} {prop : DeviceProp} (storable : ∀ i ∈ is, Storable i)
    (distinct : (is.map Interface.number).Nodup) (settled : ∀ i ∈ is, prop.floor i.number = 0) :
    ∃ after, loadInterfaces is prop = .ok (after, .ok) ∧ after = after.settled ∧ after.cfgDesc = prop.cfgDesc ∧
      (∀ i ∈ is, Recovers prop i after) ∧
      ∀ n, (∀ i ∈ is, i.number ≠ n) → after.itfDesc n = prop.itfDesc n ∧ after.epDesc n = prop.epDesc n := by
  induction is generalizing prop with
  | nil => exact ⟨prop.settled, rfl, rfl, rfl, fun _ member => absurd member List.not_mem_nil, fun _ _ => ⟨rfl, rfl⟩⟩
  | cons i is ih =>
    rw [List.forall_mem_cons] at storable settled
    rw [List.map_cons, List.nodup_cons] at distinct
    have others : ∀ k ∈ is, k.number ≠ i.number := by
      intro k member same
      exact distinct.1 (List.mem_map.mpr ⟨k, member, same⟩)
    have floors : ∀ k ∈ is, (prop.storeEndpoints i.number i.desc 0 (i.stored prop)).floor k.number = 0 :=
      fun k member => storeEndpoints_floor (others k member) (settled.2 k member) _ _ _
    obtain ⟨after, loaded, ends, cfgDesc, recovers, same⟩ := ih storable.2 distinct.2 floors
    have untouched (n : Nat) (other : n ≠ i.number) :
        (prop.storeEndpoints i.number i.desc 0 (i.stored prop)).itfDesc n = prop.itfDesc n ∧
        (prop.storeEndpoints i.number i.desc 0 (i.stored prop)).epDesc n = prop.epDesc n := by
      constructor
      · rw [storeEndpoints_itfDesc, if_neg fun both => other both.1]
      · funext j
        rw [storeEndpoints_epDesc, if_neg fun both => other both.1]
    have here := stored_recovers settled.1
    obtain ⟨itf, eps⟩ := same i.number fun k member => others k member
    refine ⟨after, ?_, ends, ?_, ?_, ?_⟩
    · rw [loadInterfaces, if_pos storable.1.current, if_pos storable.1.few, if_pos (.inl storable.1.number)]
      exact loaded
    · rw [cfgDesc]
      exact storeEndpoints_cfgDesc ..
    · rw [List.forall_mem_cons]
      refine ⟨⟨fun some => ?_, fun j ep found => ?_⟩, fun k member => ⟨(recovers k member).interface, fun j ep found => ?_⟩⟩
      · rw [itf]
        exact here.interface some
      · rw [eps]
        exact here.endpoints j ep found
      · rw [(recovers k member).endpoints j ep found, (untouched k.number (others k member)).2]
    · intro n none
      rw [List.forall_mem_cons] at none
      obtain ⟨itf', eps'⟩ := same n none.2
      obtain ⟨itf'', eps''⟩ := untouched n (Ne.symm none.1)
      exact ⟨itf'.trans itf'', eps'.trans eps''⟩

/-- Of every interface with a number of its own, the parser recovers the descriptor and the endpoints up to the first
that is smaller than the one before it. Nothing else changes, and the next call finds the statics as this one did. -/
theorem configuration_recovered (c : Configuration) (proper : c.Proper)
    (narrow : c.bNumInterfaces.toNat ≤ usbhMaxNumInterfaces) (storable : ∀ i ∈ c.interfaces, Storable i)
    (distinct : (c.interfaces.map Interface.number).Nodup) (prop : DeviceProp) (fresh : prop.prevEpSize = 0)
    (buf : Buffer) (length : Nat) (holds : Holds buf 0 c.bytes) (whole : usbConfigurationDescSize < length) :
    ∃ after, parseCfgDesc prop buf length = .ok (after, .ok) ∧ after.prevEpSize = 0 ∧ after.prevItf = 0 ∧
      after.cfgDesc = ⟨c.wTotalLength, c.bNumInterfaces.toNat, c.bConfigurationValue.toNat⟩ ∧
      (∀ i ∈ c.interfaces, Recovers prop i after) ∧
      ∀ n, (∀ i ∈ c.interfaces, i.number ≠ n) → after.itfDesc n = prop.itfDesc n ∧ after.epDesc n = prop.epDesc n := by
  have settled : ∀ i ∈ c.interfaces, (c.header prop).floor i.number = 0 := by
    intro i _
    unfold DeviceProp.floor
    split
    · exact fresh
    · rfl
  obtain ⟨after, loaded, ends, cfgDesc, recovers, same⟩ := loadInterfaces_recovers storable distinct settled
  refine ⟨after, ?_, congrArg DeviceProp.prevEpSize ends, congrArg DeviceProp.prevItf ends, cfgDesc, ?_, same⟩
  · rw [configuration_parsed c proper prop buf length holds whole, if_pos narrow]
    exact loaded
  · exact fun i member => ⟨(recovers i member).interface, (recovers i member).endpoints⟩

def cdcControl : Interface where
  bInterfaceNumber := 0
  bAlternateSetting := 0
  bInterfaceClass := 2
  bInterfaceSubClass := 2
  bInterfaceProtocol := 1
  iInterface := 0
  endpoints := [
    { before := [{
        descriptor := {
          kind := 0x24, body := [0, 0x10, 1], short := by decide, interface := by decide, endpoint := by decide }
        other := by decide }]
      bEndpointAddress := 0x82, bmAttributes := 3, wMaxPacketSize := 8, bInterval := 16 }]
  after := []
  few := by decide

def cdcData : Interface where
  bInterfaceNumber := 1
  bAlternateSetting := 0
  bInterfaceClass := 10
  bInterfaceSubClass := 0
  bInterfaceProtocol := 0
  iInterface := 0
  endpoints := [
    { before := [], bEndpointAddress := 0x01, bmAttributes := 2, wMaxPacketSize := 64, bInterval := 0 },
    { before := [], bEndpointAddress := 0x81, bmAttributes := 2, wMaxPacketSize := 64, bInterval := 0 }]
  after := []
  few := by decide

/-- The configuration of a CDC device, with a functional descriptor among its endpoints -/
def cdcConfiguration : Configuration where
  bNumInterfaces := 2
  bConfigurationValue := 1
  iConfiguration := 0
  bmAttributes := 0x80
  bMaxPower := 50
  before := []
  interfaces := [cdcControl, cdcData]

def zeroedProp : DeviceProp :=
  ⟨0, 0, ⟨0, 0, 0, 0⟩, ⟨0, 0, 0⟩, fun _ => ⟨0, 0, 0⟩, fun _ _ => ⟨0, 0⟩, 0, 0⟩

theorem holds_self (bytes : List Byte) : Holds (fun i => bytes.getD i 0) 0 bytes := by
  intro i inside
  rw [Nat.zero_add]
  exact (List.getElem_eq_getD 0).symm

theorem configuration_recovered_cdc : ∃ after,
    parseCfgDesc zeroedProp (fun i => cdcConfiguration.bytes.getD i 0) cdcConfiguration.wTotalLength =
      .ok (after, .ok) ∧
    after.itfDesc 0 = ⟨1, 2, 1⟩ ∧ after.epDesc 1 0 = ⟨0x01, 64⟩ ∧ after.epDesc 1 1 = ⟨0x81, 64⟩ := by
  have storable : ∀ i ∈ cdcConfiguration.interfaces, Storable i := by
    change ∀ i ∈ [cdcControl, cdcData], Storable i
    rw [List.forall_mem_cons, List.forall_mem_singleton]
    exact ⟨⟨by decide, by decide, by decide⟩, ⟨by decide, by decide, by decide⟩⟩
  obtain ⟨after, parsed, _, _, _, recovers, _⟩ := configuration_recovered cdcConfiguration ⟨by decide, by decide⟩
    (by decide) storable (by decide) zeroedProp rfl _ cdcConfiguration.wTotalLength (holds_self _) (by decide)
  have control := recovers cdcControl List.mem_cons_self
  have data := recovers cdcData (List.mem_cons_of_mem _ List.mem_cons_self)
  refine ⟨after, parsed, control.interface (List.cons_ne_nil _ _), ?_, ?_⟩
  · exact (data.endpoints 0 _ rfl).trans (if_pos (by decide))
  · exact (data.endpoints 1 _ rfl).trans (if_pos (by decide))

def usbDescTypeString : Byte := 3

/-- The loop of `USBH_ParseStringDesc()`, with `psrc` and `pdest` as offsets -/
def copyUnits (src : Buffer) : Nat → Nat → Nat → Buffer → Nat × Buffer
  | 0, _, pdest, dest => (pdest, dest)
  | length + 1, psrc, pdest, dest =>
    copyUnits src length (psrc + 2) (pdest + 1) (Function.update dest pdest (src (psrc + 2)))

/-- `min_t(uint16_t, psrc[0]/2 - 1, length - 1)` -/
def unitCount (bLength length : Nat) : Nat := min ((bLength / 2 + 0xffff) % 2 ^ 16) ((length + 0xffff) % 2 ^ 16)

def parseStringDesc (src dest : Buffer) (length : Nat) : Buffer :=
  let copied := if src 1 = usbDescTypeString then copyUnits src (unitCount (src 0).toNat length) 0 0 dest else (0, dest)
  Function.update copied.2 copied.1 0

theorem copyUnits_eq (src : Buffer) (n psrc pdest : Nat) (dest : Buffer) : copyUnits src n psrc pdest dest =
    (pdest + n, fun i => if pdest ≤ i ∧ i < pdest + n then src (psrc + 2 * (i - pdest + 1)) else dest i) := by
  induction n generalizing psrc pdest dest with
  | zero =>
    rw [copyUnits]
    refine Prod.ext rfl (funext fun i => ?_)
    dsimp only
    rw [if_neg (by omega)]
  | succ n ih =>
    rw [copyUnits, ih]
    refine Prod.ext (by dsimp only; omega) (funext fun i => ?_)
    dsimp only
    rcases Nat.lt_trichotomy i pdest with early | rfl | later
    · rw [if_neg (by omega), if_neg (by omega), Function.update_of_ne (by omega)]
    · rw [if_neg (by omega), if_pos (by omega), Function.update_self]
      congr 1
      omega
    · by_cases within : i < pdest + (n + 1)
      · rw [if_pos (by omega), if_pos (by omega)]
        congr 1
        omega
      · rw [if_neg (by omega), if_neg (by omega), Function.update_of_ne (by omega)]

def unitBytes (unit : BitVec 16) : List Byte := [unit.setWidth 8, (unit >>> 8).setWidth 8]

def stringDescriptor (units : List (BitVec 16)) : List Byte :=
  BitVec.ofNat 8 (2 * units.length + 2) :: usbDescTypeString :: units.flatMap unitBytes

theorem holds_unit {src : Buffer} {units : List (BitVec 16)} {pos i : Nat} {unit : BitVec 16}
    (holds : Holds src pos (units.flatMap unitBytes))
    (found : units[i]? = some unit) : src (pos + 2 * i) = unit.setWidth 8 := by
  induction units generalizing pos i with
  | nil => cases found
  | cons first rest ih =>
    rw [List.flatMap_cons] at holds
    obtain ⟨here, later⟩ := holds_append.mp holds
    cases i with
    | zero =>
      cases found
      exact here 0 Nat.zero_lt_two
    | succ i =>
      have read := ih later found
      rwa [show (unitBytes first).length = 2 from rfl, Nat.add_assoc, show 2 + 2 * i = 2 * (i + 1) by omega] at read

/-- Whatever the device sends, the buffer for a string gets one that ends within it, and nothing is written beyond the
end. Of a string descriptor it gets the low bytes of the units that fit. -/
theorem string_parsed (src dest : Buffer) (length : Nat) (some : 0 < length) (short : length < 2 ^ 16) :
    (∃ n < length, parseStringDesc src dest length n = 0 ∧
      (∀ i < n, parseStringDesc src dest length i = src (2 * (i + 1))) ∧
      ∀ i, n < i → parseStringDesc src dest length i = dest i) ∧
    ∀ units, units.length < 127 → Holds src 0 (stringDescriptor units) →
      (∀ i unit, i < length - 1 → units[i]? = .some unit → parseStringDesc src dest length i = unit.setWidth 8) ∧
      parseStringDesc src dest length (min units.length (length - 1)) = 0 := by
  have room : (length + 0xffff) % 2 ^ 16 = length - 1 := by omega
  have parsed (n : Nat) (string : src 1 = usbDescTypeString) (count : unitCount (src 0).toNat length = n) :
      parseStringDesc src dest length =
        Function.update (fun i => if i < n then src (2 * (i + 1)) else dest i) n 0 := by
    simp only [parseStringDesc, if_pos string, count, copyUnits_eq, Nat.zero_add, Nat.zero_le, true_and, Nat.sub_zero]
  constructor
  · by_cases string : src 1 = usbDescTypeString
    · refine ⟨unitCount (src 0).toNat length, ?_, ?_⟩
      · have bounded : unitCount (src 0).toNat length ≤ length - 1 := by
          rw [unitCount, room]
          exact Nat.min_le_right _ _
        omega
      · rw [parsed _ string rfl]
        refine ⟨Function.update_self .., fun i before => ?_, fun i after => ?_⟩
        · rw [Function.update_of_ne (Nat.ne_of_lt before), if_pos before]
        · rw [Function.update_of_ne (Nat.ne_of_gt after), if_neg (Nat.not_lt_of_gt after)]
    · refine ⟨0, some, ?_⟩
      simp only [parseStringDesc, if_neg string]
      refine ⟨Function.update_self .., fun i before => absurd before (Nat.not_lt_zero i), fun i after => ?_⟩
      rw [Function.update_of_ne (Nat.ne_of_gt after)]
  · intro units few holds
    have string : src 1 = usbDescTypeString := holds 1 (by simp [stringDescriptor])
    have bLength : (src 0).toNat = 2 * units.length + 2 := by
      have first := holds 0 (by simp [stringDescriptor])
      rw [Nat.zero_add] at first
      rw [first]
      exact Nat.mod_eq_of_lt (by omega)
    have count : unitCount (src 0).toNat length = min units.length (length - 1) := by
      rw [unitCount, room, bLength, show ((2 * units.length + 2) / 2 + 0xffff) % 2 ^ 16 = units.length by omega]
    have split : stringDescriptor units = [BitVec.ofNat 8 (2 * units.length + 2), usbDescTypeString] ++
        units.flatMap unitBytes := rfl
    rw [split] at holds
    rw [parsed _ string count]
    refine ⟨fun i unit fits found => ?_, Function.update_self ..⟩
    have inside : i < units.length := (List.getElem?_eq_some_iff.mp found).1
    rw [Function.update_of_ne (by omega), if_pos (by omega)]
    have read := holds_unit (holds_append.mp holds).2 found
    rwa [Nat.zero_add, List.length_cons, List.length_singleton, show 1 + 1 + 2 * i = 2 * (i + 1) by omega] at read

theorem string_parsed_gw :
    parseStringDesc (fun i => (stringDescriptor [0x47, 0x57]).getD i 0) (fun _ => 0) 64 1 = 0x57 := by
  have parsed := string_parsed (fun i => (stringDescriptor [0x47, 0x57]).getD i 0) (fun _ => 0) 64 (by decide) (by decide)
  exact (parsed.2 [0x47, 0x57] (by decide) (holds_self _)).1 1 0x57 (by decide) rfl

end Testjig.Usb
