import Testjig.Machine.Crc
import Testjig.Machine.Pack
import Testjig.Sequence.Protocol

namespace Testjig.Dfu

open Machine.Crc Machine.Pack Testjig.Sequence

/-- A segment of an image, `{'address': …, 'data': …}` -/
structure Image where
  address : Nat
  data : List Byte
deriving DecidableEq

/-- `zlib.crc32()`: each byte goes in least significant bit first, and the register comes out reversed. -/
def crc32 (data : List Byte) : BitVec 32 :=
  ~~~(serial 0x04c11db7 0xffffffff (data.flatMap fun byte => (bitsOf byte).reverse)).reverse

example : crc32 ([0x31, 0x32, 0x33, 0x34, 0x35, 0x36, 0x37, 0x38, 0x39] : List Byte) = 0xcbf43926 := by decide +kernel

/-- `0xFFFFFFFF & -zlib.crc32(data) -1`, where the mask binds least -/
def computeCrc (data : List Byte) : Nat := ((-(crc32 data).toNat - 1 : Int) % 2^32).toNat

/-- `x & 0xFFFF` -/
def mask16 (x : Int) : Nat := (x % 2^16).toNat

/-- `s.split(sep,1)` -/
def splitOnce (sep : Char) (s : List Char) : List (List Char) :=
  match s.dropWhile (· ≠ sep) with
  | [] => [s]
  | _ :: rest => [s.takeWhile (· ≠ sep), rest]

/-- The vendor and product numbers of a device string, given `int(x,0)` -/
def deviceIds (int0 : List Char → Option Int) (device : List Char) : Option (Nat × Nat) :=
  match splitOnce ':' device with
  | [v, d] =>
    match int0 v, int0 d with
    | some v, some d => some (mask16 v, mask16 d)
    | _, _ => none
  | _ => none

/-- `b'Target'` -/
def targetSignature : List Byte := [0x54, 0x61, 0x72, 0x67, 0x65, 0x74]

/-- `b'ST...'` -/
def targetName : List Byte := [0x53, 0x54, 0x2e, 0x2e, 0x2e]

/-- `b'DfuSe'` -/
def prefixSignature : List Byte := [0x44, 0x66, 0x75, 0x53, 0x65]

/-- `b'UFD'` -/
def suffixSignature : List Byte := [0x55, 0x46, 0x44]

def packImages (target : List Image) : Option (List Byte) :=
  target.foldlM (fun tdata image =>
    match pack [.uint 4 image.address, .uint 4 image.data.length] with
    | none => none
    | some head => some (tdata ++ (head ++ image.data))) []

def packTargets (targets : List (List Image)) : Option (List Byte) :=
  targets.foldlM (fun data target =>
    match packImages target with
    | none => none
    | some tdata =>
      match pack [.text 6 targetSignature, .uint 1 0, .uint 4 1, .text 255 targetName, .uint 4 tdata.length,
          .uint 4 target.length] with
      | none => none
      | some head => some (data ++ (head ++ tdata))) []

/-- `build()`: the bytes it writes to the file -/
def build (int0 : List Char → Option Int) (targets : List (List Image)) (device : List Char) :
    Option (List Byte) :=
  match packTargets targets with
  | none => none
  | some data =>
    match pack [.text 5 prefixSignature, .uint 1 1, .uint 4 (data.length + 11), .uint 1 targets.length] with
    | none => none
    | some head =>
      match deviceIds int0 device with
      | none => none
      | some (v, d) =>
        match pack [.uint 2 0, .uint 2 d, .uint 2 v, .uint 2 0x011a, .text 3 suffixSignature, .uint 1 16] with
        | none => none
        | some tail =>
          let data := head ++ data ++ tail
          match pack [.uint 4 (computeCrc data)] with
          | none => none
          | some crc => some (data ++ crc)

structure Contents where
  size : Nat
  targets : List (List Image)
  product : Nat
  vendor : Nat
  crc : Nat
deriving DecidableEq

def readImage : Reader Image := fun bytes => do
  let (address, bytes) ← takeUint 4 bytes
  let (size, bytes) ← takeUint 4 bytes
  let (data, bytes) ← takeBytes size bytes
  return (⟨address, data⟩, bytes)

/-- A target prefix of 274 bytes and its elements, which must fill the size it names -/
def readTarget : Reader (List Image) := fun bytes => do
  let (signature, bytes) ← takeBytes 6 bytes
  let (_, bytes) ← takeBytes 260 bytes
  let (size, bytes) ← takeUint 4 bytes
  let (count, bytes) ← takeUint 4 bytes
  let (tdata, bytes) ← takeBytes size bytes
  let (images, left) ← takeMany readImage count tdata
  if signature = targetSignature ∧ left = [] then some (images, bytes) else none

/-- The prefix of 11 bytes: the size it names and the number of targets -/
def readPrefix : Reader (Nat × Nat) := fun bytes => do
  let (signature, bytes) ← takeBytes 5 bytes
  let (version, bytes) ← takeUint 1 bytes
  let (size, bytes) ← takeUint 4 bytes
  let (count, bytes) ← takeUint 1 bytes
  if signature = prefixSignature ∧ version = 1 then some ((size, count), bytes) else none

/-- The device identification in the suffix: product and vendor -/
def readDevice : Reader (Nat × Nat) := fun bytes => do
  let (_, bytes) ← takeUint 2 bytes
  let (product, bytes) ← takeUint 2 bytes
  let (vendor, bytes) ← takeUint 2 bytes
  return ((product, vendor), bytes)

/-- The suffix of 16 bytes: product, vendor and CRC -/
def readSuffix : Reader (Nat × Nat × Nat) := fun bytes => do
  let ((product, vendor), bytes) ← readDevice bytes
  let (_, bytes) ← takeUint 2 bytes
  let (signature, bytes) ← takeBytes 3 bytes
  let (length, bytes) ← takeUint 1 bytes
  let (crc, bytes) ← takeUint 4 bytes
  if signature = suffixSignature ∧ length = 16 then some ((product, vendor, crc), bytes) else none

/-- The targets must fill the size that the prefix names, and nothing may follow the suffix. -/
def readDfu (file : List Byte) : Option Contents := do
  let ((size, count), bytes) ← readPrefix file
  let (data, bytes) ← takeBytes (size - 11) bytes
  let (targets, left) ← takeMany readTarget count data
  let ((product, vendor, crc), bytes) ← readSuffix bytes
  if left = [] ∧ bytes = [] then some ⟨size, targets, product, vendor, crc⟩ else none

end Testjig.Dfu
