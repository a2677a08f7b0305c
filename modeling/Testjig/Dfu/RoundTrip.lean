import Testjig.Dfu.Convert

namespace Testjig.Dfu

open Machine.Pack Testjig.Sequence

def imageBytes (image : Image) : List Byte := uint 4 image.address ++ (uint 4 image.data.length ++ image.data)

def targetBytes (target : List Image) : List Byte :=
  text 6 targetSignature ++ (uint 1 0 ++ (uint 4 1 ++ (text 255 targetName ++
    (uint 4 (target.flatMap imageBytes).length ++ (uint 4 target.length ++ target.flatMap imageBytes)))))

def imageLength (image : Image) : Nat := 8 + image.data.length

def targetLength (target : List Image) : Nat := 274 + (target.map imageLength).sum

/-- What fits in the format: all the lengths in it are at most that of the whole file without its suffix. -/
structure Fits (targets : List (List Image)) : Prop where
  count : targets.length ≤ 255
  addresses : ∀ target ∈ targets, ∀ image ∈ target, image.address < 2^32
  lengths : 11 + (targets.map targetLength).sum < 2^32

theorem imageBytes_length (image : Image) : (imageBytes image).length = imageLength image := by
  simp only [imageBytes, imageLength, List.length_append, uint_length]
  omega

theorem images_length (target : List Image) : (target.flatMap imageBytes).length = (target.map imageLength).sum := by
  simp only [List.length_flatMap, imageBytes_length]

theorem targetBytes_length (target : List Image) : (targetBytes target).length = targetLength target := by
  simp only [targetBytes, targetLength, List.length_append, uint_length, text_length, images_length]
  omega

theorem targets_length (targets : List (List Image)) :
    (targets.flatMap targetBytes).length = (targets.map targetLength).sum := by
  simp only [List.length_flatMap, targetBytes_length]

theorem length_le_images (target : List Image) : target.length ≤ (target.flatMap imageBytes).length := by
  induction target with
  | nil => exact Nat.zero_le _
  | cons image target ih =>
    rw [List.flatMap_cons, List.length_append, imageBytes_length, imageLength, List.length_cons]
    omega

structure TargetFits (target : List Image) : Prop where
  addresses : ∀ image ∈ target, image.address < 2^32
  lengths : (target.flatMap imageBytes).length < 2^32

theorem Fits.target {targets : List (List Image)} (fits : Fits targets) {target : List Image}
    (member : target ∈ targets) : TargetFits target where
  addresses := fits.addresses target member
  lengths := by
    have part := length_le_flatMap targetBytes member
    have whole := fits.lengths
    rw [targets_length, targetBytes_length, targetLength] at part
    rw [images_length]
    omega

theorem TargetFits.data {target : List Image} (fits : TargetFits target) {image : Image} (member : image ∈ target) :
    image.data.length < 2^32 := by
  have part := length_le_flatMap imageBytes member
  have whole := fits.lengths
  rw [imageBytes_length, imageLength] at part
  omega

theorem packImages_fits {target : List Image} (fits : TargetFits target) :
    packImages target = some (target.flatMap imageBytes) := by
  apply foldlM_append
  intro image member written
  have packed : pack [.uint 4 image.address, .uint 4 image.data.length] =
      some (uint 4 image.address ++ uint 4 image.data.length) := by
    rw [pack_fits]
    · simp [Field.bytes]
    · simpa [Field.Fits] using ⟨fits.addresses image member, fits.data member⟩
  simp only [packed, imageBytes, List.append_assoc]

theorem packTargets_fits {targets : List (List Image)} (fits : Fits targets) :
    packTargets targets = some (targets.flatMap targetBytes) := by
  apply foldlM_append
  intro target member written
  have inside := fits.target member
  have count := length_le_images target
  have lengths := inside.lengths
  rw [packImages_fits inside]
  dsimp only
  rw [pack_fits]
  · simp [Field.bytes, targetBytes]
  · simpa [Field.Fits, -List.length_flatMap] using ⟨lengths, by omega⟩

theorem readImage_imageBytes {image : Image} (address : image.address < 2^32) (length : image.data.length < 2^32)
    (rest : List Byte) : readImage (imageBytes image ++ rest) = some (image, rest) := by
  have address := takeUint_append 4 address
  have length := takeUint_append 4 length
  have data := takeBytes_append (rfl : image.data.length = _)
  simp only [readImage, imageBytes, List.append_assoc, address, length, data, Option.bind_eq_bind, Option.bind_some]
  rfl

theorem readTarget_targetBytes {target : List Image} (fits : TargetFits target) (rest : List Byte) :
    readTarget (targetBytes target ++ rest) = some (target, rest) := by
  have few := length_le_images target
  have lengths := fits.lengths
  have signature := takeBytes_append (text_length 6 targetSignature)
  have size := takeUint_append 4 lengths
  have count := takeUint_append 4 (Nat.lt_of_le_of_lt few lengths)
  have tdata := takeBytes_append (rfl : (target.flatMap imageBytes).length = _)
  have name (after : List Byte) :
      takeBytes 260 (uint 1 0 ++ (uint 4 1 ++ (text 255 targetName ++ after))) =
        some (uint 1 0 ++ (uint 4 1 ++ text 255 targetName), after) := by
    have length : (uint 1 0 ++ (uint 4 1 ++ text 255 targetName)).length = 260 := by simp
    have taken := takeBytes_append length after
    rwa [List.append_assoc, List.append_assoc] at taken
  have images : takeMany readImage target.length (target.flatMap imageBytes) = some (target, []) := by
    have read := takeMany_flatMap target
      (fun image member => readImage_imageBytes (fits.addresses image member) (fits.data member)) []
    rwa [List.append_nil] at read
  simp only [readTarget, targetBytes, List.append_assoc, signature, name, size, count, tdata, images,
    Option.bind_eq_bind, Option.bind_some]
  rfl

theorem computeCrc_complement (data : List Byte) : computeCrc data = (~~~crc32 data).toNat := by
  have small := (crc32 data).isLt
  rw [computeCrc, BitVec.toNat_not]
  omega

theorem mask16_small (x : Int) : mask16 x < 256 ^ 2 := by
  unfold mask16
  omega

theorem mask16_mod (x : Int) : (mask16 x : Int) = x % 2^16 := by
  unfold mask16
  omega

theorem splitOnce_append {vendor : List Char} (single : ':' ∉ vendor) (product : List Char) :
    splitOnce ':' (vendor ++ ':' :: product) = [vendor, product] := by
  have passed : ∀ c ∈ vendor, decide (c ≠ ':') = true := by
    intro c member
    rw [decide_eq_true_iff]
    intro same
    exact single (same ▸ member)
  have left : (vendor ++ ':' :: product).dropWhile (· ≠ ':') = ':' :: product := by
    rw [List.dropWhile_append_of_pos passed]
    rfl
  have taken : (vendor ++ ':' :: product).takeWhile (· ≠ ':') = vendor := by
    rw [List.takeWhile_append_of_pos passed]
    exact List.append_nil vendor
  rw [splitOnce, left, taken]

def dfuBytes (targets : List (List Image)) (v d : Nat) : List Byte :=
  text 5 prefixSignature ++ (uint 1 1 ++ (uint 4 ((targets.flatMap targetBytes).length + 11) ++
    (uint 1 targets.length ++ (targets.flatMap targetBytes ++ (uint 2 0 ++ (uint 2 d ++ (uint 2 v ++
      (uint 2 0x011a ++ (text 3 suffixSignature ++ uint 1 16)))))))))

theorem build_fits {int0 : List Char → Option Int} {targets : List (List Image)} {device : List Char} {v d : Nat}
    (fits : Fits targets) (ids : deviceIds int0 device = some (v, d)) (vendor : v < 256 ^ 2) (product : d < 256 ^ 2) :
    build int0 targets device =
      some (dfuBytes targets v d ++ uint 4 (~~~crc32 (dfuBytes targets v d)).toNat) := by
  have count := fits.count
  have lengths := fits.lengths
  rw [← targets_length] at lengths
  have head : pack [.text 5 prefixSignature, .uint 1 1, .uint 4 ((targets.flatMap targetBytes).length + 11),
      .uint 1 targets.length] = some (text 5 prefixSignature ++ (uint 1 1 ++
        (uint 4 ((targets.flatMap targetBytes).length + 11) ++ uint 1 targets.length))) := by
    rw [pack_fits]
    · simp [Field.bytes]
    · simpa [Field.Fits, -List.length_flatMap] using ⟨by omega, by omega⟩
  have tail : pack [.uint 2 0, .uint 2 d, .uint 2 v, .uint 2 0x011a, .text 3 suffixSignature, .uint 1 16] =
      some (uint 2 0 ++ (uint 2 d ++ (uint 2 v ++ (uint 2 0x011a ++ (text 3 suffixSignature ++ uint 1 16))))) := by
    rw [pack_fits]
    · simp [Field.bytes]
    · simpa [Field.Fits] using ⟨product, vendor⟩
  have crc (data : List Byte) : pack [.uint 4 (computeCrc data)] = some (uint 4 (~~~crc32 data).toNat) := by
    have small := (~~~crc32 data).isLt
    rw [computeCrc_complement, pack_fits]
    · simp [Field.bytes]
    · simpa [Field.Fits] using small
  simp only [build, packTargets_fits fits, head, ids, tail, crc, dfuBytes, List.append_assoc]

theorem readPrefix_append {size count : Nat} (fits : size < 256 ^ 4) (few : count < 256 ^ 1) (rest : List Byte) :
    readPrefix (text 5 prefixSignature ++ (uint 1 1 ++ (uint 4 size ++ (uint 1 count ++ rest)))) =
      some ((size, count), rest) := by
  have signature := takeBytes_append (text_length 5 prefixSignature)
  have version := takeUint_append 1 (by decide : 1 < 256 ^ 1)
  simp only [readPrefix, signature, version, takeUint_append 4 fits, takeUint_append 1 few, Option.bind_eq_bind,
    Option.bind_some]
  rfl

theorem readDevice_append {v d : Nat} (vendor : v < 256 ^ 2) (product : d < 256 ^ 2) (rest : List Byte) :
    readDevice (uint 2 0 ++ (uint 2 d ++ (uint 2 v ++ rest))) = some ((d, v), rest) := by
  have bcdDevice := takeUint_append 2 (by decide : 0 < 256 ^ 2)
  simp only [readDevice, bcdDevice, takeUint_append 2 product, takeUint_append 2 vendor, Option.bind_eq_bind,
    Option.bind_some]
  rfl

theorem readSuffix_append {v d crc : Nat} (vendor : v < 256 ^ 2) (product : d < 256 ^ 2) (check : crc < 256 ^ 4)
    (rest : List Byte) :
    readSuffix (uint 2 0 ++ (uint 2 d ++ (uint 2 v ++ (uint 2 0x011a ++ (text 3 suffixSignature ++ (uint 1 16 ++
      (uint 4 crc ++ rest))))))) = some ((d, v, crc), rest) := by
  have bcdDfu := takeUint_append 2 (by decide : 0x011a < 256 ^ 2)
  have signature := takeBytes_append (text_length 3 suffixSignature)
  have length := takeUint_append 1 (by decide : 16 < 256 ^ 1)
  simp only [readSuffix, readDevice_append vendor product, bcdDfu, signature, length, takeUint_append 4 check,
    Option.bind_eq_bind, Option.bind_some]
  rfl

theorem readDfu_dfuBytes {targets : List (List Image)} {v d crc : Nat} (fits : Fits targets) (vendor : v < 256 ^ 2)
    (product : d < 256 ^ 2) (check : crc < 256 ^ 4) :
    readDfu (dfuBytes targets v d ++ uint 4 crc) =
      some ⟨(targets.flatMap targetBytes).length + 11, targets, d, v, crc⟩ := by
  have count := fits.count
  have lengths := fits.lengths
  rw [← targets_length] at lengths
  have size : (targets.flatMap targetBytes).length + 11 < 256 ^ 4 := by omega
  have few : targets.length < 256 ^ 1 := by omega
  have data := takeBytes_append (Nat.add_sub_cancel (targets.flatMap targetBytes).length 11).symm
  have read : takeMany readTarget targets.length (targets.flatMap targetBytes) = some (targets, []) := by
    have read := takeMany_flatMap targets (fun target member => readTarget_targetBytes (fits.target member)) []
    rwa [List.append_nil] at read
  have suffix := readSuffix_append vendor product check []
  rw [List.append_nil] at suffix
  simp only [readDfu, dfuBytes, List.append_assoc, readPrefix_append size few, data, read, suffix,
    Option.bind_eq_bind, Option.bind_some]
  rfl

theorem dfuBytes_length (targets : List (List Image)) (v d crc : Nat) :
    (dfuBytes targets v d ++ uint 4 crc).length = (targets.flatMap targetBytes).length + 11 + 16 := by
  simp only [dfuBytes, List.length_append, uint_length, text_length]
  omega

/-- A file read by its own length fields says what was built. -/
theorem dfu_round_trip (int0 : List Char → Option Int) (targets : List (List Image)) (vendor product : List Char)
    (v d : Int) (fits : Fits targets) (single : ':' ∉ vendor) (vendorId : int0 vendor = some v)
    (productId : int0 product = some d) :
    ∃ file contents, build int0 targets (vendor ++ ':' :: product) = some file ∧ readDfu file = some contents ∧
      contents.targets = targets ∧ (contents.vendor : Int) = v % 2^16 ∧ (contents.product : Int) = d % 2^16 ∧
      contents.size + 16 = file.length ∧ ∃ body, file = body ++ uint 4 (~~~crc32 body).toNat := by
  have ids : deviceIds int0 (vendor ++ ':' :: product) = some (mask16 v, mask16 d) := by
    simp only [deviceIds, splitOnce_append single, vendorId, productId]
  have built := build_fits fits ids (mask16_small v) (mask16_small d)
  have check := (~~~crc32 (dfuBytes targets (mask16 v) (mask16 d))).isLt
  have read := readDfu_dfuBytes fits (mask16_small v) (mask16_small d) check
  exact ⟨_, _, built, read, rfl, mask16_mod v, mask16_mod d, (dfuBytes_length _ _ _ _).symm, _, rfl⟩

def hexDigit (c : Char) : Option Nat :=
  if '0' ≤ c ∧ c ≤ '9' then some (c.toNat - 48) else if 'a' ≤ c ∧ c ≤ 'f' then some (c.toNat - 87) else none

/-- `int(x,0)` on the hexadecimal literals of `DEFAULT_DEVICE` -/
def hexInt : List Char → Option Int
  | '0' :: 'x' :: digits => (digits.foldlM (fun n c => (hexDigit c).map (16 * n + ·)) 0).map Int.ofNat
  | _ => none

def segments : List Image := [⟨0x08000000, [0x12, 0x34, 0x56]⟩, ⟨0x08002000, []⟩]

theorem dfu_round_trip_default :
    ∃ file contents, build hexInt [segments] (['0', 'x', '0', '4', '8', '3'] ++ ':' :: ['0', 'x', 'd', 'f', '1', '1']) =
        some file ∧ readDfu file = some contents ∧
      contents.targets = [segments] ∧ (contents.vendor : Int) = 0x0483 % 2^16 ∧ (contents.product : Int) = 0xdf11 % 2^16 ∧
      contents.size + 16 = file.length ∧ ∃ body, file = body ++ uint 4 (~~~crc32 body).toNat := by
  have fits : Fits [segments] := by
    constructor
    · decide
    · decide
    · decide
  exact dfu_round_trip hexInt [segments] _ _ 0x0483 0xdf11 fits (by decide) (by decide) (by decide)

end Testjig.Dfu
