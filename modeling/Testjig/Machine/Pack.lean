import Mathlib.Algebra.Order.Ring.Int

namespace Machine.Pack

/-- An unsigned number in little-endian bytes -/
def uint : Nat → Nat → List (BitVec 8)
  | 0, _ => []
  | width + 1, value => BitVec.ofNat 8 value :: uint width (value / 256)

/-- A byte string, cut or filled up with zeros -/
def text (size : Nat) (value : List (BitVec 8)) : List (BitVec 8) := (value ++ List.replicate size 0).take size

/-- A field of a packed structure, with the value it is given -/
inductive Field where
  | uint (width value : Nat)
  | text (size : Nat) (value : List (BitVec 8))

def Field.bytes : Field → List (BitVec 8)
  | .uint width value => Pack.uint width value
  | .text size value => Pack.text size value

def Field.Fits : Field → Prop
  | .uint width value => value < 256 ^ width
  | .text _ _ => True

instance : DecidablePred Field.Fits
  | .uint width value => inferInstanceAs (Decidable (value < 256 ^ width))
  | .text _ _ => inferInstanceAs (Decidable True)

/-- The fields one after the other, unless a number is out of its range -/
def pack (fields : List Field) : Option (List (BitVec 8)) :=
  if ∀ field ∈ fields, field.Fits then some (fields.flatMap Field.bytes) else none

theorem pack_fits {fields : List Field} (fits : ∀ field ∈ fields, field.Fits) :
    pack fields = some (fields.flatMap Field.bytes) :=
  if_pos fits

/-- A reader takes a value off the front of the bytes, or fails. -/
abbrev Reader (α : Type) := List (BitVec 8) → Option (α × List (BitVec 8))

def takeBytes (size : Nat) : Reader (List (BitVec 8)) := fun bytes =>
  if size ≤ bytes.length then some (bytes.take size, bytes.drop size) else none

def number : List (BitVec 8) → Nat
  | [] => 0
  | byte :: rest => byte.toNat + 256 * number rest

def takeUint (width : Nat) : Reader Nat := fun bytes =>
  match takeBytes width bytes with
  | none => none
  | some (digits, rest) => some (number digits, rest)

def takeMany {α : Type} (reader : Reader α) : Nat → Reader (List α)
  | 0, bytes => some ([], bytes)
  | count + 1, bytes =>
    match reader bytes with
    | none => none
    | some (value, rest) =>
      match takeMany reader count rest with
      | none => none
      | some (values, rest) => some (value :: values, rest)

@[simp]
theorem uint_length (width value : Nat) : (uint width value).length = width := by
  induction width generalizing value with
  | zero => rfl
  | succ width ih => rw [uint, List.length_cons, ih]

@[simp]
theorem text_length (size : Nat) (value : List (BitVec 8)) : (text size value).length = size := by
  rw [text, List.length_take, List.length_append, List.length_replicate]
  omega

theorem number_uint {width value : Nat} (fits : value < 256 ^ width) : number (uint width value) = value := by
  induction width generalizing value with
  | zero =>
    rw [Nat.pow_zero] at fits
    simp only [uint, number]
    omega
  | succ width ih =>
    have high : value / 256 < 256 ^ width := by
      rw [Nat.div_lt_iff_lt_mul (by decide)]
      rwa [Nat.pow_succ] at fits
    rw [uint, number, ih high, BitVec.toNat_ofNat]
    exact Nat.mod_add_div value 256

theorem takeBytes_append {size : Nat} {bytes : List (BitVec 8)} (length : bytes.length = size)
    (rest : List (BitVec 8)) : takeBytes size (bytes ++ rest) = some (bytes, rest) := by
  have enough : size ≤ (bytes ++ rest).length := by
    rw [List.length_append]
    omega
  rw [takeBytes, if_pos enough, List.take_left' length, List.drop_left' length]

theorem takeUint_append (width : Nat) {value : Nat} (fits : value < 256 ^ width) (rest : List (BitVec 8)) :
    takeUint width (uint width value ++ rest) = some (value, rest) := by
  simp only [takeUint, takeBytes_append (uint_length width value), number_uint fits]

theorem takeMany_flatMap {α : Type} {reader : Reader α} {encode : α → List (BitVec 8)} (values : List α)
    (inverts : ∀ value ∈ values, ∀ rest, reader (encode value ++ rest) = some (value, rest))
    (rest : List (BitVec 8)) :
    takeMany reader values.length (values.flatMap encode ++ rest) = some (values, rest) := by
  induction values with
  | nil => rfl
  | cons value values ih =>
    have first := inverts value List.mem_cons_self (values.flatMap encode ++ rest)
    have others := ih (fun other member => inverts other (List.mem_cons_of_mem value member))
    simp only [List.length_cons, List.flatMap_cons, List.append_assoc, takeMany, first, others]

theorem foldlM_append {α : Type} {step : List (BitVec 8) → α → Option (List (BitVec 8))}
    {encode : α → List (BitVec 8)} (values : List α)
    (writes : ∀ value ∈ values, ∀ written, step written value = some (written ++ encode value))
    (written : List (BitVec 8)) : values.foldlM step written = some (written ++ values.flatMap encode) := by
  induction values generalizing written with
  | nil => simp
  | cons value values ih =>
    have others := ih (fun other member => writes other (List.mem_cons_of_mem value member))
    rw [List.foldlM_cons, writes value List.mem_cons_self, Option.bind_eq_bind, Option.bind_some, others,
      List.flatMap_cons, List.append_assoc]

theorem length_le_flatMap {α : Type} (encode : α → List (BitVec 8)) {value : α} {values : List α}
    (member : value ∈ values) : (encode value).length ≤ (values.flatMap encode).length := by
  obtain ⟨before, after, rfl⟩ := List.append_of_mem member
  simp only [List.flatMap_append, List.flatMap_cons, List.length_append]
  omega

end Machine.Pack
