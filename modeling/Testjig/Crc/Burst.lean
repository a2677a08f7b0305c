import Testjig.Crc.Ccitt

namespace Testjig.Crc

open Machine.Crc Testjig.Sequence

theorem bitsOf_length (byte : Byte) : (bitsOf byte).length = 8 := rfl

theorem bitsOf_injective {p q : Byte} (same : bitsOf p = bitsOf q) : p = q := by
  have each := List.map_inj_left.mp same
  apply BitVec.eq_of_getMsbD_eq
  intro i bound
  exact each i (List.mem_range.mpr bound)

theorem messageBits_cons (b : Byte) (buf : List Byte) : messageBits (b :: buf) = bitsOf b ++ messageBits buf := rfl

theorem messageBits_length (buf : List Byte) : (messageBits buf).length = 8 * buf.length := by
  induction buf with
  | nil => rfl
  | cons b buf ih =>
    rw [messageBits_cons, List.length_append, bitsOf_length, ih, List.length_cons]
    omega

theorem messageBits_injective {a b : List Byte} (length : a.length = b.length) (same : messageBits a = messageBits b) :
    a = b := by
  induction a generalizing b with
  | nil => exact (List.eq_nil_of_length_eq_zero length.symm).symm
  | cons p a ih =>
    cases b with
    | nil => cases length
    | cons q b =>
      rw [messageBits_cons, messageBits_cons] at same
      obtain ⟨first, rest⟩ := List.append_inj same rfl
      rw [bitsOf_injective first, ih (Nat.succ.inj length) rest]

def differences (a b : List Byte) : List Bool := List.zipWith xor (messageBits a) (messageBits b)

theorem differences_set {a b : List Byte} {i : Nat} (set : (differences a b)[i]? = some true) :
    (messageBits a)[i]? ≠ (messageBits b)[i]? := by
  intro same
  rw [differences, List.getElem?_zipWith, same] at set
  cases found : (messageBits b)[i]? with
  | none =>
    rw [found] at set
    cases set
  | some bit =>
    rw [found] at set
    cases bit <;> cases set

theorem differences_none {a b : List Byte} (length : a.length = b.length)
    (silent : ∀ bit ∈ differences a b, bit = false) : a = b := by
  apply messageBits_injective length
  apply List.ext_getElem
  · rw [messageBits_length, messageBits_length, length]
  · intro i left right
    have inside : i < (differences a b).length := by
      rw [differences, List.length_zipWith]
      omega
    have clear := silent _ (List.getElem_mem inside)
    simp only [differences, List.getElem_zipWith] at clear
    exact bne_eq_false_iff_eq.mp clear

/-- The difference of two results is what the difference of the messages leaves in an empty register. -/
theorem crc16Ccitt_differences {a b : List Byte} (length : a.length = b.length) (crc : BitVec 16) :
    crc16Ccitt a crc ^^^ crc16Ccitt b crc = serial ccitt 0#16 (differences a b) := by
  have bits : (messageBits a).length = (messageBits b).length := by
    rw [messageBits_length, messageBits_length, length]
  rw [crc16Ccitt_serial, crc16Ccitt_serial, ← serial_zip ccitt crc crc bits, BitVec.xor_self, differences]

/-- Two messages whose differences lie within 16 consecutive bits have different CRCs. -/
theorem crc16_ccitt_burst (a b : List Byte) (length : a.length = b.length) (differ : a ≠ b) (start : Nat)
    (window : ∀ i, (messageBits a)[i]? ≠ (messageBits b)[i]? → start ≤ i ∧ i < start + 16) (crc : BitVec 16) :
    crc16Ccitt a crc ≠ crc16Ccitt b crc := by
  intro same
  have gone : serial ccitt 0#16 (differences a b) = 0#16 := by
    rw [← crc16Ccitt_differences length crc, same, BitVec.xor_self]
  have odd : ccitt.getLsbD 0 = true := rfl
  have silent := serial_burst odd (fun i set => window i (differences_set set)) gone
  exact differ (differences_none length silent)

/-- A burst that begins inside of the first byte and ends inside of the third -/
theorem crc16_ccitt_burst_three : crc16Ccitt [0x12, 0x34, 0x56] 0xffff ≠ crc16Ccitt [0x1d, 0xcb, 0xa6] 0xffff := by
  have window : ∀ i < 24,
      (messageBits [0x12, 0x34, 0x56])[i]? ≠ (messageBits [0x1d, 0xcb, 0xa6])[i]? → 4 ≤ i ∧ i < 4 + 16 := by decide
  apply crc16_ccitt_burst [0x12, 0x34, 0x56] [0x1d, 0xcb, 0xa6] rfl (by decide) 4
  intro i differs
  by_cases inside : i < 24
  · exact window i inside differs
  · rw [List.getElem?_eq_none (by simpa [messageBits_length] using inside),
      List.getElem?_eq_none (by simpa [messageBits_length] using inside)] at differs
    exact absurd rfl differs

end Testjig.Crc
