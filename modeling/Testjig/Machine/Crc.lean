namespace Machine.Crc

variable {w : Nat}

/-- Feed one bit into the register of a polynomial, whose leading term is left out. -/
def feed (poly reg : BitVec w) (bit : Bool) : BitVec w :=
  if reg.msb ^^ bit then (reg <<< 1) ^^^ poly else reg <<< 1

def serial (poly reg : BitVec w) (bits : List Bool) : BitVec w := bits.foldl (feed poly) reg

/-- The bits of a byte, the most significant one first -/
def bitsOf (byte : BitVec 8) : List Bool := (List.range 8).map byte.getMsbD

theorem xor_cross (a b c d : BitVec w) : a ^^^ b ^^^ (c ^^^ d) = a ^^^ c ^^^ (b ^^^ d) := by
  ac_rfl

/-- A register is linear in what it holds and what it is fed. -/
theorem feed_xor (poly x y : BitVec w) (a b : Bool) :
    feed poly (x ^^^ y) (a ^^ b) = feed poly x a ^^^ feed poly y b := by
  have parity : ((x ^^^ y).msb ^^ (a ^^ b)) = ((x.msb ^^ a) ^^ (y.msb ^^ b)) := by
    rw [BitVec.msb_xor]
    cases x.msb <;> cases y.msb <;> cases a <;> cases b <;> rfl
  have cancel : poly ^^^ poly = 0#w := BitVec.xor_self
  simp only [feed, parity, BitVec.shiftLeft_xor_distrib]
  cases x.msb ^^ a <;> cases y.msb ^^ b
  · rfl
  · exact BitVec.xor_assoc _ _ _
  · simp only [Bool.xor_false, if_true, Bool.false_eq_true, if_false]
    ac_rfl
  · simp only [Bool.xor_self, Bool.false_eq_true, if_false, if_true]
    rw [xor_cross, cancel, BitVec.xor_zero]

theorem serial_xor (poly : BitVec w) (indices : List Nat) (a b : Nat → Bool) (x y : BitVec w) :
    serial poly (x ^^^ y) (indices.map fun i => a i ^^ b i) =
      serial poly x (indices.map a) ^^^ serial poly y (indices.map b) := by
  induction indices generalizing x y with
  | nil => rfl
  | cons i rest ih =>
    simp only [serial, List.map_cons, List.foldl_cons] at ih ⊢
    rw [feed_xor]
    exact ih (feed poly x (a i)) (feed poly y (b i))

theorem serial_byte_xor (poly x y : BitVec w) (a b : BitVec 8) :
    serial poly (x ^^^ y) (bitsOf (a ^^^ b)) = serial poly x (bitsOf a) ^^^ serial poly y (bitsOf b) := by
  have bits : (a ^^^ b).getMsbD = fun i => a.getMsbD i ^^ b.getMsbD i := by
    funext i
    exact BitVec.getMsbD_xor
  rw [bitsOf, bits]
  exact serial_xor poly (List.range 8) a.getMsbD b.getMsbD x y

section

variable {poly : BitVec w}

theorem serial_cons (poly reg : BitVec w) (bit : Bool) (bits : List Bool) :
    serial poly reg (bit :: bits) = serial poly (feed poly reg bit) bits := rfl

theorem serial_append (poly reg : BitVec w) (first second : List Bool) :
    serial poly reg (first ++ second) = serial poly (serial poly reg first) second := List.foldl_append

/-- Two messages of one length, fed into two registers -/
theorem serial_zip (poly x y : BitVec w) {a b : List Bool} (length : a.length = b.length) :
    serial poly (x ^^^ y) (List.zipWith xor a b) = serial poly x a ^^^ serial poly y b := by
  induction a generalizing b x y with
  | nil =>
    cases List.eq_nil_of_length_eq_zero length.symm
    rfl
  | cons p a ih =>
    cases b with
    | nil => cases length
    | cons q b =>
      rw [List.zipWith_cons_cons, serial_cons, serial_cons, serial_cons, feed_xor]
      exact ih _ _ (Nat.succ.inj length)

theorem serial_silent {bits : List Bool} (silent : ∀ bit ∈ bits, bit = false) : serial poly 0#w bits = 0#w := by
  induction bits with
  | nil => rfl
  | cons bit bits ih =>
    have still : feed poly 0#w bit = 0#w := by
      rw [silent bit List.mem_cons_self]
      simp [feed]
    rw [serial_cons, still]
    exact ih fun other member => silent other (List.mem_cons_of_mem bit member)

theorem getLsbD_next (reg : BitVec w) {i : Nat} (inside : i + 1 < w) : (reg <<< 1).getLsbD (i + 1) = reg.getLsbD i := by
  have above : ¬ i + 1 < 1 := by omega
  rw [BitVec.getLsbD_shiftLeft, decide_eq_true inside, decide_eq_false above, Nat.add_sub_cancel]
  rfl

theorem silent_unless {bits : List Bool} (unset : ∀ i : Nat, bits[i]? ≠ some true) : ∀ bit ∈ bits, bit = false := by
  intro bit member
  obtain ⟨i, found⟩ := List.mem_iff_getElem?.mp member
  apply Bool.eq_false_iff.mpr
  intro set
  rw [set] at found
  exact unset i found

/-- A polynomial with the term 1 is subtracted where the low bit comes out set. -/
theorem feed_low (odd : poly.getLsbD 0 = true) (reg : BitVec w) (bit : Bool) :
    (feed poly reg bit).getLsbD 0 = (reg.msb ^^ bit) := by
  rw [feed]
  split
  · rename_i taken
    rw [BitVec.getLsbD_xor, odd, taken]
    simp
  · rename_i left
    rw [Bool.eq_false_iff.mpr left]
    simp

theorem feed_shift {reg : BitVec w} {bit : Bool} (low : (feed poly reg bit).getLsbD 0 = false)
    (odd : poly.getLsbD 0 = true) : (reg.msb ^^ bit) = false ∧ feed poly reg bit = reg <<< 1 := by
  rw [feed_low odd] at low
  refine ⟨low, ?_⟩
  rw [feed, low]
  rfl

theorem feed_zero (odd : poly.getLsbD 0 = true) {reg : BitVec w} (gone : feed poly reg false = 0#w) : reg = 0#w := by
  have low : (feed poly reg false).getLsbD 0 = false := by
    rw [gone]
    exact BitVec.getLsbD_zero
  obtain ⟨top, shifted⟩ := feed_shift low odd
  rw [Bool.xor_false] at top
  rw [gone] at shifted
  apply BitVec.eq_of_getLsbD_eq
  intro i bound
  by_cases last : i + 1 < w
  · have next : (reg <<< 1).getLsbD (i + 1) = false := by
      rw [← shifted]
      exact BitVec.getLsbD_zero
    rw [BitVec.getLsbD_zero, ← getLsbD_next reg last]
    exact next
  · have position : i = w - 1 := by omega
    rw [BitVec.getLsbD_zero, position, ← BitVec.msb_eq_getLsbD_last]
    exact top

/-- What is in the register is not lost while nothing is fed. -/
theorem serial_tail (odd : poly.getLsbD 0 = true) {bits : List Bool} (silent : ∀ bit ∈ bits, bit = false)
    {reg : BitVec w} (gone : serial poly reg bits = 0#w) : reg = 0#w := by
  induction bits generalizing reg with
  | nil => exact gone
  | cons bit bits ih =>
    rw [serial_cons, silent bit List.mem_cons_self] at gone
    exact feed_zero odd (ih (fun other member => silent other (List.mem_cons_of_mem bit member)) gone)

/-- A register that `k` bits leave empty was empty but for its `k` top bits. -/
theorem serial_low (odd : poly.getLsbD 0 = true) {bits : List Bool} {reg : BitVec w}
    (gone : serial poly reg bits = 0#w) {i : Nat} (below : i + bits.length < w) : reg.getLsbD i = false := by
  induction bits generalizing reg i with
  | nil =>
    have empty : reg = 0#w := gone
    rw [empty]
    exact BitVec.getLsbD_zero
  | cons bit bits ih =>
    rw [serial_cons] at gone
    rw [List.length_cons] at below
    have first := ih gone (by omega : 0 + bits.length < w)
    have next := ih gone (by omega : i + 1 + bits.length < w)
    rw [(feed_shift first odd).2] at next
    rwa [getLsbD_next reg (by omega)] at next

/-- No more bits than the register is wide leave it empty, unless none of them is set. -/
theorem serial_short (odd : poly.getLsbD 0 = true) {bits : List Bool} (short : bits.length ≤ w)
    (gone : serial poly 0#w bits = 0#w) : ∀ bit ∈ bits, bit = false := by
  induction bits with
  | nil =>
    intro bit member
    cases member
  | cons bit bits ih =>
    rw [serial_cons] at gone
    rw [List.length_cons] at short
    have low := serial_low odd gone (by omega : 0 + bits.length < w)
    obtain ⟨top, shifted⟩ := feed_shift low odd
    have clear : bit = false := by simpa using top
    rw [shifted, BitVec.zero_shiftLeft] at gone
    intro other member
    rcases List.mem_cons.mp member with rfl | member
    · exact clear
    · exact ih (by omega) gone other member

/-- Bits that are all clear outside of a window as wide as the register -/
theorem serial_burst (odd : poly.getLsbD 0 = true) {bits : List Bool} {start : Nat}
    (window : ∀ i, bits[i]? = some true → start ≤ i ∧ i < start + w) (gone : serial poly 0#w bits = 0#w) :
    ∀ bit ∈ bits, bit = false := by
  let front := bits.take start
  let middle := (bits.drop start).take w
  let back := (bits.drop start).drop w
  have whole : front ++ (middle ++ back) = bits := by
    rw [List.take_append_drop, List.take_append_drop]
  have frontSilent : ∀ bit ∈ front, bit = false := by
    apply silent_unless
    intro i set
    rw [List.getElem?_take] at set
    split at set
    · rename_i before
      have inside := window i set
      omega
    · cases set
  have backSilent : ∀ bit ∈ back, bit = false := by
    apply silent_unless
    intro i set
    rw [List.getElem?_drop, List.getElem?_drop] at set
    have inside := window _ set
    omega
  rw [← whole, serial_append, serial_silent frontSilent, serial_append] at gone
  have middleSilent := serial_short odd (List.length_take_le w _) (serial_tail odd backSilent gone)
  intro bit member
  rw [← whole, List.mem_append, List.mem_append] at member
  rcases member with first | second | third
  · exact frontSilent bit first
  · exact middleSilent bit second
  · exact backSilent bit third

end

end Machine.Crc
