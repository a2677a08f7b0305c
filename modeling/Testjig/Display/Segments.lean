import Mathlib.Data.List.GetD
import Testjig.Display.Delivery
import Testjig.Display.ShiftRegister
import Testjig.Text.RoundTrip

namespace Testjig.Display

open Machine Machine.Wire Testjig.Text

def letters : List (BitVec 8) := [
  0x77, 0x7c, 0x58, 0x5e, 0x79, 0x71, 0x6f, 0x74, 0x04,
  0x0e, 0x08, 0x38, 0x40, 0x54, 0x5c, 0x73, 0x67, 0x50,
  0x6d, 0x78, 0x1c, 0x09, 0x41, 0x76, 0x6e, 0x00]

def digits : List (BitVec 8) := [0x3f, 0x06, 0x5b, 0x4f, 0x66, 0x6d, 0x7d, 0x07, 0x7f, 0x6f]

/-- The segments that `led_7seg_write_string()` lights for a character -/
def segments (c : BitVec 8) : BitVec 8 :=
  if chr '0' ≤ c ∧ c ≤ chr '9' then digits.getD (c - chr '0').toNat 0
  else if chr 'a' ≤ c ∧ c ≤ chr 'z' then letters.getD (c - chr 'a').toNat 0
  else if chr 'A' ≤ c ∧ c ≤ chr 'Z' then letters.getD (c - chr 'A').toNat 0
  else if c = chr '-' then 0x40
  else 0

/-- The loop of `led_7seg_write_string()` over the characters from `i` on, with the places left -/
def stringLoop (p : Nat → BitVec 8) : Nat → Nat → (Nat → BitVec 8) → Nat → BitVec 8
  | 0, _, d => d
  | left + 1, i, d =>
    if p i ≠ 0 then stringLoop p left (i + 1) fun j => if j = i then segments (p i) else d j
    else d

def led7segWriteString (p : Nat → BitVec 8) (led : Led7seg) : Led7seg :=
  led7segWriteRaw (stringLoop p 3 0 fun _ => 0) led

/-- `memory` is what the stack holds, and `msg` the address of the array there. -/
def led7segWriteDecimal (memory : BitVec 32 → BitVec 8) (msg val : BitVec 32) (led : Led7seg) :
    Except FormatFault Led7seg :=
  let format := if led.nrDigits = 3 then "%03u" else "%02u"
  match snprintf memory msg 4 (format.toList.map chr) [.int (val % if led.nrDigits = 3 then 1000 else 100)] with
  | .ok (b, _) => .ok (led7segWriteString (fun i => b.memory (msg + BitVec.ofNat 32 i)) led)
  | .error fault => .error fault

/-- A string literal -/
def quoted (s : String) (i : Nat) : BitVec 8 := (s.toList.map chr).getD i 0

def led7segInit (led : Led7seg) : Led7seg :=
  let found := tm1651Init led.tm1651
  let led := { led with tm1651 := found.2, nrDigits := if found.1 then 2 else 3 }
  let led := if led.nrDigits = 2 then { led with shiftreg := shiftregInit led.shiftreg } else led
  led7segDisplaySetting true (led7segWriteString (quoted "") led)

/-- The display registers of the TM1651, and its switch -/
structure Registers where
  grid : Nat → BitVec 8
  isOn : Bool

/-- What the chip makes of a transaction: data behind an address, which counts up, or a display control command -/
def Registers.take (registers : Registers) (sent : Transaction) : Registers :=
  match (sent.takeWhile Prod.snd).map Prod.fst with
  | [] => registers
  | cmd :: data =>
    if cmd &&& 0xc0 = 0xc0 then
      let address := (cmd &&& 0x0f).toNat
      { registers with grid := fun i =>
          if address ≤ i ∧ i < address + data.length then data.getD (i - address) 0 else registers.grid i }
    else if cmd &&& 0xc0 = 0x80 then { registers with isOn := cmd &&& 0x08 ≠ 0 }
    else registers

/-- The registers of the chip, which held `start` when it was switched on -/
def Led7seg.registers (start : Registers) (led : Led7seg) : Registers :=
  led.tm1651.chip.complete.foldl Registers.take start

/-- The segments that light, from the left -/
def Led7seg.shown (start : Registers) (led : Led7seg) : List (BitVec 8) :=
  if led.nrDigits = 3 then
    (List.range 3).map fun i => if (led.registers start).isOn then (led.registers start).grid i else 0
  else [led.shiftreg.register.extractLsb' 8 8, led.shiftreg.register.extractLsb' 0 8]

inductive Working (start : Registers) (led : Led7seg) : Prop where
  | tm1651 (digits : led.nrDigits = 3) (rest : AtRest led.tm1651)
      (answers : ∀ n, (led.tm1651.chip.answers n).acknowledges = true) (on : (led.registers start).isOn = true)
  | shiftreg (digits : led.nrDigits = 2) (high : led.shiftreg.clk = true) (rest : AtRest led.tm1651)
      (answers : ∀ n, (led.tm1651.chip.answers n).acknowledges = false)

/-- The segments of the first so many characters of a text, blank behind its end -/
def glyphs (count : Nat) (text : List (BitVec 8)) : List (BitVec 8) :=
  (List.range count).map fun i => segments (text.getD i 0)

/-- The last so many decimal digits of a number -/
def decimals : Nat → Nat → List Nat
  | 0, _ => []
  | count + 1, n => decimals count (n / 10) ++ [n % 10]

def numberGlyphs (count n : Nat) : List (BitVec 8) := (decimals count n).map fun digit => digits.getD digit 0

structure Reads (p : Nat → BitVec 8) (text : List (BitVec 8)) : Prop where
  nonzero : ∀ c ∈ text, c ≠ 0
  stored : ∀ i ≤ text.length, p i = text.getD i 0

section

variable {frame : List (BitVec 8)} {bus : Bus} {body : Bus → Bool × Bus}

theorem replied_answer {chip : Chip} {sent : Transaction} (replied : sent.map Prod.snd = replies chip sent.length)
    {entry : BitVec 8 × Bool} (member : entry ∈ sent) : ∃ n, (chip.answers n).acknowledges = entry.2 := by
  have answered : entry.2 ∈ replies chip sent.length := by
    rw [← replied]
    exact List.mem_map_of_mem member
  obtain ⟨n, _, answer⟩ := List.mem_map.mp answered
  exact ⟨n, answer⟩

theorem Carries.whole_bytes {sent : Transaction} (carried : Carries frame sent) (all : Acknowledged sent) :
    sent = frame.map (·, true) := by
  rcases carried.whole with ⟨_, length⟩ | ⟨before, last, rfl, _⟩
  · rw [← carried.bytes.eq_of_length (by rw [List.length_map, length]), List.map_map]
    refine (List.map_id sent).symm.trans (List.map_congr_left ?_)
    intro entry member
    exact Prod.ext rfl (all entry member)
  · exact absurd all (not_acknowledged before last)

theorem retry_works (writes : Writes body frame) (resting : AtRest bus)
    (answers : ∀ n, (bus.chip.answers n).acknowledges = true) :
    ∃ after, tm1651Retry body 3 true bus = (false, after) ∧ AtRest after ∧ after.chip.answers = bus.chip.answers ∧
      after.chip.complete = bus.chip.complete ++ [frame.map (·, true)] := by
  obtain ⟨fail, sent, after, turn, carried, failed, again, complete, _, same, _, replied⟩ := attempt writes resting
  have all : Acknowledged sent := by
    intro entry member
    obtain ⟨n, answer⟩ := replied_answer replied member
    rw [← answer, answers n]
  refine ⟨after, ?_, again, same, by rw [complete, carried.whole_bytes all]⟩
  rw [turn, failed.mpr all, retry_stops]

theorem retry_refused (writes : Writes body frame) (some : frame ≠ []) (tries : Nat) (resting : AtRest bus)
    (answers : ∀ n, (bus.chip.answers n).acknowledges = false) :
    ∃ after, tm1651Retry body tries true bus = (true, after) ∧ AtRest after ∧
      after.chip.answers = bus.chip.answers := by
  induction tries generalizing bus with
  | zero => exact ⟨bus, rfl, resting, rfl⟩
  | succ tries ih =>
    obtain ⟨fail, sent, middle, turn, carried, failed, again, _, _, same, _, replied⟩ := attempt writes resting
    have refused : ¬ Acknowledged sent := by
      intro all
      obtain ⟨first, rest, rfl⟩ := List.exists_cons_of_ne_nil some
      have whole := carried.whole_bytes all
      obtain ⟨n, answer⟩ := replied_answer replied (by rw [whole]; exact List.mem_cons_self ..)
      rw [answers n] at answer
      cases answer
    have failing : fail = true := by
      rw [← failed] at refused
      exact (Bool.not_eq_false fail).mp refused
    obtain ⟨after, retried, resting, kept⟩ := ih again (by rw [same]; exact answers)
    exact ⟨after, by rw [turn, failing, retried], resting, kept.trans same⟩

end

theorem take_whole (registers : Registers) (cmd : BitVec 8) (data : List (BitVec 8)) :
    registers.take ((cmd :: data).map (·, true)) =
      if cmd &&& 0xc0 = 0xc0 then
        let address := (cmd &&& 0x0f).toNat
        { registers with grid := fun i =>
            if address ≤ i ∧ i < address + data.length then data.getD (i - address) 0 else registers.grid i }
      else if cmd &&& 0xc0 = 0x80 then { registers with isOn := cmd &&& 0x08 ≠ 0 }
      else registers := by
  have taken : (((cmd :: data).map (·, true)).takeWhile Prod.snd).map Prod.fst = cmd :: data := by
    rw [List.takeWhile_eq_self_iff.mpr (by simp), List.map_map]
    exact List.map_id _
  rw [Registers.take, taken]

section

variable {start : Registers} {led : Led7seg}

theorem registers_append {before after : Led7seg} {sent : Transaction}
    (complete : after.tm1651.chip.complete = before.tm1651.chip.complete ++ [sent]) :
    after.registers start = (before.registers start).take sent := by
  rw [Led7seg.registers, complete, List.foldl_append]
  rfl

theorem shown_tm1651 (digits : led.nrDigits = 3) (on : (led.registers start).isOn = true) :
    led.shown start = (List.range 3).map (led.registers start).grid := by
  rw [Led7seg.shown, if_pos digits]
  simp only [on, if_true]

theorem not_three (digits : led.nrDigits = 2) : led.nrDigits ≠ 3 := by
  rw [digits]
  decide

theorem shown_shiftreg (digits : led.nrDigits = 2) {high low : BitVec 8}
    (register : led.shiftreg.register.toNat = high.toNat * 256 + low.toNat) : led.shown start = [high, low] := by
  have highBound := high.isLt
  have lowBound := low.isLt
  have left : led.shiftreg.register.extractLsb' 8 8 = high := by
    apply BitVec.eq_of_toNat_eq
    rw [BitVec.extractLsb'_toNat, register, Nat.shiftRight_eq_div_pow]
    omega
  have right : led.shiftreg.register.extractLsb' 0 8 = low := by
    apply BitVec.eq_of_toNat_eq
    rw [BitVec.extractLsb'_toNat, register, Nat.shiftRight_eq_div_pow]
    omega
  rw [Led7seg.shown, if_neg (not_three digits), left, right]

/-- A frame of a command that the chip acknowledges -/
theorem tm1651_taken (start : Registers) (led : Led7seg) {body : Bus → Bool × Bus} {cmd : BitVec 8}
    {data : List (BitVec 8)} (writes : Writes body (cmd :: data)) (rest : AtRest led.tm1651)
    (answers : ∀ n, (led.tm1651.chip.answers n).acknowledges = true) :
    ∃ bus, tm1651Retry body 3 true led.tm1651 = (false, bus) ∧ AtRest bus ∧
      (∀ n, (bus.chip.answers n).acknowledges = true) ∧
      Led7seg.registers start { led with tm1651 := bus } =
        (led.registers start).take ((cmd :: data).map (·, true)) := by
  obtain ⟨bus, written, resting, same, complete⟩ := retry_works writes rest answers
  exact ⟨bus, written, resting, by rw [same]; exact answers, registers_append complete⟩

theorem writeRaw_tm1651 (start : Registers) (led : Led7seg) (digits : led.nrDigits = 3) (rest : AtRest led.tm1651)
    (answers : ∀ n, (led.tm1651.chip.answers n).acknowledges = true) (d : Nat → BitVec 8) :
    ∃ bus, led7segWriteRaw d led = { led with tm1651 := bus } ∧ AtRest bus ∧
      (∀ n, (bus.chip.answers n).acknowledges = true) ∧
      Led7seg.registers start { led with tm1651 := bus } = { (led.registers start) with
        grid := fun i => if i < 4 then [d 0, d 1, d 2, 0x00].getD i 0 else (led.registers start).grid i } := by
  obtain ⟨bus, written, resting, same, registers⟩ := tm1651_taken start led
    (writes_orElse (writes_byte 0xc0) (writes_orElse (writes_byte (d 0)) (writes_orElse (writes_byte (d 1))
    (writes_orElse (writes_byte (d 2)) (writes_byte 0x00))))) rest answers
  refine ⟨bus, ?_, resting, same, registers.trans ((take_whole _ 0xc0 [d 0, d 1, d 2, 0x00]).trans ?_)⟩
  · rw [led7segWriteRaw, if_pos digits]
    exact congrArg (fun done => { led with tm1651 := done }) (congrArg Prod.snd written)
  · simp

theorem writeRaw_shiftreg (digits : led.nrDigits = 2) (high : led.shiftreg.clk = true) (d : Nat → BitVec 8) :
    ∃ x edges, led7segWriteRaw d led = { led with curval := x, shiftreg := ⟨true, true, x, edges⟩ } ∧
      x.toNat = (d 0).toNat * 256 + (d 1).toNat := by
  refine ⟨_, led.shiftreg.edges + 16, ?_, twoBytes_toNat (d 0) (d 1)⟩
  rw [led7segWriteRaw, if_neg (not_three digits), shiftregUpdateDisplay, shiftregUpdateDisplayU16_shows _ _ high]

theorem writeRaw_works (working : Working start led) (d : Nat → BitVec 8) :
    Working start (led7segWriteRaw d led) ∧ (led7segWriteRaw d led).nrDigits = led.nrDigits ∧
      (led7segWriteRaw d led).shown start = (List.range led.nrDigits.toNat).map d := by
  cases working with
  | tm1651 digits rest answers on =>
    obtain ⟨bus, written, resting, same, registers⟩ := writeRaw_tm1651 start led digits rest answers d
    rw [written]
    have isOn : (Led7seg.registers start { led with tm1651 := bus }).isOn = true := by
      rw [registers]
      exact on
    refine ⟨.tm1651 digits resting same isOn, rfl, (shown_tm1651 (by exact digits) isOn).trans ?_⟩
    rw [registers, digits]
    apply List.map_congr_left
    intro i inside
    have places : i = 0 ∨ i = 1 ∨ i = 2 := by
      have bound := List.mem_range.mp inside
      change i < 3 at bound
      omega
    rcases places with rfl | rfl | rfl <;> rfl
  | shiftreg digits high rest answers =>
    obtain ⟨x, edges, written, value⟩ := writeRaw_shiftreg digits high d
    rw [written]
    refine ⟨.shiftreg digits rfl rest answers, rfl, (shown_shiftreg (by exact digits) (by exact value)).trans ?_⟩
    rw [digits]
    rfl

theorem stringLoop_outside (p : Nat → BitVec 8) (left i : Nat) (d : Nat → BitVec 8) {place : Nat} (before : place < i) :
    stringLoop p left i d place = d place := by
  induction left generalizing i d with
  | zero => rfl
  | succ left ih =>
    rw [stringLoop]
    split
    · rw [ih (i + 1) _ (by omega), if_neg (by omega)]
    · rfl

theorem stringLoop_reads {p : Nat → BitVec 8} {text : List (BitVec 8)} (reads : Reads p text) (left i : Nat)
    (d : Nat → BitVec 8) (inside : i ≤ text.length) {place : Nat} (reached : i ≤ place) (bound : place < i + left)
    (blank : ∀ j, i ≤ j → d j = 0) : stringLoop p left i d place = segments (text.getD place 0) := by
  induction left generalizing i d with
  | zero => omega
  | succ left ih =>
    rw [stringLoop, reads.stored i inside]
    by_cases last : i = text.length
    · have nul : text.getD i 0 = 0 := List.getD_eq_default _ _ (by omega)
      have behind : text.getD place 0 = 0 := List.getD_eq_default _ _ (by omega)
      rw [if_neg (not_not.mpr nul), behind, blank place reached]
      rfl
    · have bounded : i < text.length := by omega
      have some : text.getD i 0 ≠ 0 := by
        rw [List.getD_eq_getElem _ _ bounded]
        exact reads.nonzero _ (List.getElem_mem bounded)
      rw [if_pos some]
      by_cases here : place = i
      · rw [stringLoop_outside p left (i + 1) _ (by omega), if_pos here, here]
      · apply ih (i + 1) _ bounded (by omega) (by omega)
        intro j later
        rw [if_neg (by omega), blank j (by omega)]

/-- A string is shown from the left, as far as there are places. -/
theorem writeString_works (working : Working start led) {p : Nat → BitVec 8} {text : List (BitVec 8)}
    (reads : Reads p text) :
    Working start (led7segWriteString p led) ∧ (led7segWriteString p led).nrDigits = led.nrDigits ∧
      (led7segWriteString p led).shown start = glyphs led.nrDigits.toNat text := by
  obtain ⟨works, same, shown⟩ := writeRaw_works working (stringLoop p 3 0 fun _ => 0)
  refine ⟨works, same, shown.trans (List.map_congr_left ?_)⟩
  intro place inside
  rw [List.mem_range] at inside
  have three : led.nrDigits.toNat ≤ 3 := by
    cases working with
    | tm1651 digits | shiftreg digits =>
      rw [digits]
      decide
  exact stringLoop_reads reads 3 0 _ (Nat.zero_le _) (Nat.zero_le place) (by omega) fun _ _ => rfl

end

theorem decimals_length (count n : Nat) : (decimals count n).length = count := by
  induction count generalizing n with
  | zero => rfl
  | succ count ih => rw [decimals, List.length_append, ih, List.length_singleton]

theorem decimals_zero (count : Nat) : decimals count 0 = List.replicate count 0 := by
  induction count with
  | zero => rfl
  | succ count ih => rw [decimals, Nat.zero_div, ih, Nat.zero_mod, List.replicate_succ']

theorem decimals_mod (count n : Nat) : decimals count (n % 10^count) = decimals count n := by
  induction count generalizing n with
  | zero => rfl
  | succ count ih =>
    have front : n % 10^(count + 1) / 10 = n / 10 % 10^count := by
      rw [Nat.pow_succ, Nat.mul_comm, Nat.mod_mul_right_div_self]
    have last : n % 10^(count + 1) % 10 = n % 10 := Nat.mod_mod_of_dvd n (Dvd.intro_left _ rfl)
    rw [decimals, decimals, front, last, ih]

theorem decimals_alike (count m n : Nat) : decimals count m = decimals count n ↔ m % 10^count = n % 10^count := by
  constructor
  · intro same
    induction count generalizing m n with
    | zero => rw [Nat.pow_zero, Nat.mod_one, Nat.mod_one]
    | succ count ih =>
      obtain ⟨front, last⟩ := List.append_inj' same rfl
      have higher := ih (m / 10) (n / 10) front
      have lowest : m % 10 = n % 10 := List.singleton_inj.mp last
      rw [Nat.pow_succ, Nat.mul_comm, Nat.mod_mul, Nat.mod_mul, lowest, higher]
  · intro same
    rw [← decimals_mod count m, same, decimals_mod]

/-- A number with zeros in front, as "%0*u" prints it -/
theorem field_decimals {count n : Nat} (positive : 0 < count) (small : n < 10^count) :
    field true count [] (numeral false 10 n) = (decimals count n).map (digitChar false) := by
  rw [field, if_pos rfl, List.nil_append, List.length_nil, Nat.zero_add]
  -- Printing takes the last digit off the number, and the zeros are what is left of the width.
  induction count generalizing n with
  | zero => omega
  | succ count ih =>
    by_cases one : n < 10
    · rw [numeral_small false one, decimals, Nat.div_eq_of_lt one, decimals_zero, Nat.mod_eq_of_lt one,
        List.map_append, List.map_replicate]
      rfl
    · have more : 0 < count := by
        rcases Nat.eq_zero_or_pos count with rfl | more
        · omega
        · exact more
      have smaller : n / 10 < 10^count := by
        apply Nat.div_lt_of_lt_mul
        rwa [Nat.mul_comm, ← Nat.pow_succ]
      rw [numeral_step false (by decide) (by omega), decimals, List.map_append, ← ih more smaller, List.length_append,
        List.length_singleton, Nat.add_sub_add_right, List.append_assoc]
      rfl

theorem segments_digit : ∀ digit < 10, segments (digitChar false digit) = digits.getD digit 0 := by decide

theorem mem_decimals {count n digit : Nat} (member : digit ∈ decimals count n) : digit < 10 := by
  induction count generalizing n with
  | zero => cases member
  | succ count ih =>
    rcases List.mem_append.mp member with front | last
    · exact ih front
    · rw [List.mem_singleton.mp last]
      exact Nat.mod_lt n (by decide)

theorem glyphs_decimals (count n : Nat) :
    glyphs count ((decimals count n).map (digitChar false)) = numberGlyphs count n := by
  have length := decimals_length count n
  apply List.ext_getElem
  · simp [glyphs, numberGlyphs, length]
  · intro i left right
    rw [glyphs, List.length_map, List.length_range] at left
    have bound : i < (decimals count n).length := by omega
    simp only [glyphs, numberGlyphs, List.getElem_map, List.getElem_range]
    rw [List.getD_eq_getElem _ _ (by rwa [List.length_map]), List.getElem_map]
    exact segments_digit _ (mem_decimals (List.getElem_mem bound))

def zeroPadded (count : Nat) (positive : 0 < count) (bound : count < 2^31) : Directive :=
  ⟨[.zero], .given count positive bound, false, .u⟩

theorem zeroPadded_standard {count : Nat} (positive : 0 < count) (bound : count < 2^31) {x : BitVec 32}
    (small : x.toNat < 10^count) :
    (zeroPadded count positive bound).standard x = (decimals count x.toNat).map (digitChar false) := by
  have value : (zeroPadded count positive bound).value x = x.toNat := rfl
  have unsigned : (zeroPadded count positive bound).minus x = [] := by
    rw [Directive.minus, value, if_neg (by omega)]
  have magnitude : (zeroPadded count positive bound).digits x = numeral false 10 x.toNat := by
    rw [Directive.digits, value, Int.natAbs_natCast]
    rfl
  rw [Directive.standard, unsigned, magnitude]
  exact field_decimals positive small

theorem digitChars_nonzero (count n : Nat) : ∀ c ∈ (decimals count n).map (digitChar false), c ≠ 0 := by
  intro c member
  obtain ⟨digit, inside, rfl⟩ := List.mem_map.mp member
  have bound := mem_decimals inside
  exact digitChar_nonzero false digit (by omega)

theorem snprintf_reads (memory : BitVec 32 → BitVec 8) {msg size : BitVec 32} {format text : List (BitVec 8)}
    {args : List Arg} (prints : Prints format args text) (ends : ∀ c ∈ format, c ≠ 0) (nonzero : ∀ c ∈ text, c ≠ 0)
    (inside : msg.toNat + size.toNat ≤ 2^32) (room : text.length < size.toNat) :
    ∃ b returned, snprintf memory msg size format args = .ok (b, returned) ∧
      Reads (fun i => b.memory (msg + BitVec.ofNat 32 i)) text := by
  have positive : 1 ≤ msg.toNat + size.toNat := by omega
  have noWrap : msg.toNat + text.length < 2^32 := by omega
  have terminated := (putAll_filled memory text positive inside noWrap).terminate positive inside noWrap
  have stored := terminated.stringAt nonzero room
  refine ⟨_, _, vsnprintf_eq memory msg size format args (prints.fullText ends), nonzero, ?_⟩
  intro i bound
  rcases Nat.lt_or_eq_of_le bound with before | rfl
  · rw [List.getD_eq_getElem _ _ before]
    exact stored.stored i before
  · rw [List.getD_eq_default _ _ (Nat.le_refl _)]
    exact stored.nul

/-- Up to three digits fit in `msg`. -/
theorem snprintf_decimals (memory : BitVec 32 → BitVec 8) {msg : BitVec 32} (inside : msg.toNat + 4 ≤ 2^32)
    {count n : Nat} (positive : 0 < count) (few : count ≤ 3) {x : BitVec 32} (value : x.toNat = n % 10^count) :
    ∃ b returned, snprintf memory msg 4 (zeroPadded count positive (by omega)).text [.int x] = .ok (b, returned) ∧
      Reads (fun i => b.memory (msg + BitVec.ofNat 32 i)) ((decimals count n).map (digitChar false)) := by
  have small : x.toNat < 10^count := by
    rw [value]
    exact Nat.mod_lt n (Nat.pow_pos (by decide))
  have bound : count < 2^31 := by omega
  have prints := (zeroPadded count positive bound).prints x rfl
  rw [zeroPadded_standard positive bound small, value, decimals_mod] at prints
  apply snprintf_reads memory prints (Directive.text_nonzero _) (digitChars_nonzero count n) inside
  rw [List.length_map, decimals_length]
  exact Nat.lt_succ_of_le few

section

variable {start : Registers} {led : Led7seg}

theorem writeDecimal_works (memory : BitVec 32 → BitVec 8) (msg val : BitVec 32) (working : Working start led)
    (inside : msg.toNat + 4 ≤ 2^32) :
    ∃ after, led7segWriteDecimal memory msg val led = .ok after ∧ Working start after ∧ after.nrDigits = led.nrDigits ∧
      after.shown start = numberGlyphs led.nrDigits.toNat val.toNat := by
  have text : ∃ p, led7segWriteDecimal memory msg val led = .ok (led7segWriteString p led) ∧
      Reads p ((decimals led.nrDigits.toNat val.toNat).map (digitChar false)) := by
    cases working with
    | tm1651 digits =>
      have value : (val % 1000).toNat = val.toNat % 10^3 := BitVec.toNat_umod
      obtain ⟨b, returned, printed, reads⟩ := snprintf_decimals memory inside (show 0 < 3 by decide) (by decide) value
      have format : "%03u".toList.map chr = (zeroPadded 3 (by decide) (by decide)).text := by decide +kernel
      refine ⟨_, ?_, by rw [digits]; exact reads⟩
      simp only [led7segWriteDecimal, digits, if_true, format, printed]
    | shiftreg digits =>
      have value : (val % 100).toNat = val.toNat % 10^2 := BitVec.toNat_umod
      obtain ⟨b, returned, printed, reads⟩ := snprintf_decimals memory inside (show 0 < 2 by decide) (by decide) value
      have format : "%02u".toList.map chr = (zeroPadded 2 (by decide) (by decide)).text := by decide +kernel
      have two : ¬ (2 : BitVec 8) = 3 := by decide
      refine ⟨_, ?_, by rw [digits]; exact reads⟩
      simp only [led7segWriteDecimal, digits, if_neg two, format, printed]
  obtain ⟨p, written, reads⟩ := text
  obtain ⟨works, same, shown⟩ := writeString_works working reads
  exact ⟨_, written, works, same, by rw [shown, glyphs_decimals]⟩

end

/-- A display that has just been switched on, or has been in use -/
structure Attached (three : Bool) (led : Led7seg) : Prop where
  rest : AtRest led.tm1651
  answers : ∀ n, (led.tm1651.chip.answers n).acknowledges = three

def places (three : Bool) : Nat := if three then 3 else 2

theorem tm1651Init_rest {bus : Bus} (rest : AtRest bus) : tm1651Init bus = tm1651SendCmd 0x40 bus := by
  have data : bus.setDat true = bus := by
    obtain ⟨clk, dat, chip, moves⟩ := bus
    have high : clk = true := rest.clk
    have left : dat = true := rest.dat
    simp [Bus.setDat, Bus.notice, Bus.lines, edge, Edge.moves, Chip.see, high, left]
  have clock : bus.setClk true = bus := by
    obtain ⟨clk, dat, chip, moves⟩ := bus
    have high : clk = true := rest.clk
    simp [Bus.setClk, Bus.notice, Bus.lines, edge, Edge.moves, Chip.see, high]
  rw [tm1651Init]
  dsimp only [tm1651SetDat, tm1651SetClk, tm1651SetPin]
  rw [data, clock]

theorem init_tm1651 (start : Registers) {led : Led7seg} (attached : Attached true led) :
    Working start (led7segInit led) ∧ (led7segInit led).nrDigits = 3 ∧ (led7segInit led).shown start = glyphs 3 [] := by
  obtain ⟨bus, found, rest, answers, _⟩ := tm1651_taken start led (writes_byte 0x40) attached.rest attached.answers
  let ready : Led7seg := { led with tm1651 := bus, nrDigits := 3 }
  obtain ⟨cleared, written, rest, answers, blank⟩ := writeRaw_tm1651 start ready rfl rest answers
    (stringLoop (quoted "") 3 0 fun _ => 0)
  let dark : Led7seg := { ready with tm1651 := cleared }
  obtain ⟨lit, switched, rest, answers, on⟩ :=
    tm1651_taken start dark (writes_byte (0x88 + tm1651Brightness)) rest answers
  have init : tm1651Init led.tm1651 = (false, bus) := (tm1651Init_rest attached.rest).trans found
  have cleans : led7segWriteString (quoted "") ready = dark := written
  have result : led7segInit led = { dark with tm1651 := lit } := by
    rw [led7segInit, init]
    change led7segDisplaySetting true (led7segWriteString (quoted "") ready) = _
    rw [cleans, led7segDisplaySetting, if_pos rfl]
    exact congrArg (fun done => { dark with tm1651 := done }) (congrArg Prod.snd switched)
  have registers := on.trans (take_whole _ _ [])
  have isOn : (Led7seg.registers start { dark with tm1651 := lit }).isOn = true := by
    rw [registers]
    rfl
  rw [result]
  refine ⟨.tm1651 rfl rest answers isOn, rfl, (shown_tm1651 (by rfl) isOn).trans ?_⟩
  have grid : (Led7seg.registers start { dark with tm1651 := lit }).grid = (dark.registers start).grid := by
    rw [registers]
    rfl
  rw [grid, blank]
  rfl

theorem init_shiftreg (start : Registers) {led : Led7seg} (attached : Attached false led) :
    Working start (led7segInit led) ∧ (led7segInit led).nrDigits = 2 ∧ (led7segInit led).shown start = glyphs 2 [] := by
  obtain ⟨bus, found, rest, same⟩ :=
    retry_refused (writes_byte 0x40) (List.cons_ne_nil _ _) 3 attached.rest attached.answers
  have init : tm1651Init led.tm1651 = (true, bus) := (tm1651Init_rest attached.rest).trans found
  obtain ⟨clk, _⟩ := shiftregInit_high led.shiftreg
  let ready : Led7seg := { led with nrDigits := 2, tm1651 := bus, shiftreg := shiftregInit led.shiftreg }
  obtain ⟨x, edges, written, value⟩ := writeRaw_shiftreg (show ready.nrDigits = 2 by rfl) clk
    (stringLoop (quoted "") 3 0 fun _ => 0)
  let dark : Led7seg := { ready with curval := x, shiftreg := ⟨true, true, x, edges⟩ }
  have result : led7segInit led = { dark with shiftreg := ⟨true, true, x, edges + 16⟩ } := by
    rw [led7segInit, init]
    change led7segDisplaySetting true (led7segWriteString (quoted "") ready) = _
    rw [led7segWriteString, written]
    change shiftregDisplaySetting true dark = _
    rw [shiftregDisplaySetting, shiftregUpdateDisplayU16_shows _ _ rfl]
    rfl
  rw [result]
  exact ⟨.shiftreg rfl rfl rest (by rw [same]; exact attached.answers), rfl, shown_shiftreg (by rfl) (by exact value)⟩

/-- `led_7seg_init()` finds out which display is attached, and leaves it blank. -/
theorem init_works (start : Registers) {three : Bool} {led : Led7seg} (attached : Attached three led) :
    Working start (led7segInit led) ∧ (led7segInit led).nrDigits.toNat = places three ∧
      (led7segInit led).shown start = glyphs (places three) [] := by
  cases three with
  | true =>
    obtain ⟨works, digits, shown⟩ := init_tm1651 start attached
    exact ⟨works, congrArg BitVec.toNat digits, shown⟩
  | false =>
    obtain ⟨works, digits, shown⟩ := init_shiftreg start attached
    exact ⟨works, congrArg BitVec.toNat digits, shown⟩

inductive Write where
  | string (p : Nat → BitVec 8) (text : List (BitVec 8)) (reads : Reads p text)
  | decimal (memory : BitVec 32 → BitVec 8) (msg val : BitVec 32) (inside : msg.toNat + 4 ≤ 2^32)

def Write.perform : Write → Led7seg → Except FormatFault Led7seg
  | .string p _ _, led => .ok (led7segWriteString p led)
  | .decimal memory msg val _, led => led7segWriteDecimal memory msg val led

def Write.glyphs (count : Nat) : Write → List (BitVec 8)
  | .string _ text _ => Display.glyphs count text
  | .decimal _ _ val _ => numberGlyphs count val.toNat

theorem Working.perform {start : Registers} {led : Led7seg} (working : Working start led) (write : Write) :
    ∃ after, write.perform led = .ok after ∧ Working start after ∧ after.nrDigits = led.nrDigits ∧
      after.shown start = write.glyphs led.nrDigits.toNat := by
  cases write with
  | string p text reads => exact ⟨_, rfl, writeString_works working reads⟩
  | decimal memory msg val inside => exact writeDecimal_works memory msg val working inside

theorem numberGlyphs_alike (count m n : Nat) :
    numberGlyphs count m = numberGlyphs count n ↔ m % 10^count = n % 10^count := by
  have apart : ∀ digit < 10, ∀ other < 10, digits.getD digit 0 = digits.getD other 0 → digit = other := by decide
  rw [← decimals_alike]
  refine ⟨fun same => ?_, congrArg (List.map fun digit => digits.getD digit 0)⟩
  apply List.ext_getElem ((decimals_length count m).trans (decimals_length count n).symm)
  intro i left right
  have place := List.getElem_of_eq same (by rwa [numberGlyphs, List.length_map])
  simp only [numberGlyphs, List.getElem_map] at place
  exact apart _ (mem_decimals (List.getElem_mem left)) _ (mem_decimals (List.getElem_mem right)) place

def lastGlyphs (count : Nat) (writes : List Write) : List (BitVec 8) :=
  (writes.getLast?.map (Write.glyphs count)).getD (glyphs count [])

theorem writes_work (start : Registers) {three : Bool} {led : Led7seg} (attached : Attached three led)
    (writes : List Write) :
    ∃ after, exec Write.perform writes (led7segInit led) = .ok after ∧ Working start after ∧
      after.nrDigits.toNat = places three ∧ after.shown start = lastGlyphs (places three) writes := by
  induction writes using List.reverseRecOn with
  | nil => exact ⟨_, rfl, init_works start attached⟩
  | append_singleton writes write ih =>
    obtain ⟨before, run, working, digits, _⟩ := ih
    obtain ⟨after, performed, works, same, shown⟩ := working.perform write
    refine ⟨after, ?_, works, by rw [same, digits], ?_⟩
    · rw [exec_append _ _ _ run, exec_singleton, performed]
    · rw [shown, digits, lastGlyphs, List.getLast?_concat]
      rfl

/-- On either display the last write is what is shown: a text from the left, a number by its last digits, so that two
numbers look alike only where those digits are the same. -/
theorem last_write_shown (start : Registers) (three : Bool) (led : Led7seg) (attached : Attached three led)
    (writes : List Write) :
    (∃ after, exec Write.perform writes (led7segInit led) = .ok after ∧
      after.shown start = lastGlyphs (places three) writes) ∧
    ∀ m n : Nat, numberGlyphs (places three) m = numberGlyphs (places three) n ↔
      m % 10^places three = n % 10^places three := by
  obtain ⟨after, run, _, _, shown⟩ := writes_work start attached writes
  exact ⟨⟨after, run, shown⟩, numberGlyphs_alike (places three)⟩

def threeWrites : List Write :=
  [.string (quoted "USB") ("USB".toList.map chr) ⟨by decide, fun _ _ => rfl⟩,
    .decimal (fun _ => 0) 0x20004ff0 1234 (by decide),
    .string (quoted "no") ("no".toList.map chr) ⟨by decide, fun _ _ => rfl⟩]

theorem last_write_shown_text : ∃ after,
    exec Write.perform threeWrites
      (led7segInit ⟨0, 0, .resting fun _ => .untilFall, ⟨false, false, 0xa5a5, 0⟩⟩) = .ok after ∧
    after.shown ⟨fun _ => 0xff, false⟩ = [0x54, 0x5c, 0] := by
  have attached : Attached true ⟨0, 0, .resting fun _ => .untilFall, ⟨false, false, 0xa5a5, 0⟩⟩ :=
    ⟨⟨rfl, rfl, rfl, rfl, rfl⟩, fun _ => rfl⟩
  obtain ⟨after, run, shown⟩ := (last_write_shown ⟨fun _ => 0xff, false⟩ true _ attached threeWrites).1
  exact ⟨after, run, shown.trans (by decide)⟩

end Testjig.Display
