import Testjig.Text.Integers
import Testjig.Text.Strtol

namespace Testjig.Text

open Machine Testjig.Sequence

theorem isDigit_signs (base : Nat) : isDigit base (chr '+') = false ∧ isDigit base (chr '-') = false := ⟨rfl, rfl⟩

theorem space_noDigit {c : Byte} (space : IsSpace c) : digitValue c = none := by
  decide +revert +kernel

section

variable {base : Nat} {digits : List Byte} (digital : ∀ c ∈ digits, isDigit base c = true)
include digital

theorem digits_noHex (small : base ≤ 33) : behindHex digits = none := by
  match digits with
  | [] | [_] => rfl
  | zero :: x :: rest =>
    rw [behindHex, if_neg]
    rintro ⟨-, isX⟩
    have digit := digital x (by simp)
    rw [isDigit_x isX] at digit
    exact absurd (of_decide_eq_true digit) (by omega)

theorem digits_noSign : behindSign digits = digits ∧ isNegative digits = false := by
  cases digits with
  | nil => exact ⟨rfl, rfl⟩
  | cons c rest =>
    have digit := digital c (by simp)
    have notPlus : c ≠ chr '+' := by
      rintro rfl
      exact absurd digit (by simp [(isDigit_signs base).1])
    have notMinus : c ≠ chr '-' := by
      rintro rfl
      exact absurd digit (by simp [(isDigit_signs base).2])
    simp [behindSign, isNegative, notPlus, notMinus]

theorem digits_noSpace : digits.dropWhile (fun c => IsSpace c) = digits := by
  cases digits with
  | nil => rfl
  | cons c rest =>
    have digit := digital c (by simp)
    have notSpace : ¬ IsSpace c := by
      intro space
      rw [isDigit, space_noDigit space] at digit
      exact Bool.false_ne_true digit
    rw [List.dropWhile_cons_of_neg (by simpa using notSpace)]

theorem digitPart_digits (positive : 0 < base) (small : base ≤ 33) :
    digitPart digits base = (runValue base digits, []) := by
  rw [digitPart, selectBase_plain (digits_noHex digital small), if_neg (by omega)]
  simp only [List.takeWhile_eq_self_iff.mpr digital, List.dropWhile_eq_nil_iff.mpr digital]

theorem grammar_digits (positive : 0 < base) (small : base ≤ 33) : grammar digits base = ((runValue base digits : Int), []) := by
  obtain ⟨unsigned, positiveSign⟩ := digits_noSign digital
  rw [grammar_eq, digits_noSpace digital]
  simp [unsigned, positiveSign, digitPart_digits digital positive small]

theorem grammar_minus (positive : 0 < base) (small : base ≤ 33) :
    grammar (chr '-' :: digits) base = (-(runValue base digits : Int), []) := by
  have start : (chr '-' :: digits).dropWhile (fun c => IsSpace c) = chr '-' :: digits :=
    List.dropWhile_cons_of_neg (by decide)
  have behind : behindSign (chr '-' :: digits) = digits := if_pos (.inr rfl)
  have negative : isNegative (chr '-' :: digits) = true := by simp [isNegative]
  rw [grammar_eq, start]
  simp only [behind, negative, digitPart_digits digital positive small, if_true]

end

theorem grammar_spaces (filling : Nat) (text : List Byte) (base : Nat) :
    grammar (List.replicate filling (chr ' ') ++ text) base = grammar text base := by
  have spaces : (List.replicate filling (chr ' ') ++ text).dropWhile (fun c => IsSpace c) =
      text.dropWhile fun c => IsSpace c := by
    apply List.dropWhile_append_of_pos
    intro c member
    rw [List.eq_of_mem_replicate member]
    decide
  rw [grammar_eq, grammar_eq, spaces]

theorem digitValue_digitChar (isUpper : Bool) (digit : Nat) (bound : digit < 16) :
    digitValue (digitChar isUpper digit) = some digit := by
  decide +revert

theorem isDigit_numeral {isUpper : Bool} {radix n : Nat} (large : 1 < radix) (small : radix ≤ 16) :
    ∀ c ∈ numeral isUpper radix n, isDigit radix c = true := by
  intro c member
  obtain ⟨digit, bound, rfl⟩ := mem_numeral large member
  rw [isDigit, digitValue_digitChar isUpper digit (by omega)]
  exact decide_eq_true bound

theorem runValue_numeral (isUpper : Bool) {radix : Nat} (large : 1 < radix) (small : radix ≤ 16) (n : Nat) :
    runValue radix (numeral isUpper radix n) = n := by
  rw [runValue_eq]
  -- Printing takes the last digit off the number, and reading puts it back.
  induction n using numeral_induction radix large with
  | small n one =>
    rw [numeral_small isUpper one, List.foldl_cons, List.foldl_nil, digitValue_digitChar isUpper n (by omega)]
    simp
  | step n two ih =>
    have bound : n % radix < 16 := by
      have rest := Nat.mod_lt n (show radix > 0 by omega)
      omega
    rw [numeral_step isUpper large two, List.foldl_append, ih, List.foldl_cons, List.foldl_nil,
      digitValue_digitChar isUpper _ bound, Option.getD_some, Nat.mul_comm]
    exact Nat.div_add_mod n radix

theorem runValue_zeros (base filling : Nat) (digits : List Byte) :
    runValue base (List.replicate filling (chr '0') ++ digits) = runValue base digits := by
  have zero : digitValue (chr '0') = some 0 := rfl
  rw [runValue_eq, runValue_eq]
  induction filling with
  | zero => rfl
  | succ filling ih => rw [List.replicate_succ, List.cons_append, List.foldl_cons, zero, Option.getD_some, Nat.zero_mul, ih]

theorem digital_append {base : Nat} {first second : List Byte} (left : ∀ c ∈ first, isDigit base c = true)
    (right : ∀ c ∈ second, isDigit base c = true) : ∀ c ∈ first ++ second, isDigit base c = true := by
  intro c member
  rcases List.mem_append.mp member with inFirst | inSecond
  · exact left c inFirst
  · exact right c inSecond

theorem digital_zeros {base : Nat} (positive : 0 < base) (filling : Nat) :
    ∀ c ∈ List.replicate filling (chr '0'), isDigit base c = true := by
  intro c member
  rw [List.eq_of_mem_replicate member]
  exact isDigit_zero positive

section

variable (directive : Directive) (v : BitVec 32)

theorem digits_value : runValue directive.letter.radix.toNat (directive.digits v) = (directive.value v).natAbs := by
  have isRadix := directive.letter.isRadix
  exact runValue_numeral _ isRadix.large isRadix.bounds.2 _

theorem digits_digital : ∀ c ∈ directive.digits v, isDigit directive.letter.radix.toNat c = true := by
  have isRadix := directive.letter.isRadix
  exact isDigit_numeral isRadix.large isRadix.bounds.2

/-- A minus and zeros in front of the digits of a value -/
theorem grammar_signed (filling : Nat) :
    grammar (directive.minus v ++ (List.replicate filling (chr '0') ++ directive.digits v)) directive.letter.radix.toNat =
      (directive.value v, []) := by
  have bounds := directive.letter.isRadix.bounds
  have positive : 0 < directive.letter.radix.toNat := by omega
  have small : directive.letter.radix.toNat ≤ 33 := by omega
  have digital := digital_append (digital_zeros positive filling) (digits_digital directive v)
  have value := (runValue_zeros directive.letter.radix.toNat filling (directive.digits v)).trans (digits_value directive v)
  rw [Directive.minus]
  by_cases negative : directive.value v < 0
  · rw [if_pos negative]
    refine (grammar_minus digital positive small).trans ?_
    rw [value]
    congr 1
    omega
  · rw [if_neg negative, List.nil_append, grammar_digits digital positive small, value]
    congr 1
    omega

/-- What is printed for a value is in the grammar, in the base of the conversion. -/
theorem grammar_standard : grammar (directive.standard v) directive.letter.radix.toNat = (directive.value v, []) := by
  rw [Directive.standard, field]
  by_cases zero : directive.isZero
  · rw [if_pos zero, List.append_assoc]
    exact grammar_signed directive v _
  · rw [if_neg zero, List.append_assoc, grammar_spaces]
    exact grammar_signed directive v 0

theorem value_word (whole : directive.half = false) : BitVec.ofInt 32 (directive.value v) = v := by
  rw [Directive.value, whole]
  cases directive.letter.isSigned with
  | true => exact BitVec.ofInt_toInt
  | false =>
    simp only [Bool.false_eq_true, if_false]
    rw [BitVec.ofInt_natCast, BitVec.ofNat_toNat, BitVec.setWidth_eq]

theorem strtol_standard (whole : directive.half = false) :
    strtol (directive.standard v) directive.letter.radix.toNat = (v, []) := by
  have bounds := directive.letter.isRadix.bounds
  have right : ¬ Misread (directive.standard v) directive.letter.radix.toNat := by
    rintro ⟨rest, -, ⟨none, -⟩ | large⟩ <;> omega
  rw [strtol_grammar right, grammar_standard, value_word directive v whole]

theorem standard_nonzero : ∀ c ∈ directive.standard v, c ≠ 0 := by
  have bounds := directive.letter.isRadix.bounds
  have minus : ∀ c ∈ directive.minus v, c ≠ 0 := by
    rw [Directive.minus]
    split <;> decide
  intro c member
  rcases mem_field member with rfl | rfl | inMinus | inDigits
  · decide
  · decide
  · exact minus c inMinus
  · exact numeral_nonzero directive.letter.isRadix.large bounds.2 c inDigits

end

structure StringAt (memory : BitVec 32 → Byte) (str : BitVec 32) (text : List Byte) : Prop where
  nonzero : ∀ c ∈ text, c ≠ 0
  stored : ∀ i (bound : i < text.length), memory (str + BitVec.ofNat 32 i) = text[i]
  nul : memory (str + BitVec.ofNat 32 text.length) = 0

theorem Terminated.stringAt {str size : BitVec 32} {memory : BitVec 32 → Byte} {text : List Byte} {b : Buffer}
    (terminated : Terminated str size memory text b) (nonzero : ∀ c ∈ text, c ≠ 0) (room : text.length < size.toNat) :
    StringAt b.memory str text where
  nonzero := nonzero
  stored := by
    intro i bound
    exact terminated.front i bound (by omega)
  nul := by
    have last := terminated.nul (by omega)
    rwa [Nat.min_eq_left (by omega)] at last

/-- What `snprintf()` prints for a value, `strtol()` reads back, up to the NUL. -/
theorem strtol_snprintf (memory : BitVec 32 → Byte) (str size : BitVec 32) (directive : Directive) (v : BitVec 32)
    (plain : directive.isAlternate = false) (whole : directive.half = false)
    (fits : str.toNat + size.toNat ≤ 2^32) (room : (directive.standard v).length < size.toNat) :
    ∃ b returned text, snprintf memory str size directive.text (directive.args v) = .ok (b, returned) ∧
      StringAt b.memory str text ∧ strtol text directive.letter.radix.toNat = (v, []) := by
  have full : fullText directive.text (directive.args v) = .ok (directive.standard v) :=
    (directive.prints v plain).fullText directive.text_nonzero
  have terminated := (putAll_filled memory (directive.standard v) (show 1 ≤ str.toNat + size.toNat by omega) fits
    (by omega)).terminate (by omega) fits (by omega)
  refine ⟨_, _, directive.standard v, vsnprintf_eq memory str size _ _ full, ?_, strtol_standard directive v whole⟩
  exact terminated.stringAt (standard_nonzero directive v) room

theorem strtol_snprintf_zeros :
    ∃ b returned text, snprintf (fun _ => 0) 0x20000000 8 ("%06d".toList.map chr) [.int (-42)] = .ok (b, returned) ∧
      StringAt b.memory 0x20000000 text ∧ strtol text 10 = (-42, []) :=
  strtol_snprintf (fun _ => 0) 0x20000000 8 ⟨[.zero], .given 6 (by decide) (by decide), false, .d⟩ (-42) (by decide)
    (by decide) (by decide) (by decide +kernel)

end Testjig.Text
