import Mathlib.Data.List.TakeWhile
import Mathlib.Data.Nat.Digits.Defs
import Testjig.Text.Format

namespace Testjig.Text

open Testjig.Sequence

def tolower (c : Int) : Int := if 'A'.toNat ≤ c ∧ c ≤ 'Z'.toNat then c + ('a'.toNat - 'A'.toNat) else c

def isspace (c : Int) : Bool :=
  c = ' '.toNat ∨ c = '\t'.toNat ∨ c = '\n'.toNat ∨ c = '\r'.toNat ∨ c = 12 ∨ c = 11

/-- `*p`, where `p` points at the rest of a string: its NUL at the end -/
def peek : List Byte → Int
  | [] => 0
  | byte :: _ => byte.toNat

def skipSpace : List Byte → List Byte
  | [] => []
  | byte :: p => if isspace byte.toNat then skipSpace p else byte :: p

/-- The conversion of `c` to a digit, or the end of the digits -/
def toDigit (c : Int) : Option Int :=
  if '0'.toNat ≤ c ∧ c ≤ '9'.toNat then some (c - '0'.toNat)
  else if 'a'.toNat ≤ c ∧ c ≤ 'z'.toNat then some (c - ('a'.toNat - 10))
  else none

/-- The loop over the digits: `c` is `tolower(*p)` each time around. -/
def digitsLoop (base : Int) : List Byte → BitVec 32 → BitVec 32 × List Byte
  | [], val => (val, [])
  | byte :: p, val =>
    match toDigit (tolower byte.toNat) with
    | none => (val, byte :: p)
    | some c =>
      if base ≤ c then (val, byte :: p) else digitsLoop base p (val * BitVec.ofInt 32 base + BitVec.ofInt 32 c)

/-- What follows the sign: the prefix, the digits, and the value before it is negated -/
def unsignedPart (p : List Byte) (base : Int) : BitVec 32 × List Byte :=
  if tolower (peek p) = '0'.toNat then
    let base := if base = 0 then 8 else base
    let p := p.tail
    if tolower (peek p) = 'x'.toNat then
      -- Base 0 has become 8 by now, so this never makes it 16.
      let base := if base = 0 then 16 else base
      if base ≠ 16 then (0, p) else digitsLoop (if base = 0 then 10 else base) p.tail 0
    else digitsLoop (if base = 0 then 10 else base) p 0
  else digitsLoop (if base = 0 then 10 else base) p 0

/-- The value that `strtol()` returns, and the rest of the string, at which `*endptr` points. The sums of its `long`
wrap, as they do on the target. -/
def strtol (nptr : List Byte) (base : Int) : BitVec 32 × List Byte :=
  let p := skipSpace nptr
  let c := tolower (peek p)
  let p' := if c = '+'.toNat ∨ c = '-'.toNat then p.tail else p
  let (val, p'') := unsignedPart p' base
  (if c = '-'.toNat then -val else val, p'')

/-! The grammar that `strtol()` is meant to accept -/

def IsSpace (c : Byte) : Prop := c = 32 ∨ 9 ≤ c ∧ c ≤ 13

instance : DecidablePred IsSpace := fun c => inferInstanceAs (Decidable (c = 32 ∨ 9 ≤ c ∧ c ≤ 13))

def digitValue (c : Byte) : Option Nat :=
  if chr '0' ≤ c ∧ c ≤ chr '9' then some (c.toNat - 48)
  else if chr 'a' ≤ c ∧ c ≤ chr 'z' then some (c.toNat - 87)
  else if chr 'A' ≤ c ∧ c ≤ chr 'Z' then some (c.toNat - 55)
  else none

def isDigit (base : Nat) (c : Byte) : Bool :=
  match digitValue c with
  | some digit => digit < base
  | none => false

def behindHex : List Byte → Option (List Byte)
  | zero :: x :: rest => if zero = chr '0' ∧ (x = chr 'x' ∨ x = chr 'X') then some rest else none
  | _ => none

def startsHex (text : List Byte) : Bool := text.head?.any (isDigit 16)

/-- The base that the prefix selects, and the text from the digits on -/
def selectBase (base : Nat) (text : List Byte) : Nat × List Byte :=
  if base = 0 then
    match behindHex text with
    | some rest => if startsHex rest then (16, rest) else (8, text)
    | none => (if text.head? = some (chr '0') then 8 else 10, text)
  else if base = 16 then (16, (behindHex text).getD text)
  else (base, text)

def isNegative (text : List Byte) : Bool := text.head? = some (chr '-')

def behindSign (text : List Byte) : List Byte :=
  if text.head? = some (chr '+') ∨ text.head? = some (chr '-') then text.tail else text

def runValue (base : Nat) (run : List Byte) : Nat :=
  Nat.ofDigits base (run.reverse.map fun c => (digitValue c).getD 0)

def grammar (text : List Byte) (base : Nat) : Int × List Byte :=
  let text := text.dropWhile fun c => IsSpace c
  let (base, digits) := selectBase base (behindSign text)
  let value : Int := runValue base (digits.takeWhile (isDigit base))
  (if isNegative text then -value else value, digits.dropWhile (isDigit base))

theorem isspace_eq (c : Byte) : isspace c.toNat = decide (IsSpace c) := by
  decide +revert +kernel

theorem toDigit_eq (c : Byte) : toDigit (tolower c.toNat) = (digitValue c).map Int.ofNat := by
  decide +revert +kernel

theorem tolower_sign (c : Byte) :
    (tolower c.toNat = '+'.toNat ↔ c = chr '+') ∧ (tolower c.toNat = '-'.toNat ↔ c = chr '-') := by
  decide +revert +kernel

theorem tolower_marks (c : Byte) :
    (tolower c.toNat = '0'.toNat ↔ c = chr '0') ∧ (tolower c.toNat = 'x'.toNat ↔ c = chr 'x' ∨ c = chr 'X') := by
  decide +revert +kernel

theorem skipSpace_eq (text : List Byte) : skipSpace text = text.dropWhile fun c => IsSpace c := by
  induction text with
  | nil => rfl
  | cons c rest ih => rw [skipSpace, List.dropWhile_cons, isspace_eq, ih]

theorem runValue_eq (base : Nat) (run : List Byte) :
    runValue base run = run.foldl (fun value c => value * base + (digitValue c).getD 0) 0 := by
  rw [runValue, Nat.ofDigits_eq_foldr, List.foldr_map, List.foldr_reverse]
  congr 1
  funext value c
  simp [Nat.mul_comm, Nat.add_comm]

/-- The loop computes the value of the run that it consumes, behind the digits it has seen. -/
theorem digitsLoop_eq (base : Nat) (text : List Byte) (seen : Nat) :
    digitsLoop base text (BitVec.ofNat 32 seen) =
      (BitVec.ofNat 32 ((text.takeWhile (isDigit base)).foldl (fun value c => value * base + (digitValue c).getD 0) seen),
        text.dropWhile (isDigit base)) := by
  -- The value grows along the run, so it stays general.
  induction text generalizing seen with
  | nil => rfl
  | cons c rest ih =>
    rw [digitsLoop, toDigit_eq]
    cases digit : digitValue c with
    | none =>
      have stops : isDigit base c = false := by
        rw [isDigit, digit]
      simp [stops]
    | some value =>
      by_cases large : base ≤ value
      · have stops : isDigit base c = false := by
          rw [isDigit, digit]
          exact decide_eq_false (by omega)
        simp [stops, large]
      · have goesOn : isDigit base c = true := by
          rw [isDigit, digit]
          exact decide_eq_true (by omega)
        have next : BitVec.ofNat 32 seen * BitVec.ofInt 32 base + BitVec.ofInt 32 (Int.ofNat value) =
            BitVec.ofNat 32 (seen * base + value) := by
          rw [BitVec.ofInt_natCast, Int.ofNat_eq_natCast, BitVec.ofInt_natCast, BitVec.ofNat_add, BitVec.ofNat_mul]
        have further : ¬ (base : Int) ≤ Int.ofNat value := by
          rw [Int.ofNat_eq_natCast]
          omega
        simp only [Option.map_some, if_neg further]
        rw [next, ih, List.takeWhile_cons_of_pos goesOn, List.dropWhile_cons_of_pos goesOn, List.foldl_cons, digit,
          Option.getD_some]

theorem digitsLoop_run (base : Nat) (text : List Byte) :
    digitsLoop base text 0 =
      (BitVec.ofNat 32 (runValue base (text.takeWhile (isDigit base))), text.dropWhile (isDigit base)) := by
  rw [runValue_eq]
  exact digitsLoop_eq base text 0

theorem digitsLoop_zero (base : Nat) (positive : 0 < base) (p : List Byte) :
    digitsLoop base (chr '0' :: p) 0 = digitsLoop base p 0 := by
  have digit : toDigit (tolower (chr '0').toNat) = some 0 := rfl
  have value : (0 : BitVec 32) * BitVec.ofInt 32 base + BitVec.ofInt 32 0 = 0 := by
    exact congrArg (· + 0) (BitVec.zero_mul (x := BitVec.ofInt 32 base))
  have below : ¬ (base : Int) ≤ 0 := by omega
  rw [digitsLoop, digit]
  simp only [if_neg below, value]

theorem behindHex_eq {text rest : List Byte} (hex : behindHex text = some rest) :
    ∃ x, (x = chr 'x' ∨ x = chr 'X') ∧ text = chr '0' :: x :: rest := by
  match text with
  | [] | [_] => simp [behindHex] at hex
  | zero :: x :: tail =>
    rw [behindHex] at hex
    split at hex
    · rename_i marks
      cases hex
      exact ⟨x, marks.2, by rw [marks.1]⟩
    · cases hex

theorem behindHex_none {p : List Byte} (plain : behindHex (chr '0' :: p) = none) : ¬ tolower (peek p) = 'x'.toNat := by
  match p with
  | [] => decide
  | c :: rest =>
    intro same
    have isX := (tolower_marks c).2.mp same
    simp [behindHex, isX] at plain

section

variable {base : Nat}

/-- After `0x` only base 16 goes on. -/
theorem unsignedPart_hex {x : Byte} (isX : x = chr 'x' ∨ x = chr 'X') (rest : List Byte) :
    unsignedPart (chr '0' :: x :: rest) base = if base = 16 then digitsLoop 16 rest 0 else (0, x :: rest) := by
  have zero : tolower (peek (chr '0' :: x :: rest)) = '0'.toNat := (tolower_marks (chr '0')).1.mpr rfl
  have same : tolower (peek (x :: rest)) = 'x'.toNat := (tolower_marks x).2.mpr isX
  refine (if_pos zero).trans ((if_pos same).trans ?_)
  by_cases sixteen : base = 16
  · subst sixteen
    rfl
  · rw [if_neg sixteen]
    apply if_pos
    split
    · omega
    · omega

theorem unsignedPart_zero {p : List Byte} (plain : behindHex (chr '0' :: p) = none) :
    unsignedPart (chr '0' :: p) base = digitsLoop (if base = 0 then 8 else base : Nat) (chr '0' :: p) 0 := by
  have zero : tolower (peek (chr '0' :: p)) = '0'.toNat := (tolower_marks (chr '0')).1.mpr rfl
  refine (if_pos zero).trans ((if_neg (behindHex_none plain)).trans ?_)
  rw [digitsLoop_zero _ (by split <;> omega)]
  congr 1
  by_cases none : base = 0
  · subst none
    rfl
  · simp [none]

theorem unsignedPart_other {p : List Byte} (other : p.head? ≠ some (chr '0')) :
    unsignedPart p base = digitsLoop (if base = 0 then 10 else base : Nat) p 0 := by
  have plain : ¬ tolower (peek p) = '0'.toNat := by
    cases p with
    | nil => decide
    | cons c rest =>
      intro same
      exact other (congrArg some ((tolower_marks c).1.mp same))
  refine (if_neg plain).trans ?_
  congr 1
  by_cases none : base = 0
  · subst none
    rfl
  · simp [none]

/-- The part behind the sign is misread: `0x` in front of a hexadecimal digit, in base 0, or where x is a digit -/
def MisreadPart (text : List Byte) (base : Nat) : Prop :=
  ∃ rest, behindHex text = some rest ∧ (base = 0 ∧ startsHex rest = true ∨ 34 ≤ base)

def digitPart (text : List Byte) (base : Nat) : Nat × List Byte :=
  let (base, digits) := selectBase base text
  (runValue base (digits.takeWhile (isDigit base)), digits.dropWhile (isDigit base))

theorem isDigit_zero (positive : 0 < base) : isDigit base (chr '0') = true := decide_eq_true positive

theorem isDigit_x {x : Byte} (isX : x = chr 'x' ∨ x = chr 'X') : isDigit base x = decide (33 < base) := by
  rcases isX with rfl | rfl <;> rfl

/-- Where x is no digit, `0x` is a zero with something else behind it. -/
theorem run_hex (positive : 0 < base) (small : base ≤ 33) {x : Byte} (isX : x = chr 'x' ∨ x = chr 'X') (rest : List Byte) :
    (runValue base ((chr '0' :: x :: rest).takeWhile (isDigit base)), (chr '0' :: x :: rest).dropWhile (isDigit base)) =
      (0, x :: rest) := by
  have stops : isDigit base x = false := by
    rw [isDigit_x isX]
    exact decide_eq_false (by omega)
  have zero := isDigit_zero positive
  rw [List.takeWhile_cons_of_pos zero, List.dropWhile_cons_of_pos zero, List.takeWhile_cons_of_neg (by simp [stops]),
    List.dropWhile_cons_of_neg (by simp [stops])]
  rfl

theorem selectBase_plain {text : List Byte} (plain : behindHex text = none) :
    selectBase base text =
      (if base = 0 then if text.head? = some (chr '0') then 8 else 10 else base, text) := by
  rw [selectBase, plain]
  by_cases none : base = 0
  · rw [if_pos none, if_pos none]
  · rw [if_neg none, if_neg none]
    split
    · rename_i sixteen
      rw [sixteen]
      rfl
    · rfl

theorem unsignedPart_plain {text : List Byte} (plain : behindHex text = none) :
    unsignedPart text base = digitsLoop (selectBase base text).1 text 0 := by
  rw [selectBase_plain plain]
  by_cases zero : text.head? = some (chr '0')
  · obtain ⟨p, rfl⟩ : ∃ p, text = chr '0' :: p := List.head?_eq_some_iff.mp zero
    rw [unsignedPart_zero plain, if_pos zero]
  · rw [unsignedPart_other zero, if_neg zero]

/-- Apart from what is misread, the part behind the sign is read as the grammar says. -/
theorem unsignedPart_eq (text : List Byte) (right : ¬ MisreadPart text base) :
    unsignedPart text base = (BitVec.ofNat 32 (digitPart text base).1, (digitPart text base).2) := by
  cases hex : behindHex text with
  | none =>
    obtain ⟨radix, selected⟩ : ∃ radix, selectBase base text = (radix, text) := ⟨_, selectBase_plain hex⟩
    rw [unsignedPart_plain hex, digitsLoop_run, digitPart, selected]
  | some rest =>
    obtain ⟨x, isX, rfl⟩ := behindHex_eq hex
    rw [unsignedPart_hex isX]
    by_cases sixteen : base = 16
    · have selected : selectBase base (chr '0' :: x :: rest) = (16, rest) := by
        rw [selectBase, if_neg (by omega), if_pos sixteen, hex]
        rfl
      rw [if_pos sixteen, digitPart, selected]
      exact digitsLoop_run 16 rest
    · have read : ∃ radix, selectBase base (chr '0' :: x :: rest) = (radix, chr '0' :: x :: rest) ∧ 0 < radix ∧
          radix ≤ 33 := by
        by_cases none : base = 0
        · have other : ¬ startsHex rest = true := fun starts => right ⟨rest, hex, .inl ⟨none, starts⟩⟩
          refine ⟨8, ?_, by decide, by decide⟩
          rw [selectBase, if_pos none, hex]
          exact if_neg other
        · have small : ¬ 34 ≤ base := fun large => right ⟨rest, hex, .inr large⟩
          refine ⟨base, ?_, by omega, by omega⟩
          rw [selectBase, if_neg none, if_neg sixteen]
      obtain ⟨radix, selected, positive, small⟩ := read
      obtain ⟨value, remains⟩ := Prod.mk.inj (run_hex positive small isX rest)
      rw [if_neg sixteen, digitPart, selected]
      simp only [value, remains]
      rfl

theorem length_dropWhile_le (text : List Byte) : (text.dropWhile (isDigit base)).length ≤ text.length :=
  (List.dropWhile_suffix _).length_le

/-- What is misread ends at the x, which belongs to the number. -/
theorem unsignedPart_misread {text : List Byte} (wrong : MisreadPart text base) :
    (unsignedPart text base).2 ≠ (digitPart text base).2 := by
  obtain ⟨rest, hex, how⟩ := wrong
  obtain ⟨x, isX, rfl⟩ := behindHex_eq hex
  -- The grammar goes past the x, the code stops in front of it.
  have shorter : (digitPart (chr '0' :: x :: rest) base).2.length ≤ rest.length := by
    rw [digitPart]
    rcases how with ⟨none, starts⟩ | large
    · have selected : selectBase base (chr '0' :: x :: rest) = (16, rest) := by
        rw [selectBase, if_pos none, hex]
        exact if_pos starts
      rw [selected]
      exact length_dropWhile_le rest
    · have selected : selectBase base (chr '0' :: x :: rest) = (base, chr '0' :: x :: rest) := by
        rw [selectBase, if_neg (by omega), if_neg (by omega)]
      have goesOn : isDigit base x = true := by
        rw [isDigit_x isX]
        exact decide_eq_true (by omega)
      rw [selected]
      simp only [List.dropWhile_cons_of_pos (isDigit_zero (show 0 < base by omega)), List.dropWhile_cons_of_pos goesOn]
      exact length_dropWhile_le rest
  rw [unsignedPart_hex isX, if_neg (by omega)]
  intro same
  have lengths := congrArg List.length same
  rw [List.length_cons] at lengths
  omega

end

/-- When `strtol()` does not read what its grammar says -/
def Misread (text : List Byte) (base : Nat) : Prop :=
  MisreadPart (behindSign (text.dropWhile fun c => IsSpace c)) base

theorem strtol_eq (text : List Byte) (base : Nat) :
    strtol text base =
      let text := text.dropWhile fun c => IsSpace c
      let (value, rest) := unsignedPart (behindSign text) base
      (if isNegative text then -value else value, rest) := by
  rw [strtol, skipSpace_eq]
  generalize text.dropWhile (fun c => IsSpace c) = text
  have minus : tolower (peek text) = '-'.toNat ↔ isNegative text = true := by
    cases text with
    | nil => decide
    | cons c rest => simpa [isNegative, peek] using (tolower_sign c).2
  have signed : (if tolower (peek text) = '+'.toNat ∨ tolower (peek text) = '-'.toNat then text.tail else text) =
      behindSign text := by
    cases text with
    | nil => rfl
    | cons c rest =>
      apply if_congr _ rfl rfl
      simpa [peek] using or_congr (tolower_sign c).1 (tolower_sign c).2
  simp only [signed]
  simp only [minus]

theorem grammar_eq (text : List Byte) (base : Nat) :
    grammar text base =
      let text := text.dropWhile fun c => IsSpace c
      let (value, rest) := digitPart (behindSign text) base
      (if isNegative text then -(value : Int) else value, rest) := by
  rfl

/-- `strtol()` computes modulo 2^32 what the grammar says. -/
theorem strtol_grammar {text : List Byte} {base : Nat} (right : ¬ Misread text base) :
    strtol text base = (BitVec.ofInt 32 (grammar text base).1, (grammar text base).2) := by
  rw [strtol_eq, grammar_eq]
  simp only [unsignedPart_eq _ right]
  by_cases negative : isNegative (text.dropWhile fun c => IsSpace c) = true
  · rw [if_pos negative, if_pos negative, BitVec.ofInt_neg, BitVec.ofInt_natCast]
  · rw [if_neg negative, if_neg negative, BitVec.ofInt_natCast]

/-- `strtol()` accepts its grammar but for a prefix `0x` in base 0 and in the bases where x is a digit. -/
theorem strtol_accepts_iff (text : List Byte) (base : Nat)
    (representable : -2^31 ≤ (grammar text base).1 ∧ (grammar text base).1 < 2^31) :
    ((strtol text base).1.toInt = (grammar text base).1 ∧ (strtol text base).2 = (grammar text base).2) ↔
      ¬ Misread text base := by
  constructor
  · rintro ⟨-, same⟩ wrong
    rw [strtol_eq, grammar_eq] at same
    exact unsignedPart_misread wrong same
  · intro right
    rw [strtol_grammar right, BitVec.toInt_ofInt]
    exact ⟨Int.bmod_eq_of_le (by omega) (by omega), rfl⟩

theorem strtol_accepts_iff_hex :
    (strtol (" -0x1f;".toList.map chr) 16).1.toInt = (grammar (" -0x1f;".toList.map chr) 16).1 ∧
      (strtol (" -0x1f;".toList.map chr) 16).2 = (grammar (" -0x1f;".toList.map chr) 16).2 := by
  apply (strtol_accepts_iff (" -0x1f;".toList.map chr) 16 (by decide +kernel)).mpr
  rintro ⟨rest, -, ⟨zero, -⟩ | large⟩
  · exact absurd zero (by decide)
  · exact absurd large (by decide)

/-- The prefix is not taken in base 0, and the digits are not in base 36. -/
theorem strtol_misreads :
    (strtol ("0x1f".toList.map chr) 0 = (0, "x1f".toList.map chr) ∧ grammar ("0x1f".toList.map chr) 0 = (31, [])) ∧
    (strtol ("0xa".toList.map chr) 36 = (0, "xa".toList.map chr) ∧ grammar ("0xa".toList.map chr) 36 = (1198, [])) := by
  decide +kernel

end Testjig.Text
