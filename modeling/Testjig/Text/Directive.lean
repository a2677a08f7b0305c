import Mathlib.Tactic.IntervalCases
import Testjig.Text.Truncation

namespace Testjig.Text

open Machine Testjig.Sequence

inductive Flag where
  | zero
  | hash
deriving DecidableEq, Repr

def Flag.char : Flag → Byte
  | .zero => chr '0'
  | .hash => chr '#'

def Flag.bit : Flag → BitVec 32
  | .zero => zeropad
  | .hash => alternate

/-- A width in a format: none, a number, or an argument -/
inductive Width where
  | none
  | given (w : Nat) (positive : 0 < w) (bound : w < 2^31)
  | star (w : Nat) (bound : w < 2^31)

namespace Width

def value : Width → Nat
  | none => 0
  | given w _ _ | star w _ => w

def text : Width → List Byte
  | none => []
  | given w _ _ => numeral false 10 w
  | star _ _ => [chr '*']

def args : Width → List Arg
  | none | given _ _ _ => []
  | star w _ => [.int (BitVec.ofNat 32 w)]

end Width

inductive Letter where
  | d
  | i
  | u
  | o
  | x
  | X
deriving DecidableEq, Repr

namespace Letter

def char : Letter → Byte
  | d => chr 'd'
  | i => chr 'i'
  | u => chr 'u'
  | o => chr 'o'
  | x => chr 'x'
  | X => chr 'X'

def isSigned : Letter → Bool
  | d | i => true
  | u | o | x | X => false

def isUpper : Letter → Bool
  | X => true
  | d | i | u | o | x => false

def radix : Letter → BitVec 32
  | d | i | u => 10
  | o => 8
  | x | X => 16

def bits (letter : Letter) : BitVec 32 :=
  (if letter.isSigned then sign else 0) ||| (if letter.isUpper then upper else 0) ||| letter.radix

theorem isRadix (letter : Letter) : IsRadix letter.radix := by
  cases letter
  case o => exact .inl rfl
  case x | X => exact .inr (.inr rfl)
  all_goals exact .inr (.inl rfl)

end Letter

def flagWord (zero hash half : Bool) (letter : Letter) : BitVec 32 :=
  (if zero then zeropad else 0) ||| (if hash then alternate else 0) ||| (if half then short else 0) ||| letter.bits

structure Directive where
  flags : List Flag
  width : Width
  half : Bool
  letter : Letter

namespace Directive

def text (directive : Directive) : List Byte :=
  chr '%' :: directive.flags.map Flag.char ++ directive.width.text ++ (if directive.half then [chr 'h'] else []) ++
    [directive.letter.char]

def args (directive : Directive) (x : BitVec 32) : List Arg := directive.width.args ++ [.int x]

def isZero (directive : Directive) : Bool := .zero ∈ directive.flags

def isAlternate (directive : Directive) : Bool := .hash ∈ directive.flags

def word (directive : Directive) : BitVec 32 :=
  flagWord directive.isZero directive.isAlternate directive.half directive.letter

end Directive

section

variable (zero hash half : Bool) (letter : Letter)

theorem flagWord_sign : flagWord zero hash half letter &&& sign ≠ 0 ↔ letter.isSigned = true := by
  cases letter <;> decide +revert

theorem flagWord_upper : flagWord zero hash half letter &&& upper ≠ 0 ↔ letter.isUpper = true := by
  cases letter <;> decide +revert

theorem flagWord_base : flagWord zero hash half letter &&& base = letter.radix := by
  cases letter <;> decide +revert

theorem flagWord_zeropad : flagWord zero hash half letter &&& zeropad ≠ 0 ↔ zero = true := by
  cases letter <;> decide +revert

theorem flagWord_alternate : flagWord zero hash half letter &&& alternate ≠ 0 ↔ hash = true := by
  cases letter <;> decide +revert

theorem flagWord_char : flagWord zero hash half letter &&& charFlag = 0 := by
  cases letter <;> decide +revert

theorem flagWord_short : flagWord zero hash half letter &&& short ≠ 0 ↔ half = true := by
  cases letter <;> decide +revert

end


section

variable {σ : Type} (put : σ → Byte → σ)

def flagBits (zero hash : Bool) : BitVec 32 := (if zero then zeropad else 0) ||| (if hash then alternate else 0)

theorem flagBits_step (zero hash : Bool) (flag : Flag) :
    flagBits zero hash ||| flag.bit = flagBits (zero || flag = .zero) (hash || flag = .hash) := by
  cases flag <;> decide +revert

theorem exec_flags (flags : List Flag) (zero hash : Bool) (width : Int) (args : List Arg) (out : σ) :
    exec (consume put) (flags.map Flag.char) ⟨.more (flagBits zero hash) width, args, out⟩ =
      .ok ⟨.more (flagBits (zero || decide (.zero ∈ flags)) (hash || decide (.hash ∈ flags))) width, args, out⟩ := by
  induction flags generalizing zero hash with
  | nil => simp
  | cons flag rest ih =>
    have taken : consume put flag.char ⟨.more (flagBits zero hash) width, args, out⟩ =
        .ok ⟨.more (flagBits zero hash ||| flag.bit) width, args, out⟩ := by
      cases flag <;> rfl
    rw [List.map_cons, exec, taken, flagBits_step]
    refine (ih _ _).trans ?_
    cases flag <;> simp

theorem exec_start (flags : List Flag) (args : List Arg) (out : σ) :
    exec (consume put) (chr '%' :: flags.map Flag.char) ⟨.plain, args, out⟩ =
      .ok ⟨.more (flagBits (decide (.zero ∈ flags)) (decide (.hash ∈ flags))) 0, args, out⟩ := by
  have all := exec_flags put flags false false 0 args out
  rw [Bool.false_or, Bool.false_or] at all
  exact all

theorem digitChar_decimal (isUpper : Bool) (digit : Nat) (decimal : digit < 10) :
    (digitChar isUpper digit).toNat = (chr '0').toNat + digit := by
  decide +revert

/-- The digits of a width, read one after another -/
theorem exec_width (flags : BitVec 32) (n : Nat) (positive : 0 < n) (bound : n < 2^31) (args : List Arg) (out : σ) :
    exec (consume put) (numeral false 10 n) ⟨.more flags 0, args, out⟩ = .ok ⟨.width flags n, args, out⟩ := by
  -- What has been read of a width is no larger than the width, so nothing overflows on the way.
  induction n using numeral_induction 10 (by decide) with
  | small n one =>
    rw [numeral_small false one, exec_singleton]
    interval_cases n <;> rfl
  | step n two ih =>
    have last := digitChar_decimal false (n % 10) (Nat.mod_lt n (by decide))
    have isDigit : chr '0' ≤ digitChar false (n % 10) ∧ digitChar false (n % 10) ≤ chr '9' := by
      rw [BitVec.le_def, BitVec.le_def, last]
      change 48 ≤ 48 + n % 10 ∧ 48 + n % 10 ≤ 57
      omega
    have value : ((n / 10 : Nat) : Int) * 10 + (digitChar false (n % 10)).toNat - (chr '0').toNat = n := by
      rw [last]
      omega
    rw [numeral_step false (by decide) two, exec_append _ _ _ (ih (by omega) (by omega)), exec_singleton]
    simp only [consume, if_pos isDigit, value]
    rw [if_pos (by omega)]

def Mode.HasWidth (flags : BitVec 32) (width : Int) (mode : Mode) : Prop :=
  mode = .more flags width ∨ mode = .width flags width

theorem exec_widthText (width : Width) (flags : BitVec 32) (args : List Arg) (out : σ) :
    ∃ mode, exec (consume put) width.text ⟨.more flags 0, width.args ++ args, out⟩ = .ok ⟨mode, args, out⟩ ∧
      mode.HasWidth flags width.value := by
  cases width with
  | none => exact ⟨_, rfl, .inl rfl⟩
  | given w positive bound => exact ⟨_, exec_width put flags w positive bound args out, .inr rfl⟩
  | star w bound =>
    have value : (BitVec.ofNat 32 w).toInt = w := toInt_length bound
    exact ⟨_, exec_singleton _ _ _, .inl (congrArg (Mode.more flags) value)⟩

theorem more_letter (letter : Letter) (flags : BitVec 32) (width : Int) (args : List Arg) (out : σ) :
    more put flags width letter.char args out = number put (flags ||| letter.bits) width args out := by
  have signed : flags ||| (sign ||| 10) = flags ||| sign ||| 10 := (BitVec.or_assoc flags sign 10).symm
  have large : flags ||| (upper ||| 16) = flags ||| upper ||| 16 := (BitVec.or_assoc flags upper 16).symm
  cases letter
  case d | i => exact congrArg (number put · width args out) signed.symm
  case X => exact congrArg (number put · width args out) large.symm
  all_goals rfl

theorem consume_letter {flags : BitVec 32} {width : Int} {mode : Mode} (hasWidth : mode.HasWidth flags width)
    (letter : Letter) (args : List Arg) (out : σ) :
    consume put letter.char ⟨mode, args, out⟩ = number put (flags ||| letter.bits) width args out := by
  have notDigit : ¬ (chr '0' ≤ letter.char ∧ letter.char ≤ chr '9') := by
    cases letter <;> decide
  rw [← more_letter]
  rcases hasWidth with rfl | rfl
  · rfl
  · exact if_neg notDigit

theorem consume_half {flags : BitVec 32} {width : Int} {mode : Mode} (hasWidth : mode.HasWidth flags width)
    (args : List Arg) (out : σ) :
    consume put (chr 'h') ⟨mode, args, out⟩ = .ok ⟨.half flags width, args, out⟩ := by
  rcases hasWidth with rfl | rfl <;> rfl

theorem consume_halfLetter (flags : BitVec 32) (width : Int) (letter : Letter) (args : List Arg) (out : σ) :
    consume put letter.char ⟨.half flags width, args, out⟩ =
      number put (flags ||| short ||| letter.bits) width args out := by
  have notHalf : letter.char ≠ chr 'h' := by
    cases letter <;> decide
  rw [← more_letter]
  exact if_neg notHalf

/-- The scanner takes a directive to the integer that it prints. -/
theorem exec_directive (directive : Directive) (x : BitVec 32) (rest : List Arg) (out : σ) :
    exec (consume put) directive.text ⟨.plain, directive.args x ++ rest, out⟩ =
      number put directive.word directive.width.value (.int x :: rest) out := by
  obtain ⟨flags, width, half, letter⟩ := directive
  let bits := flagBits (decide (.zero ∈ flags)) (decide (.hash ∈ flags))
  obtain ⟨mode, atWidth, hasWidth⟩ := exec_widthText put width bits (.int x :: rest) out
  have atFlags := exec_start put flags (width.args ++ .int x :: rest) out
  have args : (⟨flags, width, half, letter⟩ : Directive).args x ++ rest = width.args ++ .int x :: rest := by
    rw [Directive.args, List.append_assoc]
    rfl
  rw [args, Directive.text, List.append_assoc, List.append_assoc, exec_append _ _ _ atFlags, exec_append _ _ _ atWidth]
  cases half with
  | false =>
    refine (exec_singleton _ _ _).trans ?_
    have word : bits ||| letter.bits = flagWord (decide (.zero ∈ flags)) (decide (.hash ∈ flags)) false letter :=
      congrArg (· ||| letter.bits) (BitVec.or_zero (x := bits)).symm
    rw [consume_letter put hasWidth, word]
    rfl
  | true =>
    rw [if_pos rfl, exec_append _ _ _ ((exec_singleton _ _ _).trans (consume_half put hasWidth _ _))]
    refine (exec_singleton _ _ _).trans ?_
    rw [consume_halfLetter put]
    rfl

end

end Testjig.Text
