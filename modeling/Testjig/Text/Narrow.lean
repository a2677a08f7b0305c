import Testjig.Text.Integers

namespace Testjig.Text

open Machine Testjig.Sequence

inductive Modifier where
  | h
  | hh
deriving DecidableEq, Repr

namespace Modifier

def text : Modifier → List Byte
  | h => [chr 'h']
  | hh => [chr 'h', chr 'h']

def bit : Modifier → BitVec 32
  | h => short
  | hh => charFlag

end Modifier

structure Narrow where
  flags : List Flag
  width : Width
  modifier : Modifier
  letter : Letter

namespace Narrow

def text (narrow : Narrow) : List Byte :=
  chr '%' :: narrow.flags.map Flag.char ++ narrow.width.text ++ narrow.modifier.text ++ [narrow.letter.char]

def args (narrow : Narrow) (x : BitVec 32) : List Arg := narrow.width.args ++ [.int x]

def wide (narrow : Narrow) : Directive := ⟨narrow.flags, narrow.width, false, narrow.letter⟩

/-- The argument as a `short`, a `signed char` or an unsigned counterpart of these, and as an `int` again -/
def reduced (narrow : Narrow) (x : BitVec 32) : BitVec 32 :=
  match narrow.modifier with
  | .h => if narrow.letter.isSigned then (x.setWidth 16).signExtend 32 else (x.setWidth 16).setWidth 32
  | .hh => if narrow.letter.isSigned then (x.setWidth 8).signExtend 32 else (x.setWidth 8).setWidth 32

def word (narrow : Narrow) : BitVec 32 :=
  flagBits (decide (.zero ∈ narrow.flags)) (decide (.hash ∈ narrow.flags)) ||| narrow.modifier.bit ||| narrow.letter.bits

end Narrow

def narrowing : BitVec 32 := charFlag ||| short

section

variable {σ : Type} (put : σ → Byte → σ)

def Conversion.widen (v : Conversion σ) : Conversion σ := { v with flags := v.flags &&& ~~~narrowing }

theorem signStep_widen (v : Conversion σ) : signStep put v.widen = (signStep put v).widen := by
  have signed := mask_cleared v.flags narrowing sign (by decide)
  have zero := mask_cleared v.flags narrowing zeropad (by decide)
  have cleared : v.flags &&& ~~~narrowing &&& ~~~sign = v.flags &&& ~~~sign &&& ~~~narrowing := by
    rw [BitVec.and_assoc, BitVec.and_comm (~~~narrowing), ← BitVec.and_assoc]
  simp only [signStep, Conversion.widen, signed, zero, cleared]
  split
  · split <;> rfl
  · rfl

theorem prefixStep_widen (v : Conversion σ) : prefixStep put v.widen = (prefixStep put v).widen := by
  have marked := mask_cleared v.flags narrowing alternate (by decide)
  have radix := mask_cleared v.flags narrowing base (by decide)
  simp only [prefixStep, Conversion.widen, Conversion.emit, marked, radix]
  split
  · split <;> split <;> rfl
  · rfl

theorem digitStep_widen (v : Conversion σ) : digitStep put v.widen = digitStep put v := by
  have signed := mask_cleared v.flags narrowing sign (by decide)
  have zero := mask_cleared v.flags narrowing zeropad (by decide)
  have radix := mask_cleared v.flags narrowing base (by decide)
  have large := mask_cleared v.flags narrowing upper (by decide)
  simp only [digitStep, Conversion.widen, tmpText, signed, zero, radix, large]

variable (narrow : Narrow)

/-- The scanner takes a conversion with a length modifier to the integer that it prints. -/
theorem exec_narrow (x : BitVec 32) (rest : List Arg) (out : σ) :
    exec (consume put) narrow.text ⟨.plain, narrow.args x ++ rest, out⟩ =
      number put narrow.word narrow.width.value (.int x :: rest) out := by
  obtain ⟨flags, width, modifier, letter⟩ := narrow
  let bits := flagBits (decide (.zero ∈ flags)) (decide (.hash ∈ flags))
  obtain ⟨mode, atWidth, hasWidth⟩ := exec_widthText put width bits (.int x :: rest) out
  have atFlags := exec_start put flags (width.args ++ .int x :: rest) out
  have first := consume_half put hasWidth (.int x :: rest) out
  have args : (⟨flags, width, modifier, letter⟩ : Narrow).args x ++ rest = width.args ++ .int x :: rest := by
    rw [Narrow.args, List.append_assoc]
    rfl
  rw [args, Narrow.text, List.append_assoc, List.append_assoc, exec_append _ _ _ atFlags, exec_append _ _ _ atWidth]
  cases modifier with
  | h =>
    have marked : exec (consume put) (Modifier.text .h) ⟨mode, .int x :: rest, out⟩ =
        .ok ⟨.half bits width.value, .int x :: rest, out⟩ := (exec_singleton _ _ _).trans first
    rw [exec_append _ _ _ marked, exec_singleton, consume_halfLetter]
    rfl
  | hh =>
    have marked : exec (consume put) (Modifier.text .hh) ⟨mode, .int x :: rest, out⟩ =
        .ok ⟨.more (bits ||| charFlag) width.value, .int x :: rest, out⟩ := by
      rw [Modifier.text, exec, first]
      rfl
    rw [exec_append _ _ _ marked, exec_singleton, consume_letter put (.inl rfl)]
    rfl

theorem flagBits_widen (zero hash : Bool) (modifier : Modifier) (letter : Letter) :
    (flagBits zero hash ||| modifier.bit ||| letter.bits) &&& ~~~narrowing = flagWord zero hash false letter := by
  cases modifier <;> cases letter <;> decide +revert

theorem word_widen : narrow.word &&& ~~~narrowing = narrow.wide.word := flagBits_widen _ _ _ _

theorem number_narrow (x : BitVec 32) (rest : List Arg) (out : σ) :
    number put narrow.word narrow.width.value (.int x :: rest) out =
      number put narrow.wide.word narrow.width.value (.int (reduce narrow.word x) :: rest) out := by
  have kept : reduce narrow.wide.word (reduce narrow.word x) = reduce narrow.word x := reduce_word narrow.wide _
  have widened : (⟨narrow.wide.word, narrow.width.value, reduce narrow.word x, out⟩ : Conversion σ) =
      Conversion.widen ⟨narrow.word, narrow.width.value, reduce narrow.word x, out⟩ := by
    rw [Conversion.widen, word_widen]
  simp only [number, kept]
  rw [widened, signStep_widen, prefixStep_widen, digitStep_widen]

end

theorem flagBits_char (zero hash : Bool) (modifier : Modifier) (letter : Letter) :
    (flagBits zero hash ||| modifier.bit ||| letter.bits) &&& charFlag ≠ 0 ↔ modifier = .hh := by
  cases modifier <;> cases letter <;> decide +revert

theorem flagBits_short (zero hash : Bool) (letter : Letter) :
    (flagBits zero hash ||| Modifier.bit .h ||| letter.bits) &&& short ≠ 0 := by
  cases letter <;> decide +revert

theorem flagBits_sign (zero hash : Bool) (modifier : Modifier) (letter : Letter) :
    (flagBits zero hash ||| modifier.bit ||| letter.bits) &&& sign ≠ 0 ↔ letter.isSigned = true := by
  cases modifier <;> cases letter <;> decide +revert

namespace Narrow

variable (narrow : Narrow) (x : BitVec 32)

/-- `%hhd` or `%hhi` of a low byte that is a negative `signed char` -/
def LosesSign : Prop := narrow.modifier = .hh ∧ narrow.letter.isSigned = true ∧ 128 ≤ (x.setWidth 8).toNat

theorem reduce_hh (hh : narrow.modifier = .hh) : reduce narrow.word x = (x.setWidth 8).setWidth 32 := by
  have isChar : narrow.word &&& charFlag ≠ 0 := (flagBits_char _ _ _ _).mpr hh
  rw [reduce, if_pos isChar, ite_self]

theorem reduce_h (h : narrow.modifier = .h) : reduce narrow.word x = narrow.reduced x := by
  have notChar : ¬ narrow.word &&& charFlag ≠ 0 := by
    rw [Narrow.word, flagBits_char, h]
    decide
  have isShort : narrow.word &&& short ≠ 0 := by
    rw [Narrow.word, h]
    exact flagBits_short _ _ _
  rw [reduce, if_neg notChar, if_pos isShort, Narrow.reduced, h]
  apply ite_congr (propext (flagBits_sign _ _ _ _))
  · intro _
    rfl
  · intro _
    rfl

theorem reduce_kept (kept : ¬ narrow.LosesSign x) : reduce narrow.word x = narrow.reduced x := by
  cases modifier : narrow.modifier with
  | h => exact reduce_h narrow x modifier
  | hh =>
    rw [reduce_hh narrow x modifier, Narrow.reduced, modifier]
    by_cases signed : narrow.letter.isSigned
    · have positive : (x.setWidth 8).msb = false := by
        have small : ¬ 128 ≤ (x.setWidth 8).toNat := fun large => kept ⟨modifier, signed, large⟩
        rw [BitVec.msb_eq_decide, decide_eq_false_iff_not]
        exact small
      simp only [if_pos signed]
      exact (BitVec.signExtend_eq_setWidth_of_msb_false positive).symm
    · simp only [if_neg signed]

theorem fullText_narrow :
    fullText narrow.text (narrow.args x) =
      fullText narrow.wide.text (narrow.wide.args (reduce narrow.word x)) := by
  have modifier : ∀ c ∈ narrow.modifier.text, c ≠ 0 := by
    cases narrow.modifier <;> decide
  have letter : narrow.letter.char ≠ 0 := by
    cases narrow.letter <;> decide
  have nonzero : ∀ c ∈ narrow.text, c ≠ 0 := by
    intro c member
    rcases List.mem_append.mp member with front | last
    · rcases List.mem_append.mp front with first | inModifier
      · exact front_nonzero narrow.flags narrow.width c first
      · exact modifier c inModifier
    · rw [List.mem_singleton.mp last]
      exact letter
  have whole : ∀ format : List Byte, (∀ c ∈ format, c ≠ 0) → cString format = format := by
    intro format ends
    rw [cString, List.takeWhile_eq_self_iff]
    simpa using ends
  have left := exec_narrow snoc narrow x [] []
  have right := exec_directive snoc narrow.wide (reduce narrow.word x) [] []
  rw [List.append_nil] at left right
  rw [fullText, fullText, formatLoop, formatLoop, whole _ nonzero, whole _ narrow.wide.text_nonzero, left, right,
    number_narrow]
  rfl

end Narrow

theorem prefixStep_decimal (v : Conversion (List Byte)) (decimal : v.flags &&& base = 10) : prefixStep snoc v = v := by
  rw [prefixStep, decimal]
  split
  · rfl
  · rfl

namespace Directive

variable (directive : Directive) (x : BitVec 32)

/-- A signed conversion prints what standard C prints, `#` or not. -/
theorem prints_signed (signed : directive.letter.isSigned = true) :
    Prints directive.text (directive.args x) (directive.standard x) := by
  have decimal : directive.word &&& base = 10 := by
    rw [word_base]
    cases letter : directive.letter
    case d | i => rfl
    all_goals simp [letter, Letter.isSigned] at signed
  have bare : ∀ v : Conversion (List Byte),
      v.flags = directive.word ∨ v.flags = directive.word &&& ~~~sign → prefixStep snoc v = v := by
    intro v kept
    apply prefixStep_decimal
    rcases kept with flags | flags
    · rw [flags, decimal]
    · rw [flags, mask_cleared _ sign _ (by decide), decimal]
  intro rest out
  rw [exec_directive, number, reduce_word, printed_unprefixed directive x bare]

theorem minus_iff : chr '-' ∈ directive.standard x ↔ directive.value x < 0 := by
  constructor
  · intro member
    by_contra positive
    rcases mem_field member with same | same | inLead | inDigits
    · exact absurd same (by decide)
    · exact absurd same (by decide)
    · simp [Directive.minus, positive] at inLead
    · exact other_digits directive x (by decide) inDigits
  · intro negative
    rw [Directive.standard, Directive.minus, if_pos negative, field]
    split <;> simp

end Directive

/-- A length modifier prints the reduced argument as an `int`, except where a `char` would have to have a sign. -/
theorem vsnprintf_narrow_iff (narrow : Narrow) (x : BitVec 32) :
    fullText narrow.text (narrow.args x) = fullText narrow.wide.text (narrow.wide.args (narrow.reduced x)) ↔
      ¬ narrow.LosesSign x := by
  rw [narrow.fullText_narrow]
  constructor
  · rintro same ⟨modifier, signed, large⟩
    have texts (y : BitVec 32) : fullText narrow.wide.text (narrow.wide.args y) = .ok (narrow.wide.standard y) :=
      (narrow.wide.prints_signed y signed).fullText narrow.wide.text_nonzero
    have value (y : BitVec 32) : narrow.wide.value y = y.toInt := if_pos signed
    have byte := (x.setWidth 8).isLt
    have negative : (narrow.reduced x).toInt < 0 := by
      rw [Narrow.reduced, modifier]
      simp only [if_pos signed]
      rw [BitVec.toInt_signExtend_of_le (by decide), BitVec.toInt_eq_toNat_cond]
      split <;> omega
    have positive : ¬ (reduce narrow.word x).toInt < 0 := by
      rw [narrow.reduce_hh x modifier, BitVec.toInt_eq_toNat_cond, BitVec.toNat_setWidth]
      split <;> omega
    rw [texts, texts, Except.ok.injEq] at same
    have minus := (narrow.wide.minus_iff (narrow.reduced x)).mpr (by rwa [value])
    rw [← same, narrow.wide.minus_iff, value] at minus
    exact positive minus
  · intro kept
    rw [narrow.reduce_kept x kept]

theorem vsnprintf_narrow_200 :
    ¬ ∀ (narrow : Narrow) (x : BitVec 32),
      fullText narrow.text (narrow.args x) = fullText narrow.wide.text (narrow.wide.args (narrow.reduced x)) := by
  intro all
  have same := all ⟨[], .none, .hh, .d⟩ 200
  have printed : fullText (Narrow.text ⟨[], .none, .hh, .d⟩) [.int 200] = .ok ("200".toList.map chr) := by decide +kernel
  have wanted : fullText (Directive.text ⟨[], .none, false, .d⟩) [.int (-56)] = .ok ("-56".toList.map chr) := by
    decide +kernel
  exact absurd (printed.symm.trans (same.trans wanted)) (by decide)

end Testjig.Text
