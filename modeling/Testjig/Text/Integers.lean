import Mathlib.Data.List.TakeWhile
import Testjig.Text.Directive

namespace Testjig.Text

open Machine Testjig.Sequence

/-- A field of standard C: filled up with spaces before its lead, or with zeros behind it -/
def field (zero : Bool) (width : Nat) (lead digits : List Byte) : List Byte :=
  let filling := width - (lead.length + digits.length)
  if zero then lead ++ List.replicate filling (chr '0') ++ digits
  else List.replicate filling (chr ' ') ++ lead ++ digits

theorem mem_field {zero : Bool} {width : Nat} {lead digits : List Byte} {c : Byte} (member : c ∈ field zero width lead digits) :
    c = chr '0' ∨ c = chr ' ' ∨ c ∈ lead ∨ c ∈ digits := by
  cases zero with
  | true =>
    rw [field, if_pos rfl, List.mem_append, List.mem_append] at member
    rcases member with (inLead | filling) | inDigits
    · exact .inr (.inr (.inl inLead))
    · exact .inl (List.eq_of_mem_replicate filling)
    · exact .inr (.inr (.inr inDigits))
  | false =>
    rw [field, if_neg Bool.false_ne_true, List.mem_append, List.mem_append] at member
    rcases member with (filling | inLead) | inDigits
    · exact .inr (.inl (List.eq_of_mem_replicate filling))
    · exact .inr (.inr (.inl inLead))
    · exact .inr (.inr (.inr inDigits))

namespace Directive

/-- The value that standard C prints for an argument: as an `int`, a `short`, or their unsigned counterparts -/
def value (directive : Directive) (x : BitVec 32) : Int :=
  if directive.letter.isSigned then
    if directive.half then (x.setWidth 16).toInt else x.toInt
  else if directive.half then (x.setWidth 16).toNat else x.toNat

def digits (directive : Directive) (x : BitVec 32) : List Byte :=
  numeral directive.letter.isUpper directive.letter.radix.toNat (directive.value x).natAbs

def minus (directive : Directive) (x : BitVec 32) : List Byte := if directive.value x < 0 then [chr '-'] else []

/-- What standard C prints, without `#` -/
def standard (directive : Directive) (x : BitVec 32) : List Byte :=
  field directive.isZero directive.width.value (directive.minus x) (directive.digits x)

end Directive

theorem mask_cleared (flags bits mask : BitVec 32) (apart : ~~~bits &&& mask = mask) :
    flags &&& ~~~bits &&& mask = flags &&& mask := by
  rw [BitVec.and_assoc, apart]

/-- What is left of the sign flag once it is taken away -/
theorem mask_noSign (flags : BitVec 32) : flags &&& ~~~sign &&& sign = 0 := by
  have apart : ~~~sign &&& sign = 0 := by decide
  rw [BitVec.and_assoc, apart]
  exact BitVec.and_zero

theorem digitStep_text (v : Conversion (List Byte)) (isRadix : IsRadix (v.flags &&& base)) :
    let text := numeral (v.flags &&& upper ≠ 0) (v.flags &&& base).toNat v.x.toNat
    digitStep snoc v = .ok (v.out ++
      List.replicate (v.width - text.length).toNat (if v.flags &&& zeropad ≠ 0 then chr '0' else chr ' ') ++
      (if v.flags &&& sign ≠ 0 then [chr '-'] else []) ++ text) := by
  intro text
  obtain ⟨tmp, filled, reversed⟩ := tmpText_eq isRadix v.x
  have length : tmp.length = text.length := by
    rw [← List.length_reverse, reversed]
  rw [digitStep, filled]
  simp only [putAll_text, pad_text, reversed, length]
  by_cases signed : v.flags &&& sign ≠ 0
  · rw [if_pos signed, if_pos signed, snoc]
  · rw [if_neg signed, if_neg signed, List.append_nil]

section

variable (directive : Directive) (x : BitVec 32)

def Directive.reduced : BitVec 32 :=
  if directive.half then
    if directive.letter.isSigned then (x.setWidth 16).signExtend 32 else (x.setWidth 16).setWidth 32
  else x

theorem reduce_word : reduce directive.word x = directive.reduced x := by
  have signed := flagWord_sign directive.isZero directive.isAlternate directive.half directive.letter
  have half := flagWord_short directive.isZero directive.isAlternate directive.half directive.letter
  have notChar : ¬ directive.word &&& charFlag ≠ 0 := not_not.mpr (flagWord_char _ _ _ _)
  rw [reduce, if_neg notChar, Directive.reduced]
  apply ite_congr (propext half)
  · intro _
    apply ite_congr (propext signed)
    · intro _
      rfl
    · intro _
      rfl
  · intro _
    rfl

theorem other_digits {c : Byte} (other : ∀ (isUpper : Bool) (digit : Nat), digit < 16 → digitChar isUpper digit ≠ c) :
    c ∉ directive.digits x := by
  intro member
  have isRadix := directive.letter.isRadix
  obtain ⟨digit, bound, same⟩ := mem_numeral isRadix.large member
  have radix := isRadix.bounds.2
  exact other _ digit (by omega) same.symm

theorem reduced_signed (signed : directive.letter.isSigned = true) : (directive.reduced x).toInt = directive.value x := by
  rw [Directive.reduced, Directive.value, if_pos signed, if_pos signed]
  by_cases half : directive.half
  · rw [if_pos half, if_pos half, BitVec.toInt_signExtend_of_le (by decide)]
  · rw [if_neg half, if_neg half]

theorem reduced_unsigned (unsigned : directive.letter.isSigned = false) :
    ((directive.reduced x).toNat : Int) = directive.value x := by
  have notSigned : ¬ directive.letter.isSigned = true := by
    rw [unsigned]
    exact Bool.false_ne_true
  rw [Directive.reduced, Directive.value, if_neg notSigned, if_neg notSigned]
  by_cases half : directive.half
  · have small := (x.setWidth 16).isLt
    rw [if_pos half, if_pos half, BitVec.toNat_setWidth, Nat.mod_eq_of_lt (by omega)]
  · rw [if_neg half, if_neg half]

theorem reduced_negative (negative : directive.value x < 0) :
    (directive.letter.isSigned = true ∧ (directive.reduced x).toInt < 0) ∧
      (-directive.reduced x).toNat = (directive.value x).natAbs := by
  have word := (directive.reduced x).isLt
  cases signed : directive.letter.isSigned with
  | false =>
    have value := reduced_unsigned directive x signed
    omega
  | true =>
    have value := reduced_signed directive x signed
    refine ⟨⟨rfl, by omega⟩, ?_⟩
    -- The smallest `int` is its own negative, and its magnitude as an unsigned word.
    rw [BitVec.toInt_eq_toNat_cond] at value
    rw [BitVec.toNat_neg]
    split at value <;> omega

theorem reduced_positive (positive : ¬ directive.value x < 0) :
    ¬ (directive.letter.isSigned = true ∧ (directive.reduced x).toInt < 0) ∧
      (directive.reduced x).toNat = (directive.value x).natAbs := by
  have word := (directive.reduced x).isLt
  cases signed : directive.letter.isSigned with
  | false =>
    have value := reduced_unsigned directive x signed
    exact ⟨fun both => Bool.false_ne_true both.1, by omega⟩
  | true =>
    have value := reduced_signed directive x signed
    refine ⟨by omega, ?_⟩
    rw [BitVec.toInt_eq_toNat_cond] at value
    split at value <;> omega

theorem word_sign : directive.word &&& sign ≠ 0 ↔ directive.letter.isSigned = true := flagWord_sign _ _ _ _

theorem word_zeropad : directive.word &&& zeropad ≠ 0 ↔ directive.isZero = true := flagWord_zeropad _ _ _ _

theorem word_alternate : directive.word &&& alternate ≠ 0 ↔ directive.isAlternate = true := flagWord_alternate _ _ _ _

theorem word_upper : directive.word &&& upper ≠ 0 ↔ directive.letter.isUpper = true := flagWord_upper _ _ _ _

theorem word_base : directive.word &&& base = directive.letter.radix := flagWord_base _ _ _ _

/-- What the sign step does to a directive: the minus comes before the padding only where that is zeros. -/
theorem signStep_word (width : Int) (out : List Byte) :
    signStep snoc ⟨directive.word, width, directive.reduced x, out⟩ =
      if directive.value x < 0 then
        if directive.isZero then ⟨directive.word &&& ~~~sign, width - 1, -directive.reduced x, snoc out (chr '-')⟩
        else ⟨directive.word, width - 1, -directive.reduced x, out⟩
      else ⟨directive.word &&& ~~~sign, width, directive.reduced x, out⟩ := by
  by_cases negative : directive.value x < 0
  · obtain ⟨⟨signed, below⟩, -⟩ := reduced_negative directive x negative
    rw [if_pos negative, signStep, if_pos ⟨(word_sign directive).mpr signed, below⟩]
    exact ite_congr (propext (word_zeropad directive)) (fun _ => rfl) (fun _ => rfl)
  · have plain := (reduced_positive directive x negative).1
    rw [if_neg negative, signStep, if_neg (fun both => plain ⟨(word_sign directive).mp both.1, both.2⟩)]

/-- The padding and the digits of a directive, with the sign flag that is left -/
theorem digitStep_word (flags : BitVec 32) (kept : flags = directive.word ∨ flags = directive.word &&& ~~~sign)
    (width : Int) (y : BitVec 32) (value : y.toNat = (directive.value x).natAbs) (out : List Byte) :
    digitStep snoc ⟨flags, width, y, out⟩ = .ok (out ++
      List.replicate (width - (directive.digits x).length).toNat (if directive.isZero then chr '0' else chr ' ') ++
      (if flags &&& sign ≠ 0 then [chr '-'] else []) ++ directive.digits x) := by
  have same : ∀ mask, ~~~sign &&& mask = mask → flags &&& mask = directive.word &&& mask := by
    intro mask apart
    rcases kept with rfl | rfl
    · rfl
    · exact mask_cleared directive.word sign mask apart
  have radix : flags &&& base = directive.letter.radix := (same base (by decide)).trans (word_base directive)
  have digits : numeral (flags &&& upper ≠ 0) (flags &&& base).toNat y.toNat = directive.digits x := by
    rw [radix, value, same upper (by decide), Directive.digits]
    congr 1
    exact Bool.eq_iff_iff.mpr (decide_eq_true_iff.trans (word_upper directive))
  have filler : (if flags &&& zeropad ≠ 0 then chr '0' else chr ' ') = if directive.isZero then chr '0' else chr ' ' := by
    rw [same zeropad (by decide)]
    exact ite_congr (propext (word_zeropad directive)) (fun _ => rfl) (fun _ => rfl)
  have printed := digitStep_text ⟨flags, width, y, out⟩ (radix ▸ directive.letter.isRadix)
  simp only [digits, filler] at printed
  exact printed

theorem prefixStep_none (plain : directive.isAlternate = false) (v : Conversion (List Byte))
    (kept : v.flags = directive.word ∨ v.flags = directive.word &&& ~~~sign) : prefixStep snoc v = v := by
  have none : ¬ v.flags &&& alternate ≠ 0 := by
    have same : v.flags &&& alternate = directive.word &&& alternate := by
      rcases kept with flags | flags
      · rw [flags]
      · rw [flags, mask_cleared _ sign _ (by decide)]
    rw [same, word_alternate, plain]
    exact Bool.false_ne_true
  exact if_neg none

theorem standard_positive (positive : ¬ directive.value x < 0) (out : List Byte) :
    out ++ directive.standard x = out ++
      List.replicate ((directive.width.value : Int) - (directive.digits x).length).toNat
        (if directive.isZero then chr '0' else chr ' ') ++ [] ++ directive.digits x := by
  have filling : ((directive.width.value : Int) - (directive.digits x).length).toNat =
      directive.width.value - (([] : List Byte).length + (directive.digits x).length) := by
    simp only [List.length_nil]
    omega
  rw [Directive.standard, Directive.minus, if_neg positive, filling, field]
  by_cases zero : directive.isZero
  · simp only [if_pos zero, List.nil_append, List.append_nil, List.append_assoc]
  · simp only [if_neg zero, List.append_nil, List.append_assoc]

theorem standard_negative (negative : directive.value x < 0) :
    let filling := ((directive.width.value : Int) - 1 - (directive.digits x).length).toNat
    directive.standard x =
      if directive.isZero then [chr '-'] ++ List.replicate filling (chr '0') ++ directive.digits x
      else List.replicate filling (chr ' ') ++ [chr '-'] ++ directive.digits x := by
  intro filling
  have same : filling = directive.width.value - ([chr '-'].length + (directive.digits x).length) := by
    simp only [filling, List.length_singleton]
    omega
  rw [Directive.standard, Directive.minus, if_pos negative, field, same]

/-- An integer conversion that gets no prefix prints what standard C prints. -/
theorem printed_unprefixed (bare : ∀ v : Conversion (List Byte),
      v.flags = directive.word ∨ v.flags = directive.word &&& ~~~sign → prefixStep snoc v = v) (out : List Byte) :
    digitStep snoc (prefixStep snoc
      (signStep snoc ⟨directive.word, directive.width.value, directive.reduced x, out⟩)) =
      .ok (out ++ directive.standard x) := by
  have noSign : ¬ (directive.word &&& ~~~sign) &&& sign ≠ 0 := not_not.mpr (mask_noSign directive.word)
  rw [signStep_word]
  by_cases negative : directive.value x < 0
  · obtain ⟨⟨signed, -⟩, value⟩ := reduced_negative directive x negative
    rw [if_pos negative, standard_negative directive x negative]
    by_cases zero : directive.isZero
    · rw [if_pos zero, if_pos zero, bare _ (.inr rfl), digitStep_word directive x _ (.inr rfl) _ _ value, if_neg noSign,
        if_pos zero, snoc]
      simp only [List.append_nil, List.append_assoc]
    · rw [if_neg zero, if_neg zero, bare _ (.inl rfl), digitStep_word directive x _ (.inl rfl) _ _ value,
        if_pos ((word_sign directive).mpr signed), if_neg zero]
      simp only [List.append_assoc]
  · have value := (reduced_positive directive x negative).2
    rw [if_neg negative, bare _ (.inr rfl), digitStep_word directive x _ (.inr rfl) _ _ value, if_neg noSign,
      standard_positive directive x negative]

/-- An integer conversion without `#` prints what standard C prints. -/
theorem printed_standard (plain : directive.isAlternate = false) (out : List Byte) :
    digitStep snoc (prefixStep snoc
      (signStep snoc ⟨directive.word, directive.width.value, directive.reduced x, out⟩)) =
      .ok (out ++ directive.standard x) :=
  printed_unprefixed directive x (prefixStep_none directive plain) out

theorem number_standard (plain : directive.isAlternate = false) (rest : List Arg) (out : List Byte) :
    number snoc directive.word directive.width.value (.int x :: rest) out =
      .ok ⟨.plain, rest, out ++ directive.standard x⟩ := by
  rw [number, reduce_word, printed_standard directive x plain]

end

/-- A part of a format prints a text from its arguments, whatever stands before and behind it. -/
def Prints (format : List Byte) (args : List Arg) (text : List Byte) : Prop :=
  ∀ rest out, exec (consume snoc) format ⟨.plain, args ++ rest, out⟩ = .ok ⟨.plain, rest, out ++ text⟩

theorem Prints.append {first second : List Byte} {args args' : List Arg} {text text' : List Byte}
    (left : Prints first args text) (right : Prints second args' text') :
    Prints (first ++ second) (args ++ args') (text ++ text') := by
  intro rest out
  rw [List.append_assoc, exec_append _ _ _ (left (args' ++ rest) out), right, List.append_assoc]

theorem Prints.flatMap {α : Type} {format text : α → List Byte} {args : α → List Arg} (parts : List α)
    (each : ∀ part ∈ parts, Prints (format part) (args part) (text part)) :
    Prints (parts.flatMap format) (parts.flatMap args) (parts.flatMap text) := by
  induction parts with
  | nil =>
    intro rest out
    simp
  | cons part parts ih =>
    simp only [List.flatMap_cons]
    apply Prints.append
    · exact each part (List.mem_cons_self)
    · exact ih fun other member => each other (List.mem_cons_of_mem _ member)

theorem Prints.fullText {format : List Byte} {args : List Arg} {text : List Byte} (prints : Prints format args text)
    (ends : ∀ c ∈ format, c ≠ 0) : fullText format args = .ok text := by
  have whole : cString format = format := by
    rw [cString, List.takeWhile_eq_self_iff]
    simpa using ends
  have run := prints [] []
  rw [List.append_nil, List.nil_append] at run
  rw [Text.fullText, formatLoop, whole, run]

theorem flagsText_nonzero (flags : List Flag) : ∀ c ∈ flags.map Flag.char, c ≠ 0 := by
  intro c member
  obtain ⟨flag, -, rfl⟩ := List.mem_map.mp member
  cases flag <;> decide

theorem Width.text_nonzero (width : Width) : ∀ c ∈ width.text, c ≠ 0 := by
  cases width with
  | none => simp [Width.text]
  | given w positive bound => exact numeral_nonzero (by decide) (by decide)
  | star w bound =>
    change ∀ c ∈ [chr '*'], c ≠ 0
    decide

theorem front_nonzero (flags : List Flag) (width : Width) :
    ∀ c ∈ chr '%' :: flags.map Flag.char ++ width.text, c ≠ 0 := by
  intro c member
  rcases List.mem_append.mp member with start | inWidth
  · rcases List.mem_cons.mp start with rfl | inFlags
    · decide
    · exact flagsText_nonzero flags c inFlags
  · exact width.text_nonzero c inWidth

namespace Directive

variable (directive : Directive) (x : BitVec 32)

theorem prints (plain : directive.isAlternate = false) :
    Prints directive.text (directive.args x) (directive.standard x) := by
  intro rest out
  rw [exec_directive, number_standard directive x plain]

theorem text_nonzero : ∀ c ∈ directive.text, c ≠ 0 := by
  have half : ∀ c ∈ (if directive.half then [chr 'h'] else []), c ≠ 0 := by
    cases directive.half <;> decide
  have letter : directive.letter.char ≠ 0 := by
    cases directive.letter <;> decide
  intro c member
  rcases List.mem_append.mp member with front | last
  · rcases List.mem_append.mp front with first | inHalf
    · exact front_nonzero directive.flags directive.width c first
    · exact half c inHalf
  · rw [List.mem_singleton.mp last]
    exact letter

end Directive

/-- A format of literals, `%%`, `%c`, `%s` and integer conversions, with what is printed for each -/
inductive Piece where
  | literal (c : Byte) (ordinary : c ≠ chr '%') (some : c ≠ 0)
  | percent
  | character (value : BitVec 32)
  | string (text : List Byte)
  | integer (directive : Directive) (plain : directive.isAlternate = false) (x : BitVec 32)

namespace Piece

def text : Piece → List Byte
  | literal c _ _ => [c]
  | percent => [chr '%', chr '%']
  | character _ => [chr '%', chr 'c']
  | string _ => [chr '%', chr 's']
  | integer directive _ _ => directive.text

def args : Piece → List Arg
  | literal _ _ _ | percent => []
  | character value => [.int value]
  | string text => [.str text]
  | integer directive _ x => directive.args x

def standard : Piece → List Byte
  | literal c _ _ => [c]
  | percent => [chr '%']
  | character value => [value.setWidth 8]
  | string text => cString text
  | integer directive _ x => directive.standard x

theorem prints (piece : Piece) : Prints piece.text piece.args piece.standard := by
  cases piece with
  | literal c ordinary some =>
    intro rest out
    rw [text, exec_singleton]
    exact if_pos ordinary
  | percent =>
    intro rest out
    rfl
  | character value =>
    intro rest out
    rfl
  | string text =>
    intro rest out
    have printed : consume snoc (chr 's') ⟨.more 0 0, .str text :: rest, out⟩ =
        .ok ⟨.plain, rest, pad snoc (chr ' ') (0 - (cString text).length) 0 (putAll snoc (cString text) out)⟩ := rfl
    have noPadding : ((0 : Int) - (cString text).length - 0).toNat = 0 := by omega
    change exec (consume snoc) [chr 's'] ⟨.more 0 0, .str text :: rest, out⟩ = _
    rw [exec_singleton, printed, pad_text, putAll_text, noPadding, List.replicate_zero, List.append_nil]
    rfl
  | integer directive plain x => exact directive.prints x plain

theorem text_nonzero (piece : Piece) : ∀ c ∈ piece.text, c ≠ 0 := by
  cases piece with
  | literal c ordinary some => simpa [text] using some
  | percent | character value | string text =>
    intro c member
    revert c
    change ∀ c ∈ [chr '%', _], c ≠ 0
    decide
  | integer directive plain x => exact directive.text_nonzero

end Piece

/-- Formats of literals, `%%`, `%c`, `%s` and integer conversions print what they print in standard C. -/
theorem vsnprintf_integers (pieces : List Piece) :
    fullText (pieces.flatMap Piece.text) (pieces.flatMap Piece.args) = .ok (pieces.flatMap Piece.standard) := by
  apply (Prints.flatMap pieces fun piece _ => piece.prints).fullText
  intro c member
  obtain ⟨piece, -, inside⟩ := List.mem_flatMap.mp member
  exact piece.text_nonzero c inside

example : (⟨[.zero], .given 6 (by decide) (by decide), false, .d⟩ : Directive).standard (-42) =
    "-00042".toList.map chr := by decide +kernel

end Testjig.Text
