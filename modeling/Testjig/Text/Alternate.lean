import Testjig.Text.Integers

namespace Testjig.Text

open Machine Testjig.Sequence

/-- The conversions that `#` changes in standard C -/
def Letter.IsMarked (letter : Letter) : Prop := letter = .o ∨ letter = .x ∨ letter = .X

/-- The prefix that standard C puts in front of a value that is not zero -/
def Letter.lead : Letter → List Byte
  | .o => [chr '0']
  | .x => [chr '0', chr 'x']
  | .X => [chr '0', chr 'X']
  | .d | .i | .u => []

def Letter.mark : Letter → List Byte
  | .o => [chr '0']
  | .x | .X => [chr '0', chr 'x']
  | .d | .i | .u => []

namespace Directive

def marked (directive : Directive) (x : BitVec 32) : List Byte :=
  field directive.isZero directive.width.value (if directive.value x = 0 then [] else directive.letter.lead)
    (directive.digits x)

def alternateText (directive : Directive) (x : BitVec 32) : List Byte :=
  directive.letter.mark ++
    List.replicate (directive.width.value - (directive.letter.mark.length + (directive.digits x).length))
      (if directive.isZero then chr '0' else chr ' ') ++ directive.digits x

def IsMarkedRight (directive : Directive) (x : BitVec 32) : Prop :=
  match directive.letter with
  | .o =>
    if directive.value x = 0 then directive.isZero = true ∧ 2 ≤ directive.width.value
    else directive.isZero = true ∨ directive.width.value ≤ 1 + (directive.digits x).length
  | .x =>
    directive.value x ≠ 0 ∧ (directive.isZero = true ∨ directive.width.value ≤ 2 + (directive.digits x).length)
  | _ => False

end Directive

section

variable (directive : Directive) (x : BitVec 32)

theorem prefixStep_mark (hash : directive.isAlternate = true) (width : Int) (y : BitVec 32) (out : List Byte) :
    prefixStep snoc ⟨directive.word &&& ~~~sign, width, y, out⟩ =
      ⟨directive.word &&& ~~~sign, width - directive.letter.mark.length, y, out ++ directive.letter.mark⟩ := by
  have alternates : (directive.word &&& ~~~sign) &&& alternate ≠ 0 := by
    rw [mask_cleared _ sign _ (by decide)]
    exact (word_alternate directive).mpr hash
  have radix : (directive.word &&& ~~~sign) &&& base = directive.letter.radix := by
    rw [mask_cleared _ sign _ (by decide), word_base]
  rw [prefixStep, if_pos alternates]
  simp only [radix]
  cases directive.letter with
  | o => simp [Letter.radix, Letter.mark, Conversion.emit, snoc]
  | x | X =>
    simp [Letter.radix, Letter.mark, Conversion.emit, snoc]
    omega
  | d | i | u => simp [Letter.radix, Letter.mark]

theorem value_positive (marked : directive.letter.IsMarked) : ¬ directive.value x < 0 := by
  have unsigned : ¬ directive.letter.isSigned = true := by
    rcases marked with letter | letter | letter <;> simp [letter, Letter.isSigned]
  rw [Directive.value, if_neg unsigned]
  split <;> omega

theorem number_alternate (hash : directive.isAlternate = true) (marked : directive.letter.IsMarked) (rest : List Arg)
    (out : List Byte) :
    number snoc directive.word directive.width.value (.int x :: rest) out =
      .ok ⟨.plain, rest, out ++ directive.alternateText x⟩ := by
  have noSign : ¬ (directive.word &&& ~~~sign) &&& sign ≠ 0 := not_not.mpr (mask_noSign directive.word)
  have positive := value_positive directive x marked
  have value := (reduced_positive directive x positive).2
  have filling : ((directive.width.value : Int) - directive.letter.mark.length - (directive.digits x).length).toNat =
      directive.width.value - (directive.letter.mark.length + (directive.digits x).length) := by
    omega
  rw [number, reduce_word, signStep_word, if_neg positive, prefixStep_mark directive hash,
    digitStep_word directive x _ (.inr rfl) _ _ value, if_neg noSign, filling, Directive.alternateText]
  simp only [List.append_nil, List.append_assoc]

theorem Directive.prints_alternate (hash : directive.isAlternate = true) (marked : directive.letter.IsMarked) :
    Prints directive.text (directive.args x) (directive.alternateText x) := by
  intro rest out
  rw [exec_directive, number_alternate directive x hash marked]

/-- A prefix stands in front of its padding only if that is zeros, or none at all. -/
theorem lead_field (zero : Bool) (width : Nat) (rest digits : List Byte) :
    let lead := chr '0' :: rest
    lead ++ List.replicate (width - (lead.length + digits.length)) (if zero then chr '0' else chr ' ') ++ digits =
        field zero width lead digits ↔ zero = true ∨ width ≤ lead.length + digits.length := by
  intro lead
  cases zero with
  | true => simp [field]
  | false =>
    simp only [field, Bool.false_eq_true, false_or, if_false]
    constructor
    · intro same
      by_contra more
      obtain ⟨filling, padded⟩ : ∃ n, width - (lead.length + digits.length) = n + 1 :=
        Nat.exists_eq_succ_of_ne_zero (by omega)
      -- One text starts with the prefix, the other with a space.
      rw [padded, List.replicate_succ] at same
      have heads := (List.cons.inj same).1
      exact absurd heads (by decide)
    · intro narrow
      rw [Nat.sub_eq_zero_of_le narrow]
      simp

theorem digits_zero (none : directive.value x = 0) : directive.digits x = [chr '0'] := by
  rw [Directive.digits, none]
  rfl

theorem marked_noX (none : directive.value x = 0 ∨ directive.letter = .X) : chr 'x' ∉ directive.marked x := by
  intro member
  rcases mem_field member with same | same | inLead | inDigits
  · exact absurd same (by decide)
  · exact absurd same (by decide)
  · rcases none with zero | letter
    · simp [zero] at inLead
    · rw [letter] at inLead
      split at inLead
      · simp at inLead
      · exact absurd inLead (by decide)
  · exact other_digits directive x (by decide) inDigits

theorem alternate_hasX (hexadecimal : directive.letter = .x ∨ directive.letter = .X) :
    chr 'x' ∈ directive.alternateText x := by
  rcases hexadecimal with letter | letter <;> simp [Directive.alternateText, letter, Letter.mark]

/-- An octal zero is printed as `00`, which is right only in a field of zeros. -/
theorem octal_zero (zero : Bool) (width : Nat) :
    [chr '0'] ++ List.replicate (width - 2) (if zero then chr '0' else chr ' ') ++ [chr '0'] =
      field zero width [] [chr '0'] ↔ zero = true ∧ 2 ≤ width := by
  cases zero with
  | true =>
    have left : [chr '0'] ++ List.replicate (width - 2) (chr '0') ++ [chr '0'] = List.replicate (width - 2 + 2) (chr '0') := by
      rw [List.replicate_succ, List.replicate_succ']
      rfl
    have right : field true width [] [chr '0'] = List.replicate (width - 1 + 1) (chr '0') := by
      rw [List.replicate_succ']
      rfl
    rw [if_pos rfl, left, right, List.replicate_left_inj, eq_self, true_and]
    omega
  | false =>
    simp only [field, Bool.false_eq_true, if_false, false_and, iff_false, List.append_nil, List.length_nil,
      List.length_singleton, Nat.zero_add]
    intro same
    by_cases wide : 2 ≤ width
    · obtain ⟨filling, padded⟩ : ∃ n, width - 1 = n + 1 := Nat.exists_eq_succ_of_ne_zero (by omega)
      rw [padded, List.replicate_succ] at same
      have heads := (List.cons.inj same).1
      exact absurd heads (by decide)
    · have lengths := congrArg List.length same
      simp only [List.length_append, List.length_replicate, List.length_singleton] at lengths
      omega

theorem alternate_iff (marked : directive.letter.IsMarked) :
    directive.alternateText x = directive.marked x ↔ directive.IsMarkedRight x := by
  -- The x is printed for every value, and in capitals too; nothing else in a field is one.
  have never : chr 'x' ∈ directive.alternateText x → chr 'x' ∉ directive.marked x →
      directive.alternateText x ≠ directive.marked x := by
    intro here notThere same
    exact notThere (same ▸ here)
  have prefixed : directive.value x ≠ 0 → directive.letter.mark = directive.letter.lead →
      ∀ rest, directive.letter.lead = chr '0' :: rest →
      (directive.alternateText x = directive.marked x ↔
        directive.isZero = true ∨ directive.width.value ≤ directive.letter.lead.length + (directive.digits x).length) := by
    intro nonzero same rest first
    rw [Directive.alternateText, Directive.marked, if_neg nonzero, same, first]
    exact lead_field directive.isZero directive.width.value rest (directive.digits x)
  rw [Directive.IsMarkedRight]
  rcases marked with letter | letter | letter
  · rw [letter] at prefixed
    simp only [letter]
    by_cases none : directive.value x = 0
    · rw [if_pos none, Directive.alternateText, Directive.marked, if_pos none, digits_zero directive x none, letter]
      exact octal_zero directive.isZero directive.width.value
    · rw [if_neg none]
      exact prefixed none rfl [] rfl
  · simp only [letter]
    by_cases none : directive.value x = 0
    · have notEqual := never (alternate_hasX directive x (.inl letter)) (marked_noX directive x (.inl none))
      exact ⟨fun same => absurd same notEqual, fun both => absurd none both.1⟩
    · rw [letter] at prefixed
      have hexadecimal := prefixed none rfl [chr 'x'] rfl
      exact hexadecimal.trans ⟨fun fits => ⟨none, fits⟩, fun both => both.2⟩
  · simp only [letter, iff_false]
    exact never (alternate_hasX directive x (.inr letter)) (marked_noX directive x (.inr letter))

end

def stringText (flags : List Flag) (width : Width) : List Byte :=
  chr '%' :: flags.map Flag.char ++ width.text ++ [chr 's']

/-- A string is printed with its padding behind it. -/
theorem prints_string (flags : List Flag) (width : Width) (text : List Byte) :
    Prints (stringText flags width) (width.args ++ [.str text])
      (cString text ++ List.replicate (width.value - (cString text).length) (chr ' ')) := by
  intro rest out
  let bits := flagBits (decide (.zero ∈ flags)) (decide (.hash ∈ flags))
  obtain ⟨mode, atWidth, hasWidth⟩ := exec_widthText snoc width bits (.str text :: rest) out
  have filling : ((width.value : Int) - (cString text).length - 0).toNat = width.value - (cString text).length := by
    omega
  have printed : consume snoc (chr 's') ⟨mode, .str text :: rest, out⟩ =
      .ok ⟨.plain, rest, pad snoc (chr ' ') (width.value - (cString text).length) 0 (putAll snoc (cString text) out)⟩ := by
    rcases hasWidth with rfl | rfl <;> rfl
  rw [stringText, List.append_assoc, List.append_assoc]
  refine (exec_append _ _ _ (exec_start snoc flags _ out)).trans ?_
  refine (exec_append _ _ _ atWidth).trans ?_
  rw [exec_singleton, printed, pad_text, putAll_text, filling, List.append_assoc]

theorem commutes_replicate {α : Type} (a : α) (k : Nat) (positive : 0 < k) (text : List α) :
    text ++ List.replicate k a = List.replicate k a ++ text ↔ ∀ c ∈ text, c = a := by
  constructor
  · intro same
    -- The first characters agree, and without them the text commutes again.
    induction text with
    | nil => simp
    | cons c rest ih =>
      obtain ⟨n, rfl⟩ : ∃ n, k = n + 1 := Nat.exists_eq_succ_of_ne_zero (by omega)
      rw [List.replicate_succ, List.cons_append, List.cons_append] at same
      obtain ⟨rfl, tails⟩ := List.cons.inj same
      rw [← List.replicate_succ, List.append_cons, ← List.replicate_succ'] at tails
      intro d member
      rcases List.mem_cons.mp member with rfl | later
      · rfl
      · exact ih tails d later
  · intro all
    rw [List.eq_replicate_of_mem all, ← List.replicate_add, ← List.replicate_add, Nat.add_comm]

theorem string_iff (width : Nat) (text : List Byte) :
    text ++ List.replicate (width - text.length) (chr ' ') = field false width [] text ↔
      width ≤ text.length ∨ ∀ c ∈ text, c = chr ' ' := by
  have standard : field false width [] text = List.replicate (width - text.length) (chr ' ') ++ text := by
    rw [field, if_neg Bool.false_ne_true, List.append_nil, List.length_nil, Nat.zero_add]
  rw [standard]
  by_cases narrow : width ≤ text.length
  · rw [Nat.sub_eq_zero_of_le narrow, List.replicate_zero, List.append_nil, List.nil_append]
    exact ⟨fun _ => .inl narrow, fun _ => rfl⟩
  · rw [commutes_replicate (chr ' ') _ (by omega)]
    exact ⟨.inr, fun either => either.resolve_left narrow⟩

theorem stringText_nonzero (flags : List Flag) (width : Width) : ∀ c ∈ stringText flags width, c ≠ 0 := by
  intro c member
  rcases List.mem_append.mp member with front | last
  · exact front_nonzero flags width c front
  · rw [List.mem_singleton.mp last]
    decide

/-- The conversions with `#`, and those of strings -/
inductive Extended where
  | marked (directive : Directive) (hash : directive.isAlternate = true) (letter : directive.letter.IsMarked) (x : BitVec 32)
  | string (flags : List Flag) (width : Width) (text : List Byte)

namespace Extended

def text : Extended → List Byte
  | marked directive _ _ _ => directive.text
  | string flags width _ => stringText flags width

def args : Extended → List Arg
  | marked directive _ _ x => directive.args x
  | string _ width text => width.args ++ [.str text]

/-- What standard C prints: a string at the right of its field -/
def standard : Extended → List Byte
  | marked directive _ _ x => directive.marked x
  | string _ width text => field false width.value [] (cString text)

def IsRight : Extended → Prop
  | marked directive _ _ x => directive.IsMarkedRight x
  | string _ width text => width.value ≤ (cString text).length ∨ ∀ c ∈ cString text, c = chr ' '

end Extended

/-- `#` and the width of a string print what they print in standard C in exactly these cases. -/
theorem vsnprintf_extended_iff (extended : Extended) :
    fullText extended.text extended.args = .ok extended.standard ↔ extended.IsRight := by
  cases extended with
  | marked directive hash letter x =>
    have printed := (directive.prints_alternate x hash letter).fullText directive.text_nonzero
    rw [Extended.text, Extended.args, printed, Except.ok.injEq]
    exact alternate_iff directive x letter
  | string flags width text =>
    have printed := (prints_string flags width text).fullText (stringText_nonzero flags width)
    rw [Extended.text, Extended.args, printed, Except.ok.injEq]
    exact string_iff width.value (cString text)

theorem vsnprintf_extended_iff_zeros :
    fullText ("%#06x".toList.map chr) [.int 42] =
      .ok ((⟨[.hash, .zero], .given 6 (by decide) (by decide), false, .x⟩ : Directive).marked 42) :=
  (vsnprintf_extended_iff (.marked ⟨[.hash, .zero], .given 6 (by decide) (by decide), false, .x⟩ rfl
    (.inr (.inl rfl)) 42)).mpr ⟨by decide, .inl rfl⟩

/-- Spaces behind a prefix, a prefix in front of a zero, and a string at the left of its field -/
theorem vsnprintf_misplaces :
    (fullText ("%#6x".toList.map chr) [.int 42] = .ok ("0x  2a".toList.map chr) ∧
      (⟨[.hash], .given 6 (by decide) (by decide), false, .x⟩ : Directive).marked 42 ≠ "0x  2a".toList.map chr) ∧
    (fullText ("%#x".toList.map chr) [.int 0] = .ok ("0x0".toList.map chr) ∧
      (⟨[.hash], .none, false, .x⟩ : Directive).marked 0 ≠ "0x0".toList.map chr) ∧
    (fullText ("%#X".toList.map chr) [.int 42] = .ok ("0x2A".toList.map chr) ∧
      (⟨[.hash], .none, false, .X⟩ : Directive).marked 42 ≠ "0x2A".toList.map chr) ∧
    (fullText ("%5s".toList.map chr) [.str ("ab".toList.map chr)] = .ok ("ab   ".toList.map chr) ∧
      field false 5 [] ("ab".toList.map chr) ≠ "ab   ".toList.map chr) := by
  refine ⟨⟨?_, ?_⟩, ⟨?_, ?_⟩, ⟨?_, ?_⟩, ⟨?_, ?_⟩⟩ <;> decide +kernel

end Testjig.Text
