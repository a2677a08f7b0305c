import Testjig.Machine.Reach
import Testjig.Text.Truncation

namespace Testjig.Text

open Machine Testjig.Sequence

/-- Where `vsnprintf()` next reads its format: in the outer loop, in the `switch` at `more`, in the loop over the
digits of a width, or behind an `h` -/
inductive Phase where
  | outer
  | specifier
  | digits
  | second
deriving DecidableEq, Repr

/-- The pointer `format`, as an index, and where it is read -/
structure Cursor where
  phase : Phase
  pos : Nat
deriving DecidableEq, Repr

/-- One read of `*format`. The loop ends with the index that `format` then points to. -/
def readFormat (format : Nat → Byte) (s : Cursor) : Except Nat Cursor :=
  let c := format s.pos
  match s.phase with
  | .outer =>
    if c = 0 then .error (s.pos + 1)
    else if c ≠ chr '%' then .ok ⟨.outer, s.pos + 1⟩
    else .ok ⟨.specifier, s.pos + 1⟩
  | .specifier =>
    if c = chr '*' ∨ c = chr '#' ∨ c = chr '0' then .ok ⟨.specifier, s.pos + 1⟩
    else if chr '1' ≤ c ∧ c ≤ chr '9' then .ok ⟨.digits, s.pos + 1⟩
    else if c = chr 'h' then .ok ⟨.second, s.pos + 1⟩
    -- A conversion, or the default, which takes the terminator like any other character.
    else .ok ⟨.outer, s.pos + 1⟩
  | .digits => if chr '0' ≤ c ∧ c ≤ chr '9' then .ok ⟨.digits, s.pos + 1⟩ else .ok ⟨.specifier, s.pos⟩
  | .second => if c = chr 'h' then .ok ⟨.specifier, s.pos + 1⟩ else .ok ⟨.specifier, s.pos⟩

/-- What may stand between a `%` and the character that ends its conversion -/
def IsModifier (c : Byte) : Prop :=
  c = chr '*' ∨ c = chr '#' ∨ c = chr 'h' ∨ (chr '0' ≤ c ∧ c ≤ chr '9')

instance : DecidablePred IsModifier := fun c =>
  inferInstanceAs (Decidable (c = chr '*' ∨ c = chr '#' ∨ c = chr 'h' ∨ (chr '0' ≤ c ∧ c ≤ chr '9')))

/-- Ordinary characters and conversions, of which none is cut off by the end of the text -/
inductive Complete : List Byte → Prop where
  | nil : Complete []
  | ordinary (c : Byte) (rest : List Byte) (plain : c ≠ chr '%') (tail : Complete rest) : Complete (c :: rest)
  | conversion (modifiers : List Byte) (c : Byte) (rest : List Byte) (each : ∀ m ∈ modifiers, IsModifier m)
      (last : ¬ IsModifier c) (tail : Complete rest) : Complete (chr '%' :: (modifiers ++ c :: rest))

def Pending (text : List Byte) : Prop :=
  ∃ modifiers c rest, text = modifiers ++ c :: rest ∧ (∀ m ∈ modifiers, IsModifier m) ∧ ¬ IsModifier c ∧ Complete rest

theorem complete_ordinary {c : Byte} (plain : c ≠ chr '%') (rest : List Byte) : Complete (c :: rest) ↔ Complete rest := by
  constructor
  · intro complete
    cases complete with
    | ordinary _ _ _ tail => exact tail
    | conversion _ _ _ _ _ _ => exact absurd rfl plain
  · intro tail
    exact .ordinary c rest plain tail

theorem complete_percent (rest : List Byte) : Complete (chr '%' :: rest) ↔ Pending rest := by
  constructor
  · intro complete
    generalize whole : chr '%' :: rest = text at complete
    cases complete with
    | nil => cases whole
    | ordinary _ _ plain _ =>
      cases whole
      exact absurd rfl plain
    | conversion modifiers c tail each last complete =>
      cases whole
      exact ⟨modifiers, c, tail, rfl, each, last, complete⟩
  · rintro ⟨modifiers, c, tail, rfl, each, last, complete⟩
    exact .conversion modifiers c tail each last complete

theorem pending_nil : ¬ Pending [] := by
  rintro ⟨modifiers, c, rest, whole, -⟩
  simp at whole

theorem pending_modifier {c : Byte} (modifier : IsModifier c) (rest : List Byte) : Pending (c :: rest) ↔ Pending rest := by
  constructor
  · rintro ⟨modifiers, d, tail, whole, each, last, complete⟩
    cases modifiers with
    | nil =>
      cases whole
      exact absurd modifier last
    | cons m modifiers =>
      cases whole
      exact ⟨modifiers, d, tail, rfl, fun m member => each m (List.mem_cons_of_mem _ member), last, complete⟩
  · rintro ⟨modifiers, d, tail, rfl, each, last, complete⟩
    exact ⟨c :: modifiers, d, tail, rfl, List.forall_mem_cons.mpr ⟨modifier, each⟩, last, complete⟩

theorem pending_last {c : Byte} (last : ¬ IsModifier c) (rest : List Byte) : Pending (c :: rest) ↔ Complete rest := by
  constructor
  · rintro ⟨modifiers, d, tail, whole, each, -, complete⟩
    cases modifiers with
    | nil =>
      cases whole
      exact complete
    | cons m modifiers =>
      cases whole
      exact absurd (each c List.mem_cons_self) last
  · intro complete
    exact ⟨[], c, rest, rfl, by simp, last, complete⟩

theorem isModifier_iff (c : Byte) :
    IsModifier c ↔ (c = chr '*' ∨ c = chr '#' ∨ c = chr '0') ∨ (chr '1' ≤ c ∧ c ≤ chr '9') ∨ c = chr 'h' := by
  decide +revert +kernel

theorem isModifier_digit {c : Byte} (digit : chr '0' ≤ c ∧ c ≤ chr '9') : IsModifier c := .inr (.inr (.inr digit))

section

variable (format : Nat → Byte)

def Holds (pos : Nat) : List Byte → Prop
  | [] => format pos = 0
  | c :: rest => format pos = c ∧ c ≠ 0 ∧ Holds (pos + 1) rest

variable {format} {pos : Nat}

theorem readFormat_modifier (modifier : IsModifier (format pos)) :
    ∃ phase, phase ≠ .outer ∧ readFormat format ⟨.specifier, pos⟩ = .ok ⟨phase, pos + 1⟩ := by
  rw [readFormat]
  dsimp only
  rw [isModifier_iff] at modifier
  split
  · exact ⟨_, by decide, rfl⟩
  · split
    · exact ⟨_, by decide, rfl⟩
    · split
      · exact ⟨_, by decide, rfl⟩
      · rename_i notFlag notWidth notHalf
        rcases modifier with flag | width | half
        · exact absurd flag notFlag
        · exact absurd width notWidth
        · exact absurd half notHalf

theorem readFormat_last (last : ¬ IsModifier (format pos)) :
    readFormat format ⟨.specifier, pos⟩ = .ok ⟨.outer, pos + 1⟩ := by
  rw [isModifier_iff] at last
  obtain ⟨notFlag, others⟩ := not_or.mp last
  obtain ⟨notWidth, notHalf⟩ := not_or.mp others
  rw [readFormat]
  dsimp only
  rw [if_neg notFlag, if_neg notWidth, if_neg notHalf]

/-- The run from a cursor reads nothing behind the terminator at `n`, and ends behind it. -/
def Stays (format : Nat → Byte) (n : Nat) (s : Cursor) : Prop :=
  Runs (readFormat format) (fun s => s.pos ≤ n) (n + 1) s

theorem stays_ok {n : Nat} {s next : Cursor} (taken : readFormat format s = .ok next) (inside : s.pos ≤ n) :
    Stays format n s ↔ Stays format n next :=
  runs_ok taken inside

/-- Behind a width or an `h` the character that did not belong to it is read again. -/
theorem stays_specifier {n : Nat} {text : List Byte} (inside : pos ≤ n)
    (specifier : Stays format n ⟨.specifier, pos⟩ ↔ Pending text)
    (modifier : IsModifier (format pos) →
      ∀ phase, phase ≠ .outer → (Stays format n ⟨phase, pos + 1⟩ ↔ Pending text))
    (phase : Phase) (inner : phase ≠ .outer) : Stays format n ⟨phase, pos⟩ ↔ Pending text := by
  cases phase with
  | outer => exact absurd rfl inner
  | specifier => exact specifier
  | digits =>
    by_cases digit : chr '0' ≤ format pos ∧ format pos ≤ chr '9'
    · have taken : readFormat format ⟨.digits, pos⟩ = .ok ⟨.digits, pos + 1⟩ := if_pos digit
      rw [stays_ok taken inside]
      exact modifier (isModifier_digit digit) .digits inner
    · have taken : readFormat format ⟨.digits, pos⟩ = .ok ⟨.specifier, pos⟩ := if_neg digit
      rw [stays_ok taken inside]
      exact specifier
  | second =>
    by_cases half : format pos = chr 'h'
    · have taken : readFormat format ⟨.second, pos⟩ = .ok ⟨.specifier, pos + 1⟩ := if_pos half
      rw [stays_ok taken inside]
      exact modifier (.inr (.inr (.inl half))) .specifier (by decide)
    · have taken : readFormat format ⟨.second, pos⟩ = .ok ⟨.specifier, pos⟩ := if_neg half
      rw [stays_ok taken inside]
      exact specifier

/-- The induction over the text: outside of a conversion it must be complete, within one it must end it. -/
theorem stays_iff {text : List Byte} {n : Nat} (holds : Holds format pos text) (ends : n = pos + text.length) :
    (Stays format n ⟨.outer, pos⟩ ↔ Complete text) ∧
      ∀ phase, phase ≠ .outer → (Stays format n ⟨phase, pos⟩ ↔ Pending text) := by
  induction text generalizing pos with
  | nil =>
    have zero : format pos = 0 := holds
    have here : n = pos := ends
    have notModifier : ¬ IsModifier (format pos) := by
      rw [zero]
      decide
    have past : ¬ Stays format n ⟨.specifier, pos⟩ := by
      intro stays
      have reached := stays.1 ⟨.outer, pos + 1⟩ (.head (readFormat_last notModifier) (.refl _ _))
      dsimp only at reached
      omega
    constructor
    · have ended : readFormat format ⟨.outer, pos⟩ = .error (n + 1) := by
        rw [here]
        exact if_pos zero
      exact iff_of_true (runs_error ended (by dsimp only; omega)) .nil
    · apply stays_specifier (by omega)
      · exact iff_of_false past pending_nil
      · intro modifier
        exact absurd modifier notModifier
  | cons c rest ih =>
    obtain ⟨here, nonzero, behind⟩ := holds
    rw [List.length_cons] at ends
    obtain ⟨outer, inner⟩ := ih behind (by omega)
    constructor
    · by_cases percent : c = chr '%'
      · have taken : readFormat format ⟨.outer, pos⟩ = .ok ⟨.specifier, pos + 1⟩ := by
          rw [readFormat]
          dsimp only
          rw [here, if_neg nonzero, if_neg (fun plain => plain percent)]
        rw [stays_ok taken (by dsimp only; omega), percent, complete_percent]
        exact inner .specifier (by decide)
      · have taken : readFormat format ⟨.outer, pos⟩ = .ok ⟨.outer, pos + 1⟩ := by
          rw [readFormat]
          dsimp only
          rw [here, if_neg nonzero, if_pos percent]
        rw [stays_ok taken (by dsimp only; omega), complete_ordinary percent]
        exact outer
    · have next (modifier : IsModifier (format pos)) (phase : Phase) (inside : phase ≠ .outer) :
          Stays format n ⟨phase, pos + 1⟩ ↔ Pending (c :: rest) := by
        rw [pending_modifier (here ▸ modifier)]
        exact inner phase inside
      apply stays_specifier (by omega)
      · by_cases modifier : IsModifier (format pos)
        · obtain ⟨phase, inside, taken⟩ := readFormat_modifier modifier
          rw [stays_ok taken (by dsimp only; omega)]
          exact next modifier phase inside
        · rw [stays_ok (readFormat_last modifier) (by dsimp only; omega), pending_last (here ▸ modifier)]
          exact outer
      · exact next

end

def characters (format : Nat → Byte) (pos : Nat) : Nat → List Byte
  | 0 => []
  | count + 1 => format pos :: characters format (pos + 1) count

theorem characters_length (format : Nat → Byte) (pos count : Nat) : (characters format pos count).length = count := by
  induction count generalizing pos with
  | zero => rfl
  | succ count ih => rw [characters, List.length_cons, ih]

theorem holds_characters {format : Nat → Byte} (count : Nat) {pos : Nat} (ends : format (pos + count) = 0)
    (first : ∀ i < count, format (pos + i) ≠ 0) : Holds format pos (characters format pos count) := by
  induction count generalizing pos with
  | zero => exact ends
  | succ count ih =>
    refine ⟨rfl, first 0 (by omega), ?_⟩
    have shift (i : Nat) : pos + 1 + i = pos + (i + 1) := by omega
    apply ih
    · rwa [shift]
    · intro i bound
      rw [shift]
      exact first (i + 1) (by omega)

def Mode.phase : Mode → Phase
  | .plain => .outer
  | .more _ _ => .specifier
  | .width _ _ => .digits
  | .half _ _ => .second

/-- A step of the scanner that leaves it in a mode of this phase, unless it faults -/
def Lands {σ : Type} (phase : Phase) : Except FormatFault (Scan σ) → Prop
  | .ok next => next.mode.phase = phase
  | .error _ => True

section

variable {σ : Type} (put : σ → Byte → σ) (format : Nat → Byte) (pos : Nat)

theorem number_lands (flags : BitVec 32) (width : Int) (args : List Arg) (out : σ) :
    Lands .outer (number put flags width args out) := by
  unfold number
  split
  · split
    · rfl
    · trivial
  · trivial

theorem more_lands (flags : BitVec 32) (width : Int) (args : List Arg) (out : σ) :
    ∃ phase, Lands phase (more put flags width (format pos) args out) ∧
      readFormat format ⟨.specifier, pos⟩ = .ok ⟨phase, pos + 1⟩ := by
  unfold more
  by_cases star : format pos = chr '*'
  · refine ⟨.specifier, ?_, if_pos (.inl star)⟩
    rw [if_pos star]
    split <;> trivial
  by_cases hash : format pos = chr '#'
  · refine ⟨.specifier, ?_, if_pos (.inr (.inl hash))⟩
    rw [if_neg star, if_pos hash]
    rfl
  by_cases zero : format pos = chr '0'
  · refine ⟨.specifier, ?_, if_pos (.inr (.inr zero))⟩
    rw [if_neg star, if_neg hash, if_pos zero]
    rfl
  have notFlag : ¬ (format pos = chr '*' ∨ format pos = chr '#' ∨ format pos = chr '0') :=
    not_or.mpr ⟨star, not_or.mpr ⟨hash, zero⟩⟩
  rw [if_neg star, if_neg hash, if_neg zero, readFormat]
  dsimp only
  rw [if_neg notFlag]
  by_cases digit : chr '1' ≤ format pos ∧ format pos ≤ chr '9'
  · rw [if_pos digit, if_pos digit]
    exact ⟨.digits, rfl, rfl⟩
  by_cases half : format pos = chr 'h'
  · rw [if_neg digit, if_pos half, if_neg digit, if_pos half]
    exact ⟨.second, rfl, rfl⟩
  rw [if_neg digit, if_neg half, if_neg digit, if_neg half]
  refine ⟨.outer, ?_, rfl⟩
  apply ite_prop
  · exact number_lands put _ _ _ _
  apply ite_prop
  · exact number_lands put _ _ _ _
  apply ite_prop
  · exact number_lands put _ _ _ _
  apply ite_prop
  · exact number_lands put _ _ _ _
  apply ite_prop
  · exact number_lands put _ _ _ _
  apply ite_prop
  · split <;> trivial
  apply ite_prop
  · split <;> trivial
  · rfl

variable {put format pos}

theorem more_reads {flags : BitVec 32} {width : Int} {args : List Arg} {out : σ} {next : Scan σ}
    (taken : more put flags width (format pos) args out = .ok next) :
    Reaches (readFormat format) ⟨.specifier, pos⟩ ⟨next.mode.phase, pos + 1⟩ := by
  obtain ⟨phase, lands, read⟩ := more_lands put format pos flags width args out
  rw [taken] at lands
  have same : next.mode.phase = phase := lands
  rw [same]
  exact .head read (.refl _ _)

/-- What the scanner does with one character, it does in one or two reads. -/
theorem consume_reads {s next : Scan σ} (nonzero : format pos ≠ 0) (taken : consume put (format pos) s = .ok next) :
    Reaches (readFormat format) ⟨s.mode.phase, pos⟩ ⟨next.mode.phase, pos + 1⟩ := by
  obtain ⟨mode, args, out⟩ := s
  unfold consume at taken
  cases mode with
  | plain =>
    by_cases plain : format pos ≠ chr '%'
    · have read : readFormat format ⟨.outer, pos⟩ = .ok ⟨.outer, pos + 1⟩ := (if_neg nonzero).trans (if_pos plain)
      simp only [if_pos plain, Except.ok.injEq] at taken
      exact taken ▸ .head read (.refl _ _)
    · have read : readFormat format ⟨.outer, pos⟩ = .ok ⟨.specifier, pos + 1⟩ := (if_neg nonzero).trans (if_neg plain)
      simp only [if_neg plain, Except.ok.injEq] at taken
      exact taken ▸ .head read (.refl _ _)
  | more flags width => exact more_reads taken
  | width flags width =>
    by_cases digit : chr '0' ≤ format pos ∧ format pos ≤ chr '9'
    · have read : readFormat format ⟨.digits, pos⟩ = .ok ⟨.digits, pos + 1⟩ := if_pos digit
      simp only [if_pos digit] at taken
      split at taken
      · rw [Except.ok.injEq] at taken
        exact taken ▸ .head read (.refl _ _)
      · cases taken
    · have read : readFormat format ⟨.digits, pos⟩ = .ok ⟨.specifier, pos⟩ := if_neg digit
      simp only [if_neg digit] at taken
      exact .head read (more_reads taken)
  | half flags width =>
    by_cases half : format pos = chr 'h'
    · have read : readFormat format ⟨.second, pos⟩ = .ok ⟨.specifier, pos + 1⟩ := if_pos half
      simp only [if_pos half, Except.ok.injEq] at taken
      exact taken ▸ .head read (.refl _ _)
    · have read : readFormat format ⟨.second, pos⟩ = .ok ⟨.specifier, pos⟩ := if_neg half
      simp only [if_neg half] at taken
      exact .head read (more_reads taken)

theorem exec_reads {text : List Byte} {s last : Scan σ} (holds : Holds format pos text)
    (run : exec (consume put) text s = .ok last) :
    Reaches (readFormat format) ⟨s.mode.phase, pos⟩ ⟨last.mode.phase, pos + text.length⟩ := by
  induction text generalizing pos s with
  | nil =>
    cases run
    exact .refl _ _
  | cons c rest ih =>
    obtain ⟨here, nonzero, behind⟩ := holds
    obtain ⟨next, taken, tail⟩ := (exec_cons_ok _ _ _ _ _).mp run
    subst here
    have later := ih behind tail
    rw [Nat.add_assoc, Nat.add_comm 1] at later
    exact (consume_reads nonzero taken).trans later

theorem readFormat_forward {s next : Cursor} (taken : readFormat format s = .ok next) : s.pos ≤ next.pos := by
  obtain ⟨phase, pos⟩ := s
  unfold readFormat at taken
  cases phase with
  | outer =>
    dsimp only at taken
    split at taken
    · cases taken
    · split at taken <;> cases taken <;> exact Nat.le_succ pos
  | specifier =>
    dsimp only at taken
    split at taken
    · cases taken
      exact Nat.le_succ pos
    · split at taken
      · cases taken
        exact Nat.le_succ pos
      · split at taken <;> cases taken <;> exact Nat.le_succ pos
  | digits | second =>
    dsimp only at taken
    split at taken
    · cases taken
      exact Nat.le_succ pos
    · cases taken
      exact Nat.le_refl pos

theorem reads_forward {s last : Cursor} (reaches : Reaches (readFormat format) s last) : s.pos ≤ last.pos :=
  reaches.keeps (fun _ _ taken before => Nat.le_trans before (readFormat_forward taken)) (Nat.le_refl _)

theorem specifier_reads {phase : Phase} (inner : phase ≠ .outer) (ends : format pos = 0) :
    Reaches (readFormat format) ⟨phase, pos⟩ ⟨.outer, pos + 1⟩ := by
  have notModifier : ¬ IsModifier (format pos) := by
    rw [ends]
    decide
  have last : Reaches (readFormat format) ⟨.specifier, pos⟩ ⟨.outer, pos + 1⟩ :=
    .head (readFormat_last notModifier) (.refl _ _)
  cases phase with
  | outer => exact absurd rfl inner
  | specifier => exact last
  | digits => exact .head (if_neg fun digit => notModifier (isModifier_digit digit)) last
  | second => exact .head (if_neg fun half => notModifier (.inr (.inr (.inl half)))) last

/-- The scanner comes to the end of a format outside of any conversion if and only if the format is complete. -/
theorem exec_complete_iff {text : List Byte} {args : List Arg} {out : σ} {last : Scan σ}
    (holds : Holds format 0 text) (ends : format text.length = 0)
    (run : exec (consume put) text ⟨.plain, args, out⟩ = .ok last) : last.mode = .plain ↔ Complete text := by
  have reaches := exec_reads holds run
  rw [Nat.zero_add] at reaches
  rw [← (stays_iff holds (Nat.zero_add text.length).symm).1]
  constructor
  · intro plain
    rw [plain] at reaches
    have ended : readFormat format ⟨.outer, text.length⟩ = .error (text.length + 1) := if_pos ends
    refine ⟨?_, _, reaches, ended⟩
    intro other reached
    rcases reaches.total reached with past | before
    · rw [(reaches_error ended other).mp past]
    · exact reads_forward before
  · intro stays
    by_contra conversion
    have inner : last.mode.phase ≠ .outer := by
      cases mode : last.mode with
      | plain => exact absurd mode conversion
      | more | width | half => simp [Mode.phase]
    have past := stays.1 _ (reaches.trans (specifier_reads inner ends))
    dsimp only at past
    omega

end

/-- The terminator is the last character of the format that is read, and the end of the loop, if and only if
no conversion is cut off by it. -/
theorem vsnprintf_scans_iff (format : Nat → Byte) (n : Nat) (ends : format n = 0) (first : ∀ i < n, format i ≠ 0) :
    ((∀ s, Reaches (readFormat format) ⟨.outer, 0⟩ s → s.pos ≤ n) ∧
      ∃ s, Reaches (readFormat format) ⟨.outer, 0⟩ s ∧ readFormat format s = .error (n + 1)) ↔
      Complete (characters format 0 n) := by
  have holds : Holds format 0 (characters format 0 n) := by
    apply holds_characters
    · rwa [Nat.zero_add]
    · intro i bound
      rw [Nat.zero_add]
      exact first i bound
  have length : n = 0 + (characters format 0 n).length := by
    rw [characters_length]
    omega
  exact (stays_iff holds length).1

def literal (text : List Byte) (i : Nat) : Byte := text.getD i 0

theorem vsnprintf_scans_iff_width :
    ((∀ s, Reaches (readFormat (literal [chr '%', chr '5', chr 'd'])) ⟨.outer, 0⟩ s → s.pos ≤ 3) ∧
      ∃ s, Reaches (readFormat (literal [chr '%', chr '5', chr 'd'])) ⟨.outer, 0⟩ s ∧
        readFormat (literal [chr '%', chr '5', chr 'd']) s = .error 4) ∧
      Complete [chr '%', chr '5', chr 'd'] := by
  have complete : Complete [chr '%', chr '5', chr 'd'] :=
    .conversion [chr '5'] (chr 'd') [] (by decide) (by decide) .nil
  exact ⟨(vsnprintf_scans_iff (literal [chr '%', chr '5', chr 'd']) 3 rfl (by decide)).mpr complete, complete⟩

theorem vsnprintf_scans_past :
    ¬ ∀ (format : Nat → Byte) (n : Nat), format n = 0 → (∀ i < n, format i ≠ 0) →
      (∀ s, Reaches (readFormat format) ⟨.outer, 0⟩ s → s.pos ≤ n) ∧
        ∃ s, Reaches (readFormat format) ⟨.outer, 0⟩ s ∧ readFormat format s = .error (n + 1) := by
  intro all
  have within := (all (literal [chr '%']) 1 rfl (by decide)).1
  have first : readFormat (literal [chr '%']) ⟨.outer, 0⟩ = .ok ⟨.specifier, 1⟩ := by rfl
  have second : readFormat (literal [chr '%']) ⟨.specifier, 1⟩ = .ok ⟨.outer, 2⟩ := by rfl
  have past := within ⟨.outer, 2⟩ (.head first (.head second (.refl _ _)))
  exact absurd past (by decide)

end Testjig.Text
