import Mathlib.Data.List.Induction
import Testjig.Text.Digits

namespace Testjig.Text

open Machine Testjig.Sequence

def Scan.map {σ τ : Type} (h : σ → τ) (s : Scan σ) : Scan τ := ⟨s.mode, s.args, h s.out⟩

def Conversion.map {σ τ : Type} (h : σ → τ) (v : Conversion σ) : Conversion τ := ⟨v.flags, v.width, v.x, h v.out⟩

theorem ite_hom {α β : Type} (f : α → β) {p : Prop} [Decidable p] {yes no : α} {yes' no' : β}
    (left : yes' = f yes) (right : no' = f no) : (if p then yes' else no') = f (if p then yes else no) := by
  split
  · exact left
  · exact right

section

-- What is emitted does not depend on where it goes.
variable {σ τ : Type} {put : σ → Byte → σ} {put' : τ → Byte → τ} {h : σ → τ}
  (hom : ∀ out c, h (put out c) = put' (h out) c)
include hom

theorem putAll_map (text : List Byte) (out : σ) : h (putAll put text out) = putAll put' text (h out) := by
  induction text generalizing out with
  | nil => rfl
  | cons c rest ih =>
    rw [putAll, putAll, List.foldl_cons, List.foldl_cons, ← hom]
    exact ih (put out c)

theorem pad_map (c : Byte) (width least : Int) (out : σ) : h (pad put c width least out) = pad put' c width least (h out) :=
  putAll_map hom _ out

theorem signStep_map (v : Conversion σ) : signStep put' (v.map h) = (signStep put v).map h := by
  apply ite_hom (Conversion.map h)
  · apply ite_hom (Conversion.map h)
    · simp only [Conversion.map, hom]
    · rfl
  · rfl

theorem emit_map (v : Conversion σ) (c : Byte) : (v.map h).emit put' c = (v.emit put c).map h := by
  simp only [Conversion.emit, Conversion.map, hom]

theorem prefixStep_map (v : Conversion σ) : prefixStep put' (v.map h) = (prefixStep put v).map h := by
  let zero := if v.flags &&& base = 8 ∨ v.flags &&& base = 16 then v.emit put (chr '0') else v
  have first : (if v.flags &&& base = 8 ∨ v.flags &&& base = 16 then (v.map h).emit put' (chr '0') else v.map h) =
      zero.map h := by
    apply ite_hom (Conversion.map h)
    · exact emit_map hom v (chr '0')
    · rfl
  apply ite_hom (Conversion.map h)
  · apply ite_hom (Conversion.map h)
    · exact (congrArg (Conversion.emit put' · (chr 'x')) first).trans (emit_map hom zero (chr 'x'))
    · exact first
  · rfl

theorem digitStep_map (v : Conversion σ) : digitStep put' (v.map h) = (digitStep put v).map h := by
  rw [digitStep, digitStep]
  dsimp only [Conversion.map]
  cases tmpText v.flags v.x with
  | none => rfl
  | some tmp =>
    simp only [Except.map, putAll_map hom]
    apply congrArg (fun out => Except.ok (putAll put' tmp.reverse out))
    apply ite_hom h
    · rw [hom, pad_map hom]
      rfl
    · rw [pad_map hom]
      rfl

theorem number_map (flags : BitVec 32) (width : Int) (args : List Arg) (out : σ) :
    number put' flags width args (h out) = (number put flags width args out).map (Scan.map h) := by
  cases args with
  | nil => rfl
  | cons arg rest =>
    cases arg with
    | str text => rfl
    | int x =>
      have steps := digitStep_map hom (prefixStep put (signStep put ⟨flags, width, reduce flags x, out⟩))
      rw [← prefixStep_map hom, ← signStep_map hom] at steps
      simp only [Conversion.map] at steps
      simp only [number, steps]
      cases digitStep put (prefixStep put (signStep put ⟨flags, width, reduce flags x, out⟩)) <;> rfl

theorem more_map (flags : BitVec 32) (width : Int) (c : Byte) (args : List Arg) (out : σ) :
    more put' flags width c args (h out) = (more put flags width c args out).map (Scan.map h) := by
  have integer := fun flags => number_map hom flags width args out
  unfold more
  apply ite_hom (Except.map (Scan.map h))
  · rcases args with _ | ⟨arg | text, rest⟩ <;> rfl
  apply ite_hom (Except.map (Scan.map h))
  · rfl
  apply ite_hom (Except.map (Scan.map h))
  · rfl
  apply ite_hom (Except.map (Scan.map h))
  · rfl
  apply ite_hom (Except.map (Scan.map h))
  · rfl
  apply ite_hom (Except.map (Scan.map h))
  · exact integer _
  apply ite_hom (Except.map (Scan.map h))
  · exact integer _
  apply ite_hom (Except.map (Scan.map h))
  · exact integer _
  apply ite_hom (Except.map (Scan.map h))
  · exact integer _
  apply ite_hom (Except.map (Scan.map h))
  · exact integer _
  apply ite_hom (Except.map (Scan.map h))
  · rcases args with _ | ⟨arg | text, rest⟩
    · rfl
    · rfl
    · simp only [Except.map, Scan.map, pad_map hom, putAll_map hom]
  apply ite_hom (Except.map (Scan.map h))
  · rcases args with _ | ⟨arg | text, rest⟩
    · rfl
    · simp only [Except.map, Scan.map, hom]
    · rfl
  · simp only [Except.map, Scan.map, hom]

theorem consume_map (c : Byte) (s : Scan σ) : consume put' c (s.map h) = (consume put c s).map (Scan.map h) := by
  obtain ⟨mode, args, out⟩ := s
  cases mode with
  | plain =>
    apply ite_hom (Except.map (Scan.map h))
    · simp only [Except.map, Scan.map, hom]
    · rfl
  | more flags width => exact more_map hom flags width c args out
  | width flags width =>
    apply ite_hom (Except.map (Scan.map h))
    · apply ite_hom (Except.map (Scan.map h)) <;> rfl
    · exact more_map hom flags width c args out
  | half flags width =>
    apply ite_hom (Except.map (Scan.map h))
    · rfl
    · exact more_map hom (flags ||| short) width c args out

theorem formatLoop_map (format : List Byte) (args : List Arg) (out : σ) :
    formatLoop put' format args (h out) = (formatLoop put format args out).map h := by
  have run := exec_map (Scan.map h) (consume_map hom) (cString format) ⟨.plain, args, out⟩
  simp only [Scan.map] at run
  rw [formatLoop, formatLoop, run]
  cases exec (consume put) (cString format) ⟨.plain, args, out⟩ with
  | error fault => rfl
  | ok s =>
    obtain ⟨mode, rest, out⟩ := s
    cases mode <;> rfl

end

section

variable {σ : Type} (put : σ → Byte → σ)

/-- No base yet among the flags that the scanner carries to the end of a conversion -/
def Mode.Baseless : Mode → Prop
  | .plain => True
  | .more flags _ | .width flags _ | .half flags _ => flags &&& base = 0

def Bounded : Except FormatFault (Scan σ) → Prop
  | .ok s => s.mode.Baseless
  | .error fault => fault ≠ .scratch

theorem ite_prop {α : Type} {holds : α → Prop} {p : Prop} [Decidable p] {yes no : α} (left : holds yes)
    (right : holds no) : holds (if p then yes else no) := by
  split
  · exact left
  · exact right

theorem or_base (flags set : BitVec 32) (baseless : flags &&& base = 0) : (flags ||| set) &&& base = set &&& base := by
  rw [BitVec.and_or_distrib_right, baseless]
  exact BitVec.zero_or

theorem signStep_base (v : Conversion σ) : (signStep put v).flags &&& base = v.flags &&& base := by
  have apart : ~~~sign &&& base = base := by decide
  rw [signStep]
  split
  · split
    · rw [BitVec.and_assoc, apart]
    · rfl
  · rw [BitVec.and_assoc, apart]

theorem prefixStep_flags (v : Conversion σ) : (prefixStep put v).flags = v.flags := by
  rw [prefixStep]
  split
  · dsimp only
    split <;> split <;> rfl
  · rfl

theorem number_bounded {flags : BitVec 32} (isRadix : IsRadix (flags &&& base)) (width : Int) (args : List Arg) (out : σ) :
    Bounded (number put flags width args out) := by
  rw [number.eq_def]
  split
  · rename_i x rest
    let v := prefixStep put (signStep put ⟨flags, width, reduce flags x, out⟩)
    have same : v.flags &&& base = flags &&& base := by
      rw [prefixStep_flags, signStep_base]
    obtain ⟨tmp, filled, -⟩ := tmpText_eq (same ▸ isRadix) v.x
    rw [digitStep, filled]
    trivial
  · simp [Bounded]

theorem more_bounded {flags : BitVec 32} (baseless : flags &&& base = 0) (width : Int) (c : Byte) (args : List Arg)
    (out : σ) : Bounded (more put flags width c args out) := by
  have integer : ∀ set, IsRadix (set &&& base) → Bounded (number put (flags ||| set) width args out) := by
    intro set isRadix
    apply number_bounded
    rwa [or_base flags set baseless]
  have kept : ∀ set, set &&& base = 0 → (flags ||| set) &&& base = 0 := by
    intro set none
    rw [or_base flags set baseless, none]
  unfold more
  apply ite_prop
  · split
    · exact baseless
    · simp [Bounded]
  apply ite_prop
  · exact kept alternate (by decide)
  apply ite_prop
  · exact kept zeropad (by decide)
  apply ite_prop
  · exact baseless
  apply ite_prop
  · exact baseless
  apply ite_prop
  · exact integer 8 (.inl (by decide))
  apply ite_prop
  · rw [BitVec.or_assoc]
    exact integer (sign ||| 10) (.inr (.inl (by decide)))
  apply ite_prop
  · exact integer 10 (.inr (.inl (by decide)))
  apply ite_prop
  · rw [BitVec.or_assoc]
    exact integer (upper ||| 16) (.inr (.inr (by decide)))
  apply ite_prop
  · exact integer 16 (.inr (.inr (by decide)))
  apply ite_prop
  · split
    · trivial
    · simp [Bounded]
  apply ite_prop
  · split
    · trivial
    · simp [Bounded]
  · trivial

theorem consume_bounded (c : Byte) (s : Scan σ) (baseless : s.mode.Baseless) : Bounded (consume put c s) := by
  obtain ⟨mode, args, out⟩ := s
  cases mode with
  | plain =>
    apply ite_prop
    · trivial
    · exact BitVec.zero_and
  | more flags width => exact more_bounded put baseless width c args out
  | width flags width =>
    apply ite_prop
    · apply ite_prop
      · exact baseless
      · simp [Bounded]
    · exact more_bounded put baseless width c args out
  | half flags width =>
    have later : ∀ set, set &&& base = 0 → (flags ||| set) &&& base = 0 := by
      intro set none
      rw [or_base flags set baseless, none]
    apply ite_prop
    · exact later charFlag (by decide)
    · exact more_bounded put (later short (by decide)) width c args out

/-- `tmp` is large enough for every conversion of every format. -/
theorem formatLoop_notScratch (format : List Byte) (args : List Arg) (out : σ) :
    formatLoop put format args out ≠ .error .scratch := by
  have kept : ∀ (c : Byte) (s next : Scan σ), s.mode.Baseless → consume put c s = .ok next → next.mode.Baseless := by
    intro c s next baseless taken
    have bounded := consume_bounded put c s baseless
    rwa [taken] at bounded
  rw [formatLoop]
  cases run : exec (consume put) (cString format) ⟨.plain, args, out⟩ with
  | ok s =>
    obtain ⟨mode, rest, out⟩ := s
    cases mode <;> simp
  | error fault =>
    obtain ⟨c, s, baseless, taken⟩ := exec_error kept (show Mode.plain.Baseless from trivial) run
    have bounded := consume_bounded put c s baseless
    rw [taken] at bounded
    simpa [Bounded] using bounded

/-- What is emitted is the full text, one character after another. -/
theorem formatLoop_eq (format : List Byte) (args : List Arg) (out : σ) :
    formatLoop put format args out = (fullText format args).map (putAll put · out) := by
  have hom : ∀ text c, putAll put (snoc text c) out = put (putAll put text out) c := by
    intro text c
    rw [putAll, snoc, List.foldl_append]
    rfl
  exact formatLoop_map (h := (putAll put · out)) hom format args []

end

/-- A buffer that holds the front of a text: `room` characters at most, from `str` on -/
structure Filled (str : BitVec 32) (room : Nat) (memory : BitVec 32 → Byte) (text : List Byte) (b : Buffer) : Prop where
  p : b.p = str + BitVec.ofNat 32 text.length
  stored : ∀ i (bound : i < text.length), i < room → b.memory (str + BitVec.ofNat 32 i) = text[i]
  frame : ∀ a, (∀ i, i < room → i < text.length → a ≠ str + BitVec.ofNat 32 i) → b.memory a = memory a
  stores : ∀ a ∈ b.stores, ∃ i, i < room ∧ i < text.length ∧ a = str + BitVec.ofNat 32 i

theorem toNat_offset {str : BitVec 32} {i : Nat} (bound : str.toNat + i < 2^32) :
    (str + BitVec.ofNat 32 i).toNat = str.toNat + i := by
  rw [BitVec.toNat_add, BitVec.toNat_ofNat]
  omega

theorem offset_inj {str : BitVec 32} {i j : Nat} (first : str.toNat + i < 2^32) (second : str.toNat + j < 2^32)
    (same : str + BitVec.ofNat 32 i = str + BitVec.ofNat 32 j) : i = j := by
  have places := congrArg BitVec.toNat same
  rw [toNat_offset first, toNat_offset second] at places
  omega

section

variable {str size : BitVec 32} {memory : BitVec 32 → Byte}

theorem toNat_last (inside : 1 ≤ str.toNat + size.toNat) (fits : str.toNat + size.toNat ≤ 2^32) :
    (str + size - 1).toNat = str.toNat + size.toNat - 1 := by
  rw [BitVec.toNat_sub, BitVec.toNat_add]
  change (2^32 - 1 + (str.toNat + size.toNat) % 2^32) % 2^32 = _
  omega

theorem Filled.next {text : List Byte} {b : Buffer} (filled : Filled str (size.toNat - 1) memory text b) (c : Byte) :
    b.p + 1 = str + BitVec.ofNat 32 (text ++ [c]).length := by
  rw [filled.p, List.length_append, List.length_singleton, BitVec.ofNat_add, BitVec.add_assoc]
  rfl

theorem Filled.store {text : List Byte} {b : Buffer} (filled : Filled str (size.toNat - 1) memory text b)
    (noWrap : str.toNat + text.length < 2^32) (stored : text.length < size.toNat - 1) (c : Byte) :
    Filled str (size.toNat - 1) memory (text ++ [c]) { b.store b.p c with p := b.p + 1 } where
  p := filled.next c
  stored := by
    intro i bound inRoom
    rw [List.length_append, List.length_singleton] at bound
    simp only [Buffer.store, filled.p]
    by_cases last : i = text.length
    · subst last
      rw [if_pos rfl, List.getElem_concat_length rfl]
    · have other : str + BitVec.ofNat 32 i ≠ str + BitVec.ofNat 32 text.length := by
        intro same
        exact last (offset_inj (by omega) noWrap same)
      have earlier : i < text.length := by omega
      rw [if_neg other, List.getElem_append_left earlier]
      exact filled.stored i earlier inRoom
  frame := by
    intro a elsewhere
    simp only [Buffer.store, filled.p, List.length_append, List.length_singleton] at elsewhere ⊢
    rw [if_neg (elsewhere text.length stored (by omega))]
    exact filled.frame a fun i inRoom bound => elsewhere i inRoom (by omega)
  stores := by
    intro a member
    simp only [Buffer.store, List.length_append, List.length_singleton] at member ⊢
    rcases List.mem_cons.mp member with rfl | older
    · exact ⟨text.length, stored, by omega, filled.p⟩
    · obtain ⟨i, inRoom, bound, place⟩ := filled.stores a older
      exact ⟨i, inRoom, by omega, place⟩

/-- A character behind the last one for which there is room -/
theorem Filled.skip {text : List Byte} {b : Buffer} (filled : Filled str (size.toNat - 1) memory text b)
    (full : ¬ text.length < size.toNat - 1) (c : Byte) :
    Filled str (size.toNat - 1) memory (text ++ [c]) { b with p := b.p + 1 } where
  p := filled.next c
  stored := by
    intro i bound inRoom
    have earlier : i < text.length := by omega
    rw [List.getElem_append_left earlier]
    exact filled.stored i earlier inRoom
  frame := by
    intro a elsewhere
    apply filled.frame a
    intro i inRoom bound
    exact elsewhere i inRoom (by rw [List.length_append]; omega)
  stores := by
    intro a member
    obtain ⟨i, inRoom, bound, place⟩ := filled.stores a member
    exact ⟨i, inRoom, by rw [List.length_append]; omega, place⟩

theorem Filled.doPutch {text : List Byte} {b : Buffer} (filled : Filled str (size.toNat - 1) memory text b)
    (inside : 1 ≤ str.toNat + size.toNat) (fits : str.toNat + size.toNat ≤ 2^32)
    (noWrap : str.toNat + text.length < 2^32) (c : Byte) :
    Filled str (size.toNat - 1) memory (text ++ [c]) (b.doPutch (str + size - 1) c) := by
  have room : b.p < str + size - 1 ↔ text.length < size.toNat - 1 := by
    rw [BitVec.lt_def, toNat_last inside fits, filled.p, toNat_offset noWrap]
    omega
  by_cases stored : text.length < size.toNat - 1
  · have result : b.doPutch (str + size - 1) c = { b.store b.p c with p := b.p + 1 } := by
      simp only [Buffer.doPutch, if_pos (room.mpr stored)]
      rfl
    rw [result]
    exact filled.store noWrap stored c
  · have result : b.doPutch (str + size - 1) c = { b with p := b.p + 1 } := by
      simp only [Buffer.doPutch, if_neg (fun below => stored (room.mp below))]
    rw [result]
    exact filled.skip stored c

theorem putAll_filled (memory : BitVec 32 → Byte) (text : List Byte) (inside : 1 ≤ str.toNat + size.toNat)
    (fits : str.toNat + size.toNat ≤ 2^32) (noWrap : str.toNat + text.length < 2^32) :
    Filled str (size.toNat - 1) memory text
      (putAll (Buffer.doPutch (str + size - 1)) text { memory, p := str, stores := [] }) := by
  induction text using List.reverseRecOn with
  | nil =>
    constructor
    · simp [putAll]
    · simp
    · intro a _
      rfl
    · simp [putAll]
  | append_singleton text c ih =>
    rw [List.length_append, List.length_singleton] at noWrap
    have filled := ih (by omega)
    have last := filled.doPutch inside fits (by omega) c
    rwa [putAll, List.foldl_append]

/-- What a buffer of the given size ends up with: the front of the text, and one NUL -/
structure Terminated (str size : BitVec 32) (memory : BitVec 32 → Byte) (text : List Byte) (b : Buffer) : Prop where
  inside : ∀ a ∈ b.stores, str.toNat ≤ a.toNat ∧ a.toNat < str.toNat + size.toNat
  frame : ∀ a, a.toNat < str.toNat ∨ str.toNat + size.toNat ≤ a.toNat → b.memory a = memory a
  front : ∀ i (bound : i < text.length), i < size.toNat - 1 → b.memory (str + BitVec.ofNat 32 i) = text[i]
  nul : 1 ≤ size.toNat → b.memory (str + BitVec.ofNat 32 (min text.length (size.toNat - 1))) = 0

theorem Filled.inside {text : List Byte} {b : Buffer} (filled : Filled str (size.toNat - 1) memory text b)
    (fits : str.toNat + size.toNat ≤ 2^32) {a : BitVec 32} (member : a ∈ b.stores) :
    str.toNat ≤ a.toNat ∧ a.toNat < str.toNat + size.toNat := by
  obtain ⟨i, inRoom, -, rfl⟩ := filled.stores a member
  rw [toNat_offset (by omega)]
  omega

theorem Filled.outside {text : List Byte} {b : Buffer} (filled : Filled str (size.toNat - 1) memory text b)
    (fits : str.toNat + size.toNat ≤ 2^32) {a : BitVec 32}
    (apart : a.toNat < str.toNat ∨ str.toNat + size.toNat ≤ a.toNat) : b.memory a = memory a := by
  apply filled.frame
  rintro i inRoom - rfl
  rw [toNat_offset (by omega)] at apart
  omega

theorem Filled.close {text : List Byte} {b : Buffer} (filled : Filled str (size.toNat - 1) memory text b)
    (fits : str.toNat + size.toNat ≤ 2^32) (some' : 1 ≤ size.toNat) :
    Terminated str size memory text
      (b.store (str + BitVec.ofNat 32 (min text.length (size.toNat - 1))) 0) where
  inside := by
    intro a member
    rcases List.mem_cons.mp member with rfl | older
    · rw [toNat_offset (by omega)]
      omega
    · exact filled.inside fits older
  frame := by
    intro a apart
    have other : a ≠ str + BitVec.ofNat 32 (min text.length (size.toNat - 1)) := by
      rintro rfl
      rw [toNat_offset (by omega)] at apart
      omega
    simp only [Buffer.store, if_neg other]
    exact filled.outside fits apart
  front := by
    intro i bound inRoom
    have other : str + BitVec.ofNat 32 i ≠ str + BitVec.ofNat 32 (min text.length (size.toNat - 1)) := by
      intro same
      have equal := offset_inj (by omega) (by omega) same
      omega
    simp only [Buffer.store, if_neg other]
    exact filled.stored i bound inRoom
  nul := by
    intro _
    simp [Buffer.store]

theorem Filled.terminate {text : List Byte} {b : Buffer} (filled : Filled str (size.toNat - 1) memory text b)
    (inside : 1 ≤ str.toNat + size.toNat) (fits : str.toNat + size.toNat ≤ 2^32)
    (noWrap : str.toNat + text.length < 2^32) :
    Terminated str size memory text (b.terminate str (str + size - 1)) := by
  have last := toNat_last inside fits
  have here : b.p ≤ str + size - 1 ↔ text.length < size.toNat := by
    rw [BitVec.le_def, last, filled.p, toNat_offset noWrap]
    omega
  have room : str ≤ str + size - 1 ↔ 1 ≤ size.toNat := by
    rw [BitVec.le_def, last]
    omega
  rw [Buffer.terminate]
  -- Either the NUL goes behind the whole text, or on the last byte of the buffer, if it has one.
  by_cases short : text.length < size.toNat
  · have place : b.p = str + BitVec.ofNat 32 (min text.length (size.toNat - 1)) := by
      rw [filled.p, Nat.min_eq_left (by omega)]
    rw [if_pos (here.mpr short), place]
    exact filled.close fits (by omega)
  · rw [if_neg (fun below => short (here.mp below))]
    by_cases some' : 1 ≤ size.toNat
    · have place : str + size - 1 = str + BitVec.ofNat 32 (min text.length (size.toNat - 1)) := by
        apply BitVec.eq_of_toNat_eq
        rw [last, Nat.min_eq_right (by omega), toNat_offset (by omega)]
        omega
      rw [if_pos (room.mpr some'), place]
      exact filled.close fits some'
    · rw [if_neg (fun above => some' (room.mp above))]
      exact
        { inside := fun a member => filled.inside fits member
          frame := fun a apart => filled.outside fits apart
          front := filled.stored
          nul := fun large => absurd large some' }

/-- The pointer moves on for every character, whether or not it is stored. -/
theorem putAll_p (last : BitVec 32) (text : List Byte) (b : Buffer) :
    (putAll (Buffer.doPutch last) text b).p = b.p + BitVec.ofNat 32 text.length := by
  induction text generalizing b with
  | nil => simp [putAll]
  | cons c rest ih =>
    have next : (b.doPutch last c).p = b.p + 1 := by
      rw [Buffer.doPutch]
      split <;> rfl
    rw [putAll, List.foldl_cons]
    refine (ih (b.doPutch last c)).trans ?_
    rw [next, List.length_cons, BitVec.add_assoc, BitVec.add_comm 1, BitVec.ofNat_add]
    rfl

end

theorem putAll_text (text out : List Byte) : putAll snoc text out = out ++ text := by
  induction text generalizing out with
  | nil => simp [putAll]
  | cons c rest ih =>
    rw [List.append_cons]
    exact ih (out ++ [c])

theorem pad_text (c : Byte) (width least : Int) (out : List Byte) :
    pad snoc c width least out = out ++ List.replicate (width - least).toNat c :=
  putAll_text _ out

theorem toInt_length {length : Nat} (short : length < 2^31) : (BitVec.ofNat 32 length).toInt = length := by
  have value : (BitVec.ofNat 32 length).toNat = length := by
    rw [BitVec.toNat_ofNat]
    omega
  rw [BitVec.toInt_eq_toNat_of_lt (by omega), value]

theorem vsnprintf_eq (memory : BitVec 32 → Byte) (str size : BitVec 32) (format : List Byte) (args : List Arg)
    {full : List Byte} (text : fullText format args = .ok full) :
    let b := putAll (Buffer.doPutch (str + size - 1)) full { memory, p := str, stores := [] }
    vsnprintf memory str size format args =
      .ok (b.terminate str (str + size - 1), (BitVec.ofNat 32 full.length).toInt) := by
  intro b
  have moved : b.p - str = BitVec.ofNat 32 full.length := by
    rw [putAll_p]
    simp only
    rw [BitVec.add_comm, BitVec.add_sub_cancel]
  rw [vsnprintf, formatLoop_eq, text]
  simp only [Except.map]
  rw [moved]

/-- A buffer gets the front of the full text and one NUL, and nothing else in memory changes. -/
theorem vsnprintf_truncates :
    (∀ (memory : BitVec 32 → Byte) (str size : BitVec 32) (format : List Byte) (args : List Arg) (full : List Byte),
      fullText format args = .ok full → 1 ≤ str.toNat + size.toNat → str.toNat + size.toNat ≤ 2^32 →
      str.toNat + full.length < 2^32 →
      ∃ b returned, vsnprintf memory str size format args = .ok (b, returned) ∧
        Terminated str size memory full b ∧ (full.length < 2^31 → returned = full.length)) ∧
    (∀ (format : List Byte) (args : List Arg), fullText format args ≠ .error .scratch) ∧
    (∀ (isUpper : Bool) (radix x : BitVec 32), IsRadix radix →
      ∃ tmp, digitLoop isUpper radix tmpSize x = some tmp ∧ tmp.length ≤ 11) := by
  refine ⟨?_, ?_, ?_⟩
  · intro memory str size format args full text inside fits noWrap
    have filled := putAll_filled memory full inside fits noWrap
    refine ⟨_, _, vsnprintf_eq memory str size format args text, filled.terminate inside fits noWrap, ?_⟩
    intro short
    exact toInt_length short
  · intro format args
    exact formatLoop_notScratch _ format args []
  · intro isUpper radix x isRadix
    exact ⟨_, digitLoop_tmp isUpper isRadix x, reversed_length isRadix x⟩

theorem vsnprintf_truncates_field :
    ∃ b returned, vsnprintf (fun _ => 0) 0x20000000 4 ("%5d".toList.map chr) [.int 42] = .ok (b, returned) ∧
      Terminated 0x20000000 4 (fun _ => 0) ("   42".toList.map chr) b ∧ returned = 5 := by
  obtain ⟨b, returned, printed, terminated, length⟩ := vsnprintf_truncates.1 (fun _ => 0) 0x20000000 4
    ("%5d".toList.map chr) [.int 42] ("   42".toList.map chr) (by decide +kernel) (by decide) (by decide) (by decide)
  exact ⟨b, returned, printed, terminated, length (by decide)⟩

/-- A field as wide as the argument says, which is read before the value -/
theorem text_wide (width : BitVec 32) :
    fullText ("a%*d".toList.map chr) [.int width, .int 0] =
      .ok (chr 'a' :: List.replicate (width.toInt - 1).toNat (chr ' ') ++ [chr '0']) := by
  have parsed : exec (consume snoc) ("a%*".toList.map chr) ⟨.plain, [.int width, .int 0], []⟩ =
      .ok ⟨.more 0 width.toInt, [.int 0], [chr 'a']⟩ := rfl
  have printed : exec (consume snoc) [chr 'd'] ⟨.more 0 width.toInt, [.int 0], [chr 'a']⟩ =
      .ok ⟨.plain, [], chr 'a' :: List.replicate (width.toInt - 1).toNat (chr ' ') ++ [chr '0']⟩ := by
    simp [exec, consume, more, chr, number, digitStep, signStep, prefixStep, tmpText, reduce, sign, alternate, zeropad,
      charFlag, short, pad_text, putAll, snoc, BitVec.le_def]
  have whole : cString ("a%*d".toList.map chr) = "a%*".toList.map chr ++ [chr 'd'] := by decide
  rw [fullText, formatLoop, whole, exec_append _ _ _ parsed, printed]

/-- A text of 2^31 characters has no `int` for a length, a buffer of no bytes at address 0 is written, and a text
that reaches the end of the address space goes on at address 0. -/
theorem vsnprintf_wraps :
    (∃ full b, fullText ("a%*d".toList.map chr) [.int 2147483647, .int 0] = .ok full ∧
      vsnprintf (fun _ => 0) 0x20000000 16 ("a%*d".toList.map chr) [.int 2147483647, .int 0] = .ok (b, -2147483648) ∧
      full.length = 2147483648) ∧
    (vsnprintf (fun _ => 0) 0 0 ("a".toList.map chr) []).toOption.map (·.1.stores) = some [1, 0] ∧
    (vsnprintf (fun _ => 0) 0xfffffffe 1 ("abc".toList.map chr) []).toOption.map (·.1.stores) = some [1, 0] := by
  refine ⟨?_, by decide +kernel, by decide +kernel⟩
  obtain ⟨full, text, length⟩ : ∃ full, fullText ("a%*d".toList.map chr) [.int 2147483647, .int 0] = .ok full ∧
      full.length = 2147483648 := by
    refine ⟨_, text_wide 2147483647, ?_⟩
    rw [List.length_append, List.length_cons, List.length_replicate]
    decide
  have result := vsnprintf_eq (fun _ => 0) 0x20000000 16 _ _ text
  rw [length] at result
  exact ⟨full, _, text, result, length⟩

end Testjig.Text
